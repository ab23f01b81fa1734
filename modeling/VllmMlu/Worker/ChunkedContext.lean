import VllmMlu.Library.Cuts

/-! The chunked context of `FlashMLAMetadataBuilder.build`: the computed tokens of the prefills,
cut into chunks that the workspace holds. `none` is an exception. -/
namespace VllmMlu.Worker
open Library Library.Cuts

structure ContextConfig where
  isDeepseekV32 : Bool
  maxModelLen : Nat
  chunkedPrefillEnabled : Bool
  /-- `VLLM_V1_USE_UNCHUNK_SCHED`. -/
  useUnchunkSched : Bool
  enableCaching : Bool
  aotSchedule : Bool
  pageSize : Nat
  chunkedPrefillWorkspaceSize : Nat

def roundDown (num unit : Nat) : Nat := num / unit * unit

/-- `ChunkedContextMetadata`: one row per chunk, in it one entry per prefill. -/
structure ChunkedContextMetadata where
  cuSeqLens : List (List Nat)
  starts : List (List Nat)
  seqTot : List Nat
  maxSeqLens : List Nat
  seqLens : List (List Nat)
deriving DecidableEq

def maxContextChunk (config : ContextConfig) (contextLens : List Nat) : Nat :=
  let numPrefillsWithContext := contextLens.countP (0 < ·)
  let chunk := if config.isDeepseekV32 then config.maxModelLen
    else config.chunkedPrefillWorkspaceSize / numPrefillsWithContext
  if config.aotSchedule then roundDown chunk config.pageSize else chunk

def chunkStarts (chunk numChunks : Nat) (contextLens : List Nat) : List (List Nat) :=
  (List.range numChunks).map fun i => contextLens.map fun _ => i * chunk

def chunkEnds (chunk : Nat) (contextLens : List Nat) (starts : List (List Nat)) :
    List (List Nat) :=
  starts.map fun row => List.zipWith min contextLens (row.map (· + chunk))

/-- `(chunk_ends - chunk_starts).clamp(min=0)`. -/
def chunkSeqLens (starts ends : List (List Nat)) : List (List Nat) :=
  List.zipWith (List.zipWith (· - ·)) ends starts

/-- A row of zeros whose rest is overwritten by the running sums. -/
def cumsumRow (lens : List Nat) : List Nat :=
  (List.replicate (lens.length + 1) 0).take 1 ++ (startLocs lens).tail

/-- `build`, as far as the chunked context goes, from the computed tokens of the prefills. -/
def buildChunkedContext (config : ContextConfig) (isChunked : Bool) (contextLens : List Nat) :
    Option (Option ChunkedContextMetadata) := do
  if contextLens.length = 0 then pure none
  else do
    let maxContextLen ← contextLens.max?
    if (config.chunkedPrefillEnabled ||
        (config.useUnchunkSched && config.enableCaching && isChunked)) && 0 < maxContextLen then do
      let chunk := maxContextChunk config contextLens
      if chunk = 0 then none
      else do
        let numChunks := maxContextLen ⌈/⌉ chunk
        let starts := chunkStarts chunk numChunks contextLens
        let seqLens := chunkSeqLens starts (chunkEnds chunk contextLens starts)
        let maxSeqLens ← seqLens.mapM List.max?
        let longest ← maxSeqLens.max?
        if !config.isDeepseekV32 && config.chunkedPrefillWorkspaceSize < longest then none
        else pure (some {
          cuSeqLens := seqLens.map cumsumRow
          starts
          seqTot := seqLens.map List.sum
          maxSeqLens
          seqLens })
    else pure none

/-- The prefills of a batch, with the sizes the builder is made with. -/
structure PrefillBatch where
  config : ContextConfig
  isChunked : Bool
  contextLens : List Nat
  maxNumSeqs : Nat
  blockSize : Nat
  other_model : config.isDeepseekV32 = false
  enabled : (config.chunkedPrefillEnabled ||
    (config.useUnchunkSched && config.enableCaching && isChunked)) = true
  blockSize_pos : 0 < blockSize
  pageSize_eq : config.pageSize = blockSize
  length_le : contextLens.length ≤ maxNumSeqs
  /-- The assertion on the workspace. -/
  workspace : maxNumSeqs * blockSize ≤ config.chunkedPrefillWorkspaceSize
  some_context : ∃ len ∈ contextLens, 0 < len

namespace PrefillBatch

variable (batch : PrefillBatch)

def numPrefillsWithContext : Nat := batch.contextLens.countP (0 < ·)

def chunk : Nat := maxContextChunk batch.config batch.contextLens

variable {batch}

theorem numPrefillsWithContext_pos : 0 < batch.numPrefillsWithContext := by
  obtain ⟨len, hmem, hpos⟩ := batch.some_context
  exact List.countP_pos_iff.mpr ⟨len, hmem, by simpa using hpos⟩

theorem numPrefillsWithContext_le : batch.numPrefillsWithContext ≤ batch.maxNumSeqs :=
  List.countP_le_length.trans batch.length_le

/-- The share of a prefill is at least one block. -/
theorem blockSize_le_share : batch.blockSize ≤
    batch.config.chunkedPrefillWorkspaceSize / batch.numPrefillsWithContext := by
  rw [Nat.le_div_iff_mul_le numPrefillsWithContext_pos, Nat.mul_comm]
  exact (Nat.mul_le_mul_right _ numPrefillsWithContext_le).trans batch.workspace

theorem chunk_le_share : batch.chunk ≤
    batch.config.chunkedPrefillWorkspaceSize / batch.numPrefillsWithContext := by
  rw [chunk, maxContextChunk, batch.other_model]
  simp only [Bool.false_eq_true, if_false]
  split
  · exact Nat.div_mul_le_self _ _
  · exact Nat.le_refl _

theorem chunk_pos : 0 < batch.chunk := by
  have hshare := @blockSize_le_share batch
  have hblock := batch.blockSize_pos
  rw [chunk, maxContextChunk, batch.other_model]
  simp only [Bool.false_eq_true, if_false]
  split
  · rw [roundDown, batch.pageSize_eq]
    exact Nat.mul_pos (Nat.div_pos hshare hblock) hblock
  · exact hblock.trans_le hshare

theorem share_mul_le : batch.numPrefillsWithContext * batch.chunk ≤
    batch.config.chunkedPrefillWorkspaceSize :=
  (Nat.mul_le_mul_left _ chunk_le_share).trans (Nat.mul_div_le _ _)

end PrefillBatch

/-- One column of a table with a row for each chunk. -/
def column (i : Nat) (rows : List (List Nat)) : Option (List Nat) := rows.mapM fun row => row[i]?

/-- What the plan has to give: the intervals of each prefill, put one behind another, are its
context; no chunk is larger than the workspace; the running sums of each chunk. -/
structure PlanCovers (batch : PrefillBatch) (plan : ChunkedContextMetadata) : Prop where
  intervals : ∀ i len, batch.contextLens[i]? = some len →
    ∃ starts ends lens, column i plan.starts = some starts ∧
      column i (chunkEnds batch.chunk batch.contextLens plan.starts) = some ends ∧
      column i plan.seqLens = some lens ∧ lens = List.zipWith (· - ·) ends starts ∧
      (List.zipWith List.range' starts lens).flatten = List.range len
  totals : plan.seqTot = plan.seqLens.map List.sum
  fits : ∀ total ∈ plan.seqTot, total ≤ batch.config.chunkedPrefillWorkspaceSize
  cuSeqLens : plan.cuSeqLens = plan.seqLens.map startLocs

section Rows

variable {chunk numChunks : Nat} {contextLens : List Nat}

/-- A table whose entries depend on the chunk and on the context of the prefill. -/
def chunkTable (numChunks : Nat) (contextLens : List Nat) (f : Nat → Nat → Nat) :
    List (List Nat) :=
  (List.range numChunks).map fun k => contextLens.map (f k)

theorem column_chunkTable {f : Nat → Nat → Nat} {i len : Nat} (h : contextLens[i]? = some len) :
    column i (chunkTable numChunks contextLens f) =
      some ((List.range numChunks).map fun k => f k len) := by
  rw [column, chunkTable, List.mapM_map]
  apply mapM_eq_map
  intro k _
  simp [h]

theorem chunkEnds_chunkStarts :
    chunkEnds chunk contextLens (chunkStarts chunk numChunks contextLens) =
      chunkTable numChunks contextLens fun k len => min len (k * chunk + chunk) := by
  rw [chunkEnds, chunkStarts, chunkTable, List.map_map]
  apply List.map_congr_left
  intro k _
  rw [Function.comp_apply, List.map_map, List.zipWith_map_right, List.zipWith_self]
  rfl

theorem chunkSeqLens_eq :
    chunkSeqLens (chunkStarts chunk numChunks contextLens)
        (chunkEnds chunk contextLens (chunkStarts chunk numChunks contextLens)) =
      chunkTable numChunks contextLens fun k len =>
        min len (k * chunk + chunk) - k * chunk := by
  rw [chunkSeqLens, chunkEnds_chunkStarts, chunkStarts, chunkTable, chunkTable, List.zipWith_map,
    List.zipWith_self]
  apply List.map_congr_left
  intro k _
  rw [List.zipWith_map, List.zipWith_self]

theorem cumsumRow_eq (lens : List Nat) : cumsumRow lens = startLocs lens := by
  rw [cumsumRow, List.replicate_succ, List.take_succ_cons, List.take_zero, List.singleton_append,
    cons_tail_startLocs]

/-- The chunks reach the end of the longest context. -/
theorem le_ceilDiv_mul {most : Nat} (h : 0 < chunk) : most ≤ (most ⌈/⌉ chunk) * chunk := by
  rw [Nat.mul_comm]
  exact le_smul_ceilDiv h

end Rows

namespace PrefillBatch

variable {batch : PrefillBatch}

theorem exists_maxContextLen : ∃ most, batch.contextLens.max? = some most ∧ 0 < most ∧
    ∀ len ∈ batch.contextLens, len ≤ most := by
  obtain ⟨len, hmem, hpos⟩ := batch.some_context
  obtain ⟨most, hmost, -, hle⟩ := exists_max? (List.ne_nil_of_mem hmem)
  exact ⟨most, hmost, hpos.trans_le (hle len hmem), hle⟩

/-- The tokens of one chunk: only the prefills with context have some. -/
theorem sum_row_le (k : Nat) :
    (batch.contextLens.map fun len =>
      min len (k * batch.chunk + batch.chunk) - k * batch.chunk).sum ≤
      batch.config.chunkedPrefillWorkspaceSize := by
  refine (@sum_map_le_countP_mul _ (fun len => decide (0 < len)) _ batch.chunk _ ?_ ?_).trans
    share_mul_le
  · intro len _ hzero
    have hlen : len = 0 := by simpa using hzero
    rw [hlen, Nat.zero_min, Nat.zero_sub]
  · intro len _
    omega

theorem exists_row_max (f : Nat → Nat) : ∃ most ∈ batch.contextLens.map f,
    (batch.contextLens.map f).max? = some most := by
  obtain ⟨len, hmem, -⟩ := batch.some_context
  obtain ⟨most, hmost, hmost_mem, -⟩ :=
    exists_max? (List.ne_nil_of_mem (List.mem_map_of_mem (f := f) hmem))
  exact ⟨most, hmost_mem, hmost⟩

variable (batch) in
/-- The table of the chunk lengths. -/
def lensTable : Nat → List (List Nat) := fun numChunks =>
  chunkTable numChunks batch.contextLens fun k len =>
    min len (k * batch.chunk + batch.chunk) - k * batch.chunk

theorem le_workspace_of_mem {numChunks num : Nat} {row : List Nat}
    (hrow : row ∈ batch.lensTable numChunks) (hnum : num ∈ row) :
    num ≤ batch.config.chunkedPrefillWorkspaceSize := by
  obtain ⟨k, -, rfl⟩ := List.mem_map.mp hrow
  exact (List.le_sum_of_mem hnum).trans (sum_row_le k)

/-- The longest parts of the chunks pass the assertion. -/
theorem exists_maxSeqLens {numChunks : Nat} (hpos : 0 < numChunks) :
    ∃ maxSeqLens longest, (batch.lensTable numChunks).mapM List.max? = some maxSeqLens ∧
      maxSeqLens.max? = some longest ∧ longest ≤ batch.config.chunkedPrefillWorkspaceSize := by
  obtain ⟨maxSeqLens, hmap, hrelated⟩ := @exists_mapM _ _ List.max?
    (fun row most => most ∈ row) (batch.lensTable numChunks) (by
      intro row hrow
      obtain ⟨k, -, rfl⟩ := List.mem_map.mp hrow
      obtain ⟨most, hmem, hmost⟩ := @exists_row_max batch fun len =>
        min len (k * batch.chunk + batch.chunk) - k * batch.chunk
      exact ⟨most, hmost, hmem⟩)
  cases hmax : maxSeqLens.max? with
  | none =>
      rw [List.max?_eq_none_iff] at hmax
      have hlength := hrelated.length_eq
      rw [hmax, lensTable, chunkTable, List.length_map, List.length_range, List.length_nil]
        at hlength
      omega
  | some longest =>
      refine ⟨maxSeqLens, longest, hmap, hmax, ?_⟩
      obtain ⟨i, hi⟩ := List.mem_iff_getElem?.mp (List.max?_eq_some_iff.mp hmax).1
      obtain ⟨hlt, hget⟩ := List.getElem?_eq_some_iff.mp hi
      have hrow : i < (batch.lensTable numChunks).length := hrelated.length_eq ▸ hlt
      have hmem := hrelated.get hrow hlt
      rw [List.get_eq_getElem, List.get_eq_getElem, hget] at hmem
      exact le_workspace_of_mem (List.getElem_mem hrow) hmem

/-- The parts of one context, one per chunk, are the whole context. -/
theorem flatten_intervals_eq {most len : Nat} (h : len ≤ most) :
    (List.zipWith List.range'
      ((List.range (most ⌈/⌉ batch.chunk)).map fun k => k * batch.chunk)
      ((List.range (most ⌈/⌉ batch.chunk)).map fun k =>
        min len (k * batch.chunk + batch.chunk) - k * batch.chunk)).flatten = List.range len := by
  have hreach := @le_ceilDiv_mul batch.chunk most chunk_pos
  rw [List.zipWith_map, List.zipWith_self, flatten_intervals,
    Nat.min_eq_left (h.trans hreach)]

end PrefillBatch

end VllmMlu.Worker
