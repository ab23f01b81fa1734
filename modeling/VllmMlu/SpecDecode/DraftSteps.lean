import VllmMlu.SpecDecode.DraftInputs

/-! The iterations of the drafter: the positions and slots follow the last accepted tokens, the
sequence lengths follow what they start from. -/
namespace VllmMlu.SpecDecode
open VllmMlu.Library VllmMlu.Library.Cuts VllmMlu.Library.Packed VllmMlu.Worker

variable {Slot : Type}

/-- A sequence of the draft loop: its blocks, and the position and the length it starts from. -/
structure DraftRow where
  blocks : List Int
  start : Nat
  len : Nat

namespace DraftRow

def positionAt (config : DraftConfig) (k : Nat) (row : DraftRow) : Nat :=
  if config.maxModelLen ≤ row.start + k then 0 else row.start + k

def slotAt (config : DraftConfig) (k : Nat) (row : DraftRow) : Int :=
  if config.maxModelLen ≤ row.start + k then paddingSlotId
  else row.blocks.getD ((row.start + k) / config.blockSize) 0 * config.blockSize +
    ((row.start + k) % config.blockSize : Nat)

/-- The sequence length after `k` turns. -/
def lenAfter (config : DraftConfig) : Nat → DraftRow → Nat
  | 0, row => row.len
  | k + 1, row => if config.maxModelLen ≤ row.start + (k + 1) then 1 else lenAfter config k row + 1

/-- As long as the limit is not reached, no turn has restarted the length. -/
theorem lenAfter_of_lt {config : DraftConfig} {k : Nat} {row : DraftRow}
    (h : row.start + k < config.maxModelLen) : row.lenAfter config k = row.len + k := by
  induction k with
  | zero => rfl
  | succ k ih =>
      rw [lenAfter, if_neg (Nat.not_le.mpr h), ih (by omega)]
      rfl

theorem lenAfter_of_le {config : DraftConfig} {k : Nat} {row : DraftRow} (hk : 0 < k)
    (h : config.maxModelLen ≤ row.start + k) : row.lenAfter config k = 1 := by
  cases k with
  | zero => exact absurd hk (Nat.lt_irrefl 0)
  | succ k => rw [lenAfter, if_pos h]

end DraftRow

/-- The inputs of iteration `k`. -/
def inputsAt (config : DraftConfig) (rows : List DraftRow) (k : Nat) : DraftInputs where
  positions := rows.map (DraftRow.positionAt config k)
  slotMapping := rows.map (DraftRow.slotAt config k)
  seqLens := rows.map (DraftRow.lenAfter config k)

def stateAfter (config : DraftConfig) (rows : List DraftRow) (k : Nat) : DraftState where
  positions := rows.map fun row => row.start + k
  seqLens := rows.map (DraftRow.lenAfter config k)

/-- The block tables reach to the limit. -/
structure DraftConfig.Admits (config : DraftConfig) (blockTable : List (List Int)) : Prop where
  blockSize_pos : 0 < config.blockSize
  maxModelLen_pos : 0 < config.maxModelLen
  wide : ∀ row ∈ blockTable, config.maxModelLen ≤ row.length * config.blockSize

section Loop

variable {config : DraftConfig} {rows : List DraftRow}

/-- A position below the limit stands in a block of its row. -/
theorem DraftConfig.Admits.block_lt {blockTable : List (List Int)}
    (h : config.Admits blockTable) {blocks : List Int} (hrow : blocks ∈ blockTable)
    {position : Nat} (hlt : position < config.maxModelLen) :
    position / config.blockSize < blocks.length := by
  apply Nat.div_lt_of_lt_mul
  rw [Nat.mul_comm]
  exact hlt.trans_le (h.wide blocks hrow)

theorem positionAt_lt (h : 0 < config.maxModelLen) (k : Nat) (row : DraftRow) :
    row.positionAt config k < config.maxModelLen := by
  rw [DraftRow.positionAt]
  split
  · exact h
  · omega

theorem draftTurn_spec (hadmits : config.Admits (rows.map DraftRow.blocks)) (k : Nat) :
    draftTurn config (rows.map DraftRow.blocks) (stateAfter config rows k) =
      some (stateAfter config rows (k + 1), inputsAt config rows (k + 1)) := by
  have hnext : (rows.map fun row => row.start + k).map (· + 1) =
      rows.map fun row => row.start + (k + 1) := by
    simp [Nat.add_assoc]
  have hpositions : List.zipWith (fun (exceeds : Bool) position => if exceeds then 0 else position)
      ((rows.map fun row => row.start + (k + 1)).map fun position =>
        decide (config.maxModelLen ≤ position)) (rows.map fun row => row.start + (k + 1)) =
      rows.map (DraftRow.positionAt config (k + 1)) := by
    simp [List.zipWith_map, List.zipWith_self, DraftRow.positionAt]
  have hseqLens : List.zipWith (fun (exceeds : Bool) seqLen => if exceeds then 1 else seqLen + 1)
      ((rows.map fun row => row.start + (k + 1)).map fun position =>
        decide (config.maxModelLen ≤ position)) (rows.map (DraftRow.lenAfter config k)) =
      rows.map (DraftRow.lenAfter config (k + 1)) := by
    simp [List.zipWith_map, List.zipWith_self, DraftRow.lenAfter]
  have hblocks : ((rows.map DraftRow.blocks).zip
      ((rows.map (DraftRow.positionAt config (k + 1))).map (· / config.blockSize))).mapM
        (fun entry => entry.1[entry.2]?) =
      some (rows.map fun row =>
        row.blocks.getD (row.positionAt config (k + 1) / config.blockSize) 0) := by
    rw [List.map_map, List.zip_map', List.mapM_map]
    apply mapM_eq_map
    intro row hrow
    have hlt := hadmits.block_lt (List.mem_map_of_mem hrow)
      (positionAt_lt hadmits.maxModelLen_pos (k + 1) row)
    simp [List.getElem?_eq_getElem hlt]
  have hslots : List.zipWith (fun (exceeds : Bool) slot => if exceeds then paddingSlotId else slot)
      ((rows.map fun row => row.start + (k + 1)).map fun position =>
        decide (config.maxModelLen ≤ position))
      (List.zipWith (fun (blockId : Int) position =>
          blockId * config.blockSize + (position % config.blockSize : Nat))
        (rows.map fun row =>
          row.blocks.getD (row.positionAt config (k + 1) / config.blockSize) 0)
        (rows.map (DraftRow.positionAt config (k + 1)))) =
      rows.map (DraftRow.slotAt config (k + 1)) := by
    rw [List.zipWith_map, List.zipWith_self, List.map_map, List.zipWith_map, List.zipWith_self]
    apply List.map_congr_left
    intro row _
    by_cases hle : config.maxModelLen ≤ row.start + (k + 1)
    · simp [DraftRow.slotAt, hle]
    · simp [DraftRow.slotAt, DraftRow.positionAt, hle]
  simp only [draftTurn, stateAfter, hnext, hpositions, hseqLens, hblocks, hslots,
    Option.bind_eq_bind, Option.bind_some]
  rfl

/-- All turns of the loop. -/
theorem draftLoop_spec (hadmits : config.Admits (rows.map DraftRow.blocks)) (turns k : Nat) :
    draftLoop config (rows.map DraftRow.blocks) turns (stateAfter config rows k) =
      some ((List.range' (k + 1) turns).map (inputsAt config rows)) := by
  induction turns generalizing k with
  | zero => rfl
  | succ turns ih =>
      rw [draftLoop, draftTurn_spec hadmits, List.range'_succ, List.map_cons]
      change (draftLoop config (rows.map DraftRow.blocks) turns
        (stateAfter config rows (k + 1)) >>= _) = _
      rw [ih]
      rfl

end Loop

/-- What iteration `k` has to give to request `i`, whose last accepted token stands at `start`. -/
def DraftInputs.Follows (config : DraftConfig) (blockTable : List (List Int)) (start k i : Nat)
    (inputs : DraftInputs) : Prop :=
  if start + k < config.maxModelLen then
    inputs.positions[i]? = some (start + k) ∧
    (∃ row blockId, blockTable[i]? = some row ∧
      row[(start + k) / config.blockSize]? = some blockId ∧
      inputs.slotMapping[i]? =
        some (blockId * config.blockSize + ((start + k) % config.blockSize : Nat))) ∧
    inputs.seqLens[i]? = some (start + k + 1)
  else
    inputs.positions[i]? = some 0 ∧ inputs.slotMapping[i]? = some paddingSlotId ∧
    inputs.seqLens[i]? = some 1

/-- Positions and slots are always right; the length is, where it starts behind the last accepted
token. -/
theorem inputsAt_follows_iff {config : DraftConfig} {rows : List DraftRow} {k i : Nat}
    {row : DraftRow} (hadmits : config.Admits (rows.map DraftRow.blocks)) (hk : 0 < k)
    (hrow : rows[i]? = some row) :
    (inputsAt config rows k).Follows config (rows.map DraftRow.blocks) row.start k i ↔
      (row.start + k < config.maxModelLen → row.len = row.start + 1) := by
  rw [DraftInputs.Follows]
  split
  case isTrue hlt =>
    have hblock :=
      hadmits.block_lt (List.mem_map_of_mem (List.mem_of_getElem? hrow)) hlt
    have hlen := DraftRow.lenAfter_of_lt hlt
    constructor
    · intro ⟨_, _, hseq⟩ _
      simp only [inputsAt, List.getElem?_map, hrow, Option.map_some, hlen,
        Option.some.injEq] at hseq
      omega
    · intro hstart
      have hreal := hstart hlt
      refine ⟨?_, ⟨row.blocks, _, by simp [hrow], List.getElem?_eq_getElem hblock, ?_⟩, ?_⟩
      · simp [inputsAt, hrow, DraftRow.positionAt, hlt]
      · simp [inputsAt, hrow, DraftRow.slotAt, hlt, List.getElem?_eq_getElem hblock]
      · simp only [inputsAt, List.getElem?_map, hrow, Option.map_some, hlen, Option.some.injEq]
        omega
  case isFalse hge =>
    have hle := Nat.not_lt.mp hge
    have hlen := DraftRow.lenAfter_of_le hk hle
    refine iff_of_true ⟨?_, ?_, ?_⟩ fun hlt => absurd hlt hge
    · simp [inputsAt, hrow, DraftRow.positionAt, hle]
    · simp [inputsAt, hrow, DraftRow.slotAt, hle]
    · simp [inputsAt, hrow, hlen]

/-! ### The rounds of the drafter -/

/-- The position of the last accepted token. -/
def QueryRequest.lastPosition (request : QueryRequest) : Nat :=
  request.numComputedTokens + (request.keptLen - 1)

/-- The positions of packed rows, of each request the first `len` of its query. -/
def packedPositions (len : QueryRequest → Nat) (requests : List QueryRequest) : List Nat :=
  (requests.map fun request => List.range' request.numComputedTokens (len request)).flatten

def Preparation.Prepares (batch : QueryBatch Slot) : Preparation → Prop
  | .unchanged => ∀ request ∈ batch.requests, request.numRejected = 0
  | .compacted numRejectedTokens =>
      numRejectedTokens = batch.requests.map QueryRequest.numRejected
  | .padded cuNumDraftTokens validSampledTokensCount =>
      ∃ drafts : DraftBatch Slot, drafts.batch = batch ∧
        drafts.cuNumDraftTokens = cuNumDraftTokens ∧
        drafts.validSampledTokensCount = validSampledTokensCount

def Preparation.isPadded : Preparation → Bool
  | .padded _ _ => true
  | _ => false

/-- A verified batch with the block tables of its requests. -/
structure DraftRound (Slot : Type) where
  config : DraftConfig
  batch : QueryBatch Slot
  blockTable : List (List Int)
  preparation : Preparation
  prepares : preparation.Prepares batch
  admits : config.Admits blockTable
  length_blockTable : blockTable.length = batch.requests.length

section Packing

variable {len offset : QueryRequest → Nat} {requests : List QueryRequest}

theorem map_length_packed :
    (requests.map fun request => List.range' request.numComputedTokens (len request)).map
      List.length = requests.map len := by
  simp [Function.comp_def]

theorem length_packedPositions :
    (packedPositions len requests).length = (requests.map len).sum := by
  rw [packedPositions, List.length_flatten, map_length_packed]

theorem takeAt_packed {indices : List Nat} (hlength : indices.length = requests.length)
    (h : ∀ i request, requests[i]? = some request → offset request < len request ∧
      indices[i]? = some (((requests.map len).take i).sum + offset request)) :
    takeAt (packedPositions len requests) indices =
      some (requests.map fun request => request.numComputedTokens + offset request) := by
  have hread : ∀ i request, requests[i]? = some request →
      (packedPositions len requests)[((requests.map len).take i).sum + offset request]? =
        some (request.numComputedTokens + offset request) := by
    intro i request hrequest
    have hlt := (h i request hrequest).1
    rw [packedPositions, ← map_length_packed,
      @getElem?_flatten _ _ _ _ (List.range' request.numComputedTokens (len request))
        (by simp [hrequest]) (by simpa using hlt)]
    simp [hlt]
  have hbound : ∀ index ∈ indices, index < (packedPositions len requests).length := by
    intro index hindex
    obtain ⟨i, hi, rfl⟩ := List.mem_iff_getElem.mp hindex
    have hrequest := List.getElem?_eq_getElem (hlength ▸ hi)
    have hindex := (h i _ hrequest).2
    rw [List.getElem?_eq_getElem hi, Option.some.injEq] at hindex
    rw [hindex]
    exact (List.getElem?_eq_some_iff.mp (hread i _ hrequest)).1
  obtain ⟨taken, htaken, hrelated⟩ := takeAt_spec hbound
  rw [htaken]
  congr 1
  apply List.ext_getElem
  · rw [← hrelated.length_eq, hlength, List.length_map]
  · intro i hi hmapped
    have hsource : i < requests.length := by simpa using hmapped
    have hrequest := List.getElem?_eq_getElem hsource
    obtain ⟨value, hvalue, hplace⟩ := getElem?_of_forall₂ hrelated (h i _ hrequest).2
    rw [hread i _ hrequest] at hplace
    rw [List.getElem?_eq_getElem hi] at hvalue
    rw [List.getElem_map]
    exact Option.some.inj (hvalue.trans hplace.symm)

/-- The last of each request's packed tokens. -/
theorem takeAt_packed_last (h : ∀ request ∈ requests, 0 < len request) :
    takeAt (packedPositions len requests)
        ((startLocs (requests.map len)).tail.map (· - 1)) =
      some (requests.map fun request => request.numComputedTokens + (len request - 1)) := by
  apply @takeAt_packed len fun request => len request - 1
  · simp
  · intro i request hrequest
    have hpos := h request (List.mem_of_getElem? hrequest)
    have hlt : i < (requests.map len).length := by
      simpa using (List.getElem?_eq_some_iff.mp hrequest).1
    refine ⟨by omega, ?_⟩
    rw [List.getElem?_map, List.getElem?_tail, getElem?_startLocs hlt, List.take_add_one,
      List.sum_append, List.getElem?_map, hrequest]
    simp
    omega

theorem takeAt_packed_range :
    takeAt (packedPositions len requests) (List.range (requests.map len).sum) =
      some (packedPositions len requests) := by
  rw [takeAt, ← length_packedPositions]
  exact mapM_range_eq fun _ _ h => h

end Packing

namespace QueryRequest

theorem keptLen_pos (request : QueryRequest) : 0 < request.keptLen :=
  Nat.sub_pos_of_lt request.numRejected_lt

theorem keptLen_le (request : QueryRequest) : request.keptLen ≤ request.queryLen :=
  Nat.sub_le _ _

end QueryRequest

theorem takeAt_keptIndices (batch : QueryBatch Slot) :
    takeAt (packedPositions QueryRequest.queryLen batch.requests) batch.keptIndices =
      some (packedPositions QueryRequest.keptLen batch.requests) := by
  have hparts := @mapM_parts _ (batch.requests.map fun request =>
    List.range' request.numComputedTokens request.queryLen) batch.keptLens
  rw [map_length_packed] at hparts
  rw [takeAt, packedPositions, QueryBatch.keptIndices]
  refine (hparts QueryBatch.keptLens_le).trans ?_
  rw [QueryBatch.keptLens, List.zipWith_map, List.zipWith_self, packedPositions]
  congr 3
  funext request
  exact List.take_range'_of_length_ge request.keptLen_le

theorem propose_spec {config : DraftConfig} {blockTable : List (List Int)}
    {positions starts : List Nat} {lastTokenIndices : Option (List Nat)}
    {metadata : DraftMetadata Slot}
    (h : takeAt positions
      (lastTokenIndices.getD (metadata.queryStartLoc.tail.map (· - 1))) = some starts) :
    propose config blockTable positions lastTokenIndices metadata =
      draftLoop config blockTable (config.numSpeculativeTokens - 1) ⟨starts,
        if metadata.inferMode ≠ .decodeOnly then List.replicate metadata.numReqs 1
        else metadata.seqLens⟩ := by
  rw [propose]
  split
  case isTrue hone =>
    rw [hone]
    rfl
  case isFalse =>
    rw [h]
    rfl

namespace DraftRound

variable (round : DraftRound Slot)

/-- The length a request's sequence starts from. -/
def startLen (request : QueryRequest) : Nat :=
  if round.batch.metadata.inferMode ≠ .decodeOnly then 1
  else if round.preparation.isPadded then request.seqLen
  else request.seqLen - request.numRejected

def rows : List DraftRow :=
  (round.blockTable.zip round.batch.requests).map fun entry =>
    ⟨entry.1, entry.2.lastPosition, round.startLen entry.2⟩

def proposed : Option (List DraftInputs) :=
  proposeDraftTokenIds round.config round.blockTable round.batch.maxNumTokens
    (packedPositions QueryRequest.queryLen round.batch.requests) round.batch.metadata
    round.preparation

variable {round}

theorem map_blocks_rows : round.rows.map DraftRow.blocks = round.blockTable := by
  rw [rows, List.map_map]
  exact List.map_fst_zip (Nat.le_of_eq round.length_blockTable)

theorem map_rows {β : Type} (f : QueryRequest → β) (g : DraftRow → β)
    (h : ∀ blocks request, g ⟨blocks, request.lastPosition, round.startLen request⟩ = f request) :
    round.rows.map g = round.batch.requests.map f := by
  rw [rows, List.map_map]
  conv_rhs => rw [← List.map_snd_zip (Nat.le_of_eq round.length_blockTable.symm)]
  rw [List.map_map]
  apply List.map_congr_left
  intro entry _
  exact h entry.1 entry.2

theorem stateAfter_zero :
    stateAfter round.config round.rows 0 = ⟨round.batch.requests.map QueryRequest.lastPosition,
      round.batch.requests.map round.startLen⟩ := by
  rw [stateAfter, map_rows QueryRequest.lastPosition _ fun _ _ => rfl,
    map_rows round.startLen _ fun _ _ => rfl]

/-- The lengths the loop starts from, in both branches of `propose`. -/
theorem startLens_eq {metadata : DraftMetadata Slot}
    (hmode : metadata.inferMode = round.batch.metadata.inferMode)
    (hreqs : metadata.numReqs = round.batch.metadata.numReqs)
    (hlens : metadata.seqLens = round.batch.requests.map fun request =>
      if round.preparation.isPadded then request.seqLen
      else request.seqLen - request.numRejected) :
    (if metadata.inferMode ≠ .decodeOnly then List.replicate metadata.numReqs 1
      else metadata.seqLens) = round.batch.requests.map round.startLen := by
  rw [hmode, hreqs, hlens, round.batch.numReqs_eq]
  split
  case isTrue hother =>
    rw [← List.map_const']
    apply List.map_congr_left
    intro request _
    rw [startLen, if_pos hother]
  case isFalse hdecode =>
    apply List.map_congr_left
    intro request _
    rw [startLen, if_neg hdecode]

theorem takeAt_unchanged (h : ∀ request ∈ round.batch.requests, request.numRejected = 0) :
    takeAt (packedPositions QueryRequest.queryLen round.batch.requests)
        (round.batch.metadata.queryStartLoc.tail.map (· - 1)) =
      some (round.batch.requests.map QueryRequest.lastPosition) := by
  rw [round.batch.queryStartLoc_eq, takeAt_packed_last fun request _ =>
    (Nat.zero_le _).trans_lt request.numRejected_lt]
  congr 1
  apply List.map_congr_left
  intro request hrequest
  rw [QueryRequest.lastPosition, QueryRequest.keptLen, h request hrequest, Nat.sub_zero]

theorem takeAt_padded {drafts : DraftBatch Slot} (hdrafts : drafts.batch = round.batch) :
    takeAt (packedPositions QueryRequest.queryLen round.batch.requests)
        (List.zipWith (fun last (request : DraftRequest) => last - 1 - request.numRejected)
          (startLocs round.batch.queryLens).tail drafts.requests) =
      some (round.batch.requests.map QueryRequest.lastPosition) := by
  rw [← hdrafts, drafts.requests_eq]
  apply @takeAt_packed QueryRequest.queryLen fun request => request.keptLen - 1
  · simp [DraftBatch.queryLens_eq]
  · intro i request hrequest
    rw [List.getElem?_map, Option.map_eq_some_iff] at hrequest
    obtain ⟨draft, hdraft, rfl⟩ := hrequest
    have hlast : draft.keptLen - 1 = draft.lastAccepted := by
      rw [draft.lastAccepted_eq, QueryRequest.keptLen]
      omega
    rw [hlast]
    refine ⟨draft.lastAccepted_lt, ?_⟩
    rw [← drafts.requests_eq]
    exact DraftBatch.indexToSample_eq hdraft

theorem proposed_eq :
    round.proposed = draftLoop round.config round.blockTable
      (round.config.numSpeculativeTokens - 1) (stateAfter round.config round.rows 0) := by
  have hprepares := round.prepares
  rw [stateAfter_zero, proposed]
  cases hprep : round.preparation with
  | unchanged =>
      rw [hprep] at hprepares
      rw [proposeDraftTokenIds, propose_spec (takeAt_unchanged hprepares), startLens_eq rfl rfl]
      rw [round.batch.seqLens_eq]
      apply List.map_congr_left
      intro request hrequest
      rw [hprep, hprepares request hrequest]
      rfl
  | compacted numRejectedTokens =>
      rw [hprep] at hprepares
      obtain ⟨spec, hspec, hstarts, hlens, -, -, hreqs, hmode⟩ := round.batch.prepareInputs_spec
      rw [proposeDraftTokenIds, hprepares]
      change (prepareInputs _ _ _ >>= _) = _
      rw [hspec]
      change (takeAt _ round.batch.keptIndices >>= _) = _
      rw [takeAt_keptIndices]
      change propose _ _ _ none spec = _
      have hlast : takeAt (packedPositions QueryRequest.keptLen round.batch.requests)
          (spec.queryStartLoc.tail.map (· - 1)) =
          some (round.batch.requests.map QueryRequest.lastPosition) := by
        rw [hstarts]
        exact takeAt_packed_last fun request _ => request.keptLen_pos
      rw [propose_spec hlast, startLens_eq hmode hreqs]
      rw [hlens, hprep]
      rfl
  | padded cuNumDraftTokens validSampledTokensCount =>
      rw [hprep] at hprepares
      obtain ⟨drafts, hdrafts, rfl, rfl⟩ := hprepares
      obtain ⟨padded, hpadded, hindices, hlens, hreqs, hmode, hsample⟩ :=
        drafts.prepareInputsPadded_spec
      rw [hdrafts] at hpadded hindices hlens hreqs hmode hsample
      rw [proposeDraftTokenIds]
      change (prepareInputsPadded _ _ _ _ >>= _) = _
      rw [hpadded]
      change (takeAt _ padded.tokenIndices >>= _) = _
      rw [hindices, QueryBatch.queryLens, takeAt_packed_range]
      change propose _ _ _ (some padded.tokenIndicesToSample) padded.metadata = _
      rw [hsample, propose_spec (takeAt_padded hdrafts), startLens_eq hmode hreqs]
      rw [hlens, round.batch.seqLens_eq, hprep]
      rfl

theorem proposed_spec :
    round.proposed = some ((List.range' 1 (round.config.numSpeculativeTokens - 1)).map
      (inputsAt round.config round.rows)) := by
  have hadmits := round.admits
  rw [← map_blocks_rows] at hadmits
  rw [proposed_eq, ← map_blocks_rows]
  exact draftLoop_spec hadmits _ 0

/-- A length starts behind the last accepted token when nothing behind it is counted, and, outside
of a decode-only batch, when it is the first token. -/
theorem startLen_eq_iff (request : QueryRequest) :
    round.startLen request = request.lastPosition + 1 ↔
      if round.batch.metadata.inferMode = .decodeOnly then
        round.preparation.isPadded → request.numRejected = 0
      else request.lastPosition = 0 := by
  have hkept := request.keptLen_pos
  have hlen : request.lastPosition + 1 = request.seqLen - request.numRejected := by
    rw [QueryRequest.lastPosition, QueryRequest.seqLen]
    rw [QueryRequest.keptLen] at hkept ⊢
    omega
  have hle : request.numRejected < request.seqLen := by omega
  rw [startLen]
  by_cases hmode : round.batch.metadata.inferMode = .decodeOnly
  · rw [if_neg (not_not.mpr hmode), if_pos hmode, hlen]
    cases round.preparation.isPadded
    · simp
    · simp only [if_true, forall_const]
      omega
  · rw [if_pos hmode, if_neg hmode]
    omega

/-- Every draft iteration follows the last accepted token of every request. -/
def Follows (round : DraftRound Slot) : Prop :=
  ∃ inputs, round.proposed = some inputs ∧
    inputs.length = round.config.numSpeculativeTokens - 1 ∧
    ∀ (k : Nat) (iteration : DraftInputs) (i : Nat) (request : QueryRequest),
      inputs[k]? = some iteration → round.batch.requests[i]? = some request →
      iteration.Follows round.config round.blockTable request.lastPosition (k + 1) i

theorem row_of_request {i : Nat} {request : QueryRequest}
    (h : round.batch.requests[i]? = some request) :
    ∃ blocks, round.rows[i]? =
      some ⟨blocks, request.lastPosition, round.startLen request⟩ := by
  have hi : i < round.blockTable.length := by
    rw [round.length_blockTable]
    exact (List.getElem?_eq_some_iff.mp h).1
  have hzip : (round.blockTable.zip round.batch.requests)[i]? =
      some (round.blockTable.get ⟨i, hi⟩, request) :=
    List.getElem?_zip_eq_some.mpr ⟨List.getElem?_eq_getElem hi, h⟩
  refine ⟨round.blockTable.get ⟨i, hi⟩, ?_⟩
  rw [rows, List.getElem?_map, hzip]
  rfl

/-- Iteration `k` is right for a request when its length starts right, or its limit is reached. -/
theorem iteration_follows_iff {k i : Nat} {request : QueryRequest} (hk : 0 < k)
    (h : round.batch.requests[i]? = some request) :
    (inputsAt round.config round.rows k).Follows round.config round.blockTable
        request.lastPosition k i ↔
      (request.lastPosition + k < round.config.maxModelLen →
        round.startLen request = request.lastPosition + 1) := by
  have hadmits := round.admits
  rw [← map_blocks_rows] at hadmits
  obtain ⟨blocks, hrow⟩ := row_of_request h
  rw [← map_blocks_rows]
  exact inputsAt_follows_iff hadmits hk hrow

end DraftRound

/-- A decode request at position 3 whose one draft token is rejected. -/
def rejectedRequest : DraftRequest where
  numComputedTokens := 3
  queryLen := 2
  numRejected := 1
  numRejected_lt := by decide
  numDraftTokens := 1
  validCount := 1
  queryLen_eq := fun _ => rfl
  valid_pos := fun _ => Nat.le_refl 1
  valid_le := fun _ => by decide
  numRejected_eq := rfl

def rejectedBatch : QueryBatch Int where
  requests := [rejectedRequest.toQueryRequest]
  metadata := {
    queryStartLoc := [0, 2]
    seqLens := [5]
    numReqs := 1
    numActualTokens := 2
    maxQueryLen := 2
    maxSeqLen := some 5
    slotMapping := [19, 24]
    seqStartLoc := [0, 5]
    numInputTokens := 2
    numPrefillQueryTokens := 2
    numPrefillKvTokens := 2
    inferMode := .decodeOnly }
  maxNumTokens := 8
  ne_nil := by simp
  numReqs_eq := rfl
  queryStartLoc_eq := rfl
  seqLens_eq := rfl
  length_slotMapping := rfl
  fits := by decide

def rejectedRound : DraftRound Int where
  config := ⟨2, 16, 4⟩
  batch := rejectedBatch
  blockTable := [[4, 6, 7, 8]]
  preparation := .padded [1] [1]
  prepares := ⟨⟨[rejectedRequest], rejectedBatch, rfl⟩, rfl, rfl, rfl⟩
  admits := ⟨by decide, by decide, by decide⟩
  length_blockTable := rfl

end VllmMlu.SpecDecode
