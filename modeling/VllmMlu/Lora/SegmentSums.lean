import VllmMlu.Library.Packed
import VllmMlu.Lora.SegmentTiles

/-! Shrinking and expanding, over all programs of both launches: the low-rank product of every
segment is added once. -/
namespace VllmMlu.Lora
open VllmMlu.Library VllmMlu.Library.Kernel
open VllmMlu.Moe (cdiv cdiv_mul le_roundUp lt_cdiv)

variable {R : Type}

section BlockSizes

variable {m n : Nat}

theorem adjustLoop_pos {candidatesM candidatesN : List Nat} {blocks : Nat × Nat}
    (hm : ∀ block ∈ candidatesM, 0 < block) (hn : ∀ block ∈ candidatesN, 0 < block)
    (hblocks : 0 < blocks.1 ∧ 0 < blocks.2) :
    0 < (adjustLoop m n candidatesM candidatesN blocks).1 ∧
      0 < (adjustLoop m n candidatesM candidatesN blocks).2 := by
  induction candidatesM, candidatesN, blocks using adjustLoop.induct m n with
  | case1 blockM restM blockN restN _ hfits =>
      rw [adjustLoop, if_pos hfits]
      exact ⟨hm _ List.mem_cons_self, hn _ List.mem_cons_self⟩
  | case2 blockM restM blockN restN _ hlarge ih =>
      rw [adjustLoop, if_neg hlarge]
      exact ih (fun block hmem => hm block (List.mem_cons_of_mem _ hmem))
        (fun block hmem => hn block (List.mem_cons_of_mem _ hmem))
        ⟨hm _ List.mem_cons_self, hn _ List.mem_cons_self⟩
  | case3 candidatesM candidatesN blocks hend =>
      rw [adjustLoop]
      · exact hblocks
      · exact hend

/-- The block sizes that are returned are positive and give a grid within the limit. -/
theorem adjustKernelBlockSize_ok {blockM blockN : Nat} {blocks : Nat × Nat}
    (hblockM : 0 < blockM) (hblockN : 0 < blockN)
    (h : adjustKernelBlockSize m blockM n blockN = .ok blocks) :
    0 < blocks.1 ∧ 0 < blocks.2 ∧ cdiv m blocks.1 * cdiv n blocks.2 < mluMaxGridSize := by
  have hpositive : ∀ count, ∀ block ∈ candidatesList.drop count, 0 < block := by
    intro count block hmem
    have hall : ∀ block ∈ candidatesList, 0 < block := by decide
    exact hall block (List.mem_of_mem_drop hmem)
  unfold adjustKernelBlockSize at h
  generalize (if blockN = 16 then 0 else 1) = nIdx at h
  dsimp only at h
  split at h
  case isTrue hlarge => cases h
  case isFalse hfits =>
    cases h
    obtain ⟨hfirst, hsecond⟩ := @adjustLoop_pos m n _ _ (blockM, blockN) (hpositive 1)
      (hpositive nIdx) ⟨hblockM, hblockN⟩
    exact ⟨hfirst, hsecond, not_le.mp hfits⟩

end BlockSizes

/-- Whole steps stay in front of the end. -/
theorem step_lt {k step turn y : Nat} (hdvd : step ∣ k) (hturn : turn < cdiv k step)
    (hy : y < step) : y + turn * step < k := by
  obtain ⟨count, rfl⟩ := hdvd
  rw [Nat.mul_comm, cdiv_mul count (Nat.zero_lt_of_lt hy)] at hturn
  calc y + turn * step < step + turn * step := by omega
    _ = step * (turn + 1) := by ring
    _ ≤ step * count := Nat.mul_le_mul_left step hturn

namespace KernelArgs

variable [CommSemiring R] {args : KernelArgs R} {x w : Nat → Nat → R}

theorem sum_term {count : Nat} (hcount : args.k ≤ count) (r c : Nat) :
    ∑ h ∈ Finset.range count, args.term x w r c h = ∑ h ∈ Finset.range args.k, x r h * w c h := by
  rw [← Finset.sum_subset (Finset.range_subset_range.mpr hcount)]
  · apply Finset.sum_congr rfl
    intro h hmem
    rw [term, if_pos (Finset.mem_range.mp hmem)]
  · intro h _ hbehind
    rw [term, if_neg fun hlt => hbehind (Finset.mem_range.mpr hlt)]

/-- The entry of the low-rank product that belongs to a row of a segment. -/
def wholeSum (args : KernelArgs R) (x w : Nat → Nat → R) (loraIndex : Int) (r c : Nat) : R :=
  ∑ h ∈ Finset.range args.k, x r h * w (loraIndex.toNat * args.n + c) h

/-- One program for the whole common dimension. -/
theorem partialSum_whole (hblock : 0 < args.blockK) (loraIndex : Int) (r c : Nat) :
    args.partialSum x w loraIndex 0 args.blockK r c = args.wholeSum x w loraIndex r c := by
  simp only [partialSum, wholeSum, Nat.zero_add]
  rw [sum_blocks fun h => args.term x w r (loraIndex.toNat * args.n + c) h]
  exact sum_term (le_roundUp hblock) r _

/-- Several programs share the common dimension, each in every step. -/
theorem sum_partialSum {splitK : Nat} (hblock : 0 < args.blockK * splitK) (loraIndex : Int)
    (r c : Nat) :
    ∑ pidSk ∈ Finset.range splitK,
        args.partialSum x w loraIndex (pidSk * args.blockK) (args.blockK * splitK) r c =
      args.wholeSum x w loraIndex r c := by
  simp only [partialSum, wholeSum]
  rw [Finset.sum_comm, ← sum_term (le_roundUp hblock) r, Moe.roundUp, ← sum_blocks]
  apply Finset.sum_congr rfl
  intro turn _
  rw [sum_blocks fun h => args.term x w r (loraIndex.toNat * args.n + c)
    (turn * (args.blockK * splitK) + h), Nat.mul_comm splitK]

/-- Every entry of a segment lies in the tile of one program. -/
theorem sum_segmentPart (hblockM : 0 < args.blockM) (hblockN : 0 < args.blockN)
    {start len : Nat} (hlen : len ≤ args.segments.maxSeqLength) {loraIndex : Int}
    (sliceOffset : Nat) (value : Nat → Nat → R) (r c : Nat) :
    ∑ pid ∈ Finset.range args.gridWidth,
        args.segmentPart start len loraIndex sliceOffset pid value r c =
      if (loraIndex ≠ -1 ∧ start ≤ r ∧ r < start + len) ∧
        sliceOffset ≤ c ∧ c < sliceOffset + args.n then value r (c - sliceOffset) else 0 := by
  rw [gridWidth, Nat.mul_comm]
  refine (sum_div_mod (fun x y => if loraIndex = -1 then 0
    else args.tilePart ⟨y, x, len, loraIndex, start⟩ sliceOffset value r c) _ _).trans ?_
  simp only [tilePart]
  by_cases hinside : (loraIndex ≠ -1 ∧ start ≤ r ∧ r < start + len) ∧
    sliceOffset ≤ c ∧ c < sliceOffset + args.n
  case pos =>
    rw [if_pos hinside]
    obtain ⟨⟨hindex, hstart, hstop⟩, hfirst, hlast⟩ := hinside
    have hrow : (r - start) / args.blockM < cdiv args.segments.maxSeqLength args.blockM := by
      apply lt_cdiv hblockM
      have hle := Nat.div_mul_le_self (r - start) args.blockM
      omega
    have hcol : (c - sliceOffset) / args.blockN < cdiv args.n args.blockN := by
      apply lt_cdiv hblockN
      have hle := Nat.div_mul_le_self (c - sliceOffset) args.blockN
      omega
    rw [Finset.sum_eq_single ((r - start) / args.blockM),
      Finset.sum_eq_single ((c - sliceOffset) / args.blockN)]
    · simp [Inside, hindex, hstart, hstop, hfirst, hlast]
    · intro x _ hne
      simp [Inside, Ne.symm hne]
    · intro hout
      exact absurd (Finset.mem_range.mpr hcol) hout
    · intro y _ hne
      simp [Inside, Ne.symm hne]
    · intro hout
      exact absurd (Finset.mem_range.mpr hrow) hout
  case neg =>
    rw [if_neg hinside]
    apply Finset.sum_eq_zero
    intro y _
    apply Finset.sum_eq_zero
    intro x _
    by_cases hindex : loraIndex = -1
    · rw [if_pos hindex]
    · rw [if_neg hindex]
      apply if_neg
      rintro ⟨⟨hstart, hstop, -⟩, hfirst, hlast, -⟩
      exact hinside ⟨⟨hindex, hstart, hstop⟩, hfirst, hlast⟩

end KernelArgs

namespace PrefillMetadata

def start (segments : PrefillMetadata) (b : Nat) : Nat := segments.bSeqStartLoc.getD b 0

def len (segments : PrefillMetadata) (b : Nat) : Nat := segments.seqLenTensor.getD b 0

def loraIndex (segments : PrefillMetadata) (b : Nat) : Int := segments.loraIndicesTensor.getD b (-1)

/-- The start locations are the prefix sums of the lengths. -/
structure WellFormed (segments : PrefillMetadata) (numLoras : Nat) : Prop where
  starts : segments.bSeqStartLoc = (Cuts.startLocs segments.seqLenTensor).dropLast
  batches : segments.seqLenTensor.length = segments.batches
  indices : segments.loraIndicesTensor.length = segments.batches
  longest : ∀ len ∈ segments.seqLenTensor, len ≤ segments.maxSeqLength
  total : segments.tokenNums = segments.seqLenTensor.sum
  lora : ∀ index ∈ segments.loraIndicesTensor, index = -1 ∨ 0 ≤ index ∧ index.toNat < numLoras

variable {segments : PrefillMetadata} {numLoras b : Nat}

/-- The rows of a segment. -/
def Row (segments : PrefillMetadata) (b t : Nat) : Prop :=
  segments.start b ≤ t ∧ t < segments.start b + segments.len b

instance (segments : PrefillMetadata) (b t : Nat) : Decidable (segments.Row b t) :=
  inferInstanceAs (Decidable (_ ∧ _))

theorem WellFormed.len_eq (h : segments.WellFormed numLoras) (hb : b < segments.batches) :
    segments.seqLenTensor[b]? = some (segments.len b) := by
  have hlt : b < segments.seqLenTensor.length := h.batches ▸ hb
  rw [len, List.getD_eq_getElem _ _ hlt, List.getElem?_eq_getElem hlt]

theorem WellFormed.start_eq (h : segments.WellFormed numLoras) (hb : b < segments.batches) :
    segments.bSeqStartLoc[b]? = some (segments.seqLenTensor.take b).sum ∧
      segments.start b = (segments.seqLenTensor.take b).sum := by
  have hlt : b < segments.seqLenTensor.length := h.batches ▸ hb
  have hget : segments.bSeqStartLoc[b]? = some (segments.seqLenTensor.take b).sum := by
    rw [h.starts, List.getElem?_dropLast, Cuts.length_startLocs, Nat.add_sub_cancel, if_pos hlt,
      Cuts.getElem?_startLocs hlt.le]
  exact ⟨hget, by rw [start, List.getD_eq_getElem?_getD, hget, Option.getD_some]⟩

theorem WellFormed.at (h : segments.WellFormed numLoras) (hb : b < segments.batches) :
    segments.At b (segments.start b) (segments.len b) (segments.loraIndex b) where
  start := by
    rw [(h.start_eq hb).2]
    exact (h.start_eq hb).1
  len := h.len_eq hb
  loraIndex := by
    have hlt : b < segments.loraIndicesTensor.length := h.indices ▸ hb
    rw [loraIndex, List.getD_eq_getElem _ _ hlt, List.getElem?_eq_getElem hlt]

theorem WellFormed.stop_le (h : segments.WellFormed numLoras) (hb : b < segments.batches) :
    segments.start b + segments.len b ≤ segments.tokenNums := by
  have hlt : b < segments.seqLenTensor.length := h.batches ▸ hb
  have hle := Packed.sum_take_add_le (h.len_eq hb) hlt
  rwa [List.take_length, ← h.total, ← (h.start_eq hb).2] at hle

theorem WellFormed.index (h : segments.WellFormed numLoras) (hb : b < segments.batches) :
    segments.loraIndex b = -1 ∨
      0 ≤ segments.loraIndex b ∧ (segments.loraIndex b).toNat < numLoras :=
  h.lora _ (List.mem_of_getElem? (h.at hb).loraIndex)

theorem WellFormed.longest_le (h : segments.WellFormed numLoras) (hb : b < segments.batches) :
    segments.len b ≤ segments.maxSeqLength :=
  h.longest _ (List.mem_of_getElem? (h.len_eq hb))

/-- A row belongs to one segment only. -/
theorem WellFormed.row_unique (h : segments.WellFormed numLoras) {other t : Nat}
    (hb : b < segments.batches) (hother : other < segments.batches) (hrow : segments.Row b t)
    (hrow' : segments.Row other t) : b = other := by
  obtain ⟨hstart, hstop⟩ := hrow
  obtain ⟨hstart', hstop'⟩ := hrow'
  rw [(h.start_eq hb).2] at hstart hstop
  rw [(h.start_eq hother).2] at hstart' hstop'
  exact Packed.part_unique (h.len_eq hb) (h.len_eq hother) hstart hstop hstart' hstop'

variable [AddCommMonoid R]

/-- Of the sums over all segments only the one of the row's own segment counts. -/
theorem WellFormed.sum_segments (h : segments.WellFormed numLoras) (hb : b < segments.batches)
    {t : Nat} (hrow : segments.Row b t) (inside : Prop) [Decidable inside] (f : Nat → R) :
    (∑ other ∈ Finset.range segments.batches,
        if (segments.loraIndex other ≠ -1 ∧ segments.Row other t) ∧ inside then f other else 0) =
      if segments.loraIndex b ≠ -1 ∧ inside then f b else 0 := by
  rw [Finset.sum_eq_single b]
  · simp only [hrow, and_true]
  · intro other hother hne
    rw [if_neg]
    rintro ⟨⟨-, hrow'⟩, -⟩
    exact hne (h.row_unique (Finset.mem_range.mp hother) hb hrow' hrow)
  · intro hout
    exact absurd (Finset.mem_range.mpr hb) hout

end PrefillMetadata

namespace KernelArgs

variable {args : KernelArgs R} {numRows numLoras outputRows outputCols sliceOffset : Nat}
  {x w entry : Nat → Nat → R} {buffer : List R}

/-- No program of the launch leaves its buffers. -/
structure AllReady (args : KernelArgs R) (numRows numLoras outputRows outputCols sliceOffset : Nat)
    (x w : Nat → Nat → R) : Prop where
  segments : args.segments.WellFormed numLoras
  describes : args.Describes numRows numLoras outputCols x w
  rows : args.segments.tokenNums ≤ numRows
  outputRows : args.segments.tokenNums ≤ outputRows
  slice : sliceOffset + args.n ≤ outputCols

theorem AllReady.ready (h : args.AllReady numRows numLoras outputRows outputCols sliceOffset x w) {b : Nat}
    (hb : b < args.segments.batches) :
    args.Ready numRows numLoras outputRows outputCols sliceOffset x w b (args.segments.start b)
      (args.segments.len b) (args.segments.loraIndex b) where
  describes := h.describes
  segment := h.segments.at hb
  rows := (h.segments.stop_le hb).trans h.rows
  outputRows := (h.segments.stop_le hb).trans h.outputRows
  slice := h.slice
  index := h.segments.index hb

variable [CommSemiring R]

/-- The launch of the shrink kernel, in any order of its programs. -/
theorem shrink_launch (hready : args.AllReady numRows numLoras outputRows outputCols 0 x w) {splitK : Nat}
    (hsteps : ∀ pidSk < splitK, args.Steps (pidSk * args.blockK) (args.blockK * splitK))
    (hblockK : 0 < args.blockK) (hsplit : 1 < splitK)
    (order : GridOrder (args.gridWidth * splitK * args.segments.batches)) (scaling : R)
    (unspecified : Nat → Nat → Nat → Unspecified R)
    (hholds : Holds buffer outputRows outputCols entry) :
    ∃ data, launchGrid order (fun pid pidSk curBatch => args.sgmvShrinkKernelMlu scaling splitK
        (unspecified pid pidSk curBatch) pid pidSk curBatch) buffer = .ok data ∧
      Holds data outputRows outputCols fun t c => entry t c +
        ∑ b ∈ Finset.range args.segments.batches,
          if (args.segments.loraIndex b ≠ -1 ∧ args.segments.Row b t) ∧ c < args.n then
            args.wholeSum x w (args.segments.loraIndex b) t c * scaling else 0 := by
  let part : Nat → Nat → Nat → Nat → Nat → R := fun pid pidSk b => args.segmentPart
    (args.segments.start b) (args.segments.len b) (args.segments.loraIndex b) 0 pid fun r c =>
      args.partialSum x w (args.segments.loraIndex b) (pidSk * args.blockK)
        (args.blockK * splitK) r c * scaling
  obtain ⟨data, hdata, hadded⟩ := @launchGrid_adds _ _ _ _ _ entry buffer _ _ _ order
    (fun pid pidSk b => args.sgmvShrinkKernelMlu scaling splitK (unspecified pid pidSk b)
      pid pidSk b) part
    (fun pid _ pidSk hpidSk b hb state entry hstate =>
      shrinkKernel_returns (hready.ready hb) (hsteps pidSk hpidSk) hsplit.ne' scaling
        (unspecified pid pidSk b) hstate) hholds
  refine ⟨data, hdata, hadded.congr fun t _ c _ => ?_⟩
  apply congrArg (entry t c + ·)
  apply Finset.sum_congr rfl
  intro b hb
  have hlen := hready.segments.longest_le (Finset.mem_range.mp hb)
  simp only [part, sum_segmentPart hready.describes.blockM hready.describes.blockN hlen,
    Nat.zero_le, Nat.zero_add, Nat.sub_zero, true_and]
  by_cases hinside : (args.segments.loraIndex b ≠ -1 ∧ args.segments.Row b t) ∧ c < args.n
  · have hpos : 0 < args.blockK * splitK := Nat.mul_pos hblockK (by omega)
    rw [if_pos hinside, ← sum_partialSum hpos, Finset.sum_mul]
    apply Finset.sum_congr rfl
    intro pidSk _
    exact if_pos hinside
  · rw [if_neg hinside]
    apply Finset.sum_eq_zero
    intro pidSk _
    exact if_neg hinside

/-- The launch of the expand kernel. -/
theorem expand_launch (hready : args.AllReady numRows numLoras outputRows outputCols sliceOffset x w)
    (hsteps : args.Steps 0 args.blockK) (hblockK : 0 < args.blockK)
    (order : GridOrder (args.gridWidth * args.segments.batches * 1))
    (unspecified : Nat → Nat → Unspecified R) (hholds : Holds buffer outputRows outputCols entry) :
    ∃ data, launchGrid order (fun pid curBatch _ => args.sgmvExpandSliceKernelMlu sliceOffset true
        (unspecified pid curBatch) pid curBatch) buffer = .ok data ∧
      Holds data outputRows outputCols fun t c => entry t c +
        ∑ b ∈ Finset.range args.segments.batches,
          if (args.segments.loraIndex b ≠ -1 ∧ args.segments.Row b t) ∧
            sliceOffset ≤ c ∧ c < sliceOffset + args.n then
            args.wholeSum x w (args.segments.loraIndex b) t (c - sliceOffset) else 0 := by
  let part : Nat → Nat → Nat → Nat → Nat → R := fun pid b _ => args.segmentPart
    (args.segments.start b) (args.segments.len b) (args.segments.loraIndex b) sliceOffset pid
      (args.partialSum x w (args.segments.loraIndex b) 0 args.blockK)
  obtain ⟨data, hdata, hadded⟩ := @launchGrid_adds _ _ _ _ _ entry buffer _ _ _ order
    (fun pid b _ => args.sgmvExpandSliceKernelMlu sliceOffset true (unspecified pid b) pid b) part
    (fun pid _ b hb _ _ state entry hstate =>
      expandKernel_returns (hready.ready hb) hsteps (unspecified pid b) hstate) hholds
  refine ⟨data, hdata, hadded.congr fun t _ c _ => ?_⟩
  apply congrArg (entry t c + ·)
  rw [Finset.sum_range_one]
  apply Finset.sum_congr rfl
  intro b hb
  have hlen := hready.segments.longest_le (Finset.mem_range.mp hb)
  simp only [part, sum_segmentPart hready.describes.blockM hready.describes.blockN hlen,
    partialSum_whole hblockK]
  rfl

end KernelArgs

end VllmMlu.Lora
