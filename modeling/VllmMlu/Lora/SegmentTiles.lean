import Mathlib.Tactic.Ring
import VllmMlu.Lora.SgmvKernels

/-! What one program of either kernel adds to its output. -/
namespace VllmMlu.Lora
open VllmMlu.Library VllmMlu.Library.Kernel
open VllmMlu.Moe (cdiv)

variable {R : Type}

namespace KernelArgs

/-- The arguments describe matrices of the given sizes. -/
structure Describes (args : KernelArgs R) (numRows numLoras outputCols : Nat)
    (x w : Nat → Nat → R) : Prop where
  input : Holds args.input numRows args.k x
  lora : Holds args.lora (numLoras * args.n) args.k w
  xmStride : args.xmStride = args.k
  xkStride : args.xkStride = 1
  l0Stride : args.l0Stride = args.n * args.k
  loraKStride : args.loraKStride = args.k
  loraNStride : args.loraNStride = 1
  cmStride : args.cmStride = outputCols
  cnStride : args.cnStride = 1
  blockM : 0 < args.blockM
  blockN : 0 < args.blockN

/-- A tile of a segment with a LoRA, inside the matrices. -/
structure Fits (args : KernelArgs R) (tile : SegmentTile) (numRows numLoras : Nat) : Prop where
  rows : tile.curSeqStart + tile.m ≤ numRows
  nonneg : 0 ≤ tile.loraIndex
  lora : tile.loraIndex.toNat < numLoras

/-- The steps of the loop, without masks in the even case. -/
structure Steps (args : KernelArgs R) (offsetK step : Nat) : Prop where
  even : args.evenK = true → ∀ turn < cdiv args.k step, ∀ y < args.blockK,
    offsetK + y + turn * step < args.k

variable {args : KernelArgs R} {tile : SegmentTile}
  {numRows numLoras outputRows outputCols : Nat}
  {x w : Nat → Nat → R} {offsetK step turn : Nat}

theorem aLanes_addresses (hargs : args.Describes numRows numLoras outputCols x w)
    (hfits : args.Fits tile numRows numLoras) (hsteps : args.Steps offsetK step)
    (hturn : turn < cdiv args.k step) :
    (args.aLanes tile offsetK step turn).Addresses numRows args.k
      (fun i _ => tile.curSeqStart + (i + tile.pidM * args.blockM))
      fun _ j => offsetK + j + turn * step where
  ptr i j _ := by
    simp only [aLanes, hargs.xmStride, hargs.xkStride]
    ring
  row_lt i j hactive := by
    have hmask := hactive.mask
    have hrows := hfits.rows
    simp only [aLanes, Bool.and_eq_true, decide_eq_true_eq] at hmask
    omega
  col_lt i j hactive := by
    have hmask := hactive.mask
    simp only [aLanes, Bool.and_eq_true, Bool.or_eq_true, decide_eq_true_eq] at hmask
    rcases hmask.1 with heven | hlt
    · exact hsteps.even heven turn hturn j hactive.col
    · omega

theorem bLanes_addresses (hargs : args.Describes numRows numLoras outputCols x w)
    (hfits : args.Fits tile numRows numLoras) (hsteps : args.Steps offsetK step)
    (hturn : turn < cdiv args.k step) :
    (args.bLanes tile offsetK step turn).Addresses (numLoras * args.n) args.k
      (fun _ j => tile.loraIndex.toNat * args.n + (j + tile.pidN * args.blockN))
      fun i _ => offsetK + i + turn * step where
  ptr i j _ := by
    simp only [bLanes, hargs.l0Stride, hargs.loraKStride, hargs.loraNStride]
    ring
  row_lt i j hactive := by
    have hmask := hactive.mask
    simp only [bLanes, Bool.and_eq_true, decide_eq_true_eq] at hmask
    exact Holds.row_lt hfits.lora hmask.2
  col_lt i j hactive := by
    have hmask := hactive.mask
    simp only [bLanes, Bool.and_eq_true, Bool.or_eq_true, decide_eq_true_eq] at hmask
    rcases hmask.1 with heven | hlt
    · exact hsteps.even heven turn hturn i hactive.row
    · omega

/-- A lane of the output that is not masked out. -/
structure Covers (args : KernelArgs R) (tile : SegmentTile) (i j : Nat) : Prop where
  i_lt : i < args.blockM
  j_lt : j < args.blockN
  row : i + tile.pidM * args.blockM < tile.m
  col : j + tile.pidN * args.blockN < args.n

/-- The rows and columns of the tile of a program. -/
def Inside (args : KernelArgs R) (tile : SegmentTile) (sliceOffset r c : Nat) : Prop :=
  (tile.curSeqStart ≤ r ∧ r < tile.curSeqStart + tile.m ∧
    (r - tile.curSeqStart) / args.blockM = tile.pidM) ∧
  sliceOffset ≤ c ∧ c < sliceOffset + args.n ∧ (c - sliceOffset) / args.blockN = tile.pidN

instance (args : KernelArgs R) (tile : SegmentTile) (sliceOffset r c : Nat) :
    Decidable (args.Inside tile sliceOffset r c) :=
  inferInstanceAs (Decidable ((_ ∧ _ ∧ _) ∧ _ ∧ _ ∧ _))

variable {sliceOffset : Nat}

theorem active_cLanes {i j : Nat} :
    (args.cLanes tile sliceOffset).Active i j ↔ args.Covers tile i j := by
  constructor
  · rintro ⟨hi, hj, hmask⟩
    simp only [cLanes, Bool.and_eq_true, decide_eq_true_eq] at hmask
    exact ⟨hi, hj, by omega, by omega⟩
  · rintro ⟨hi, hj, hrow, hcol⟩
    refine ⟨hi, hj, ?_⟩
    simp only [cLanes, Bool.and_eq_true, decide_eq_true_eq]
    omega

theorem cLanes_addresses (hargs : args.Describes numRows numLoras outputCols x w)
    (hrows : tile.curSeqStart + tile.m ≤ outputRows) (hslice : sliceOffset + args.n ≤ outputCols) :
    (args.cLanes tile sliceOffset).Addresses outputRows outputCols
      (fun i _ => tile.curSeqStart + (i + tile.pidM * args.blockM))
      fun _ j => sliceOffset + (j + tile.pidN * args.blockN) where
  ptr i j _ := by
    simp only [cLanes, hargs.cmStride, hargs.cnStride]
    ring
  row_lt i j hactive := by
    have hrow := (active_cLanes.mp hactive).row
    omega
  col_lt i j hactive := by
    have hcol := (active_cLanes.mp hactive).col
    omega

theorem Covers.inside {i j : Nat} (hcovers : args.Covers tile i j) :
    args.Inside tile sliceOffset (tile.curSeqStart + (i + tile.pidM * args.blockM))
      (sliceOffset + (j + tile.pidN * args.blockN)) := by
  have hrow := hcovers.row
  have hcol := hcovers.col
  refine ⟨⟨by omega, by omega, ?_⟩, by omega, by omega, ?_⟩
  · rw [Nat.add_sub_cancel_left, Nat.add_mul_div_right _ _ (Nat.zero_lt_of_lt hcovers.i_lt),
      Nat.div_eq_of_lt hcovers.i_lt, Nat.zero_add]
  · rw [Nat.add_sub_cancel_left, Nat.add_mul_div_right _ _ (Nat.zero_lt_of_lt hcovers.j_lt),
      Nat.div_eq_of_lt hcovers.j_lt, Nat.zero_add]

theorem Inside.covers (hargs : args.Describes numRows numLoras outputCols x w) {r c : Nat}
    (hinside : args.Inside tile sliceOffset r c) :
    ∃ i j, args.Covers tile i j ∧ tile.curSeqStart + (i + tile.pidM * args.blockM) = r ∧
      sliceOffset + (j + tile.pidN * args.blockN) = c := by
  obtain ⟨⟨hstart, hstop, hrow⟩, hfirst, hlast, hcol⟩ := hinside
  have hi := Nat.mod_add_div' (r - tile.curSeqStart) args.blockM
  have hj := Nat.mod_add_div' (c - sliceOffset) args.blockN
  rw [hrow] at hi
  rw [hcol] at hj
  refine ⟨(r - tile.curSeqStart) % args.blockM, (c - sliceOffset) % args.blockN,
    ⟨Nat.mod_lt _ hargs.blockM, Nat.mod_lt _ hargs.blockN, ?_, ?_⟩, ?_, ?_⟩
  all_goals omega

variable [CommSemiring R] {buffer : List R} {entry : Nat → Nat → R}

/-- A product of two entries, or nothing behind the end of the common dimension. -/
def term (args : KernelArgs R) (x w : Nat → Nat → R) (r c h : Nat) : R :=
  if h < args.k then x r h * w c h else 0

/-- One turn of the loop. -/
theorem accumulateTurn_returns (hargs : args.Describes numRows numLoras outputCols x w)
    (hfits : args.Fits tile numRows numLoras) (hsteps : args.Steps offsetK step)
    (hturn : turn < cdiv args.k step) (unspecified : Unspecified R)
    (accumulator : Nat → Nat → R) :
    ∃ next, args.accumulateTurn unspecified tile offsetK step accumulator turn = .ok next ∧
      ∀ i j, args.Covers tile i j → next i j = accumulator i j +
        ∑ y ∈ Finset.range args.blockK,
          args.term x w (tile.curSeqStart + (i + tile.pidM * args.blockM))
            (tile.loraIndex.toNat * args.n + (j + tile.pidN * args.blockN))
            (turn * step + (offsetK + y)) := by
  obtain ⟨tiledA, hloadA, hactiveA, hmaskedA⟩ :=
    (aLanes_addresses hargs hfits hsteps hturn).load hargs.input (args.masked unspecified (2 * turn))
  obtain ⟨tiledB, hloadB, hactiveB, -⟩ :=
    (bLanes_addresses hargs hfits hsteps hturn).load hargs.lora
      (args.masked unspecified (2 * turn + 1))
  refine ⟨_, bind_eq_ok.mpr ⟨tiledA, hloadA, bind_eq_ok.mpr ⟨tiledB, hloadB, rfl⟩⟩,
    fun i j hcovers => ?_⟩
  apply congrArg (accumulator i j + ·)
  apply Finset.sum_congr rfl
  intro y hy
  have hy := Finset.mem_range.mp hy
  have hrow := hcovers.row
  have hcol := hcovers.col
  rw [term, Nat.add_comm (turn * step)]
  by_cases hinside : args.evenK = true ∨ offsetK + y < args.k - turn * step
  · have hlt : offsetK + y + turn * step < args.k := by
      rcases hinside with heven | hlt
      · exact hsteps.even heven turn hturn y hy
      · omega
    rw [if_pos hlt, hactiveA i y ⟨hcovers.i_lt, hy, by simp [aLanes, hinside, hrow]⟩,
      hactiveB y j ⟨hy, hcovers.j_lt, by simp [bLanes, hinside, hcol]⟩]
  · have hge : ¬offsetK + y + turn * step < args.k := by omega
    have heven : args.evenK = false := by
      rw [← Bool.not_eq_true]
      exact fun heven => hinside (.inl heven)
    have hbehind : ¬offsetK + y < args.k - turn * step := fun hlt => hinside (.inr hlt)
    rw [if_neg hge, hmaskedA i y (by simp [aLanes, heven, hbehind]), masked, heven,
      if_neg Bool.false_ne_true, zero_mul]

/-- The loop adds up the terms of all its turns. -/
theorem accumulate_returns (hargs : args.Describes numRows numLoras outputCols x w)
    (hfits : args.Fits tile numRows numLoras) (hsteps : args.Steps offsetK step)
    (unspecified : Unspecified R) :
    ∃ accumulator, args.accumulate unspecified tile offsetK step = .ok accumulator ∧
      ∀ i j, args.Covers tile i j → accumulator i j =
        ∑ turn ∈ Finset.range (cdiv args.k step), ∑ y ∈ Finset.range args.blockK,
          args.term x w (tile.curSeqStart + (i + tile.pidM * args.blockM))
            (tile.loraIndex.toNat * args.n + (j + tile.pidN * args.blockN))
            (turn * step + (offsetK + y)) := by
  rw [accumulate, if_neg (not_lt.mpr hfits.nonneg)]
  apply @loop_returns _ _ (args.accumulateTurn unspecified tile offsetK step)
    (fun count accumulator => ∀ i j, args.Covers tile i j → accumulator i j =
      ∑ turn ∈ Finset.range count, ∑ y ∈ Finset.range args.blockK,
        args.term x w (tile.curSeqStart + (i + tile.pidM * args.blockM))
          (tile.loraIndex.toNat * args.n + (j + tile.pidN * args.blockN))
          (turn * step + (offsetK + y)))
  · intro i j _
    rw [Finset.sum_range_zero]
  · intro turn hturn accumulator hinv
    obtain ⟨next, hnext, hadded⟩ :=
      accumulateTurn_returns hargs hfits hsteps hturn unspecified accumulator
    refine ⟨next, ?_, fun i j hcovers => ?_⟩
    · rw [Nat.one_mul, Nat.zero_add]
      exact hnext
    · rw [hadded i j hcovers, hinv i j hcovers, Finset.sum_range_succ]

/-- What a program adds to an output: the value of each entry of its tile. -/
def tilePart (args : KernelArgs R) (tile : SegmentTile) (sliceOffset : Nat)
    (value : Nat → Nat → R) (r c : Nat) : R :=
  if args.Inside tile sliceOffset r c then value r (c - sliceOffset) else 0

/-- The end of both kernels, where the output is written. -/
theorem update_cLanes (hargs : args.Describes numRows numLoras outputCols x w)
    (hrows : tile.curSeqStart + tile.m ≤ outputRows) (hslice : sliceOffset + args.n ≤ outputCols)
    (hholds : Holds buffer outputRows outputCols entry) {f : Nat → Nat → R → R}
    {value : Nat → Nat → R}
    (hf : ∀ i j, args.Covers tile i j →
      f i j (entry (tile.curSeqStart + (i + tile.pidM * args.blockM))
          (sliceOffset + (j + tile.pidN * args.blockN))) =
        entry (tile.curSeqStart + (i + tile.pidM * args.blockM))
          (sliceOffset + (j + tile.pidN * args.blockN)) +
        value (tile.curSeqStart + (i + tile.pidM * args.blockM)) (j + tile.pidN * args.blockN)) :
    ∃ next, (args.cLanes tile sliceOffset).update f buffer = .ok next ∧
      Holds next outputRows outputCols fun r c =>
        entry r c + args.tilePart tile sliceOffset value r c := by
  apply (cLanes_addresses hargs hrows hslice).update hholds
  · intro i j k l _ _ hrow hcol
    omega
  · intro i j hactive
    have hcovers := active_cLanes.mp hactive
    rw [hf i j hcovers, tilePart, if_pos hcovers.inside, Nat.add_sub_cancel_left]
  · intro r _ c _ hnone
    rw [tilePart, if_neg, add_zero]
    intro hinside
    obtain ⟨i, j, hcovers, hrow, hcol⟩ := hinside.covers hargs
    exact hnone i j (active_cLanes.mpr hcovers) hrow hcol

end KernelArgs

/-- What the metadata say of one segment. -/
structure PrefillMetadata.At (segments : PrefillMetadata) (curBatch start len : Nat)
    (loraIndex : Int) : Prop where
  start : segments.bSeqStartLoc[curBatch]? = some start
  len : segments.seqLenTensor[curBatch]? = some len
  loraIndex : segments.loraIndicesTensor[curBatch]? = some loraIndex

namespace KernelArgs

variable {args : KernelArgs R} {numRows numLoras outputRows outputCols sliceOffset : Nat}
  {x w : Nat → Nat → R} {pid pidSk curBatch start len : Nat} {loraIndex : Int}

/-- The tile of the program `pid` in a segment. -/
def tileAt (args : KernelArgs R) (start len : Nat) (loraIndex : Int) (pid : Nat) : SegmentTile :=
  ⟨pid / cdiv args.n args.blockN, pid % cdiv args.n args.blockN, len, loraIndex, start⟩

theorem tile?_returns (hsegment : args.segments.At curBatch start len loraIndex) :
    args.tile? pid curBatch = .ok
      (if len < (args.tileAt start len loraIndex pid).pidM * args.blockM ∨ loraIndex = -1 then none
      else some (args.tileAt start len loraIndex pid)) := by
  refine bind_eq_ok.mpr ⟨len, load_eq_ok hsegment.len, ?_⟩
  by_cases hbehind : len < (args.tileAt start len loraIndex pid).pidM * args.blockM
  · exact (if_pos hbehind).trans (congrArg Except.ok (if_pos (.inl hbehind)).symm)
  · refine (if_neg hbehind).trans (bind_eq_ok.mpr ⟨loraIndex, load_eq_ok hsegment.loraIndex, ?_⟩)
    by_cases hnone : loraIndex = -1
    · exact (if_pos hnone).trans (congrArg Except.ok (if_pos (.inr hnone)).symm)
    · rw [if_neg (not_or.mpr ⟨hbehind, hnone⟩)]
      exact (if_neg hnone).trans (bind_eq_ok.mpr ⟨start, load_eq_ok hsegment.start, rfl⟩)

/-- The arguments and the segment of a program that does not leave its buffers. -/
structure Ready (args : KernelArgs R) (numRows numLoras outputRows outputCols sliceOffset : Nat)
    (x w : Nat → Nat → R) (curBatch start len : Nat) (loraIndex : Int) : Prop where
  describes : args.Describes numRows numLoras outputCols x w
  segment : args.segments.At curBatch start len loraIndex
  rows : start + len ≤ numRows
  outputRows : start + len ≤ outputRows
  slice : sliceOffset + args.n ≤ outputCols
  index : loraIndex = -1 ∨ 0 ≤ loraIndex ∧ loraIndex.toNat < numLoras

theorem Ready.fits
    (hready : args.Ready numRows numLoras outputRows outputCols sliceOffset x w curBatch start len
      loraIndex)
    (hindex : loraIndex ≠ -1) (pid : Nat) :
    args.Fits (args.tileAt start len loraIndex pid) numRows numLoras :=
  have hrange := hready.index.resolve_left hindex
  ⟨hready.rows, hrange.1, hrange.2⟩

variable [CommSemiring R] {buffer : List R} {entry : Nat → Nat → R}

/-- What the program `pid` of a segment adds, nothing without a LoRA. -/
def segmentPart (args : KernelArgs R) (start len : Nat) (loraIndex : Int) (sliceOffset pid : Nat)
    (value : Nat → Nat → R) (r c : Nat) : R :=
  if loraIndex = -1 then 0
  else args.tilePart (args.tileAt start len loraIndex pid) sliceOffset value r c

/-- A program that returns at once had nothing to add. -/
theorem segmentPart_eq_zero {value : Nat → Nat → R}
    (hnone : len < (args.tileAt start len loraIndex pid).pidM * args.blockM ∨ loraIndex = -1)
    (r c : Nat) : args.segmentPart start len loraIndex sliceOffset pid value r c = 0 := by
  rw [segmentPart]
  split
  · rfl
  · rename_i hindex
    rw [tilePart, if_neg]
    rintro ⟨⟨hstart, hstop, hrow⟩, -⟩
    have hbehind := hnone.resolve_right hindex
    have hle := Nat.div_mul_le_self (r - start) args.blockM
    simp only [tileAt] at hstart hstop hrow hbehind
    rw [hrow] at hle
    omega

/-- A program adds nothing outside the rows of its segment and the columns of its slice. -/
theorem segmentPart_outside {value : Nat → Nat → R} {r c : Nat}
    (houtside : ¬((start ≤ r ∧ r < start + len) ∧ sliceOffset ≤ c ∧ c < sliceOffset + args.n)) :
    args.segmentPart start len loraIndex sliceOffset pid value r c = 0 := by
  rw [segmentPart]
  split
  · rfl
  · rw [tilePart, if_neg]
    rintro ⟨⟨hstart, hstop, -⟩, hfirst, hlast, -⟩
    exact houtside ⟨⟨hstart, hstop⟩, hfirst, hlast⟩

/-- The sum that a program makes over the common dimension. -/
def partialSum (args : KernelArgs R) (x w : Nat → Nat → R) (loraIndex : Int) (offsetK step : Nat)
    (r c : Nat) : R :=
  ∑ turn ∈ Finset.range (cdiv args.k step), ∑ y ∈ Finset.range args.blockK,
    args.term x w r (loraIndex.toNat * args.n + c) (turn * step + (offsetK + y))

theorem shrinkKernel_returns
    (hready : args.Ready numRows numLoras outputRows outputCols 0 x w curBatch start len
      loraIndex)
    {splitK : Nat} (hsteps : args.Steps (pidSk * args.blockK) (args.blockK * splitK))
    (hsplit : splitK ≠ 1) (scaling : R) (unspecified : Unspecified R)
    (hholds : Holds buffer outputRows outputCols entry) :
    ∃ next, args.sgmvShrinkKernelMlu scaling splitK unspecified pid pidSk curBatch buffer =
        .ok next ∧
      Holds next outputRows outputCols fun r c => entry r c +
        args.segmentPart start len loraIndex 0 pid (fun r c =>
          args.partialSum x w loraIndex (pidSk * args.blockK) (args.blockK * splitK) r c *
            scaling) r c := by
  rw [sgmvShrinkKernelMlu, tile?_returns hready.segment]
  split
  case isTrue hnone =>
    refine ⟨buffer, rfl, hholds.congr fun r _ c _ => ?_⟩
    rw [segmentPart_eq_zero hnone, add_zero]
  case isFalse hsome =>
    have hindex : loraIndex ≠ -1 := fun hindex => hsome (.inr hindex)
    obtain ⟨accumulator, haccumulate, hvalue⟩ :=
      accumulate_returns hready.describes (hready.fits hindex pid) hsteps unspecified
    obtain ⟨next, hnext, hadded⟩ := @update_cLanes _ args (args.tileAt start len loraIndex pid)
      _ _ _ _ _ _ _ _ _ _ hready.describes hready.outputRows hready.slice hholds
      (fun i j old => old + accumulator i j * scaling)
      (fun r c => args.partialSum x w loraIndex (pidSk * args.blockK) (args.blockK * splitK) r c *
        scaling) (fun i j hcovers => by rw [hvalue i j hcovers]; rfl)
    refine ⟨next, ?_, hadded.congr fun r _ c _ => ?_⟩
    · refine bind_eq_ok.mpr ⟨_, rfl, bind_eq_ok.mpr ⟨accumulator, haccumulate, ?_⟩⟩
      exact hnext
    · rw [segmentPart, if_neg hindex]

theorem expandKernel_returns
    (hready : args.Ready numRows numLoras outputRows outputCols sliceOffset x w curBatch start len
      loraIndex)
    (hsteps : args.Steps 0 args.blockK) (unspecified : Unspecified R)
    (hholds : Holds buffer outputRows outputCols entry) :
    ∃ next, args.sgmvExpandSliceKernelMlu sliceOffset true unspecified pid curBatch buffer =
        .ok next ∧
      Holds next outputRows outputCols fun r c => entry r c +
        args.segmentPart start len loraIndex sliceOffset pid
          (args.partialSum x w loraIndex 0 args.blockK) r c := by
  rw [sgmvExpandSliceKernelMlu, tile?_returns hready.segment]
  split
  case isTrue hnone =>
    refine ⟨buffer, rfl, hholds.congr fun r _ c _ => ?_⟩
    rw [segmentPart_eq_zero hnone, add_zero]
  case isFalse hsome =>
    have hindex : loraIndex ≠ -1 := fun hindex => hsome (.inr hindex)
    obtain ⟨accumulator, haccumulate, hvalue⟩ :=
      accumulate_returns hready.describes (hready.fits hindex pid) hsteps unspecified
    have haddresses := @cLanes_addresses _ args (args.tileAt start len loraIndex pid)
      _ _ _ _ _ _ _ hready.describes hready.outputRows hready.slice
    obtain ⟨tiledOut, hload, hout, -⟩ := haddresses.load hholds
      (unspecified (2 * cdiv args.k args.blockK))
    obtain ⟨next, hnext, hadded⟩ := @update_cLanes _ args (args.tileAt start len loraIndex pid)
      _ _ _ _ _ _ _ _ _ _ hready.describes hready.outputRows hready.slice hholds
      (fun i j _ => accumulator i j + tiledOut i j)
      (args.partialSum x w loraIndex 0 args.blockK) (fun i j hcovers => by
        rw [hvalue i j hcovers, hout i j (active_cLanes.mpr hcovers), add_comm]
        rfl)
    refine ⟨next, ?_, hadded.congr fun r _ c _ => ?_⟩
    · exact bind_eq_ok.mpr ⟨_, rfl, bind_eq_ok.mpr ⟨accumulator, haccumulate,
        bind_eq_ok.mpr ⟨tiledOut, hload, hnext⟩⟩⟩
    · rw [segmentPart, if_neg hindex]

end KernelArgs

end VllmMlu.Lora
