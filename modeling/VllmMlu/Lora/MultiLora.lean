import VllmMlu.Lora.SegmentSums

/-! `sgmv_shrink_mlu` followed by `sgmv_expand_slice_mlu`: every row gets the low-rank product of
the LoRA of its segment. -/
namespace VllmMlu.Lora
open VllmMlu.Library VllmMlu.Library.Kernel
open VllmMlu.Moe (cdiv)

variable {R : Type}

/-- The weights `[numLoras, n, k]`, with or without a second dimension of one. -/
def Contiguous.Weights (weights : Contiguous R) (numLoras n k : Nat) : Prop :=
  (weights.shape = [numLoras, n, k] ∨ weights.shape = [numLoras, 1, n, k]) ∧
    weights.data.length = weights.shape.prod

def Contiguous.Matrix (tensor : Contiguous R) (rows cols : Nat) : Prop :=
  tensor.shape = [rows, cols] ∧ tensor.data.length = tensor.shape.prod

/-- What is handed to the two functions. -/
structure LoraCall (R : Type) where
  segments : PrefillMetadata
  numLoras : Nat
  hidden : Nat
  rank : Nat
  numRows : Nat
  outputCols : Nat
  sliceOffset : Nat
  sliceSize : Nat
  inputs : Contiguous R
  loraA : Contiguous R
  loraB : Contiguous R
  output : Contiguous R
  scaling : R

namespace LoraCall

structure WellFormed (call : LoraCall R) : Prop where
  segments : call.segments.WellFormed call.numLoras
  inputs : call.inputs.Matrix call.segments.tokenNums call.hidden
  loraA : call.loraA.Weights call.numLoras call.rank call.hidden
  loraB : call.loraB.Weights call.numLoras call.sliceSize call.rank
  output : call.output.Matrix call.numRows call.outputCols
  rows : call.segments.tokenNums ≤ call.numRows
  slice : call.sliceOffset + call.sliceSize ≤ call.outputCols

section Entries

variable [Zero R]

def x (call : LoraCall R) (t h : Nat) : R := call.inputs.data.getD (t * call.hidden + h) 0

/-- The rows of all `A`, one LoRA after another. -/
def a (call : LoraCall R) (row h : Nat) : R := call.loraA.data.getD (row * call.hidden + h) 0

def b (call : LoraCall R) (row r : Nat) : R := call.loraB.data.getD (row * call.rank + r) 0

def y (call : LoraCall R) (t c : Nat) : R := call.output.data.getD (t * call.outputCols + c) 0

end Entries

variable [CommSemiring R]

/-- An entry of `B_l (scaling * A_l x_t)`. -/
def lowRank (call : LoraCall R) (l t c : Nat) : R :=
  ∑ r ∈ Finset.range call.rank, call.b (l * call.sliceSize + c) r *
    (call.scaling * ∑ h ∈ Finset.range call.hidden, call.a (l * call.rank + r) h * call.x t h)

end LoraCall

theorem weightSizes_eq {weights : Contiguous R} {numLoras n k : Nat}
    (h : weights.Weights numLoras n k) : weights.weightSizes = .ok (numLoras, n, k) := by
  rcases h.1 with hshape | hshape
  all_goals
    rw [Contiguous.weightSizes, hshape]
    rfl

theorem matrixSizes_eq {tensor : Contiguous R} {rows cols : Nat} (h : tensor.Matrix rows cols) :
    tensor.matrixSizes = .ok (rows, cols) := by
  rw [Contiguous.matrixSizes, h.1]
  rfl

theorem holds_weights {weights : Contiguous R} {numLoras n k : Nat}
    (h : weights.Weights numLoras n k) (default : R) :
    Holds weights.data (numLoras * n) k fun row j => weights.data.getD (row * k + j) default := by
  apply Holds.of_length
  rw [h.2]
  rcases h.1 with hshape | hshape
  all_goals
    rw [hshape]
    simp [Nat.mul_assoc]

theorem holds_matrix {tensor : Contiguous R} {rows cols : Nat} (h : tensor.Matrix rows cols)
    (default : R) :
    Holds tensor.data rows cols fun row j => tensor.data.getD (row * cols + j) default := by
  apply Holds.of_length
  rw [h.2, h.1]
  simp

theorem matrix_zeros [Zero R] (rows cols : Nat) :
    (Contiguous.zeros [rows, cols] : Contiguous R).Matrix rows cols :=
  ⟨rfl, List.length_replicate⟩

theorem matrix_of_holds {data : List R} {rows cols : Nat} {entry : Nat → Nat → R}
    (h : Holds data rows cols entry) : (Contiguous.mk [rows, cols] data).Matrix rows cols := by
  refine ⟨rfl, ?_⟩
  rw [h.length]
  simp

theorem check_true {condition : Bool} (h : condition = true) : check condition = .ok () := by
  rw [check, if_pos h]
  rfl

section Arguments

variable {inputs weights output : Contiguous R} {segments : PrefillMetadata}
  {numLoras n k rows cols : Nat} {blocks : Nat × Nat}

theorem shrinkArgs_eq (hsegments : segments.WellFormed numLoras)
    (hinputs : inputs.Matrix segments.tokenNums k) (hweights : weights.Weights numLoras n k)
    (houtput : output.Matrix rows cols)
    (hblocks : adjustKernelBlockSize segments.maxSeqLength 32 n 16 = .ok blocks) :
    shrinkArgs inputs weights output segments =
      .ok (kernelArgs inputs weights segments k n k cols blocks 32 (k % (32 * 8) == 0)) := by
  have hstarts : (segments.bSeqStartLoc.length == segments.batches) = true := by
    rw [hsegments.starts]
    simp [hsegments.batches]
  have hindices : (segments.loraIndicesTensor.length == segments.batches) = true := by
    simp [hsegments.indices]
  exact bind_eq_ok.mpr ⟨_, matrixSizes_eq hinputs, bind_eq_ok.mpr ⟨_, weightSizes_eq hweights,
    bind_eq_ok.mpr ⟨_, matrixSizes_eq houtput, bind_eq_ok.mpr ⟨_, check_true (beq_self_eq_true _),
    bind_eq_ok.mpr ⟨_, check_true (beq_self_eq_true _), bind_eq_ok.mpr ⟨_, check_true hstarts,
    bind_eq_ok.mpr ⟨_, check_true hindices, bind_eq_ok.mpr ⟨_, hblocks, rfl⟩⟩⟩⟩⟩⟩⟩⟩

theorem expandArgs_eq (hsegments : segments.WellFormed numLoras)
    (hinputs : inputs.Matrix segments.tokenNums k) (hweights : weights.Weights numLoras n k)
    (houtput : output.Matrix rows cols)
    (hblocks : adjustKernelBlockSize segments.maxSeqLength 32 n 32 = .ok blocks) :
    expandArgs inputs weights output segments n =
      .ok (kernelArgs inputs weights segments k n k cols blocks 16 (k % 16 == 0)) := by
  have hstarts : (segments.bSeqStartLoc.length == segments.batches) = true := by
    rw [hsegments.starts]
    simp [hsegments.batches]
  have hindices : (segments.loraIndicesTensor.length == segments.batches) = true := by
    simp [hsegments.indices]
  exact bind_eq_ok.mpr ⟨_, matrixSizes_eq hinputs, bind_eq_ok.mpr ⟨_, weightSizes_eq hweights,
    bind_eq_ok.mpr ⟨_, matrixSizes_eq houtput, bind_eq_ok.mpr ⟨_, check_true (beq_self_eq_true _),
    bind_eq_ok.mpr ⟨_, check_true (beq_self_eq_true _), bind_eq_ok.mpr ⟨_, check_true hstarts,
    bind_eq_ok.mpr ⟨_, check_true hindices, bind_eq_ok.mpr ⟨_, check_true (beq_self_eq_true _),
    bind_eq_ok.mpr ⟨_, hblocks, rfl⟩⟩⟩⟩⟩⟩⟩⟩⟩

theorem kernelArgs_describes {blockK : Nat} {evenK : Bool} {x w : Nat → Nat → R}
    (hinputs : Holds inputs.data rows k x) (hweights : Holds weights.data (numLoras * n) k w)
    (hblockM : 0 < blocks.1) (hblockN : 0 < blocks.2) :
    (kernelArgs inputs weights segments k n k cols blocks blockK evenK).Describes rows numLoras cols
      x w where
  input := hinputs
  lora := hweights
  xmStride := rfl
  xkStride := rfl
  l0Stride := rfl
  loraKStride := rfl
  loraNStride := rfl
  cmStride := rfl
  cnStride := rfl
  blockM := hblockM
  blockN := hblockN

end Arguments

section Steps

variable {inputs weights : Contiguous R} {segments : PrefillMetadata} {n k cols : Nat}
  {blocks : Nat × Nat}

theorem shrink_steps {pidSk : Nat} (hpidSk : pidSk < 8) :
    (kernelArgs inputs weights segments k n k cols blocks 32 (k % (32 * 8) == 0)).Steps
      (pidSk * 32) (32 * 8) where
  even heven turn hturn y hy := by
    have hdvd : 32 * 8 ∣ k := Nat.dvd_of_mod_eq_zero (eq_of_beq heven)
    have hy : y < 32 := hy
    exact step_lt hdvd hturn (by omega)

theorem expand_steps :
    (kernelArgs inputs weights segments k n k cols blocks 16 (k % 16 == 0)).Steps 0 16 where
  even heven turn hturn y hy := by
    have hdvd : 16 ∣ k := Nat.dvd_of_mod_eq_zero (eq_of_beq heven)
    rw [Nat.zero_add]
    exact step_lt hdvd hturn hy

end Steps

variable [CommSemiring R]

/-- What the two launches promise. -/
structure AddsLora (call : LoraCall R) (shrink expand : KernelArgs R)
    (unspecifiedShrink : Nat → Nat → Nat → Unspecified R)
    (unspecifiedExpand : Nat → Nat → Unspecified R) (result : Contiguous R) : Prop where
  shrinkGrid : shrink.gridWidth < mluMaxGridSize
  expandGrid : expand.gridWidth < mluMaxGridSize
  shrinkWrites : ∀ pid < shrink.gridWidth, ∀ pidSk < 8, ∀ b < call.segments.batches,
    WritesOnly (shrink.sgmvShrinkKernelMlu call.scaling 8 (unspecifiedShrink pid pidSk b) pid
      pidSk b) call.segments.tokenNums call.rank fun t _ => call.segments.Row b t
  expandWrites : ∀ pid < expand.gridWidth, ∀ b < call.segments.batches,
    WritesOnly (expand.sgmvExpandSliceKernelMlu call.sliceOffset true (unspecifiedExpand pid b) pid
      b) call.numRows call.outputCols fun t c => call.segments.Row b t ∧
        call.sliceOffset ≤ c ∧ c < call.sliceOffset + call.sliceSize
  shape : result.shape = call.output.shape
  length : result.data.length = call.output.data.length
  added : ∀ b < call.segments.batches, ∀ t, call.segments.Row b t → ∀ c < call.outputCols,
    result.data[t * call.outputCols + c]? = some (call.y t c +
      if call.segments.loraIndex b ≠ -1 ∧ call.sliceOffset ≤ c ∧
        c < call.sliceOffset + call.sliceSize
      then call.lowRank (call.segments.loraIndex b).toNat t (c - call.sliceOffset) else 0)
  kept : ∀ t < call.numRows, (∀ b < call.segments.batches, ¬call.segments.Row b t) →
    ∀ c < call.outputCols, result.data[t * call.outputCols + c]? = some (call.y t c)

section Call

variable {call : LoraCall R} {blocks : Nat × Nat}

/-- The arguments of the shrink launch. -/
def LoraCall.shrink (call : LoraCall R) (blocks : Nat × Nat) : KernelArgs R :=
  kernelArgs call.inputs call.loraA call.segments call.hidden call.rank call.hidden call.rank
    blocks 32 (call.hidden % (32 * 8) == 0)

/-- The arguments of the expand launch that reads `buffer`. -/
def LoraCall.expand (call : LoraCall R) (buffer : Contiguous R) (blocks : Nat × Nat) :
    KernelArgs R :=
  kernelArgs buffer call.loraB call.segments call.rank call.sliceSize call.rank call.outputCols
    blocks 16 (call.rank % 16 == 0)

theorem shrink_ready (hcall : call.WellFormed) (hblockM : 0 < blocks.1) (hblockN : 0 < blocks.2) :
    (call.shrink blocks).AllReady call.segments.tokenNums call.numLoras call.segments.tokenNums
      call.rank 0 call.x call.a where
  segments := hcall.segments
  describes := kernelArgs_describes (holds_matrix hcall.inputs 0) (holds_weights hcall.loraA 0)
    hblockM hblockN
  rows := le_rfl
  outputRows := le_rfl
  slice := (Nat.zero_add _).le

/-- The contents of the buffer between the two launches. -/
def LoraCall.shrunk (call : LoraCall R) (t r : Nat) : R :=
  0 + ∑ b ∈ Finset.range call.segments.batches,
    if (call.segments.loraIndex b ≠ -1 ∧ call.segments.Row b t) ∧ r < call.rank then
      (∑ h ∈ Finset.range call.hidden,
        call.x t h * call.a ((call.segments.loraIndex b).toNat * call.rank + r) h) * call.scaling
    else 0

theorem expand_ready (hcall : call.WellFormed) (hblockM : 0 < blocks.1) (hblockN : 0 < blocks.2)
    {buffer : Contiguous R}
    (hbuffer : Holds buffer.data call.segments.tokenNums call.rank call.shrunk) :
    (call.expand buffer blocks).AllReady call.segments.tokenNums call.numLoras call.numRows
      call.outputCols call.sliceOffset call.shrunk call.b where
  segments := hcall.segments
  describes := kernelArgs_describes hbuffer (holds_weights hcall.loraB 0) hblockM hblockN
  rows := le_rfl
  outputRows := hcall.rows
  slice := hcall.slice

theorem shrink_writes (hcall : call.WellFormed) (hblockM : 0 < blocks.1) (hblockN : 0 < blocks.2)
    {pid pidSk b : Nat} (hpidSk : pidSk < 8) (hb : b < call.segments.batches)
    (unspecified : Unspecified R) :
    WritesOnly ((call.shrink blocks).sgmvShrinkKernelMlu call.scaling 8 unspecified pid pidSk b)
      call.segments.tokenNums call.rank fun t _ => call.segments.Row b t := by
  intro data entry hholds
  obtain ⟨next, hnext, hwritten⟩ := @KernelArgs.shrinkKernel_returns _ _ _ _ _ _ _ _ pid _ _ _ _
    _ _ _ _ ((shrink_ready hcall hblockM hblockN).ready hb) 8 (shrink_steps hpidSk) (by decide)
    call.scaling unspecified hholds
  refine ⟨next, _, hnext, hwritten, fun t c houtside => ?_⟩
  rw [KernelArgs.segmentPart_outside, add_zero]
  exact fun hinside => houtside hinside.1

theorem expand_writes (hcall : call.WellFormed) (hblockM : 0 < blocks.1) (hblockN : 0 < blocks.2)
    {buffer : Contiguous R}
    (hbuffer : Holds buffer.data call.segments.tokenNums call.rank call.shrunk) {pid b : Nat}
    (hb : b < call.segments.batches) (unspecified : Unspecified R) :
    WritesOnly ((call.expand buffer blocks).sgmvExpandSliceKernelMlu call.sliceOffset true
      unspecified pid b) call.numRows call.outputCols fun t c => call.segments.Row b t ∧
        call.sliceOffset ≤ c ∧ c < call.sliceOffset + call.sliceSize := by
  intro data entry hholds
  obtain ⟨next, hnext, hwritten⟩ := @KernelArgs.expandKernel_returns _ _ _ _ _ _ _ _ _ pid _ _ _
    _ _ _ _ ((expand_ready hcall hblockM hblockN hbuffer).ready hb) expand_steps unspecified hholds
  refine ⟨next, _, hnext, hwritten, fun t c houtside => ?_⟩
  rw [KernelArgs.segmentPart_outside, add_zero]
  exact houtside

/-- The product of both launches, at a row of a segment with a LoRA. -/
theorem wholeSum_shrunk (hcall : call.WellFormed) {buffer : Contiguous R} {b t : Nat}
    (hb : b < call.segments.batches) (hrow : call.segments.Row b t)
    (hindex : call.segments.loraIndex b ≠ -1) (c : Nat) :
    (call.expand buffer blocks).wholeSum call.shrunk call.b (call.segments.loraIndex b) t c =
      call.lowRank (call.segments.loraIndex b).toNat t c := by
  apply Finset.sum_congr rfl
  intro r hr
  have hr : r < call.rank := Finset.mem_range.mp hr
  have hsum := hcall.segments.sum_segments hb hrow (r < call.rank) fun b =>
    (∑ h ∈ Finset.range call.hidden,
      call.x t h * call.a ((call.segments.loraIndex b).toNat * call.rank + r) h) * call.scaling
  rw [LoraCall.shrunk, hsum, if_pos ⟨hindex, hr⟩, zero_add, mul_comm, mul_comm _ call.scaling]
  simp only [mul_comm (call.x t _)]
  rfl

/-- The shrink function leaves the products with `A` in a zeroed buffer. -/
theorem sgmvShrink_returns (hcall : call.WellFormed)
    (hblocks : adjustKernelBlockSize call.segments.maxSeqLength 32 call.rank 16 = .ok blocks)
    (order : LaunchOrder) (unspecified : Nat → Nat → Nat → Unspecified R) :
    ∃ data, sgmvShrinkMlu order unspecified call.inputs call.loraA
        (.zeros [call.segments.tokenNums, call.rank]) call.segments call.scaling =
          .ok ⟨[call.segments.tokenNums, call.rank], data⟩ ∧
      Holds data call.segments.tokenNums call.rank call.shrunk := by
  obtain ⟨hblockM, hblockN, -⟩ := adjustKernelBlockSize_ok (by decide) (by decide) hblocks
  have hargs := shrinkArgs_eq hcall.segments hcall.inputs hcall.loraA
    (matrix_zeros call.segments.tokenNums call.rank) hblocks
  have hzeros : Holds (Contiguous.zeros [call.segments.tokenNums, call.rank]).data
      call.segments.tokenNums call.rank fun _ _ => (0 : R) := by
    have hholds := Holds.replicate call.segments.tokenNums call.rank (0 : R)
    simpa [Contiguous.zeros] using hholds
  obtain ⟨data, hdata, hshrunk⟩ := KernelArgs.shrink_launch
    (shrink_ready hcall hblockM hblockN) (fun _ hpidSk => shrink_steps hpidSk)
    (Nat.succ_pos 31) (by decide) (order ((call.shrink blocks).gridWidth * 8 * call.segments.batches)) call.scaling
    unspecified hzeros
  refine ⟨data, bind_eq_ok.mpr ⟨_, hargs, bind_eq_ok.mpr ⟨data, ?_, rfl⟩⟩, hshrunk⟩
  exact congrArg (Except.mapError LoraError.kernel) hdata

/-- The expand function adds the products with `B`. -/
theorem sgmvExpand_returns (hcall : call.WellFormed)
    (hblocks : adjustKernelBlockSize call.segments.maxSeqLength 32 call.sliceSize 32 = .ok blocks)
    {buffer : Contiguous R} (hmatrix : buffer.Matrix call.segments.tokenNums call.rank)
    (hbuffer : Holds buffer.data call.segments.tokenNums call.rank call.shrunk)
    (order : LaunchOrder) (unspecified : Nat → Nat → Unspecified R) :
    ∃ data, sgmvExpandSliceMlu order unspecified buffer call.loraB call.output call.segments
        call.sliceOffset call.sliceSize true = .ok { call.output with data := data } ∧
      Holds data call.numRows call.outputCols fun t c => call.y t c +
        ∑ b ∈ Finset.range call.segments.batches,
          if (call.segments.loraIndex b ≠ -1 ∧ call.segments.Row b t) ∧
            call.sliceOffset ≤ c ∧ c < call.sliceOffset + call.sliceSize then
            (call.expand buffer blocks).wholeSum call.shrunk call.b (call.segments.loraIndex b) t
              (c - call.sliceOffset) else 0 := by
  obtain ⟨hblockM, hblockN, -⟩ := adjustKernelBlockSize_ok (by decide) (by decide) hblocks
  have hargs := expandArgs_eq hcall.segments hmatrix hcall.loraB hcall.output hblocks
  obtain ⟨data, hdata, hexpanded⟩ := KernelArgs.expand_launch
    (expand_ready hcall hblockM hblockN hbuffer) expand_steps (Nat.succ_pos 15)
    (order ((call.expand buffer blocks).gridWidth * call.segments.batches * 1)) unspecified
    (holds_matrix hcall.output 0)
  refine ⟨data, bind_eq_ok.mpr ⟨_, hargs, bind_eq_ok.mpr ⟨data, ?_, rfl⟩⟩, hexpanded⟩
  exact congrArg (Except.mapError LoraError.kernel) hdata

/-- The two kernels add `B_l (scaling * A_l x_t)` to the slice of every row of a segment with
LoRA `l`, whatever the order of their programs and the values of unspecified lanes. -/
theorem sgmv_adds_lora (call : LoraCall R) (hcall : call.WellFormed)
    (shrinkBlocks expandBlocks : Nat × Nat)
    (hshrink : adjustKernelBlockSize call.segments.maxSeqLength 32 call.rank 16 =
      .ok shrinkBlocks)
    (hexpand : adjustKernelBlockSize call.segments.maxSeqLength 32 call.sliceSize 32 =
      .ok expandBlocks)
    (shrinkOrder expandOrder : LaunchOrder)
    (unspecifiedShrink : Nat → Nat → Nat → Unspecified R)
    (unspecifiedExpand : Nat → Nat → Unspecified R) :
    ∃ shrink expand buffer result,
      shrinkArgs call.inputs call.loraA (.zeros [call.segments.tokenNums, call.rank])
        call.segments = .ok shrink ∧
      sgmvShrinkMlu shrinkOrder unspecifiedShrink call.inputs call.loraA
        (.zeros [call.segments.tokenNums, call.rank]) call.segments call.scaling = .ok buffer ∧
      expandArgs buffer call.loraB call.output call.segments call.sliceSize = .ok expand ∧
      sgmvExpandSliceMlu expandOrder unspecifiedExpand buffer call.loraB call.output call.segments
        call.sliceOffset call.sliceSize true = .ok result ∧
      AddsLora call shrink expand unspecifiedShrink unspecifiedExpand result := by
  obtain ⟨hshrinkM, hshrinkN, hshrinkGrid⟩ :=
    adjustKernelBlockSize_ok (by decide) (by decide) hshrink
  obtain ⟨hexpandM, hexpandN, hexpandGrid⟩ :=
    adjustKernelBlockSize_ok (by decide) (by decide) hexpand
  obtain ⟨shrunk, hshrunk, hbuffer⟩ :=
    sgmvShrink_returns hcall hshrink shrinkOrder unspecifiedShrink
  have hmatrix := matrix_of_holds hbuffer
  obtain ⟨data, hdata, hresult⟩ :=
    sgmvExpand_returns hcall hexpand hmatrix hbuffer expandOrder unspecifiedExpand
  refine ⟨call.shrink shrinkBlocks, call.expand ⟨_, shrunk⟩ expandBlocks, _, _,
    shrinkArgs_eq hcall.segments hcall.inputs hcall.loraA (matrix_zeros _ _) hshrink, hshrunk,
    expandArgs_eq hcall.segments hmatrix hcall.loraB hcall.output hexpand, hdata, ?_⟩
  constructor
  case shrinkGrid => exact hshrinkGrid
  case expandGrid => exact hexpandGrid
  case shrinkWrites =>
    intro pid _ pidSk hpidSk b hb
    exact shrink_writes hcall hshrinkM hshrinkN hpidSk hb _
  case expandWrites =>
    intro pid _ b hb
    exact expand_writes hcall hexpandM hexpandN hbuffer hb _
  case shape => rfl
  case length => rw [hresult.length, (holds_matrix hcall.output 0).length]
  case added =>
    intro b hb t hrow c hc
    have hlt : t < call.numRows :=
      (hrow.2.trans_le (hcall.segments.stop_le hb)).trans_le hcall.rows
    rw [hresult.get t hlt c hc, hcall.segments.sum_segments hb hrow]
    by_cases hindex : call.segments.loraIndex b ≠ -1
    · rw [wholeSum_shrunk hcall hb hrow hindex]
    · rw [if_neg fun hinside => hindex hinside.1, if_neg fun hinside => hindex hinside.1]
  case kept =>
    intro t ht hnone c hc
    rw [hresult.get t ht c hc, Finset.sum_eq_zero, add_zero]
    intro b hb
    exact if_neg fun hinside => hnone b (Finset.mem_range.mp hb) hinside.1.2

end Call

/-- A segment of two rows, an empty one and one without a LoRA; two LoRAs of rank one. -/
def threeSegments : LoraCall Int where
  segments := ⟨[0, 2, 2], [2, 0, 1], [1, 0, -1], 3, 2, 3⟩
  numLoras := 2
  hidden := 2
  rank := 1
  numRows := 3
  outputCols := 3
  sliceOffset := 1
  sliceSize := 2
  inputs := ⟨[3, 2], [1, 2, 3, 4, 5, 6]⟩
  loraA := ⟨[2, 1, 1, 2], [1, 1, 2, -1]⟩
  loraB := ⟨[2, 2, 1], [1, 1, 3, 5]⟩
  output := ⟨[3, 3], [10, 20, 30, 40, 50, 60, 70, 80, 90]⟩
  scaling := 2

theorem threeSegments_wellFormed : threeSegments.WellFormed where
  segments :=
    { starts := rfl
      batches := rfl
      indices := rfl
      longest := by decide
      total := rfl
      lora := by decide }
  inputs := ⟨rfl, rfl⟩
  loraA := ⟨.inr rfl, rfl⟩
  loraB := ⟨.inl rfl, rfl⟩
  output := ⟨rfl, rfl⟩
  rows := by decide
  slice := by decide

/-- The programs of a grid, the last one first. -/
def lastFirst : LaunchOrder := fun numPrograms =>
  ⟨(List.range numPrograms).reverse, List.reverse_perm _⟩

/-- Unspecified lanes that hold large values. -/
theorem sgmv_three_segments :
    ∃ shrink expand buffer result,
      shrinkArgs threeSegments.inputs threeSegments.loraA (.zeros [3, 1])
        threeSegments.segments = .ok shrink ∧
      sgmvShrinkMlu lastFirst (fun _ _ _ _ _ _ => 99) threeSegments.inputs threeSegments.loraA
        (.zeros [3, 1]) threeSegments.segments threeSegments.scaling = .ok buffer ∧
      expandArgs buffer threeSegments.loraB threeSegments.output threeSegments.segments 2 =
        .ok expand ∧
      sgmvExpandSliceMlu lastFirst (fun _ _ _ _ _ => 77) buffer threeSegments.loraB
        threeSegments.output threeSegments.segments 1 2 true = .ok result ∧
      AddsLora threeSegments shrink expand (fun _ _ _ _ _ _ => 99) (fun _ _ _ _ _ => 77) result :=
  sgmv_adds_lora threeSegments threeSegments_wellFormed (32, 16) (32, 32) rfl rfl lastFirst
    lastFirst _ _

end VllmMlu.Lora
