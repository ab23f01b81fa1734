import VllmMlu.Library.Tiles
import VllmMlu.Moe.AlignBlockSize

/-! The two kernels that apply the low-rank weights of each segment of a batch, and their
launches. -/
namespace VllmMlu.Lora
open VllmMlu.Library VllmMlu.Library.Kernel
open VllmMlu.Moe (cdiv)

inductive LoraError where
  | assertion
  | kernel (error : KernelError)
  | valueError (message : String)
deriving DecidableEq, Repr

def mluMaxGridSize : Nat := 65536

def candidatesList : List Nat := [16, 32, 64, 96, 128, 192, 256]

/-- The loop of `adjust_kernel_block_size`, on the candidates from `m_idx` and from `n_idx` on. -/
def adjustLoop (m n : Nat) : List Nat → List Nat → Nat × Nat → Nat × Nat
  | blockM :: restM, blockN :: restN, _ =>
      if cdiv m blockM * cdiv n blockN < mluMaxGridSize then (blockM, blockN)
      else adjustLoop m n restM restN (blockM, blockN)
  | _, _, blocks => blocks

def adjustKernelBlockSize (m blockM n blockN : Nat) : Except LoraError (Nat × Nat) :=
  let nIdx := if blockN = 16 then 0 else 1
  let blocks := adjustLoop m n (candidatesList.drop 1) (candidatesList.drop nIdx) (blockM, blockN)
  if mluMaxGridSize ≤ cdiv m blocks.1 * cdiv n blocks.2 then
    throw (.valueError s!"the max seq len {m} is too long for lora triton kernel")
  else pure blocks

/-- The segments of a batch; a LoRA index of −1 means none. -/
structure PrefillMetadata where
  bSeqStartLoc : List Nat
  seqLenTensor : List Nat
  loraIndicesTensor : List Int
  batches : Nat
  maxSeqLength : Nat
  tokenNums : Nat

/-- The values of masked lanes that are loaded without `other`: any, at each load of each
program. -/
abbrev Unspecified (R : Type) := Nat → Nat → Nat → R

/-- The arguments that both kernels take. -/
structure KernelArgs (R : Type) where
  input : List R
  lora : List R
  n : Nat
  k : Nat
  segments : PrefillMetadata
  xmStride : Nat
  xkStride : Nat
  l0Stride : Nat
  loraKStride : Nat
  loraNStride : Nat
  cmStride : Nat
  cnStride : Nat
  blockM : Nat
  blockN : Nat
  blockK : Nat
  evenK : Bool

/-- Where a program works: a tile of a segment. -/
structure SegmentTile where
  pidM : Nat
  pidN : Nat
  m : Nat
  loraIndex : Int
  curSeqStart : Nat

namespace KernelArgs

variable {R : Type}

/-- The start of both kernels; `none` where they return at once. -/
def tile? (args : KernelArgs R) (pid curBatch : Nat) : Except KernelError (Option SegmentTile) := do
  let ctaNNum := cdiv args.n args.blockN
  let pidM := pid / ctaNNum
  let pidN := pid % ctaNNum
  let m ← load args.segments.seqLenTensor curBatch
  if m < pidM * args.blockM then pure none
  else
    let loraIndex ← load args.segments.loraIndicesTensor curBatch
    if loraIndex = -1 then pure none
    else
      let curSeqStart ← load args.segments.bSeqStartLoc curBatch
      pure (some ⟨pidM, pidN, m, loraIndex, curSeqStart⟩)

def aLanes (args : KernelArgs R) (tile : SegmentTile) (offsetK step turn : Nat) : Lanes where
  rows := args.blockM
  cols := args.blockK
  ptr i j := tile.curSeqStart * args.xmStride + (i + tile.pidM * args.blockM) * args.xmStride +
    (offsetK + j) * args.xkStride + turn * (step * args.xkStride)
  mask i j := (args.evenK || decide (offsetK + j < args.k - turn * step)) &&
    decide (i + tile.pidM * args.blockM < tile.m)

def bLanes (args : KernelArgs R) (tile : SegmentTile) (offsetK step turn : Nat) : Lanes where
  rows := args.blockK
  cols := args.blockN
  ptr i j := args.l0Stride * tile.loraIndex.toNat +
    (j + tile.pidN * args.blockN) * args.loraKStride + (offsetK + i) * args.loraNStride +
    turn * (step * args.loraNStride)
  mask i j := (args.evenK || decide (offsetK + i < args.k - turn * step)) &&
    decide (j + tile.pidN * args.blockN < args.n)

/-- `c_ptr` and `c_mask`. -/
def cLanes (args : KernelArgs R) (tile : SegmentTile) (sliceOffset : Nat) : Lanes where
  rows := args.blockM
  cols := args.blockN
  ptr i j := (tile.curSeqStart + i + tile.pidM * args.blockM) * args.cmStride +
    (j + tile.pidN * args.blockN + sliceOffset) * args.cnStride
  mask i j := decide (tile.curSeqStart + i + tile.pidM * args.blockM < tile.curSeqStart + tile.m) &&
    decide (j + tile.pidN * args.blockN + sliceOffset < sliceOffset + args.n)

variable [CommSemiring R]

/-- The values of masked lanes: zero in the uneven case, where the loads have `other`. -/
def masked (args : KernelArgs R) (unspecified : Unspecified R) (number : Nat) : Nat → Nat → R :=
  if args.evenK then unspecified number else fun _ _ => 0

/-- A turn of the loop over `k`. -/
def accumulateTurn (args : KernelArgs R) (unspecified : Unspecified R) (tile : SegmentTile)
    (offsetK step : Nat) (accumulator : Nat → Nat → R) (turn : Nat) :
    Except KernelError (Nat → Nat → R) := do
  let tiledA ← (args.aLanes tile offsetK step turn).load args.input
    (args.masked unspecified (2 * turn))
  let tiledB ← (args.bLanes tile offsetK step turn).load args.lora
    (args.masked unspecified (2 * turn + 1))
  pure fun i j => accumulator i j + dot args.blockK tiledA tiledB i j

/-- The loop over `k`, in steps of `step` from `offsetK` on. A negative index other than −1
points in front of the weights. -/
def accumulate (args : KernelArgs R) (unspecified : Unspecified R) (tile : SegmentTile)
    (offsetK step : Nat) : Except KernelError (Nat → Nat → R) :=
  if tile.loraIndex < 0 then throw .outOfBounds
  else (List.range' 0 (cdiv args.k step)).foldlM
    (args.accumulateTurn unspecified tile offsetK step) fun _ _ => 0

/-- One program of the shrink kernel, on the contents of `out_ptr`. -/
def sgmvShrinkKernelMlu (args : KernelArgs R) (scaling : R) (splitK : Nat)
    (unspecified : Unspecified R) (pid pidSk curBatch : Nat) (out : List R) :
    Except KernelError (List R) := do
  match ← args.tile? pid curBatch with
  | none => pure out
  | some tile =>
    let accumulator ← args.accumulate unspecified tile (pidSk * args.blockK) (args.blockK * splitK)
    let value := fun i j => accumulator i j * scaling
    if splitK = 1 then (args.cLanes tile 0).store value out
    else (args.cLanes tile 0).atomicAdd value out

/-- One program of the expand kernel. -/
def sgmvExpandSliceKernelMlu (args : KernelArgs R) (sliceOffset : Nat) (addInputs : Bool)
    (unspecified : Unspecified R) (pid curBatch : Nat) (out : List R) :
    Except KernelError (List R) := do
  match ← args.tile? pid curBatch with
  | none => pure out
  | some tile =>
    let tiledC ← args.accumulate unspecified tile 0 args.blockK
    let lanes := args.cLanes tile sliceOffset
    if addInputs then
      let tiledOut ← lanes.load out (unspecified (2 * cdiv args.k args.blockK))
      lanes.store (fun i j => tiledC i j + tiledOut i j) out
    else lanes.store tiledC out

end KernelArgs

/-- A tensor for which `is_contiguous()` holds. -/
structure Contiguous (R : Type) where
  shape : List Nat
  data : List R

namespace Contiguous

variable {R : Type}

def zeros [Zero R] (shape : List Nat) : Contiguous R := ⟨shape, List.replicate shape.prod 0⟩

def matrixSizes (tensor : Contiguous R) : Except LoraError (Nat × Nat) :=
  match tensor.shape with
  | [rows, cols] => pure (rows, cols)
  | _ => throw .assertion

/-- The sizes of stacked weights, without a second dimension of one. -/
def weightSizes (weights : Contiguous R) : Except LoraError (Nat × Nat × Nat) :=
  match weights.shape with
  | [loraNum, one, n, k] => if one = 1 then pure (loraNum, n, k) else throw .assertion
  | [loraNum, n, k] => pure (loraNum, n, k)
  | _ => throw .assertion

end Contiguous

def check (condition : Bool) : Except LoraError Unit :=
  if condition then pure () else throw .assertion

section Launches

variable {R : Type}

/-- The arguments for inputs, weights and an output of the given sizes. -/
def kernelArgs (inputs weights : Contiguous R) (segments : PrefillMetadata)
    (inputCols n k outputCols : Nat) (blocks : Nat × Nat) (blockK : Nat) (evenK : Bool) :
    KernelArgs R where
  input := inputs.data
  lora := weights.data
  n := n
  k := k
  segments := segments
  xmStride := inputCols
  xkStride := 1
  l0Stride := n * k
  loraKStride := k
  loraNStride := 1
  cmStride := outputCols
  cnStride := 1
  blockM := blocks.1
  blockN := blocks.2
  blockK := blockK
  evenK := evenK

/-- The first dimension of both grids. -/
def KernelArgs.gridWidth (args : KernelArgs R) : Nat :=
  cdiv args.segments.maxSeqLength args.blockM * cdiv args.n args.blockN

/-- The checks of `sgmv_shrink_mlu`, and what it launches its kernel with. -/
def shrinkArgs (inputs loraAWeights outputTensor : Contiguous R) (segments : PrefillMetadata) :
    Except LoraError (KernelArgs R) := do
  let (size0, size1) ← inputs.matrixSizes
  let (_, n, k) ← loraAWeights.weightSizes
  let (_, outputCols) ← outputTensor.matrixSizes
  check (size0 == segments.tokenNums)
  check (size1 == k)
  check (segments.bSeqStartLoc.length == segments.batches)
  check (segments.loraIndicesTensor.length == segments.batches)
  let blocks ← adjustKernelBlockSize segments.maxSeqLength 32 n 16
  pure (kernelArgs inputs loraAWeights segments size1 n k outputCols blocks 32 (k % (32 * 8) == 0))

/-- The checks of `sgmv_expand_slice_mlu`, and what it launches its kernel with. -/
def expandArgs (inputs loraBWeights outputTensor : Contiguous R) (segments : PrefillMetadata)
    (sliceSize : Nat) : Except LoraError (KernelArgs R) := do
  let (size0, size1) ← inputs.matrixSizes
  let (_, n, k) ← loraBWeights.weightSizes
  let (_, outputCols) ← outputTensor.matrixSizes
  check (size0 == segments.tokenNums)
  check (size1 == k)
  check (segments.bSeqStartLoc.length == segments.batches)
  check (segments.loraIndicesTensor.length == segments.batches)
  check (sliceSize == n)
  let blocks ← adjustKernelBlockSize segments.maxSeqLength 32 n 32
  pure (kernelArgs inputs loraBWeights segments size1 n k outputCols blocks 16 (k % 16 == 0))

variable [CommSemiring R]

def sgmvShrinkMlu (order : LaunchOrder) (unspecified : Nat → Nat → Nat → Unspecified R)
    (inputs loraAWeights outputTensor : Contiguous R) (segments : PrefillMetadata) (scaling : R) :
    Except LoraError (Contiguous R) := do
  let args ← shrinkArgs inputs loraAWeights outputTensor segments
  let data ← (launchGrid (order (args.gridWidth * 8 * segments.batches))
    (fun pid pidSk curBatch => args.sgmvShrinkKernelMlu scaling 8 (unspecified pid pidSk curBatch)
      pid pidSk curBatch) outputTensor.data).mapError .kernel
  pure { outputTensor with data := data }

def sgmvExpandSliceMlu (order : LaunchOrder) (unspecified : Nat → Nat → Unspecified R)
    (inputs loraBWeights outputTensor : Contiguous R) (segments : PrefillMetadata)
    (sliceOffset sliceSize : Nat) (addInputs : Bool) : Except LoraError (Contiguous R) := do
  let args ← expandArgs inputs loraBWeights outputTensor segments sliceSize
  let data ← (launchGrid (order (args.gridWidth * segments.batches * 1))
    (fun pid curBatch _ => args.sgmvExpandSliceKernelMlu sliceOffset addInputs
      (unspecified pid curBatch) pid curBatch) outputTensor.data).mapError .kernel
  pure { outputTensor with data := data }

end Launches

end VllmMlu.Lora
