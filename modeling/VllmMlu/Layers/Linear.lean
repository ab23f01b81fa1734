import Mathlib
import VllmMlu.Library.Tensor

/-! Linear layers that keep their full weights and a tensor-parallel copy of them. -/
namespace VllmMlu.Layers
open VllmMlu.Library

/-- The parts of a per-token SmoothQuant method that the layers read; `groupSize` is given for a
group quantisation. -/
structure SmoothQuantConfig where
  packFactor : Nat
  packFactor_pos : 0 < packFactor
  groupSize : Option Nat
  hasSmooth : Bool
  isFp8 : Bool

inductive QuantMethod where
  | unquantized
  | smoothQuant (config : SmoothQuantConfig)

namespace QuantMethod

/-- The columns of a weight that stands for `inputSize` inputs. -/
def weightCols (quant : QuantMethod) (inputSize : Nat) : Nat :=
  match quant with
  | unquantized => inputSize
  | smoothQuant config => inputSize / config.packFactor

def groupSize (quant : QuantMethod) : Option Nat :=
  match quant with
  | unquantized => none
  | smoothQuant config => config.groupSize

def hasSmooth (quant : QuantMethod) : Bool :=
  match quant with
  | unquantized => false
  | smoothQuant config => config.hasSmooth

/-- A scale for each output, or for each output and group. -/
def scaleCols (quant : QuantMethod) (inputSize : Nat) : Nat :=
  match quant.groupSize with
  | none => 1
  | some groupSize => (inputSize + groupSize - 1) / groupSize

/-- What `create_weights` checks. -/
def createWeights (quant : QuantMethod) (inputSize outputSize : Nat) : Bool :=
  match quant with
  | unquantized => true
  | smoothQuant config =>
    outputSize % config.packFactor == 0 &&
      match config.groupSize with
      | none => true
      | some groupSize => inputSize % groupSize == 0

end QuantMethod

/-- The loaders that the layers had before: one copies a shard into its rows of a parameter, the
other one a whole parameter. -/
structure OriginalLoaders (α : Type) where
  fillShard (outputSizes : List Nat) (param : Tensor α) (shardId : Nat) (loaded : Tensor α) :
    Option (Tensor α)
  fillWhole (param loaded : Tensor α) : Option (Tensor α)

/-- Where a shard starts among the outputs. -/
def shardStart (outputSizes : List Nat) (shardId : Nat) : Nat := (outputSizes.take shardId).sum

structure OriginalLoaders.FillWeights {α : Type} (org : OriginalLoaders α) : Prop where
  fillShard : ∀ outputSizes param shardId loaded size, outputSizes[shardId]? = some size →
    param.rows = outputSizes.sum → loaded.rows = size → loaded.cols = param.cols →
    loaded.isVector = param.isVector →
    org.fillShard outputSizes param shardId loaded = some
      { param with
        entry := fun i j =>
          if shardStart outputSizes shardId ≤ i ∧ i < shardStart outputSizes shardId + size then
            loaded.entry (i - shardStart outputSizes shardId) j
          else param.entry i j }
  fillWhole : ∀ param loaded, Tensor.SameShape loaded param →
    org.fillWhole param loaded = some { param with entry := loaded.entry }

/-- The parameters of a linear layer that a checkpoint has tensors for. -/
inductive LinearParam where
  | weight
  | perChannelScale
  | smooth
  deriving DecidableEq

section Merged

/-- The attribute `output_dim`. -/
def LinearParam.outputDim : LinearParam → Option Nat
  | weight => some 0
  | perChannelScale => some 0
  | smooth => none

structure MergedColumnParallelLinear where
  inputSize : Nat
  outputSizes : List Nat
  quantMethod : QuantMethod
  tpWorldSizeOrg : Nat

/-- With `keep_full_weights` the layer's own `tp_size` is 1. -/
def MergedColumnParallelLinear.init (inputSize : Nat) (outputSizes : List Nat)
    (quantMethod : QuantMethod) (tpWorldSizeOrg : Nat) : Option MergedColumnParallelLinear :=
  if quantMethod.createWeights inputSize outputSizes.sum &&
      outputSizes.sum % tpWorldSizeOrg == 0 then
    some { inputSize, outputSizes, quantMethod, tpWorldSizeOrg }
  else none

/-- `weight` stands for `qweight` as well, and `tpWeight` for `tp_qweight`. -/
structure MergedParams (α : Type) where
  weight : Tensor α
  perChannelScale : Tensor α
  smooth : Tensor α
  tpWeight : Tensor α
  tpPerChannelScale : Tensor α

namespace MergedColumnParallelLinear

variable {α : Type}

/-- The original loader, for a shard. -/
def fillParam (self : MergedColumnParallelLinear) (org : OriginalLoaders α) (param : LinearParam)
    (loadedWeight : Tensor α) (shardId : Nat) (params : MergedParams α) :
    Option (MergedParams α) :=
  match param with
  | .weight => do
      let weight ← org.fillShard self.outputSizes params.weight shardId loadedWeight
      some { params with weight }
  | .perChannelScale => do
      let perChannelScale ←
        org.fillShard self.outputSizes params.perChannelScale shardId loadedWeight
      some { params with perChannelScale }
  | .smooth => do
      let smooth ← org.fillWhole params.smooth loadedWeight
      some { params with smooth }

/-- What the loader does after the original one. -/
def loadTp (self : MergedColumnParallelLinear) (tpRank : Nat) (param : LinearParam)
    (loadedWeight : Tensor α) (loadedShardId : Option Nat) (params : MergedParams α) :
    Option (MergedParams α) := do
  -- `output_sizes[None]` raises
  let shardId ← loadedShardId
  let outputSize ← self.outputSizes[shardId]?
  let shardOffset := shardStart self.outputSizes shardId / self.tpWorldSizeOrg
  let shardSize := outputSize / self.tpWorldSizeOrg
  let startIdx := tpRank * shardSize
  match self.quantMethod with
  | .unquantized => do
      let outputDim ← param.outputDim
      let slice ← loadedWeight.narrow? outputDim startIdx shardSize
      let tpWeight ← params.tpWeight.copyInto? outputDim shardOffset shardSize slice
      some { params with tpWeight }
  | .smoothQuant _ =>
      match param.outputDim with
      | none => some params
      | some outputDim => do
          let slice ← loadedWeight.narrow? outputDim startIdx shardSize
          if loadedWeight.ndim = 1 then do
            let tpPerChannelScale ←
              params.tpPerChannelScale.copyInto? outputDim shardOffset shardSize slice
            some { params with tpPerChannelScale }
          else do
            let tpWeight ← params.tpWeight.copyInto? outputDim shardOffset shardSize slice
            some { params with tpWeight }

def loadShard (self : MergedColumnParallelLinear) (org : OriginalLoaders α) (tpRank : Nat)
    (param : LinearParam) (loadedWeight : Tensor α) (shardId : Nat) (params : MergedParams α) :
    Option (MergedParams α) := do
  let params ← self.fillParam org param loadedWeight shardId params
  self.loadTp tpRank param loadedWeight (some shardId) params

/-- For a fused tensor the original loader calls this one for each shard. -/
def weightLoader (self : MergedColumnParallelLinear) (org : OriginalLoaders α) (tpRank : Nat)
    (param : LinearParam) (loadedWeight : Tensor α) (loadedShardId : Option Nat)
    (params : MergedParams α) : Option (MergedParams α) :=
  match loadedShardId with
  | some shardId => self.loadShard org tpRank param loadedWeight shardId params
  | none => do
      let params ← self.outputSizes.zipIdx.foldlM (fun params entry => do
        let part ←
          match param.outputDim with
          | none => some loadedWeight
          | some outputDim =>
              loadedWeight.narrow? outputDim (shardStart self.outputSizes entry.2) entry.1
        self.loadShard org tpRank param part entry.2 params) params
      self.loadTp tpRank param loadedWeight none params

end MergedColumnParallelLinear

end Merged

section Row

/-- The attribute `input_dim`. -/
def LinearParam.inputDim (quant : QuantMethod) : LinearParam → Option Nat
  | weight => some 1
  | perChannelScale => quant.groupSize.map fun _ => 1
  | smooth => some 0

structure RowParallelLinear where
  inputSize : Nat
  outputSize : Nat
  quantMethod : QuantMethod
  tpWorldSizeOrg : Nat

def RowParallelLinear.init (inputSize outputSize : Nat) (quantMethod : QuantMethod)
    (tpWorldSizeOrg : Nat) : Option RowParallelLinear :=
  if quantMethod.createWeights inputSize outputSize &&
      quantMethod.weightCols inputSize % tpWorldSizeOrg == 0 &&
      (!quantMethod.hasSmooth || inputSize % tpWorldSizeOrg == 0) then
    some { inputSize, outputSize, quantMethod, tpWorldSizeOrg }
  else none

structure RowParams (α : Type) where
  weight : Tensor α
  perChannelScale : Tensor α
  smooth : Tensor α
  tpWeight : Tensor α
  tpSmooth : Tensor α

namespace RowParallelLinear

variable {α : Type}

def fillParam (org : OriginalLoaders α) (param : LinearParam) (loadedWeight : Tensor α)
    (params : RowParams α) : Option (RowParams α) :=
  match param with
  | .weight => do
      let weight ← org.fillWhole params.weight loadedWeight
      some { params with weight }
  | .perChannelScale => do
      let perChannelScale ← org.fillWhole params.perChannelScale loadedWeight
      some { params with perChannelScale }
  | .smooth => do
      let smooth ← org.fillWhole params.smooth loadedWeight
      some { params with smooth }

def weightLoader (self : RowParallelLinear) (org : OriginalLoaders α) (tpRank : Nat)
    (param : LinearParam) (loadedWeight : Tensor α) (params : RowParams α) :
    Option (RowParams α) := do
  let params ← fillParam org param loadedWeight params
  match param.inputDim self.quantMethod with
  | none => some params
  | some inputDim => do
      let size ← loadedWeight.size? inputDim
      -- the assertion of `divide`
      if size % self.tpWorldSizeOrg ≠ 0 then none
      else
        let shardSize := size / self.tpWorldSizeOrg
        let startIdx := tpRank * shardSize
        match self.quantMethod with
        | .unquantized => do
            let shardView ← params.weight.narrow? inputDim startIdx shardSize
            let tpWeight ← params.tpWeight.copy? shardView
            some { params with tpWeight }
        | .smoothQuant _ =>
            if loadedWeight.ndim = 1 then do
              let shardView ← params.smooth.narrow? inputDim startIdx shardSize
              let tpSmooth ← params.tpSmooth.copy? shardView
              some { params with tpSmooth }
            else do
              let shardView ← params.weight.narrow? inputDim startIdx shardSize
              let tpWeight ← params.tpWeight.copy? shardView
              some { params with tpWeight }

end RowParallelLinear

end Row

end VllmMlu.Layers
