import Mathlib.Data.List.Infix
import VllmMlu.Library.Dict
import VllmMlu.Library.Machine

/-! The KV cache specifications of the layers and the configuration that
`get_kv_cache_config_from_groups` makes of the groups. -/
namespace VllmMlu.Cache
open VllmMlu.Library

inductive TorchDType where
  | int8 | uint8 | float8 | float16 | bfloat16 | float32
  deriving DecidableEq

/-- `get_dtype_size`. -/
def TorchDType.size : TorchDType → Nat
  | .int8 | .uint8 | .float8 => 1
  | .float16 | .bfloat16 => 2
  | .float32 => 4

/-- The cache keeps scales next to eight-bit values. -/
def TorchDType.isKv8 : TorchDType → Bool
  | .int8 | .uint8 => true
  | _ => false

/-- The attention specification classes; an MLA specification is a full attention one. -/
inductive AttentionKind where
  | full | mla | slidingWindow
  deriving DecidableEq

/-- `MLUFullAttentionSpec`, `MLUMLAAttentionSpec` and `MLUSlidingWindowSpec`. -/
structure AttentionSpec where
  kind : AttentionKind
  blockSize : Nat
  numKvHeads : Nat
  headSize : Nat
  dtype : TorchDType
  indexHeadDim : Nat := 0
  indexNHeads : Nat := 0
  deriving DecidableEq

namespace AttentionSpec

/-- Keys and values are kept apart, except for MLA. -/
def copies (spec : AttentionSpec) : Nat :=
  match spec.kind with
  | .mla => 1
  | .full | .slidingWindow => 2

def cacheSizeBytes (spec : AttentionSpec) : Nat :=
  spec.copies * spec.blockSize * spec.numKvHeads * spec.headSize * spec.dtype.size

def scaleSizeBytes (spec : AttentionSpec) : Nat :=
  if spec.dtype.isKv8 then
    spec.copies * spec.blockSize * spec.numKvHeads * TorchDType.float32.size
  else 0

def indexCacheSizeBytes (spec : AttentionSpec) : Nat :=
  spec.blockSize * spec.indexNHeads * spec.indexHeadDim * spec.dtype.size

def pageSizeBytes (spec : AttentionSpec) : Nat :=
  match spec.kind with
  | .mla => spec.cacheSizeBytes + spec.scaleSizeBytes + spec.indexCacheSizeBytes
  | .full | .slidingWindow => spec.cacheSizeBytes + spec.scaleSizeBytes

def isFullAttention (spec : AttentionSpec) : Bool :=
  match spec.kind with
  | .full | .mla => true
  | .slidingWindow => false

end AttentionSpec

structure MambaSpec where
  shapes : List (List Nat)
  dtypes : List TorchDType
  pageSizePadded : Option Nat := none
  deriving DecidableEq

/-- The padded page may be smaller than the state. -/
def MambaSpec.pageSizeBytes (spec : MambaSpec) : Nat :=
  spec.pageSizePadded.getD
    ((spec.shapes.zip spec.dtypes).map fun state => state.1.prod * state.2.size).sum

inductive KVCacheSpec where
  | attention (spec : AttentionSpec)
  | mamba (spec : MambaSpec)
  /-- `UniformTypeKVCacheSpecs`, by the page size of the whole and of each layer. -/
  | uniformType (pageSizeBytes : Nat) (kvCacheSpecs : List (String × Nat))
  deriving DecidableEq

def KVCacheSpec.pageSizeBytes : KVCacheSpec → Nat
  | .attention spec => spec.pageSizeBytes
  | .mamba spec => spec.pageSizeBytes
  | .uniformType pageSizeBytes _ => pageSizeBytes

def KVCacheSpec.isFullAttention : KVCacheSpec → Bool
  | .attention spec => spec.isFullAttention
  | _ => false

structure KVCacheGroupSpec where
  layerNames : List String
  kvCacheSpec : KVCacheSpec

structure KVCacheTensor where
  size : Int
  sharedBy : List String

structure KVCacheConfig where
  numBlocks : Int
  kvCacheTensors : List KVCacheTensor
  kvCacheGroups : List KVCacheGroupSpec

inductive CacheError where
  | assertionError | attributeError | indexError | keyError | zeroDivisionError
  deriving DecidableEq

structure MluConfig where
  enableMambaSplitPageSize : Bool
  mambaToAttnBlockRatio : Nat
  mambaSupportMaxBatchSize : Nat

/-- The functions of vLLM's `kv_cache_utils` that are called here. -/
structure KVCacheUtils where
  getUniformPageSize : List (String × KVCacheSpec) → Except CacheError Nat
  /-- Of the number of layers, the available memory and the page size. -/
  getNumBlocks : Nat → Int → Nat → Int
  mayOverrideNumBlocks : Int → Int

/-- What vLLM documents of them when the number of blocks is not overridden. -/
structure KVCacheUtils.Documented (utils : KVCacheUtils) : Prop where
  uniform : ∀ specs page, utils.getUniformPageSize specs = .ok page →
    ∀ spec ∈ specs, spec.2.pageSizeBytes = page
  numBlocks : ∀ numLayers available page, utils.getNumBlocks numLayers available page =
    max (available / page / numLayers) 0
  keeps : ∀ numBlocks, utils.mayOverrideNumBlocks numBlocks = numBlocks

/-- The longest group, `max(len(group.layer_names) for group in kv_cache_groups)`. -/
def groupSize (groups : List KVCacheGroupSpec) : Nat :=
  (groups.map fun group => group.layerNames.length).foldr max 0

/-- The memory set aside for the states of the linear attention layers. -/
def mambaPageSize (mlu : MluConfig) (pageSize groupSize : Nat) : Nat :=
  pageSize * mlu.mambaToAttnBlockRatio * mlu.mambaSupportMaxBatchSize * groupSize * 3

/-- The layers, one of each group, that share the tensor at position `i`. -/
def sharedBy (groups : List KVCacheGroupSpec) (i : Nat) : List String :=
  groups.filterMap fun group => group.layerNames[i]?

/-- One tensor for each position in a group. -/
def generalConfig (utils : KVCacheUtils) (mlu : MluConfig) (groups : List KVCacheGroupSpec)
    (specs : List (String × KVCacheSpec)) (availableMemory : Int) :
    Except CacheError KVCacheConfig := do
  let groupSize := groupSize groups
  let pageSize ← utils.getUniformPageSize specs
  let availableMemory :=
    if mlu.enableMambaSplitPageSize then
      availableMemory - mambaPageSize mlu pageSize groupSize
    else availableMemory
  if groupSize = 0 then .error .assertionError
  else
    let numBlocks := utils.getNumBlocks groupSize availableMemory pageSize
    pure {
      numBlocks := numBlocks
      kvCacheTensors := (List.range groupSize).map fun i =>
        ⟨pageSize * numBlocks, sharedBy groups i⟩
      kvCacheGroups := groups }

/-- One tensor for each layer, of the layer's own page size. -/
def uniformTypeConfig (utils : KVCacheUtils) (group : KVCacheGroupSpec) (pageSizeBytes : Nat)
    (kvCacheSpecs : List (String × Nat)) (availableMemory : Int) :
    Except CacheError KVCacheConfig := do
  if pageSizeBytes = 0 then .error .zeroDivisionError
  else
    let numBlocks := utils.mayOverrideNumBlocks (availableMemory / pageSizeBytes)
    let kvCacheTensors ← group.layerNames.mapM fun layerName =>
      match kvCacheSpecs.lookup layerName with
      | none => .error .keyError
      | some pageSize => .ok (⟨pageSize * numBlocks, [layerName]⟩ : KVCacheTensor)
    pure { numBlocks := numBlocks, kvCacheTensors := kvCacheTensors, kvCacheGroups := [group] }

def getKvCacheConfigFromGroups (utils : KVCacheUtils) (mlu : MluConfig)
    (groups : List KVCacheGroupSpec) (specs : List (String × KVCacheSpec))
    (availableMemory : Int) : Except CacheError KVCacheConfig :=
  match groups with
  | [] => .ok { numBlocks := 1, kvCacheTensors := [], kvCacheGroups := [] }
  | [group] =>
      match group.kvCacheSpec with
      | .uniformType pageSizeBytes kvCacheSpecs =>
          uniformTypeConfig utils group pageSizeBytes kvCacheSpecs availableMemory
      | _ => generalConfig utils mlu [group] specs availableMemory
  | groups => generalConfig utils mlu groups specs availableMemory

end VllmMlu.Cache
