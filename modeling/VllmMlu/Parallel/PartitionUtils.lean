import VllmMlu.Library.Cuts
import VllmMlu.Parallel.DPMetadata
import VllmMlu.Worker.InferMode

/-! The splitters of a prefill step into micro-batches. Each of them works out the
cut points for itself; `none` is an exception. -/
namespace VllmMlu.Parallel

open Library Worker

variable {α Slot : Type}

def sequenceDimPartitionThreshold : Nat := 1024

/-- `MLUCommonAttentionMetadata`. -/
structure CommonMetadata (Slot : Type) where
  queryStartLoc : List Nat
  seqLens : List Nat
  numReqs : Nat
  numActualTokens : Nat
  maxQueryLen : Nat
  maxSeqLen : Nat
  slotMapping : List Slot
  seqStartLoc : List Nat
  numInputTokens : Nat
  inferMode : MLUInferMode
  numPrefillQueryTokens : Nat
  numPrefillKvTokens : Nat
deriving DecidableEq

/-- `FlashMLAPrefillMetadata`. -/
structure PrefillMetadata where
  queryStartLoc : List Nat
  maxQueryLen : Nat
  /-- `chunked_context is not None`. -/
  chunkedContext : Bool
  numPrefills : Nat
  maxSeqLen : Nat
  /-- Set by a partition of the sequence dimension only. -/
  cuSeqlensKv : Option (List Nat)
deriving DecidableEq

/-- `FlashMLAMetadata`. -/
structure LayerMetadata (Slot : Type) where
  numReqs : Nat
  maxQueryLen : Nat
  maxSeqLen : Nat
  numActualTokens : Nat
  queryStartLoc : List Nat
  slotMapping : List Slot
  numDecodes : Nat
  numDecodeTokens : Nat
  numPrefills : Nat
  numPrefillTokens : Nat
  prefill : Option PrefillMetadata
deriving DecidableEq

/-- The dictionary of a step: the common metadata and the one all layers share. -/
structure AttnMetadata (Slot : Type) where
  common : CommonMetadata Slot
  layer : LayerMetadata Slot
deriving DecidableEq

def shouldSkipPartition (attnMetadata : Option (AttnMetadata Slot)) : Bool :=
  match attnMetadata with
  | none => true
  | some metadata =>
      metadata.layer.prefill.isNone || metadata.layer.queryStartLoc.isEmpty ||
        metadata.common.inferMode != .prefillOnly

/-- `torch.diff(query_start_loc)`. -/
def diff : List Nat → List Nat
  | first :: second :: rest => (second - first) :: diff (second :: rest)
  | _ => []

/-- The parts of the batch and of the sequence dimension. -/
def attnMccPlan (attnMetadata : Option (AttnMetadata Slot)) (dpParams : Option MLUDPMetadata)
    (partsToSplit : Nat) : Option (Nat × Nat) :=
  match dpParams, attnMetadata with
  | none, none => some (1, 1)
  | none, some metadata =>
      if shouldSkipPartition (some metadata) then
        some (1, 1)
      else
        let numPrefills := metadata.layer.queryStartLoc.length - 1
        if 1 < numPrefills then
          some (min partsToSplit numPrefills, 1)
        else
          match (diff metadata.layer.queryStartLoc).max? with
          | none => some (1, 1)
          | some maxQueryLen =>
              if maxQueryLen < sequenceDimPartitionThreshold then
                some (1, 1)
              else
                some (1, min partsToSplit maxQueryLen)
  | some params, _ =>
      if !params.dpIsPrefill.all id then
        some (1, 1)
      else do
        let maxBs ← (← params.batchSizes).max?
        let maxTokens ← params.tokenSplitList.max?
        if 1 < maxBs then
          if maxTokens < sequenceDimPartitionThreshold then
            return (1, 1)
          else
            return (min partsToSplit maxBs, 1)
        else
          if maxTokens < sequenceDimPartitionThreshold then
            return (1, 1)
          else
            return (1, partsToSplit)

def getDataNumAndOffset (totalSize partsToSplit : Nat) : Option (List Nat × List Nat) :=
  if partsToSplit = 0 then
    none
  else
    let quotient := totalSize / partsToSplit
    let remainder := totalSize % partsToSplit
    let dataNumList := List.replicate remainder (quotient + 1) ++
      List.replicate (partsToSplit - remainder) quotient
    some (dataNumList, (Cuts.startLocs dataNumList).dropLast)

/-- `data[offset:offset + num]` for every part. -/
def sliceParts (parts : List Nat × List Nat) (data : List α) : List (List α) :=
  List.zipWith (fun offset num => Rows.slice offset num data) parts.2 parts.1

/-! ### The parameters of data parallelism -/

/-- The arguments that `split_dp_params` hands on to `make_oot`. -/
structure DPGroup where
  dpRank : Nat
  dataParallelSize : Nat
  tensorParallelSize : Nat
  prefillDispatchUseRSAG : Bool
deriving Repr

def DPGroup.makePart (group : DPGroup) (dpTokenNums seqLens batchSizes : List Nat) :
    Option MLUDPMetadata :=
  MLUDPMetadata.makeOot group.dpRank group.dataParallelSize group.tensorParallelSize dpTokenNums
    (List.replicate group.dataParallelSize true) group.prefillDispatchUseRSAG
    { seqLens := some seqLens, batchSizes := some batchSizes }

/-- The tokens of every part, for each rank: its only request is cut, and a rank
without request has none. -/
def queryLensPerDpRank (seqLens : List Nat) (seqPartsToSplit : Nat) :
    Nat → List Nat → Option (List (List Nat))
  | _, [] => some []
  | bsOffset, batchSize :: rest => do
      let tokens ←
        if 0 < batchSize then do
          let seqLen ← seqLens[bsOffset]?
          let (tokens, _) ← getDataNumAndOffset seqLen seqPartsToSplit
          pure tokens
        else
          pure (List.replicate seqPartsToSplit 0)
      let later ← queryLensPerDpRank seqLens seqPartsToSplit (bsOffset + batchSize) rest
      return tokens :: later

/-- The parameters of the part number `i` of the sequence. -/
def sequenceParams (group : DPGroup) (queryLens dpSeqLens : List (List Nat))
    (batchSizes : List Nat) (i : Nat) : Option MLUDPMetadata := do
  let dpTokenNums ← queryLens.mapM fun tokens => tokens[i]?
  let seqLens ← dpSeqLens.mapM fun tokens => tokens[i]?
  group.makePart dpTokenNums seqLens batchSizes

def splitDpParamsSequence (group : DPGroup) (dpParams : MLUDPMetadata) (seqPartsToSplit : Nat) :
    Option (List MLUDPMetadata) := do
  let seqLens ← dpParams.seqLens
  let batchSizes ← dpParams.batchSizes
  let dpSeqLens ← seqLens.mapM fun seqLen => do
    let (tokens, _) ← getDataNumAndOffset seqLen seqPartsToSplit
    return tokens
  if batchSizes.length < group.dataParallelSize then
    none
  else
  let queryLens ← queryLensPerDpRank seqLens seqPartsToSplit 0
    (batchSizes.take group.dataParallelSize)
  (List.range seqPartsToSplit).mapM (sequenceParams group queryLens dpSeqLens batchSizes)

/-- The batch sizes of the parts of one rank, and their query lengths. -/
def splitBatchSize (seqLensPerDp bsPerDp : List Nat) (bsPartsToSplit dpRank : Nat) :
    Option (List Nat × List (List Nat)) := do
  let batchSize ← bsPerDp[dpRank]?
  let (bs, offset) ← getDataNumAndOffset batchSize bsPartsToSplit
  return (bs, List.zipWith
    (fun offset num => Rows.slice ((bsPerDp.take dpRank).sum + offset) num seqLensPerDp)
    offset bs)

/-- The parameters of the part number `i` of the batch. -/
def batchParams (group : DPGroup) (split : List (List Nat × List (List Nat))) (i : Nat) :
    Option MLUDPMetadata := do
  let queryLens ← split.mapM fun rank => rank.2[i]?
  let batchSizes ← split.mapM fun rank => rank.1[i]?
  group.makePart (queryLens.map List.sum) queryLens.flatten batchSizes

def splitDpParamsBatch (group : DPGroup) (dpParams : MLUDPMetadata) (bsPartsToSplit : Nat) :
    Option (List MLUDPMetadata) := do
  let bsPerDp ← dpParams.batchSizes
  let seqLensPerDp ← dpParams.seqLens
  let split ← (List.range group.dataParallelSize).mapM
    (splitBatchSize seqLensPerDp bsPerDp bsPartsToSplit)
  (List.range bsPartsToSplit).mapM (batchParams group split)

def splitDpParams (group : DPGroup) (dpParams : Option MLUDPMetadata)
    (bsPartsToSplit seqPartsToSplit : Nat) : Option (List (Option MLUDPMetadata)) :=
  if bsPartsToSplit = 1 ∨ seqPartsToSplit = 1 then
    match dpParams with
    | none => some (List.replicate (bsPartsToSplit * seqPartsToSplit) none)
    | some params =>
        if bsPartsToSplit * seqPartsToSplit = 1 then
          some [some params]
        else if bsPartsToSplit = 1 then
          (splitDpParamsSequence group params seqPartsToSplit).map (·.map some)
        else
          (splitDpParamsBatch group params bsPartsToSplit).map (·.map some)
  else
    none

/-! ### The inputs -/

/-- The token number of a part: without metadata (a dummy run) the first part has
the whole input. -/
def partTokenNum (inputLength : Nat) (i : Nat) (metadata : Option (AttnMetadata Slot)) : Nat :=
  match metadata with
  | some metadata => metadata.layer.numActualTokens
  | none => if i = 0 then inputLength else 0

def splitInput (input : Option (List α)) (bsPartsToSplit seqPartsToSplit : Nat)
    (attnMetadataList : List (Option (AttnMetadata Slot))) : Option (List (Option (List α))) :=
  if seqPartsToSplit = 1 ∨ bsPartsToSplit = 1 then
    match input with
    | none => some (List.replicate (bsPartsToSplit * seqPartsToSplit) none)
    | some rows =>
        if bsPartsToSplit * seqPartsToSplit = 1 then
          some [some rows]
        else do
          let tokenNumList := attnMetadataList.mapIdx (partTokenNum rows.length)
          let results ← (List.range (bsPartsToSplit * seqPartsToSplit)).mapM fun i => do
            let num ← tokenNumList[i]?
            return Rows.slice (tokenNumList.take i).sum num rows
          return results.map some
  else
    none

def splitPositions (positions : List α) (bsPartsToSplit seqPartsToSplit : Nat)
    (attnMetadata : Option (AttnMetadata Slot)) : Option (List (List α)) :=
  if seqPartsToSplit = 1 then
    some (List.replicate bsPartsToSplit positions)
  else do
    let totalTokens := match attnMetadata with
      | some metadata => metadata.layer.numActualTokens
      | none => 0
    let parts ← getDataNumAndOffset totalTokens seqPartsToSplit
    return sliceParts parts positions

/-! ### The attention metadata -/

/-- The tokens of the only sequence that follow the first `offset`. -/
def AttnMetadata.forTokens (metadata : AttnMetadata Slot) (prefill : PrefillMetadata)
    (offset tokens : Nat) : AttnMetadata Slot where
  common := { metadata.common with
    queryStartLoc := [0, tokens]
    seqLens := [offset + tokens]
    numActualTokens := tokens
    maxQueryLen := tokens
    maxSeqLen := tokens
    seqStartLoc := [offset, offset + tokens]
    numInputTokens := tokens
    numPrefillQueryTokens := tokens
    numPrefillKvTokens := offset + tokens }
  layer := { metadata.layer with
    maxQueryLen := tokens
    maxSeqLen := tokens
    numActualTokens := tokens
    queryStartLoc := [0, tokens]
    slotMapping := Rows.slice offset tokens metadata.layer.slotMapping
    numPrefillTokens := tokens
    prefill := some { prefill with
      queryStartLoc := [0, tokens]
      maxQueryLen := tokens
      cuSeqlensKv := some [0, offset + tokens] } }

/-- One round of the loop over the parts of the sequence. -/
def sequencePart (metadata : AttnMetadata Slot) (offset tokens : Nat) :
    Option (AttnMetadata Slot) := do
  -- Two entries of the copied tensors are set.
  if metadata.common.queryStartLoc.length < 2 ∨ metadata.common.seqStartLoc.length < 2 then
    none
  else if metadata.layer.numDecodes = 0 ∧ metadata.layer.numDecodeTokens = 0 ∧
      metadata.layer.numPrefills = 1 then
    let prefill ← metadata.layer.prefill
    if prefill.chunkedContext then
      none
    else
      return metadata.forTokens prefill offset tokens
  else
    none

/-- The requests from `start` on, with their slots and their own start locations. -/
def AttnMetadata.forRequests (metadata : AttnMetadata Slot) (start batchSize : Nat)
    (queryStartLoc : List Nat) (slotMappingStart numActualTokens : Nat) : AttnMetadata Slot :=
  let seqLens := Rows.slice start batchSize metadata.common.seqLens
  let maxQueryLen := seqLens.max?.getD 0
  { common := { metadata.common with
      queryStartLoc
      seqLens
      seqStartLoc := queryStartLoc
      maxQueryLen
      maxSeqLen := maxQueryLen
      numActualTokens
      numInputTokens := numActualTokens
      numPrefillQueryTokens := numActualTokens
      numPrefillKvTokens := numActualTokens }
    layer := { metadata.layer with
      numReqs := batchSize
      maxQueryLen
      maxSeqLen := maxQueryLen
      numActualTokens
      queryStartLoc
      slotMapping := Rows.slice slotMappingStart numActualTokens metadata.layer.slotMapping
      numDecodeTokens := 0
      numPrefills := batchSize
      numPrefillTokens := numActualTokens
      prefill := some {
        queryStartLoc
        maxQueryLen
        chunkedContext := false
        numPrefills := batchSize
        maxSeqLen := maxQueryLen
        cuSeqlensKv := none } } }

/-- The start locations of the requests from `start` on, from the first of them on. -/
def partStartLoc (queryStartLoc : List Nat) (i start batchSize : Nat) : Option (List Nat) :=
  let part := Rows.slice start (batchSize + 1) queryStartLoc
  if 0 < i then
    queryStartLoc[start]?.map fun first => part.map (· - first)
  else
    some part

/-- One round of the loop over the parts of the batch. -/
def batchPart (metadata : AttnMetadata Slot) (i start batchSize slotMappingStart : Nat) :
    Option (AttnMetadata Slot) := do
  let queryStartLoc ← partStartLoc metadata.common.queryStartLoc i start batchSize
  -- The block table of the part takes its type from the one of the prefills.
  if metadata.layer.prefill.isNone then
    none
  else
    let numActualTokens ← queryStartLoc.getLast?
    return metadata.forRequests start batchSize queryStartLoc slotMappingStart numActualTokens

def batchParts (metadata : AttnMetadata Slot) :
    Nat → Nat → List (Nat × Nat) → Option (List (AttnMetadata Slot))
  | _, _, [] => some []
  | i, slotMappingStart, (start, batchSize) :: rest => do
      let part ← batchPart metadata i start batchSize slotMappingStart
      let later ← batchParts metadata (i + 1) (slotMappingStart + part.common.numActualTokens) rest
      return part :: later

/-- `none` also where the code runs to its end without returning a list. -/
def splitAttnMetadata (attnMetadata : Option (AttnMetadata Slot))
    (bsPartsToSplit seqPartsToSplit : Nat) : Option (List (Option (AttnMetadata Slot))) :=
  if bsPartsToSplit = 1 ∨ seqPartsToSplit = 1 then
    if bsPartsToSplit = 1 ∧ seqPartsToSplit = 1 then
      some [attnMetadata]
    else
      match attnMetadata with
      | none => some (List.replicate (bsPartsToSplit * seqPartsToSplit) none)
      | some metadata =>
          if 1 < seqPartsToSplit then do
            let (tokens, offsets) ←
              getDataNumAndOffset metadata.common.numActualTokens seqPartsToSplit
            let parts ← (offsets.zip tokens).mapM fun (offset, tokens) =>
              sequencePart metadata offset tokens
            return parts.map some
          else if 1 < bsPartsToSplit then do
            let (batchSizes, offsets) ←
              getDataNumAndOffset metadata.layer.numPrefills bsPartsToSplit
            let parts ← batchParts metadata 0 0 (offsets.zip batchSizes)
            return parts.map some
          else
            none
  else
    none

end VllmMlu.Parallel
