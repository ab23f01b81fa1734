import VllmMlu.Library.Packed
import VllmMlu.Worker.InferMode

/-! The eagle proposer: how a verified batch is prepared for the drafter, and the positions, slots
and lengths of the draft iterations. `none` is an exception. -/
namespace VllmMlu.SpecDecode
open VllmMlu.Library VllmMlu.Library.Cuts VllmMlu.Library.Packed VllmMlu.Worker

variable {α Slot : Type}

def paddingSlotId : Int := -1

/-- `MLUCommonAttentionMetadata`, as far as the proposer handles it. -/
structure DraftMetadata (Slot : Type) where
  queryStartLoc : List Nat
  seqLens : List Nat
  numReqs : Nat
  numActualTokens : Nat
  maxQueryLen : Nat
  /-- `prepare_inputs` passes none. -/
  maxSeqLen : Option Nat
  slotMapping : List Slot
  seqStartLoc : List Nat
  numInputTokens : Nat
  numPrefillQueryTokens : Nat
  numPrefillKvTokens : Nat
  inferMode : MLUInferMode

/-- `values[indices]`. -/
def takeAt (values : List α) (indices : List Nat) : Option (List α) :=
  indices.mapM fun i => values[i]?

def prepareInputs (maxNumTokens : Nat) (metadata : DraftMetadata Slot)
    (numRejectedTokens : List Nat) : Option (DraftMetadata Slot × List Nat) := do
  let newSeqLens := List.zipWith (· - ·) metadata.seqLens numRejectedTokens
  let newQueryLenPerReq := diffs metadata.queryStartLoc
  let newNumTokensPerReq := List.zipWith (· - ·) newQueryLenPerReq numRejectedTokens
  let newQueryStartLoc := startLocs newNumTokensPerReq
  let totalNumTokens ← newQueryStartLoc.getLast?
  let newQueryStartLocsExpanded := repeatEach newQueryStartLoc.dropLast newNumTokensPerReq
  let tokenOffsets := List.zipWith (· - ·) ((List.range maxNumTokens).take totalNumTokens)
    newQueryStartLocsExpanded
  let oldQueryStartLocsExpanded := repeatEach metadata.queryStartLoc.dropLast newNumTokensPerReq
  let tokenIndices := List.zipWith (· + ·) tokenOffsets oldQueryStartLocsExpanded
  let maxQueryLen ← newQueryLenPerReq.max?
  let slotMapping ← takeAt metadata.slotMapping tokenIndices
  pure ({
    queryStartLoc := newQueryStartLoc
    seqLens := newSeqLens
    numReqs := metadata.numReqs
    numActualTokens := totalNumTokens
    maxQueryLen
    maxSeqLen := none
    slotMapping
    seqStartLoc := startLocs newSeqLens
    numInputTokens := totalNumTokens
    numPrefillQueryTokens := totalNumTokens
    numPrefillKvTokens := totalNumTokens
    inferMode := metadata.inferMode }, tokenIndices)

/-- The result of `prepare_inputs_padded`. -/
structure PaddedInputs (Slot : Type) where
  metadata : DraftMetadata Slot
  tokenIndices : List Nat
  tokenIndicesToSample : List Nat
  numRejectedTokens : List Nat

def prepareInputsPadded (maxNumTokens : Nat) (metadata : DraftMetadata Slot)
    (cuNumDraftTokens validSampledTokensCount : List Nat) : Option (PaddedInputs Slot) := do
  let numDraftTokens := cuNumDraftTokens.take 1 ++ diffs cuNumDraftTokens
  let numRejectedTokens := List.zipWith
    (fun num valid => if 0 < num then num + 1 - valid else 0) numDraftTokens
    validSampledTokensCount
  let newQueryLenPerReq := diffs metadata.queryStartLoc
  let totalNumTokens ← metadata.queryStartLoc.getLast?
  let tokenIndices := (List.range maxNumTokens).take totalNumTokens
  let maxQueryLen ← newQueryLenPerReq.max?
  let maxSeqLen ← metadata.seqLens.max?
  let slotMapping ← takeAt metadata.slotMapping tokenIndices
  let tokenIndicesToSample := List.zipWith (fun last rejected => last - 1 - rejected)
    metadata.queryStartLoc.tail numRejectedTokens
  pure {
    metadata := { metadata with
      numActualTokens := totalNumTokens
      maxQueryLen
      maxSeqLen := some maxSeqLen
      slotMapping
      seqStartLoc := startLocs metadata.seqLens
      numInputTokens := totalNumTokens
      numPrefillQueryTokens := totalNumTokens
      numPrefillKvTokens := totalNumTokens }
    tokenIndices
    tokenIndicesToSample
    numRejectedTokens }

/-! ### The draft iterations -/

structure DraftConfig where
  numSpeculativeTokens : Nat
  maxModelLen : Nat
  blockSize : Nat

/-- What a draft iteration gives to the model, and what it hands on. -/
structure DraftInputs where
  positions : List Nat
  slotMapping : List Int
  seqLens : List Nat
deriving DecidableEq

structure DraftState where
  positions : List Nat
  seqLens : List Nat

/-- The update of the inputs in a turn of the draft loop. -/
def draftTurn (config : DraftConfig) (blockTable : List (List Int)) (state : DraftState) :
    Option (DraftState × DraftInputs) := do
  let positions := state.positions.map (· + 1)
  let exceedsMaxModelLen := positions.map fun position => decide (config.maxModelLen ≤ position)
  let clampedPositions := List.zipWith (fun (exceeds : Bool) position =>
    if exceeds then 0 else position) exceedsMaxModelLen positions
  let seqLens := List.zipWith (fun (exceeds : Bool) seqLen => if exceeds then 1 else seqLen + 1)
    exceedsMaxModelLen state.seqLens
  let blockNumbers := clampedPositions.map (· / config.blockSize)
  let blockIds ← (blockTable.zip blockNumbers).mapM fun entry => entry.1[entry.2]?
  let slotMapping := List.zipWith (fun (blockId : Int) position =>
    blockId * config.blockSize + (position % config.blockSize : Nat)) blockIds clampedPositions
  let slotMapping := List.zipWith (fun (exceeds : Bool) slot =>
    if exceeds then paddingSlotId else slot) exceedsMaxModelLen slotMapping
  pure (⟨positions, seqLens⟩, ⟨clampedPositions, slotMapping, seqLens⟩)

def draftLoop (config : DraftConfig) (blockTable : List (List Int)) :
    Nat → DraftState → Option (List DraftInputs)
  | 0, _ => some []
  | turns + 1, state => do
      let (next, inputs) ← draftTurn config blockTable state
      let rest ← draftLoop config blockTable turns next
      pure (inputs :: rest)

/-- `propose`, as far as the inputs of the draft iterations go. -/
def propose (config : DraftConfig) (blockTable : List (List Int)) (targetPositions : List Nat)
    (lastTokenIndices : Option (List Nat)) (metadata : DraftMetadata Slot) :
    Option (List DraftInputs) := do
  let lastTokenIndices := lastTokenIndices.getD (metadata.queryStartLoc.tail.map (· - 1))
  if config.numSpeculativeTokens = 1 then pure []
  else do
    let positions ← takeAt targetPositions lastTokenIndices
    let seqLens := if metadata.inferMode ≠ .decodeOnly then List.replicate metadata.numReqs 1
      else metadata.seqLens
    draftLoop config blockTable (config.numSpeculativeTokens - 1) ⟨positions, seqLens⟩

/-- What `propose_draft_token_ids` does to a batch before it calls the drafter. -/
inductive Preparation where
  /-- Without `spec_decode_metadata`. -/
  | unchanged
  /-- With `disable_padded_drafter_batch`. -/
  | compacted (numRejectedTokens : List Nat)
  | padded (cuNumDraftTokens validSampledTokensCount : List Nat)

/-- `propose_draft_token_ids`, from the positions of the packed tokens. -/
def proposeDraftTokenIds (config : DraftConfig) (blockTable : List (List Int))
    (maxNumTokens : Nat) (positions : List Nat) (metadata : DraftMetadata Slot) :
    Preparation → Option (List DraftInputs)
  | .unchanged => propose config blockTable positions none metadata
  | .compacted numRejectedTokens => do
      let (prepared, tokenIndices) ← prepareInputs maxNumTokens metadata numRejectedTokens
      let targetPositions ← takeAt positions tokenIndices
      propose config blockTable targetPositions none prepared
  | .padded cuNumDraftTokens validSampledTokensCount => do
      let prepared ← prepareInputsPadded maxNumTokens metadata cuNumDraftTokens
        validSampledTokensCount
      let targetPositions ← takeAt positions prepared.tokenIndices
      propose config blockTable targetPositions (some prepared.tokenIndicesToSample)
        prepared.metadata

end VllmMlu.SpecDecode
