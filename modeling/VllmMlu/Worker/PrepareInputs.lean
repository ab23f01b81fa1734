import VllmMlu.Library.Packed
import VllmMlu.Library.Paged
import VllmMlu.Worker.ModelRunner

/-! `_prepare_inputs` of the model runner, where scheduling is not asynchronous: the rows of the
batch are laid out one behind the other in flat arrays. -/
namespace VllmMlu.Worker
open VllmMlu.Library VllmMlu.Library.Cuts VllmMlu.Library.Packed VllmMlu.Sched

structure RunnerConfig where
  maxNumReqs : Nat
  maxModelLen : Nat
  numSpecTokens : Nat
  vocabSize : Nat

inductive InputError where
  /-- `assert total_num_scheduled_tokens > 0`. -/
  | noTokens
  /-- `assert num_reqs > 0`. -/
  | noRequests
  /-- Operands that do not broadcast, or a negative count of repetitions. -/
  | valueError
  | indexError
  | keyError
  /-- `assert end_idx <= max_model_len`. -/
  | modelLength
  deriving DecidableEq

structure SpecDecodeMetadata where
  draftTokenIds : List Token
  numDraftTokens : List Nat
  targetLogitsIndices : List Nat
  bonusLogitsIndices : List Nat
  logitsIndices : List Nat

/-- What `_prepare_inputs` calls outside the repository. -/
structure InputHelpers (Slot : Type) where
  getCumsumAndArange : List Nat → List Nat × List Nat
  /-- Of the block tables of the rows, the indices and the positions. -/
  computeSlotMapping : List KVCacheBlocks → List Nat → List Int → List Slot
  calcSpecDecodeMetadata : List Nat → List Nat → List Token → SpecDecodeMetadata

/-- A row of the batch, with `num_tokens` of its request and its `num_scheduled_tokens`. -/
structure InputRow where
  reqId : ReqId
  row : Row
  numTokens : Nat
  numScheduledTokens : Nat

structure PreparedInputs (Slot : Type) where
  inputIds : List Token
  positions : List Int
  slotMapping : List Slot
  queryStartLoc : List Nat
  seqLens : List Int
  seqStartLoc : List Int
  discardRequestIndices : List Nat
  numDecodeDraftTokens : List Int
  specDecodeMetadata : Option SpecDecodeMetadata
  logitsIndices : List Int

/-- The operand of an operation whose result has `size` entries. -/
def broadcast {α : Type} (size : Nat) (values : List α) : Except InputError (List α) :=
  if values.length = size then .ok values
  else match values with
    | [value] => .ok (List.replicate size value)
    | _ => .error .valueError

/-- An entry of the flattened `token_ids_cpu`, whose rows have `max_model_len` entries. -/
def selectToken (cfg : RunnerConfig) (rows : List InputRow) (index : Int) :
    Except InputError Token :=
  if index < 0 then .error .indexError
  else
    match rows[index.toNat / cfg.maxModelLen]? with
    | none => .error .indexError
    | some entry => .ok (entry.row.tokenIdsCpu (index.toNat % cfg.maxModelLen))

/-- The drafts of one request are counted, and those of a request past its prompt a second
time. -/
def countItem (rows : List InputRow) (counts : List Nat × List Int)
    (item : ReqId × List Token) : Except InputError (List Nat × List Int) :=
  match rows.findIdx? fun entry => entry.reqId == item.1 with
  | none => .error .keyError
  | some reqIdx =>
      let decodes := (rows[reqIdx]?).any fun entry =>
        decide ((entry.row.numPromptTokens : Int) ≤ entry.row.numComputedTokensCpu)
      .ok (counts.1.set reqIdx item.2.length,
        counts.2.set reqIdx (if decodes then item.2.length else -1))

/-- `num_draft_tokens` and `num_decode_draft_tokens`, from the items of
`scheduled_spec_decode_tokens`. -/
def countDrafts (rows : List InputRow) (items : List (ReqId × List Token)) :
    Except InputError (List Nat × List Int) :=
  items.foldlM (countItem rows) (List.replicate rows.length 0, List.replicate rows.length (-1))

/-- The part of `_prepare_inputs` on drafts: the metadata, the logits that are sampled from and
`num_decode_draft_tokens`. -/
def prepareDrafts {Slot : Type} (cfg : RunnerConfig) (helpers : InputHelpers Slot)
    (output : SchedulerOutput) (rows : List InputRow) (cuNumTokens : List Nat)
    (inputIds : List Token) :
    Except InputError (Option SpecDecodeMetadata × List Int × List Int) :=
  if output.scheduledSpecDecodeTokens.entries = [] then
    .ok (none, cuNumTokens.map fun (stop : Nat) => (stop : Int) - 1, [])
  else
    match countDrafts rows output.scheduledSpecDecodeTokens.entries with
    | .error err => .error err
    | .ok (numDraftTokens, numDecodeDraftTokens) =>
        let metadata := helpers.calcSpecDecodeMetadata numDraftTokens cuNumTokens inputIds
        .ok (some metadata, metadata.logitsIndices.map Int.ofNat, numDecodeDraftTokens ++
          List.replicate (cfg.maxNumReqs - rows.length) (-1))

def prepareInputs {Slot : Type} (cfg : RunnerConfig) (helpers : InputHelpers Slot)
    (output : SchedulerOutput) (rows : List InputRow) :
    Except InputError (PreparedInputs Slot) := do
  if output.totalNumScheduledTokens ≤ 0 then throw .noTokens
  if rows = [] then throw .noRequests
  let size := output.totalNumScheduledTokens.toNat
  let numScheduledTokens := rows.map InputRow.numScheduledTokens
  let numComputedTokens := rows.map fun entry => entry.row.numComputedTokensCpu
  let reqIndices := repeatEach (List.range rows.length) numScheduledTokens
  let (cuNumTokens, arange) := helpers.getCumsumAndArange numScheduledTokens
  let starts ← broadcast size (reqIndices.map fun reqIdx => numComputedTokens.getD reqIdx 0)
  let offsets ← broadcast size arange
  let positions := List.zipWith (fun (start : Int) (offset : Nat) => start + (offset : Int))
    starts offsets
  let reqOffsets ← broadcast size (reqIndices.map fun reqIdx => reqIdx * cfg.maxModelLen)
  let tokenIndices := List.zipWith (fun (pos : Int) (offset : Nat) => pos + (offset : Int))
    positions reqOffsets
  let inputIds ← tokenIndices.mapM (selectToken cfg rows)
  let slotMapping := helpers.computeSlotMapping (rows.map fun entry => entry.row.blockTable)
    reqIndices positions
  let unused := cfg.maxNumReqs - rows.length
  let queryStartLoc := 0 :: cuNumTokens ++ List.replicate unused (cuNumTokens.getLastD 0)
  let seqLens := List.zipWith (fun (computed : Int) (count : Nat) => computed + (count : Int))
    numComputedTokens numScheduledTokens
  let seqStartLoc := seqLens.scanl (· + ·) 0
  let discardRequestIndices := (List.range rows.length).filter fun reqIdx =>
    decide (seqLens.getD reqIdx 0 < (rows.map InputRow.numTokens).getD reqIdx 0)
  let (specDecodeMetadata, logitsIndices, numDecodeDraftTokens) ←
    prepareDrafts cfg helpers output rows cuNumTokens inputIds
  return {
    inputIds := inputIds
    positions := positions
    slotMapping := slotMapping
    queryStartLoc := queryStartLoc
    seqLens := seqLens ++ List.replicate unused 0
    seqStartLoc := seqStartLoc ++ List.replicate unused (seqStartLoc.getLastD 0)
    discardRequestIndices := discardRequestIndices
    numDecodeDraftTokens := numDecodeDraftTokens
    specDecodeMetadata := specDecodeMetadata
    logitsIndices := logitsIndices }

end VllmMlu.Worker
