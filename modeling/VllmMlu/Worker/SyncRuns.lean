import VllmMlu.Worker.InputLayout
import VllmMlu.Worker.SyncStates

/-! The model runner without asynchronous scheduling, under a scheduler that tells it what to
compute: a step from the scheduler output to the sampled tokens, and the requests as the
scheduler knows them. -/
namespace VllmMlu.Worker
open VllmMlu.Library VllmMlu.Library.Cuts VllmMlu.Library.Packed VllmMlu.Sched

inductive WorkerError where
  | states (error : Error)
  | inputs (error : InputError)

/-- The rows of the batch in their order. -/
def ModelRunner.inputRows (runner : ModelRunner) (output : SchedulerOutput) (reqIds : List ReqId) :
    Except InputError (List InputRow) :=
  reqIds.mapM fun id =>
    match runner.requests id, runner.inputBatch id, output.numScheduledTokens.get? id with
    | some state, some row, some count =>
        -- `np.repeat` takes no negative counts.
        if count < 0 then .error .valueError
        else .ok {
          reqId := id
          row := row
          numTokens := state.promptTokenIds.length + state.outputTokenIds.length
          numScheduledTokens := count.toNat }
    | _, _, _ => .error .keyError

/-- The sampled tokens of one request enter its row and its state, as far as the model length
allows. -/
def bookkeepRow (cfg : RunnerConfig) (row : Row) (state : CachedRequestState)
    (sampledIds : List Token) : Except InputError (Row × CachedRequestState) :=
  if sampledIds = [] then .ok (row, state)
  else
    let startIdx := row.numTokensNoSpec
    let endIdx := startIdx + sampledIds.length
    if cfg.numSpecTokens + cfg.maxModelLen < endIdx then .error .modelLength
    else
      -- With this cut a row never holds more than `max_model_len` tokens.
      let sampledIds := if cfg.maxModelLen < endIdx then
        sampledIds.take (cfg.maxModelLen - startIdx) else sampledIds
      let endIdx := min endIdx cfg.maxModelLen
      .ok ({ row.write startIdx sampledIds with numTokensNoSpec := endIdx, numTokens := endIdx },
        { state with outputTokenIds := state.outputTokenIds ++ sampledIds })

/-- One turn of the loop of `_bookkeeping_sync` over the requests. -/
def bookkeepTurn (cfg : RunnerConfig) (runner : ModelRunner) (entry : ReqId × List Token) :
    Except InputError ModelRunner :=
  match runner.requests entry.1, runner.inputBatch entry.1 with
  | some state, some row =>
      match bookkeepRow cfg row state entry.2 with
      | .error err => .error err
      | .ok (row, state) => .ok ((runner.setRow entry.1 row).setState entry.1 state)
  | _, _ => .error .keyError

/-- The valid tokens of the requests, none of those that are discarded. -/
def validSampledTokens (discarded : List Nat) (sampled : List (List Token)) :
    List (List Token) :=
  sampled.mapIdx fun reqIdx ids => if reqIdx ∈ discarded then [] else ids

def bookkeepingSync (cfg : RunnerConfig) (runner : ModelRunner) (reqIds : List ReqId)
    (discarded : List Nat) (sampled : List (List Token)) :
    Except InputError (ModelRunner × List (List Token)) := do
  let validSampledTokenIds := validSampledTokens discarded sampled
  let runner ← (reqIds.zip validSampledTokenIds).foldlM (bookkeepTurn cfg) runner
  return (runner, validSampledTokenIds)

/-- The inputs and the attention metadata of the forward pass. -/
structure ForwardInputs (Slot : Type) where
  inputIds : List Token
  positions : List Int
  slotMapping : List Slot
  queryStartLoc : List Nat
  seqLens : List Int
  blockTables : List KVCacheBlocks

def PreparedInputs.forwardInputs {Slot : Type} (prepared : PreparedInputs Slot)
    (rows : List InputRow) : ForwardInputs Slot where
  inputIds := prepared.inputIds
  positions := prepared.positions
  slotMapping := prepared.slotMapping
  queryStartLoc := prepared.queryStartLoc.take (rows.length + 1)
  seqLens := prepared.seqLens.take rows.length
  blockTables := rows.map fun entry => entry.row.blockTable

structure StepResult (Slot : Type) where
  runner : ModelRunner
  /-- `None` where nothing is scheduled. -/
  forward : Option (ForwardInputs Slot) := none
  /-- The hidden states that are sampled from. -/
  logitsIndices : List Int := []
  /-- The valid tokens of each request. -/
  results : List (ReqId × List Token) := []

/-- `execute_model` and `sample_tokens` on the batch whose rows stand in the order `reqIds`, where
the model and the sampler give the rows `sampled`. -/
def ModelRunner.step {Slot : Type} (cfg : RunnerConfig) (helpers : InputHelpers Slot)
    (runner : ModelRunner) (output : SchedulerOutput) (reqIds : List ReqId)
    (sampled : List (List Token)) : Except WorkerError (StepResult Slot) := do
  let (runner, output) ← (runner.updateStates false output).mapError .states
  if output.totalNumScheduledTokens = 0 then return { runner := runner }
  let rows ← (runner.inputRows output reqIds).mapError .inputs
  let prepared ← (prepareInputs cfg helpers output rows).mapError .inputs
  let (runner, validSampledTokenIds) ← (bookkeepingSync cfg runner reqIds
    prepared.discardRequestIndices sampled).mapError .inputs
  return ⟨runner, some (prepared.forwardInputs rows), prepared.logitsIndices,
    reqIds.zip validSampledTokenIds⟩

/-! ### The requests -/

/-- A request as the scheduler knows it. -/
structure KnownRequest where
  prompt : List Token
  /-- The output tokens that the request came with. -/
  received : List Token
  /-- The tokens that the runner has returned for it. -/
  emitted : List Token := []
  /-- As the scheduler last sent it. -/
  numComputedTokens : Nat
  blocks : KVCacheBlocks
  preempted : Bool := false
  /-- Whether the last step scheduled the request. -/
  inBatch : Bool := true

namespace KnownRequest

def outputs (request : KnownRequest) : List Token := request.received ++ request.emitted

def tokens (request : KnownRequest) : List Token := request.prompt ++ request.outputs

def ofNew (data : NewRequestData) : KnownRequest where
  prompt := data.promptTokenIds
  received := data.newTokenIds
  numComputedTokens := data.numComputedTokens.toNat
  blocks := data.blockIds

def receive (data : CachedRequestData) (request : KnownRequest) : KnownRequest :=
  { request with
    numComputedTokens := data.numComputedTokens.toNat
    blocks :=
      if data.resumed then data.newBlockIds else appendBlocks request.blocks data.newBlockIds
    preempted := false
    inBatch := true }

def leave (request : KnownRequest) : KnownRequest := { request with inBatch := false }

/-- `_preempt_request` frees the blocks. -/
def preempt (request : KnownRequest) : KnownRequest :=
  { request with numComputedTokens := 0, blocks := [], preempted := true }

def emit (sampledIds : List Token) (request : KnownRequest) : KnownRequest :=
  { request with emitted := request.emitted ++ sampledIds }

end KnownRequest

/-- The requests that the scheduler has, with the last output taken into account. -/
def renew (served : ReqId → Option KnownRequest) (output : SchedulerOutput) (id : ReqId) :
    Option KnownRequest :=
  match output.scheduledNewReqs.find? (·.reqId = id) with
  | some data => some (.ofNew data)
  | none =>
      if id ∈ output.finishedReqIds then none
      else match output.scheduledCachedReqs.find? (·.reqId = id) with
        | some data => (served id).map (KnownRequest.receive data)
        | none => (served id).map KnownRequest.leave

/-- The tokens that a step computes for a request. -/
def scheduledOf (output : SchedulerOutput) (id : ReqId) : Nat :=
  ((output.numScheduledTokens.get? id).getD 0).toNat

/-- The requests after the results of a step have come back. -/
def collect (served : ReqId → Option KnownRequest) (results : List (ReqId × List Token))
    (id : ReqId) : Option KnownRequest :=
  match results.find? (·.1 = id) with
  | none => served id
  | some result => (served id).map (KnownRequest.emit result.2)

/-! ### Runs -/

structure Tracking where
  runner : ModelRunner := {}
  served : ReqId → Option KnownRequest := fun _ => none

inductive TrackingEvent where
  | preempt (id : ReqId)
  /-- A step on the batch with its rows in the order `reqIds`, which samples `sampled`. -/
  | step (output : SchedulerOutput) (reqIds : List ReqId) (sampled : List (List Token))

def tracking {Slot : Type} (cfg : RunnerConfig) (helpers : InputHelpers Slot) :
    Machine Tracking TrackingEvent WorkerError where
  step state
    | .preempt id =>
        .ok { state with
          served := Function.update state.served id ((state.served id).map KnownRequest.preempt) }
    | .step output reqIds sampled => do
        let result ← state.runner.step cfg helpers output reqIds sampled
        return ⟨result.runner, collect (renew state.served output) result.results⟩

/-- What is scheduled for a request: tokens that are not computed yet, with drafts only behind the
last of its tokens. -/
structure KnownRequest.Grant (cfg : RunnerConfig) (request : KnownRequest)
    (numScheduledTokens : Nat) (drafts : List Token) : Prop where
  pos : 0 < numScheduledTokens
  computed_lt : request.numComputedTokens < request.tokens.length
  within : request.numComputedTokens + numScheduledTokens ≤ request.tokens.length + drafts.length
  verifies : drafts ≠ [] →
    request.numComputedTokens + numScheduledTokens = request.tokens.length + drafts.length
  drafts_le : drafts.length ≤ cfg.numSpecTokens
  computed_le : request.numComputedTokens + numScheduledTokens ≤ cfg.maxModelLen
  length_lt : request.tokens.length < cfg.maxModelLen

/-- The outputs that the scheduler may send, and what may be sampled: for each row one token more
than the drafts that are accepted. -/
structure Feeds (cfg : RunnerConfig) (served : ReqId → Option KnownRequest)
    (output : SchedulerOutput) (reqIds : List ReqId) (sampled : List (List Token)) : Prop where
  nodup : (output.scheduledNewReqs.map NewRequestData.reqId ++
    output.scheduledCachedReqs.map CachedRequestData.reqId).Nodup
  keys_iff : ∀ id, id ∈ output.numScheduledTokens.keys ↔
    id ∈ output.scheduledNewReqs.map NewRequestData.reqId ++
      output.scheduledCachedReqs.map CachedRequestData.reqId
  total : output.totalNumScheduledTokens = output.numScheduledTokens.total
  drafts_keys : ∀ id ∈ output.scheduledSpecDecodeTokens.keys, id ∈ output.numScheduledTokens.keys
  /-- The batch holds the scheduled requests. -/
  order : reqIds.Perm output.numScheduledTokens.keys
  new : ∀ data ∈ output.scheduledNewReqs, 0 ≤ data.numComputedTokens
  cached : ∀ data ∈ output.scheduledCachedReqs, data.reqId ∉ output.finishedReqIds ∧
    0 ≤ data.numComputedTokens ∧ ∃ request, served data.reqId = some request ∧
      data.numOutputTokens = request.outputs.length ∧ data.resumed = request.preempted ∧
      (request.preempted = true → request.inBatch = false)
  grants : ∀ id ∈ output.numScheduledTokens.keys, ∀ request,
    renew served output id = some request →
    request.Grant cfg (scheduledOf output id) (output.specTokens id)
  sampled : List.Forall₂ (fun id ids => ids ≠ [] ∧ ids.length ≤ (output.specTokens id).length + 1)
    reqIds sampled

def TrackingEvent.Allowed (cfg : RunnerConfig) (state : Tracking) : TrackingEvent → Prop
  | .preempt _ => True
  | .step output reqIds sampled => Feeds cfg state.served output reqIds sampled

/-! ### What a step is to do -/

/-- A row of the forward pass: tokens that are computed already, and tokens to compute. -/
structure ForwardRow where
  cached : List Token
  fresh : List Token
  blockTable : KVCacheBlocks

def ForwardInputs.ofRows {Slot : Type} (slotOf : KVCacheBlocks → Nat → Slot)
    (rows : List ForwardRow) : ForwardInputs Slot where
  inputIds := rows.flatMap ForwardRow.fresh
  positions := rows.flatMap fun row =>
    (List.range' row.cached.length row.fresh.length).map Int.ofNat
  slotMapping := rows.flatMap fun row =>
    (List.range' row.cached.length row.fresh.length).map (slotOf row.blockTable)
  queryStartLoc := startLocs (rows.map fun row => row.fresh.length)
  seqLens := rows.map fun row => ((row.cached.length + row.fresh.length : Nat) : Int)
  blockTables := rows.map ForwardRow.blockTable

/-- The tokens of a request up to the last scheduled one. -/
def KnownRequest.computes (request : KnownRequest) (output : SchedulerOutput) (id : ReqId) :
    List Token :=
  (request.tokens ++ output.specTokens id).take
    (request.numComputedTokens + scheduledOf output id)

/-- Of a scheduled request, the tokens behind the computed ones. -/
def KnownRequest.forwardRow (request : KnownRequest) (output : SchedulerOutput) (id : ReqId) :
    ForwardRow where
  cached := (request.computes output id).take request.numComputedTokens
  fresh := (request.computes output id).drop request.numComputedTokens
  blockTable := request.blocks

def forwardRow (served : ReqId → Option KnownRequest) (output : SchedulerOutput) (id : ReqId) :
    ForwardRow :=
  (served id).elim ⟨[], [], []⟩ fun request => request.forwardRow output id

/-- Whether all tokens of a request are computed after the step. -/
def completes (served : ReqId → Option KnownRequest) (output : SchedulerOutput) (id : ReqId) :
    Bool :=
  (served id).any fun request =>
    decide (request.tokens.length ≤ request.numComputedTokens + scheduledOf output id)

/-- A step runs the scheduled tokens of the requests, and gives the sampled tokens to the requests
that are complete. -/
structure StepResult.Serves {Slot : Type} (result : StepResult Slot)
    (slotOf : KVCacheBlocks → Nat → Slot) (served : ReqId → Option KnownRequest)
    (output : SchedulerOutput) (reqIds : List ReqId) (sampled : List (List Token)) : Prop where
  forward : result.forward = if reqIds = [] then none
    else some (.ofRows slotOf (reqIds.map (forwardRow served output)))
  logitsIndices : result.logitsIndices =
    (ends (startLocs (reqIds.map (scheduledOf output))).tail
      (reqIds.map fun id => (output.specTokens id).length + 1)).map Int.ofNat
  results : result.results = List.zipWith
    (fun id ids => (id, if completes served output id then ids else [])) reqIds sampled

end VllmMlu.Worker
