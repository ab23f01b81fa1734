import VllmMlu.Sched.Schedule

/-! `update_from_output` and the overrides of `_update_request_with_output`. -/
namespace VllmMlu.Sched
open VllmMlu.Library

variable {σ : Type}

structure ModelRunnerOutput where
  reqIdToIndex : Dict ReqId Nat
  sampledTokenIds : List (List Token)
  logprobs : Option (List TensorRow) := none
  promptLogprobsDict : Dict ReqId TensorRow := Dict.empty
  poolerOutput : List (Option TensorRow) := []
  numNansInLogits : Option (Dict ReqId Nat) := none
  kvConnectorOutput : Option KVConnectorOutput := none

structure EngineCoreOutput where
  requestId : ReqId
  newTokenIds : List Token
  finishReason : Option RequestStatus
  newLogprobs : Option (List TensorRow)
  newPromptLogprobsTensors : Option TensorRow
  poolingOutput : Option TensorRow
  stopReason : Option Token
  kvTransferParams : Option KvTransferParams
  numCachedTokens : Int
  numNansInLogits : Nat
  deriving DecidableEq

def Request.finishedReason (request : Request) : Option RequestStatus :=
  if request.isFinished then some request.status else none

def KvTransferParams.isEmpty (params : KvTransferParams) : Bool :=
  params.firstTok.isNone && params.firstSpecTok.isNone && !params.retFirstTok && !params.hasOther

/-- Take the rejected draft tokens out of the two optimistic counters. A
preempted request has no computed tokens left to correct. -/
def Request.rollBack (request : Request) (numRejected : Int) : Request :=
  { request with
    numComputedTokens :=
      if 0 < request.numComputedTokens then request.numComputedTokens - numRejected
      else request.numComputedTokens
    numOutputPlaceholders :=
      if 0 < request.numOutputPlaceholders then request.numOutputPlaceholders - numRejected
      else request.numOutputPlaceholders }

/-- What `_update_request_with_output` does to a request: its new state, the
tokens kept, whether it stopped, and the arguments passed to `cache_blocks`. -/
structure OutputUpdate where
  request : Request
  newTokenIds : List Token
  stopped : Bool
  cacheBlocksCall : Option (Request × Int) := none

def SchedulerWithProfiler.updateRequestWithOutput (host : Host σ) (request : Request)
    (newTokenIds : List Token) : Except Error OutputUpdate :=
  let (request, newTokenIds, stopped) := host.updateRequestWithOutput request newTokenIds
  .ok ⟨request, newTokenIds, stopped, none⟩

/-- The common part of the two async overrides; they differ in when the new
tokens are taken off the placeholders. -/
def asyncUpdateRequestWithOutput (host : Host σ) (release : Int → Nat → Int) (request : Request)
    (newTokenIds : List Token) : Except Error OutputUpdate :=
  let statusBeforeUpdate := request.status
  let (request, newTokenIds, stopped) := host.updateRequestWithOutput request newTokenIds
  let numOutputPlaceholders := release request.numOutputPlaceholders newTokenIds.length
  if numOutputPlaceholders < 0 then .error (.assertionError .outputPlaceholders)
  else
    let request := { request with numOutputPlaceholders := numOutputPlaceholders }
    .ok {
      request := request
      newTokenIds := newTokenIds
      stopped := stopped
      cacheBlocksCall :=
        if statusBeforeUpdate = .running then
          some (request, request.numComputedTokens - request.numOutputPlaceholders)
        else none }

def AsyncScheduler.releasePlaceholders (numOutputPlaceholders : Int) (numNew : Nat) : Int :=
  numOutputPlaceholders - numNew

/-- A preempted request may have no placeholders left to release. -/
def MLUUnchunkAsyncScheduler.releasePlaceholders (numOutputPlaceholders : Int)
    (numNew : Nat) : Int :=
  if 0 < numOutputPlaceholders then numOutputPlaceholders - numNew else numOutputPlaceholders

def SchedulerClass.updateRequestWithOutput (cls : SchedulerClass) (host : Host σ) :
    Request → List Token → Except Error OutputUpdate :=
  match cls with
  | .profiler | .unchunk => SchedulerWithProfiler.updateRequestWithOutput host
  | .async => asyncUpdateRequestWithOutput host AsyncScheduler.releasePlaceholders
  | .unchunkAsync =>
      asyncUpdateRequestWithOutput host MLUUnchunkAsyncScheduler.releasePlaceholders

/-- `sampled_token_ids[req_index].tolist() if sampled_token_ids else []`. -/
def ModelRunnerOutput.generatedTokenIds (model : ModelRunnerOutput) (reqIndex : Nat) :
    Except Error (List Token) :=
  if model.sampledTokenIds = [] then .ok []
  else
    match model.sampledTokenIds[reqIndex]? with
    | some tokens => .ok tokens
    | none => .error .indexError

/-- The state of a request after its row of the model runner output. -/
structure RowUpdate extends OutputUpdate where
  poolerOutput : Option TensorRow

/-- Roll back the rejected drafts of a request and append its new tokens. -/
def appendGenerated (cls : SchedulerClass) (host : Host σ) (drafts generated : List Token)
    (request : Request) : Except Error OutputUpdate :=
  let request :=
    if drafts = [] then request
    else request.rollBack (drafts.length - (generated.length - 1))
  if generated = [] then .ok ⟨request, [], false, none⟩
  else cls.updateRequestWithOutput host request generated

/-- The pooler output of a row decides whether a pooling request stops. -/
def checkPooler (host : Host σ) (model : ModelRunnerOutput) (reqIndex : Nat)
    (update : OutputUpdate) : Except Error RowUpdate :=
  if model.poolerOutput = [] then .ok { update with poolerOutput := none }
  else
    match model.poolerOutput[reqIndex]? with
    | none => .error .indexError
    | some row =>
        let (request, stopped) := host.checkStop update.request row
        .ok { update with request := request, stopped := stopped, poolerOutput := row }

def rowUpdate (cls : SchedulerClass) (host : Host σ) (output : SchedulerOutput)
    (model : ModelRunnerOutput) (id : ReqId) (reqIndex : Nat) (request : Request) :
    Except Error RowUpdate := do
  let generated ← model.generatedTokenIds reqIndex
  let update ← appendGenerated cls host (output.specTokens id) generated request
  checkPooler host model reqIndex update

/-- The local variables of `update_from_output`. The calls of `cache_blocks`
made by the async overrides are logged with their arguments. -/
structure UpdateLocals (σ : Type) where
  self : Scheduler σ
  outputs : List (Nat × EngineCoreOutput) := []
  stoppedRunningReqs : List ReqId := []
  stoppedPreemptedReqs : List ReqId := []
  cacheBlocksCalls : List (Request × Int) := []

/-- `_free_request` of the parent: drop the request unless its blocks are kept. -/
def Scheduler.freeRequest (host : Host σ) (self : Scheduler σ) (id : ReqId) :
    Scheduler σ × Option KvTransferParams :=
  let (st, params, delayFreeBlocks) := host.freeRequest self.host (self.objs id)
  ({ self with
    host := st
    finishedReqIds := self.finishedReqIds ++ [id]
    requests := if delayFreeBlocks then self.requests else self.requests.filter (· ≠ id) },
    params)

/-- Hand the draft token of a stopped request to the decode instance. The row
index of the draft list replaces the one of the model runner output. -/
def attachSpecToken (cfg : Config) (draftTokenIds : Option DraftTokenIds) (id : ReqId)
    (request : Request) (reqIndex : Nat) (params : Option KvTransferParams) :
    Except Error (Nat × Option KvTransferParams) :=
  match cfg.disaggTransAllBlocks && (request.kvTransferParams.map (·.retFirstTok)).getD false,
      draftTokenIds with
  | true, some drafts =>
      match drafts.reqIds.idxOf? id with
      | none => .error .valueError
      | some draftIndex =>
          match drafts.draftTokenIds[draftIndex]?, params with
          | none, _ => .error .indexError
          | some _, none => .error .typeError
          | some tokens, some params =>
              .ok (draftIndex, some { params with firstSpecTok := some tokens })
  | _, _ => .ok (reqIndex, params)

/-- Free a stopped request and note the queue it has to leave. -/
def freeStopped (cfg : Config) (host : Host σ) (stopped : Bool) (statusBeforeStop : RequestStatus)
    (reqIndex : Nat) (id : ReqId) (locals : UpdateLocals σ) :
    Except Error (Nat × Option KvTransferParams × UpdateLocals σ) :=
  if stopped then
    let request := locals.self.objs id
    let (self, params) := locals.self.freeRequest host id
    match attachSpecToken cfg self.draftTokenIds id request reqIndex params with
    | .error err => .error err
    | .ok (reqIndex, params) =>
        .ok (reqIndex, params,
          if statusBeforeStop = .running then
            { locals with
              self := self
              stoppedRunningReqs := locals.stoppedRunningReqs ++ [id] }
          else
            { locals with
              self := self
              stoppedPreemptedReqs := locals.stoppedPreemptedReqs ++ [id] })
  else .ok (reqIndex, none, locals)

/-- `logprobs.slice(req_index, req_index + 1)`, when the request asked for it. -/
def rowLogprobs (host : Host σ) (model : ModelRunnerOutput) (request : Request)
    (reqIndex : Nat) : Option (List TensorRow) :=
  if request.wantsLogprobs then
    model.logprobs.map fun rows => host.sliceLogprobs rows reqIndex (reqIndex + 1)
  else none

/-- Advance the grammar and the counters of a row, and emit its output. -/
def emitRow (host : Host σ) (model : ModelRunnerOutput) (id : ReqId) (row : RowUpdate)
    (reqIndex : Nat) (params : Option KvTransferParams) (locals : UpdateLocals σ) :
    Except Error (UpdateLocals σ) :=
  let request := locals.self.objs id
  let st :=
    if row.newTokenIds ≠ [] ∧ host.shouldAdvance locals.self.host request then
      host.acceptTokens locals.self.host request row.newTokenIds
    else locals.self.host
  let self := { locals.self with host := st }.modify id fun request => { request with
    numNansInLogits :=
      (model.numNansInLogits.bind (·.get? id)).getD request.numNansInLogits }
  let request := self.objs id
  let promptLogprobs := model.promptLogprobsDict.get? id
  if row.newTokenIds ≠ [] ∨ row.poolerOutput.isSome ∨
      (params.map (!·.isEmpty)).getD false = true then
    .ok { locals with
      self := self
      outputs := locals.outputs ++ [(request.clientIndex, {
        requestId := id
        newTokenIds := row.newTokenIds
        finishReason := request.finishedReason
        newLogprobs := rowLogprobs host model request reqIndex
        newPromptLogprobsTensors := promptLogprobs
        poolingOutput := row.poolerOutput
        stopReason := request.stopReason
        kvTransferParams := params
        numCachedTokens := request.numCachedTokens
        numNansInLogits := request.numNansInLogits })] }
  else if promptLogprobs.isSome then .error (.assertionError .promptLogprobs)
  else .ok { locals with self := self }

/-- The loop body of `update_from_output` for one scheduled request. -/
def updateRow (cfg : Config) (cls : SchedulerClass) (host : Host σ) (output : SchedulerOutput)
    (model : ModelRunnerOutput) (failedKvLoad : List ReqId) (locals : UpdateLocals σ)
    (entry : ReqId × Int) : Except Error (UpdateLocals σ) :=
  let id := entry.1
  if entry.2 ≤ 0 then .error (.assertionError .numTokensScheduled)
  else if id ∈ failedKvLoad ∨ id ∉ locals.self.requests then .ok locals
  else
    match model.reqIdToIndex.get? id with
    | none => .error .keyError
    | some reqIndex => do
        let request := locals.self.objs id
        let row ← rowUpdate cls host output model id reqIndex request
        let st :=
          match row.cacheBlocksCall with
          | some (request, count) => host.cacheBlocks locals.self.host request count
          | none => locals.self.host
        let locals := { locals with
          self := { locals.self.modify id (fun _ => row.request) with host := st }
          cacheBlocksCalls := locals.cacheBlocksCalls ++ row.cacheBlocksCall.toList }
        let (reqIndex, params, locals) ←
          freeStopped cfg host row.stopped request.status reqIndex id locals
        emitRow host model id row reqIndex params locals

/-- Lower the computed tokens of the requests that lost blocks. -/
def Scheduler.applyInvalidBlocks (self : Scheduler σ) (answer : InvalidBlocksAnswer) :
    Scheduler σ :=
  answer.numComputedTokens.foldl (fun self entry =>
    self.modify entry.1 fun request => { request with numComputedTokens := entry.2 }) self

/-- `_handle_invalid_blocks`, with the running requests it tells the loop to skip. -/
def Scheduler.handleInvalidBlocks (host : Host σ) (self : Scheduler σ)
    (model : ModelRunnerOutput) : Scheduler σ × List ReqId :=
  match model.kvConnectorOutput with
  | some kv =>
      if kv.invalidBlockIds = [] then (self, [])
      else
        let (st, answer) := host.handleInvalidBlocks self.host self.objs kv.invalidBlockIds
        ({ self with host := st }.applyInvalidBlocks answer, answer.skip)
  | none => (self, [])

/-- `_update_from_kv_xfer_finished` drops the finished requests that were kept
until their blocks had been sent. -/
def Scheduler.dropSent (self : Scheduler σ) (sent : List ReqId) : Scheduler σ :=
  { self with requests := self.requests.filter fun id =>
      !(decide (id ∈ sent) && (self.objs id).isFinished) }

/-- Take the stopped requests out of the queues. -/
def UpdateLocals.close (cfg : Config) (host : Host σ) (model : ModelRunnerOutput)
    (locals : UpdateLocals σ) : UpdateLocals σ :=
  let self := locals.self
  let self := { self with
    running := self.running.filter (· ∉ locals.stoppedRunningReqs)
    waiting :=
      if locals.stoppedPreemptedReqs = [] then self.waiting
      else host.removeRequests cfg.policy self.objs self.waiting locals.stoppedPreemptedReqs }
  match model.kvConnectorOutput with
  | none => { locals with self := self }
  | some kv =>
      let (st, sent) := host.updateFromKvXferFinished self.host kv
      { locals with self := { self with host := st }.dropSent sent }

def SchedulerClass.updateFromOutput (cls : SchedulerClass) (cfg : Config) (host : Host σ)
    (self : Scheduler σ) (output : SchedulerOutput) (model : ModelRunnerOutput) :
    Except Error (UpdateLocals σ) := do
  let (self, failedKvLoad) := self.handleInvalidBlocks host model
  let locals ← output.numScheduledTokens.entries.foldlM
    (updateRow cfg cls host output model failedKvLoad) { self := self }
  pure (locals.close cfg host model)

end VllmMlu.Sched
