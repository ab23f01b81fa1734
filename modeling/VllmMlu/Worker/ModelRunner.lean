import VllmMlu.Library.Machine
import VllmMlu.Sched.Request

/-! `_update_states` of the model runner, on the last pipeline stage: the states it
keeps of its requests and the rows of its persistent batch. A row is named by the
request it holds; its place in the batch is never asked for here. -/
namespace VllmMlu.Worker
open VllmMlu.Library VllmMlu.Sched

structure CachedRequestState where
  promptTokenIds : List Token
  outputTokenIds : List Token
  blockIds : KVCacheBlocks
  numComputedTokens : Int
  /-- The drafts of the last step, when its rejections have to be subtracted. -/
  prevNumDraftLen : Nat := 0

/-- The entries of one request in the arrays of `InputBatch`. -/
structure Row where
  numPromptTokens : Nat
  numTokensNoSpec : Nat
  numTokens : Nat
  numComputedTokensCpu : Int
  tokenIdsCpu : Nat → Token
  specTokenIds : List Token := []
  blockTable : KVCacheBlocks

structure ModelRunner where
  requests : ReqId → Option CachedRequestState := fun _ => none
  inputBatch : ReqId → Option Row := fun _ => none
  /-- `valid_sampled_token_count` of the rows in `prev_req_id_to_index`. -/
  prevSampledTokenCount : ReqId → Option Nat := fun _ => none
  /-- `self._draft_token_ids is not None`. -/
  hasDraftTokenIds : Bool := false

/-- `InputBatch.add_request`. -/
def Row.ofRequest (state : CachedRequestState) : Row where
  numPromptTokens := state.promptTokenIds.length
  numTokensNoSpec := state.promptTokenIds.length + state.outputTokenIds.length
  numTokens := state.promptTokenIds.length + state.outputTokenIds.length
  numComputedTokensCpu := state.numComputedTokens
  tokenIdsCpu := fun i => (state.promptTokenIds ++ state.outputTokenIds).getD i 0
  blockTable := state.blockIds

/-- `token_ids_cpu[row, start:start + len(tokens)] = tokens`. -/
def Row.write (row : Row) (start : Nat) (tokens : List Token) : Row :=
  { row with
    tokenIdsCpu := fun i =>
      if start ≤ i then tokens.getD (i - start) (row.tokenIdsCpu i) else row.tokenIdsCpu i }

/-- Empty new block ids stand for `None`. -/
def appendBlocks (blockIds newBlockIds : KVCacheBlocks) : KVCacheBlocks :=
  if newBlockIds.isEmpty then blockIds else KVCacheBlocks.add blockIds newBlockIds

/-- The local variables of `_update_states`. It may take drafts off the scheduler
output it was given. -/
structure StatesPass where
  runner : ModelRunner
  output : SchedulerOutput
  reqsToAdd : List ReqId := []

namespace ModelRunner

def setState (runner : ModelRunner) (id : ReqId) (state : CachedRequestState) : ModelRunner :=
  { runner with requests := Function.update runner.requests id (some state) }

def setRow (runner : ModelRunner) (id : ReqId) (row : Row) : ModelRunner :=
  { runner with inputBatch := Function.update runner.inputBatch id (some row) }

/-- Forget the finished requests, and take the unscheduled ones out of the batch. -/
def removeRequests (runner : ModelRunner) (output : SchedulerOutput) : ModelRunner :=
  { runner with
    requests := fun id => if id ∈ output.finishedReqIds then none else runner.requests id
    inputBatch := fun id =>
      if id ∈ output.finishedReqIds ∨ id ∉ output.numScheduledTokens.keys then none
      else runner.inputBatch id }

/-- Subtract the rejected drafts of the last step from the computed tokens that the
scheduler sent; a request that has left the batch is not corrected. -/
def correct (runner : ModelRunner) (data : CachedRequestData) (state : CachedRequestState) :
    Except Error CachedRequestState :=
  if state.prevNumDraftLen = 0 then
    .ok { state with numComputedTokens := data.numComputedTokens }
  else
    match runner.inputBatch data.reqId with
    | none => .ok { state with numComputedTokens := data.numComputedTokens, prevNumDraftLen := 0 }
    | some _ =>
        match runner.prevSampledTokenCount data.reqId with
        | none => .error .keyError
        | some validSampledTokenCount =>
            let numAccepted : Int := validSampledTokenCount - 1
            let numRejected := state.prevNumDraftLen - numAccepted
            .ok { state with
              numComputedTokens := data.numComputedTokens - numRejected
              outputTokenIds := state.outputTokenIds ++
                List.replicate numAccepted.toNat placeholderToken }

end ModelRunner

/-- Drop output tokens that the scheduler has discarded. -/
def CachedRequestState.align (state : CachedRequestState) (numOutputTokens : Int) :
    CachedRequestState :=
  if numOutputTokens < state.outputTokenIds.length then
    { state with outputTokenIds := state.outputTokenIds.take numOutputTokens.toNat }
  else state

def Row.align (row : Row) (state : CachedRequestState) (numOutputTokens : Int) : Row :=
  if numOutputTokens < state.outputTokenIds.length then
    { row with
      numTokens := row.numPromptTokens + numOutputTokens.toNat
      numTokensNoSpec := row.numPromptTokens + numOutputTokens.toNat }
  else row

/-- The row of a request that stays in the batch. -/
def Row.update (row : Row) (data : CachedRequestData) (numComputedTokens : Int)
    (specTokenIds : List Token) : Row :=
  let row := { row with
    numComputedTokensCpu := numComputedTokens
    blockTable := appendBlocks row.blockTable data.newBlockIds
    specTokenIds := specTokenIds }
  { row.write row.numTokensNoSpec specTokenIds with
    numTokens := row.numTokens + specTokenIds.length }

/-- Without proposed drafts there is nothing to verify in this step. -/
def dropDrafts (output : SchedulerOutput) (id : ReqId) : SchedulerOutput :=
  let numSpecTokens := (output.specTokens id).length
  { output with
    totalNumScheduledTokens := output.totalNumScheduledTokens - numSpecTokens
    numScheduledTokens := output.numScheduledTokens.set id
      ((output.numScheduledTokens.get? id).getD 0 - numSpecTokens)
    scheduledSpecDecodeTokens := output.scheduledSpecDecodeTokens.pop id }

namespace StatesPass

def addNew (pass : StatesPass) (data : NewRequestData) : StatesPass :=
  { pass with
    runner := pass.runner.setState data.reqId {
      promptTokenIds := data.promptTokenIds
      outputTokenIds := data.newTokenIds
      blockIds := data.blockIds
      numComputedTokens := data.numComputedTokens }
    reqsToAdd := pass.reqsToAdd ++ [data.reqId] }

/-- The state of a running or resumed request, before its row is considered. -/
def recover (data : CachedRequestData) (state : CachedRequestState) : CachedRequestState :=
  let state := state.align data.numOutputTokens
  { state with
    blockIds :=
      if data.resumed then data.newBlockIds else appendBlocks state.blockIds data.newBlockIds }

/-- A request outside the batch is added again, with the tokens the scheduler sent. -/
def readd (useAsyncScheduling : Bool) (pass : StatesPass) (data : CachedRequestData)
    (state : CachedRequestState) : StatesPass :=
  let state :=
    if useAsyncScheduling ∧ 0 < data.numOutputTokens then
      { state with outputTokenIds :=
          data.allTokenIds.drop (data.allTokenIds.length - data.numOutputTokens.toNat) }
    else state
  { pass with
    runner := pass.runner.setState data.reqId state
    reqsToAdd := pass.reqsToAdd ++ [data.reqId] }

/-- A request in the batch keeps its row, and remembers its drafts. -/
def keep (useAsyncScheduling : Bool) (pass : StatesPass) (data : CachedRequestData)
    (state : CachedRequestState) (row : Row) : StatesPass :=
  let specTokenIds := pass.output.specTokens data.reqId
  let runner := pass.runner.setRow data.reqId
    (row.update data state.numComputedTokens specTokenIds)
  if useAsyncScheduling then
    { pass with
      runner := runner.setState data.reqId { state with prevNumDraftLen := specTokenIds.length }
      output :=
        if specTokenIds ≠ [] ∧ !runner.hasDraftTokenIds then dropDrafts pass.output data.reqId
        else pass.output }
  else { pass with runner := runner.setState data.reqId state }

/-- One iteration over the running and resumed requests. -/
def updateCached (useAsyncScheduling : Bool) (pass : StatesPass) (data : CachedRequestData) :
    Except Error StatesPass :=
  match pass.runner.requests data.reqId with
  | none => .error .keyError
  | some state =>
      match pass.runner.correct data state with
      | .error err => .error err
      | .ok state =>
          match pass.runner.inputBatch data.reqId with
          | none => .ok (pass.readd useAsyncScheduling data (recover data state))
          | some row =>
              if data.resumed then .error (.assertionError .resumedNotInBatch)
              else
                .ok (pass.keep useAsyncScheduling data (recover data state)
                  (row.align state data.numOutputTokens))

/-- Add a new or resumed request to the batch, with its drafts behind its tokens. -/
def addToBatch (pass : StatesPass) (id : ReqId) : StatesPass :=
  match pass.runner.requests id with
  | none => pass
  | some state =>
      let row := Row.ofRequest state
      let specTokenIds := pass.output.specTokens id
      { pass with
        runner := pass.runner.setRow id { row.write row.numTokens specTokenIds with
          numTokens := row.numTokens + specTokenIds.length } }

end StatesPass

def ModelRunner.updateStates (useAsyncScheduling : Bool) (runner : ModelRunner)
    (output : SchedulerOutput) : Except Error (ModelRunner × SchedulerOutput) := do
  let pass := output.scheduledNewReqs.foldl StatesPass.addNew
    { runner := runner.removeRequests output, output := output }
  let pass ← output.scheduledCachedReqs.foldlM (StatesPass.updateCached useAsyncScheduling) pass
  let pass := pass.reqsToAdd.foldl StatesPass.addToBatch pass
  pure (pass.runner, pass.output)

end VllmMlu.Worker
