import VllmMlu.Sched.Pipeline

/-! The engine core: one call schedules a batch, has the executor run it and gives the oldest
output back to the scheduler. With a batch queue, further batches are scheduled before the oldest
one has returned. -/
namespace VllmMlu.Engine
open VllmMlu.Library VllmMlu.Sched

variable {σ : Type}

/-- What `__init__` reads from the configuration. -/
structure EngineConfig where
  /-- `model_executor.max_concurrent_batches`. -/
  batchQueueSize : Nat
  ecProducer : Bool := false
  isPoolingModel : Bool := false
  /-- Speculative decoding on an instance whose `kv_role` is `kv_producer`. -/
  takesDraftTokenIds : Bool := false

inductive EngineError where
  | scheduler (error : Error)
  /-- `len(batch_queue) < batch_queue_size`. -/
  | assertionError
  /-- `pop` from an empty deque. -/
  | indexError
  /-- `execute_model` of a model runner that still holds a batch to sample. -/
  | runtimeError
  /-- `update_from_output` of a future that returned None. -/
  | attributeError
deriving DecidableEq

/-- What a call of the executor returns in the end. -/
inductive Future where
  /-- The model runner output of a batch. -/
  | output (batch : Batch)
  | none
  | raises

/-- A call of the executor or of the scheduler that the engine core makes. -/
inductive Call (σ : Type) where
  | executeModel (batch : Batch)
  | getGrammarBitmask (scheduler : Scheduler σ) (batch : Batch)
  | sampleTokens
  | takeDraftTokenIds
  | updateFromOutput (batch : Batch)

/-- The batches whose execution was launched; the newest call comes first. -/
def launched (calls : List (Call σ)) : List Batch :=
  calls.filterMap fun
    | .executeModel batch => some batch
    | _ => none

/-- The batches whose output the scheduler was given. -/
def updated (calls : List (Call σ)) : List Batch :=
  calls.filterMap fun
    | .updateFromOutput batch => some batch
    | _ => none

structure EngineCore (σ : Type) where
  scheduler : Scheduler σ
  /-- The newest batch comes first, as on the left of the deque. -/
  batchQueue : List (Future × Batch) := []
  /-- `execute_model_state` of the model runner. -/
  executeModelState : Option Batch := none
  /-- The calls made so far, the newest first. -/
  calls : List (Call σ) := []

/-- What the workers answer during one call: whether the oldest future is done, the drafts of the
last batch, and the output of each batch. -/
structure Answers where
  oldestDone : Bool
  draftTokenIds : Option DraftTokenIds
  result : Batch → ModelRunnerOutput
  answered : ∀ batch : Batch, batch.Answered (result batch)
  loaded : ∀ batch, (result batch).Loaded

/-- `engine_core_outputs`, None where a call has nothing to output. -/
abbrev EngineCoreOutputs := Option (List (Nat × EngineCoreOutput))

def hasRequests (scheduler : Scheduler σ) : Bool :=
  scheduler.waiting ≠ [] || scheduler.running ≠ [] || scheduler.finishedReqIds ≠ []

namespace EngineCore

def empty (st : σ) : EngineCore σ := { scheduler := .empty st }

def call (entry : Call σ) (core : EngineCore σ) : EngineCore σ :=
  { core with calls := entry :: core.calls }

variable (cls : SchedulerClass) (cfg : Config) (host : Host σ) (engine : EngineConfig)

/-- `execute_model` of the model runner, which keeps a batch that has tokens to sample. -/
def executeModel (batch : Batch) (core : EngineCore σ) : EngineCore σ × Future :=
  let core := core.call (.executeModel batch)
  if core.executeModelState.isSome then (core, .raises)
  else if engine.ecProducer then (core, .output batch)
  else if batch.output.totalNumScheduledTokens = 0 then (core, .output batch)
  else if engine.isPoolingModel then (core, .output batch)
  else ({ core with executeModelState := some batch }, .none)

/-- `sample_tokens`: the sampled batch is the one that the model runner holds. -/
def sampleTokens (core : EngineCore σ) : EngineCore σ × Future :=
  match core.executeModelState with
  | none => (core.call .sampleTokens, .none)
  | some batch => ({ core.call .sampleTokens with executeModelState := none }, .output batch)

/-- `get_grammar_bitmask`, which reads the scheduler and its grammars, and `sample_tokens`. -/
def sampleMasked (batch : Batch) (core : EngineCore σ) : EngineCore σ × Future :=
  (core.call (.getGrammarBitmask core.scheduler batch)).sampleTokens

/-- `appendleft` on a deque of bounded length, which drops entries from the right. -/
def appendLeft (future : Future) (batch : Batch) (core : EngineCore σ) : EngineCore σ :=
  { core with batchQueue := ((future, batch) :: core.batchQueue).take engine.batchQueueSize }

/-- `scheduler.schedule()` and `execute_model` on its output. -/
def launch (core : EngineCore σ) : Except EngineError (EngineCore σ × Batch × Future) := do
  let (scheduler, output) ← (cls.schedule cfg host core.scheduler).mapError .scheduler
  let batch : Batch := ⟨output, samples core.scheduler scheduler⟩
  let (core, future) := executeModel engine batch { core with scheduler := scheduler }
  pure (core, batch, future)

/-- `take_draft_token_ids`, on a prefill instance with speculative decoding. -/
def takeDraftTokenIds (answers : Answers) (core : EngineCore σ) : EngineCore σ :=
  if engine.takesDraftTokenIds then
    { core.call .takeDraftTokenIds with
      scheduler := { core.scheduler with draftTokenIds := answers.draftTokenIds } }
  else core

/-- `future.result()`, the drafts of a prefill instance, and `update_from_output`. -/
def update (answers : Answers) (future : Future) (batch : Batch) (core : EngineCore σ) :
    Except EngineError (EngineCore σ × List (Nat × EngineCoreOutput)) :=
  match future with
  | .raises => .error .runtimeError
  | .none => .error .attributeError
  | .output ran => do
      let core := core.takeDraftTokenIds engine answers
      let locals ← (cls.updateFromOutput cfg host core.scheduler batch.output
        (answers.result ran)).mapError .scheduler
      pure ({ core.call (.updateFromOutput batch) with scheduler := locals.self }, locals.outputs)

/-- `sample_tokens` where the execution alone returned None. -/
def sampleIfNone (execFuture : Future) (core : EngineCore σ) : EngineCore σ × Future :=
  match execFuture with
  | .none => core.sampleTokens
  | other => (core, other)

/-- `step`, which keeps no batch in flight. -/
def step (answers : Answers) (core : EngineCore σ) :
    Except EngineError (EngineCore σ × EngineCoreOutputs × Bool) :=
  if hasRequests core.scheduler then do
    let (core, batch, execFuture) ← core.launch cls cfg host engine
    let core := core.call (.getGrammarBitmask core.scheduler batch)
    let (core, future) := core.sampleIfNone execFuture
    let (core, outputs) ← core.update cls cfg host engine answers future batch
    pure (core, some outputs, decide (0 < batch.output.totalNumScheduledTokens))
  else pure (core, some [], false)

/-- The first half of `step_with_batch_queue`: schedule a batch, and put it into the queue unless
its sampling is deferred. -/
def submit (core : EngineCore σ) : Except EngineError (EngineCore σ × Option Batch × Bool) := do
  let (core, batch, execFuture) ← core.launch cls cfg host engine
  let modelExecuted := !engine.ecProducer && decide (0 < batch.output.totalNumScheduledTokens)
  if engine.isPoolingModel || !modelExecuted then
    pure (core.appendLeft engine execFuture batch, none, modelExecuted)
  else if batch.output.pendingStructuredOutputTokens then pure (core, some batch, modelExecuted)
  else
    let (core, future) := core.sampleMasked batch
    pure (core.appendLeft engine future batch, none, modelExecuted)

/-- The second half: the oldest batch returns, and then the deferred batch is sampled. -/
def resolve (answers : Answers) (deferred : Option Batch) (modelExecuted : Bool)
    (core : EngineCore σ) : Except EngineError (EngineCore σ × EngineCoreOutputs × Bool) :=
  match core.batchQueue.getLast? with
  | none => .error .indexError
  | some (future, batch) => do
      let (core, outputs) ← { core with batchQueue := core.batchQueue.dropLast }.update cls cfg host
        engine answers future batch
      match deferred with
      | none => pure (core, some outputs, modelExecuted)
      | some batch =>
          let (core, future) := core.sampleMasked batch
          pure (core.appendLeft engine future batch, some outputs, modelExecuted)

def stepWithBatchQueue (answers : Answers) (core : EngineCore σ) :
    Except EngineError (EngineCore σ × EngineCoreOutputs × Bool) :=
  if engine.batchQueueSize ≤ core.batchQueue.length then .error .assertionError
  else if hasRequests core.scheduler then do
    let (core, deferred, modelExecuted) ← core.submit cls cfg host engine
    if deferred.isNone && modelExecuted && decide (core.batchQueue.length < engine.batchQueueSize) &&
        !answers.oldestDone then pure (core, none, true)
    else core.resolve cls cfg host engine answers deferred modelExecuted
  else if core.batchQueue = [] then pure (core, none, false)
  else core.resolve cls cfg host engine answers none false

/-- `step_fn`. -/
def stepFn (answers : Answers) (core : EngineCore σ) :
    Except EngineError (EngineCore σ × EngineCoreOutputs × Bool) :=
  if 1 < engine.batchQueueSize then core.stepWithBatchQueue cls cfg host engine answers
  else core.step cls cfg host engine answers

end EngineCore

/-- What happens between two steps of the busy loop, and a step. -/
inductive EngineEvent where
  | addRequest (request : Request)
  | finishRequest (id : ReqId) (status : RequestStatus)
  | step (answers : Answers)

def EngineCore.handle (cls : SchedulerClass) (cfg : Config) (host : Host σ) (engine : EngineConfig)
    (core : EngineCore σ) : EngineEvent → Except EngineError (EngineCore σ)
  | .addRequest request => .ok { core with scheduler := core.scheduler.addRequest cfg host request }
  | .finishRequest id status =>
      .ok { core with scheduler := core.scheduler.finishRequest cfg host id status }
  | .step answers => do
      let (core, _, _) ← core.stepFn cls cfg host engine answers
      pure core

/-- Request ids are not used again while anything knows them. -/
def EngineEvent.Allowed (core : EngineCore σ) : EngineEvent → Prop
  | .addRequest request => request.Fresh ∧ request.requestId ∉ core.scheduler.requests ∧
      ∀ entry ∈ core.batchQueue, request.requestId ∉ entry.2.reqIds
  | .finishRequest _ status => status.isFinished = true
  | .step _ => True

instance (core : EngineCore σ) (event : EngineEvent) : Decidable (event.Allowed core) := by
  cases event <;> unfold EngineEvent.Allowed <;> infer_instance

def engineCore (cls : SchedulerClass) (cfg : Config) (host : Host σ) (engine : EngineConfig) :
    Machine (EngineCore σ) EngineEvent EngineError where
  step := EngineCore.handle cls cfg host engine

end VllmMlu.Engine
