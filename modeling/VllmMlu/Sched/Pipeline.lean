import VllmMlu.Sched.Calls
import VllmMlu.Sched.Fate

/-! The scheduler together with the batches in flight: scheduler outputs that the
worker has been given and whose results have not come back. They come back in
the order in which they were scheduled. -/
namespace VllmMlu.Sched
open VllmMlu.Library

variable {σ : Type}

/-- A scheduler output in flight, and the requests that its step samples tokens
for; the model runner discards what it samples in the middle of a prompt. -/
structure Batch where
  output : SchedulerOutput
  samples : ReqId → Bool

namespace Batch

def reqIds (batch : Batch) : List ReqId := batch.output.numScheduledTokens.keys

def numDrafts (batch : Batch) (id : ReqId) : Nat := (batch.output.specTokens id).length

/-- The placeholders that a batch will release for a request: one for the sampled
token and one for each draft token, accepted or not. -/
def outstanding (batch : Batch) (id : ReqId) : Int :=
  if id ∈ batch.reqIds ∧ batch.samples id = true then 1 + batch.numDrafts id else 0

theorem outstanding_nonneg (batch : Batch) (id : ReqId) : 0 ≤ batch.outstanding id := by
  unfold outstanding
  split <;> omega

theorem outstanding_of_not_mem {batch : Batch} {id : ReqId} (hnone : id ∉ batch.reqIds) :
    batch.outstanding id = 0 :=
  if_neg fun hmem => hnone hmem.1

/-- What the model runner reports for a request: the accepted drafts and one more
token if its step samples, and nothing otherwise. -/
def Reports (batch : Batch) (id : ReqId) (generated : List Token) : Prop :=
  if batch.samples id = true then
    generated ≠ [] ∧ generated.length ≤ batch.numDrafts id + 1
  else generated = []

instance (batch : Batch) (id : ReqId) (generated : List Token) :
    Decidable (batch.Reports id generated) := by
  unfold Reports
  infer_instance

/-- The row of a request, where the model runner output has one, is well formed. -/
def RowAnswered (batch : Batch) (model : ModelRunnerOutput) (id : ReqId) : Prop :=
  match model.reqIdToIndex.get? id with
  | none => True
  | some reqIndex =>
      match model.generatedTokenIds reqIndex with
      | .error _ => True
      | .ok generated => batch.Reports id generated

instance (batch : Batch) (model : ModelRunnerOutput) (id : ReqId) :
    Decidable (batch.RowAnswered model id) := by
  unfold RowAnswered
  split
  · infer_instance
  · split <;> infer_instance

/-- A model runner output of a generating model that answers a batch. -/
structure Answered (batch : Batch) (model : ModelRunnerOutput) : Prop where
  poolerOutput : model.poolerOutput = []
  rows : ∀ id ∈ batch.reqIds, batch.RowAnswered model id

instance (batch : Batch) (model : ModelRunnerOutput) : Decidable (batch.Answered model) :=
  decidable_of_iff (model.poolerOutput = [] ∧ ∀ id ∈ batch.reqIds, batch.RowAnswered model id)
    ⟨fun h => ⟨h.1, h.2⟩, fun h => ⟨h.poolerOutput, h.rows⟩⟩

theorem Answered.reports {batch : Batch} {model : ModelRunnerOutput}
    (hanswered : batch.Answered model) {id : ReqId} (hmem : id ∈ batch.reqIds) {reqIndex : Nat}
    {generated : List Token} (hindex : model.reqIdToIndex.get? id = some reqIndex)
    (hgenerated : model.generatedTokenIds reqIndex = .ok generated) :
    batch.Reports id generated := by
  have hrow := hanswered.rows id hmem
  unfold RowAnswered at hrow
  rw [hindex] at hrow
  dsimp only at hrow
  rwa [hgenerated] at hrow

end Batch

/-- The model runner output reports no block that failed to load. -/
def ModelRunnerOutput.Loaded (model : ModelRunnerOutput) : Prop :=
  match model.kvConnectorOutput with
  | none => True
  | some kv => kv.invalidBlockIds = []

instance (model : ModelRunnerOutput) : Decidable model.Loaded := by
  unfold ModelRunnerOutput.Loaded
  split <;> infer_instance

theorem ModelRunnerOutput.Loaded.handleInvalidBlocks {model : ModelRunnerOutput}
    (hloaded : model.Loaded) (host : Host σ) (sched : Scheduler σ) :
    sched.handleInvalidBlocks host model = (sched, []) := by
  unfold ModelRunnerOutput.Loaded at hloaded
  unfold Scheduler.handleInvalidBlocks
  split
  · rename_i kv hkv
    rw [hkv] at hloaded
    exact if_pos hloaded
  · rfl

structure Pipeline (σ : Type) where
  sched : Scheduler σ
  /-- The oldest batch comes first. -/
  inFlight : List Batch := []

/-- The step that `schedule()` has just made out of `before` reaches the end of
the tokens a request has or waits for. -/
def samples (before next : Scheduler σ) (id : ReqId) : Bool :=
  (next.objs id).numTokens + (before.objs id).numOutputPlaceholders ≤
    (next.objs id).numComputedTokens

inductive Event where
  | addRequest (request : Request)
  | finishRequest (id : ReqId) (status : RequestStatus)
  | setDraftTokenIds (drafts : Option DraftTokenIds)
  | schedule
  /-- The oldest batch in flight comes back. -/
  | update (model : ModelRunnerOutput)

namespace Pipeline

/-- The placeholders of a request that the batches in flight will release. -/
def outstanding (pipeline : Pipeline σ) (id : ReqId) : Int :=
  (pipeline.inFlight.map (·.outstanding id)).sum

theorem outstanding_nonneg (pipeline : Pipeline σ) (id : ReqId) : 0 ≤ pipeline.outstanding id := by
  apply List.sum_nonneg
  intro count hmem
  obtain ⟨batch, -, rfl⟩ := List.mem_map.mp hmem
  exact batch.outstanding_nonneg id

def schedule (cls : SchedulerClass) (cfg : Config) (host : Host σ) (pipeline : Pipeline σ) :
    Except Error (Pipeline σ) := do
  let (sched, output) ← cls.schedule cfg host pipeline.sched
  pure ⟨sched, pipeline.inFlight ++ [⟨output, samples pipeline.sched sched⟩]⟩

def update (cls : SchedulerClass) (cfg : Config) (host : Host σ) (pipeline : Pipeline σ)
    (model : ModelRunnerOutput) : Except Error (Pipeline σ) :=
  match pipeline.inFlight with
  | [] => .error .indexError
  | batch :: rest => do
      let locals ← cls.updateFromOutput cfg host pipeline.sched batch.output model
      pure ⟨locals.self, rest⟩

section Inversion

variable {cls : SchedulerClass} {cfg : Config} {host : Host σ} {pipeline next : Pipeline σ}

theorem schedule_ok (hok : pipeline.schedule cls cfg host = .ok next) :
    ∃ sched output, cls.schedule cfg host pipeline.sched = .ok (sched, output) ∧
      next = ⟨sched, pipeline.inFlight ++ [⟨output, samples pipeline.sched sched⟩]⟩ := by
  obtain ⟨⟨sched, output⟩, hschedule, hpure⟩ := bind_eq_ok.mp hok
  exact ⟨sched, output, hschedule, (pure_eq_ok.mp hpure).symm⟩

theorem update_ok {model : ModelRunnerOutput}
    (hok : pipeline.update cls cfg host model = .ok next) :
    ∃ batch rest locals, pipeline.inFlight = batch :: rest ∧
      cls.updateFromOutput cfg host pipeline.sched batch.output model = .ok locals ∧
      next = ⟨locals.self, rest⟩ := by
  unfold update at hok
  split at hok
  · cases hok
  · rename_i batch rest hinFlight
    obtain ⟨locals, hupdate, hpure⟩ := bind_eq_ok.mp hok
    exact ⟨batch, rest, locals, hinFlight, hupdate, (pure_eq_ok.mp hpure).symm⟩

end Inversion

def step (cls : SchedulerClass) (cfg : Config) (host : Host σ) (pipeline : Pipeline σ) :
    Event → Except Error (Pipeline σ)
  | .addRequest request =>
      .ok { pipeline with sched := pipeline.sched.addRequest cfg host request }
  | .finishRequest id status =>
      .ok { pipeline with sched := pipeline.sched.finishRequest cfg host id status }
  | .setDraftTokenIds drafts =>
      .ok { pipeline with sched := { pipeline.sched with draftTokenIds := drafts } }
  | .schedule => pipeline.schedule cls cfg host
  | .update model => pipeline.update cls cfg host model

end Pipeline

/-- Request ids are not used again while anything knows them, at most one batch is
in flight when `schedule()` runs, and the model runner answers each batch. -/
def Event.Allowed (pipeline : Pipeline σ) : Event → Prop
  | .addRequest request => request.Fresh ∧ request.requestId ∉ pipeline.sched.requests ∧
      ∀ batch ∈ pipeline.inFlight, request.requestId ∉ batch.reqIds
  | .finishRequest _ status => status.isFinished = true
  | .setDraftTokenIds _ => True
  | .schedule => pipeline.inFlight.length ≤ 1
  | .update model => ∀ batch ∈ pipeline.inFlight.head?, batch.Answered model

instance (pipeline : Pipeline σ) (event : Event) : Decidable (event.Allowed pipeline) := by
  cases event <;> unfold Event.Allowed <;> infer_instance

def SchedulerClass.pipeline (cls : SchedulerClass) (cfg : Config) (host : Host σ) :
    Machine (Pipeline σ) Event Error where
  step := Pipeline.step cls cfg host

theorem ModelRunnerOutput.OneKind.of_answered {batch : Batch} {model : ModelRunnerOutput}
    (hanswered : batch.Answered model) : model.OneKind :=
  .inl hanswered.poolerOutput

/-- What one event preserves of the queues. -/
theorem Pipeline.step_queues {cls : SchedulerClass} {cfg : Config} {host : Host σ}
    (lawful : host.Lawful) {pipeline next : Pipeline σ} {event : Event}
    (hqueues : pipeline.sched.Queues) (hallowed : event.Allowed pipeline)
    (hok : pipeline.step cls cfg host event = .ok next) : next.sched.Queues := by
  cases event with
  | addRequest request =>
      cases hok
      exact Scheduler.addRequest_queues lawful hqueues hallowed.1 hallowed.2.1
  | finishRequest id status =>
      cases hok
      exact Scheduler.finishRequest_queues lawful hqueues id hallowed
  | setDraftTokenIds drafts =>
      cases hok
      exact hqueues.of_objs rfl rfl rfl fun id => ⟨rfl, rfl⟩
  | schedule =>
      obtain ⟨sched, output, hschedule, rfl⟩ := schedule_ok hok
      obtain ⟨pass, hscheduled⟩ := SchedulerClass.schedule_scheduled lawful hqueues hschedule
      exact hscheduled.queues lawful hqueues
  | update model =>
      obtain ⟨batch, rest, locals, hinFlight, hupdate, rfl⟩ := update_ok hok
      have hanswered : batch.Answered model := hallowed batch (by rw [hinFlight]; rfl)
      exact SchedulerClass.updateFromOutput_queues lawful hqueues (.of_answered hanswered) hupdate

end VllmMlu.Sched
