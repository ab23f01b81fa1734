import VllmMlu.Sched.Placeholders

/-! A placeholder of an unfinished request is one that a batch in flight will release. This half
of the accounting needs no bound on the batches in flight, and holds past the position clip. -/
namespace VllmMlu.Sched
open VllmMlu.Library

variable {σ : Type} {cls : SchedulerClass} {cfg : Config} {host : Host σ}

def Request.Covered (request : Request) (outstanding : Int) : Prop :=
  request.isFinished = false → request.numOutputPlaceholders ≤ outstanding

/-! One row of `update_from_output`. -/

/-- The roll-back takes the rejected drafts off the placeholders, if there are any. -/
theorem Request.rollBack_placeholders_le (request : Request) (drafts generated : List Token)
    (hle : generated.length ≤ drafts.length + 1) :
    (if drafts = [] then request
        else request.rollBack (drafts.length - (generated.length - 1))).isFinished =
      request.isFinished ∧
    (if drafts = [] then request
        else request.rollBack (drafts.length - (generated.length - 1))).numOutputPlaceholders ≤
      max 0 (request.numOutputPlaceholders -
        if generated = [] then 0 else drafts.length + 1 - generated.length) := by
  split
  · rename_i hnil
    subst hnil
    rw [List.length_nil] at hle ⊢
    refine ⟨rfl, ?_⟩
    split
    · omega
    · rename_i hsome
      have hpos := List.length_pos_of_ne_nil hsome
      omega
  · refine ⟨rfl, ?_⟩
    rw [rollBack]
    dsimp only
    split <;> split <;> omega

theorem SchedulerClass.updateRequestWithOutput_released (lawful : host.Lawful)
    (hasync : cls.isAsync = true) {request : Request} {tokens : List Token}
    {update : OutputUpdate} (hok : cls.updateRequestWithOutput host request tokens = .ok update)
    (hunfinished : update.request.isFinished = false) :
    request.isFinished = false ∧ update.request.numOutputPlaceholders ≤
      max 0 (request.numOutputPlaceholders - tokens.length) := by
  have hupdated := updateRequestWithOutput_updated lawful hok
  have hcontinues : update.stopped = false := by
    rw [← Bool.not_eq_true]
    intro hstopped
    rw [hupdated.stops hstopped] at hunfinished
    cases hunfinished
  have hsame := hupdated.continues hcontinues
  refine ⟨by rwa [Request.isFinished, ← hsame], ?_⟩
  have hrelease : ∀ release : Int → Nat → Int,
      asyncUpdateRequestWithOutput host release request tokens = .ok update →
      update.request.numOutputPlaceholders = release request.numOutputPlaceholders
        tokens.length := by
    intro release hrelease
    unfold asyncUpdateRequestWithOutput at hrelease
    dsimp only at hrelease
    split at hrelease
    · cases hrelease
    · cases hrelease
      dsimp only at hcontinues ⊢
      rw [(lawful.update_continues request tokens hcontinues).1, lawful.update_tokens]
      rfl
  cases cls with
  | profiler => cases hasync
  | unchunk => cases hasync
  | async =>
      rw [hrelease _ hok, AsyncScheduler.releasePlaceholders]
      omega
  | unchunkAsync =>
      rw [hrelease _ hok, MLUUnchunkAsyncScheduler.releasePlaceholders]
      split <;> omega

theorem rowUpdate_covered (lawful : host.Lawful) (hasync : cls.isAsync = true) {batch : Batch}
    {model : ModelRunnerOutput} (hanswered : batch.Answered model) {id : ReqId}
    (hmem : id ∈ batch.reqIds) {reqIndex : Nat} (hindex : model.reqIdToIndex.get? id = some reqIndex)
    {request : Request} {rest : Int} (hrest : 0 ≤ rest)
    (hcovered : request.Covered (batch.outstanding id + rest)) {row : RowUpdate}
    (hok : rowUpdate cls host batch.output model id reqIndex request = .ok row) :
    row.request.Covered rest := by
  obtain ⟨generated, hgenerated, hok⟩ := bind_eq_ok.mp hok
  obtain ⟨update, hupdate, hcheck⟩ := bind_eq_ok.mp hok
  rw [checkPooler, if_pos hanswered.poolerOutput] at hcheck
  cases hcheck
  have hreports := hanswered.reports hmem hindex hgenerated
  intro hunfinished
  change update.request.isFinished = false at hunfinished
  change update.request.numOutputPlaceholders ≤ rest
  have hle : generated.length ≤ (batch.output.specTokens id).length + 1 := by
    unfold Batch.Reports at hreports
    split at hreports
    · exact hreports.2
    · rw [hreports, List.length_nil]
      omega
  have hrolled := request.rollBack_placeholders_le (batch.output.specTokens id) generated hle
  unfold appendGenerated at hupdate
  dsimp only at hupdate
  generalize hbase : (if batch.output.specTokens id = [] then request
    else request.rollBack _) = rolled at hupdate hrolled
  unfold Batch.Reports at hreports
  unfold Request.Covered Batch.outstanding at hcovered
  split at hreports
  · rename_i hsamples
    rw [if_pos ⟨hmem, hsamples⟩, Batch.numDrafts] at hcovered
    rw [if_neg hreports.1] at hupdate hrolled
    obtain ⟨hwas, hreleased⟩ := SchedulerClass.updateRequestWithOutput_released lawful hasync
      hupdate hunfinished
    have hold := hcovered (hrolled.1 ▸ hwas)
    have hpositive := List.length_pos_of_ne_nil hreports.1
    omega
  · rename_i hsamples
    rw [if_neg fun hand => hsamples hand.2, zero_add] at hcovered
    rw [if_pos hreports] at hupdate hrolled
    cases hupdate
    have hold := hcovered (hrolled.1 ▸ hunfinished)
    dsimp only
    omega

theorem Batch.coveredRule (lawful : host.Lawful) (hasync : cls.isAsync = true) {batch : Batch}
    {model : ModelRunnerOutput} (hanswered : batch.Answered model) :
    RowRule cls host batch model Request.Covered fun _ => True where
  nans := fun _ _ _ hcovered => hcovered
  row := fun _ hmem _ hindex _ _ hrest hcovered _ hok =>
    ⟨rowUpdate_covered lawful hasync hanswered hmem hindex hrest hcovered hok,
      fun _ _ => trivial⟩

/-! One call of `schedule()`. -/

theorem Prepared.same_structured {rules : Rules} {before request : Request}
    (hprepared : Prepared cfg rules before request) :
    request.useStructuredOutput = before.useStructuredOutput := by
  obtain ⟨base, hbase, heq, -⟩ := hprepared
  rw [heq]
  rcases hbase with rfl | ⟨-, rfl⟩
  · rfl
  · obtain ⟨_, _, _, htaken⟩ := Pass.takeTransferredTokens_eq cfg before
    rw [htaken]

theorem Prepared.same_placeholders {rules : Rules} {before request : Request}
    (hprepared : Prepared cfg rules before request) :
    request.numOutputPlaceholders = before.numOutputPlaceholders := by
  obtain ⟨base, hbase, heq, -⟩ := hprepared
  rw [heq]
  rcases hbase with rfl | ⟨-, rfl⟩
  · rfl
  · obtain ⟨_, _, _, htaken⟩ := Pass.takeTransferredTokens_eq cfg before
    rw [htaken]

section Schedule

variable {start next : Scheduler σ} {output : SchedulerOutput} {id : ReqId}

/-- A step reserves placeholders only where it samples. -/
theorem scheduled_covered (hasync : cls.isAsync = true) {request : Request} {count : Int}
    {outstanding : Int} (hcount : output.numScheduledTokens.get? id = some count)
    (hsame : request.numOutputPlaceholders = (start.objs id).numOutputPlaceholders)
    (hobj : next.objs id = cls.scheduled cfg request (output.specTokens id).length (some count))
    (hcovered : request.numOutputPlaceholders ≤ outstanding) :
    (next.objs id).Covered
      (outstanding + (Batch.mk output (samples start next)).outstanding id) := by
  intro _
  obtain ⟨htokens, -, hcomputed, hplaceholders⟩ := SchedulerClass.scheduled_counters cfg hasync
    request (output.specTokens id).length count
  rw [← hobj] at htokens hcomputed hplaceholders
  rw [outstanding_of_scheduled hcount, hplaceholders, htokens, hcomputed, ← hsame]
  split
  · rename_i hreaches
    rw [if_pos (by omega)]
    omega
  · split <;> omega

theorem Fate.covered (hasync : cls.isAsync = true) (hqueues : start.Queues)
    (fate : Fate cls cfg start next output id) {outstanding : Int}
    (hcovered : (start.objs id).Covered outstanding) :
    (next.objs id).Covered
      (outstanding + (Batch.mk output (samples start next)).outstanding id) := by
  have hnonneg := (Batch.mk output (samples start next)).outstanding_nonneg id
  have hrunning : id ∈ start.running → (start.objs id).numOutputPlaceholders ≤ outstanding := by
    intro hmem
    apply hcovered
    rw [Request.isFinished, hqueues.running_status id hmem]
    rfl
  have hwaiting : id ∈ start.waiting → (start.objs id).numOutputPlaceholders ≤ outstanding :=
    fun hmem => hcovered (RequestStatus.not_finished_of_waits (hqueues.waiting_status id hmem))
  cases fate with
  | untouched hnone hobj =>
      intro hunfinished
      rw [hobj] at hunfinished ⊢
      have hold := hcovered hunfinished
      omega
  | ran hmem hcount hzero hpositive hbetween hdrafts hobj =>
      have hsame : (start.objs id).withoutDrafts.numOutputPlaceholders =
          (start.objs id).numOutputPlaceholders := rfl
      exact scheduled_covered hasync hcount hsame hobj (hsame ▸ hrunning hmem)
  | @entered ready computed _ hmem hprepared hlookup hcount hpositive hle hdrafts hobj =>
      have hsame : (ready.admitted computed.numComputedTokens).numOutputPlaceholders =
          (start.objs id).numOutputPlaceholders := hprepared.same_placeholders
      exact scheduled_covered hasync hcount hsame hobj (hsame ▸ hwaiting hmem)
  | evicted hmem hnone hobj =>
      intro _
      have hold := hrunning hmem
      rcases hobj with heq | heq
      · rw [heq]
        change (start.objs id).numOutputPlaceholders ≤ _
        omega
      · rw [heq]
        change (start.objs id).numOutputPlaceholders ≤ _
        omega
  | waits hmem hnone hstatus hprepared =>
      intro _
      have hold := hwaiting hmem
      rw [hprepared.same_placeholders]
      omega

end Schedule

/-! Which tokens a step of `AsyncScheduler` still waits for. -/

section Pending

variable {start next : Scheduler σ} {pass : Pass σ} {output : SchedulerOutput}

theorem SchedulerClass.scheduled_useStructuredOutput (cls : SchedulerClass) (cfg : Config)
    (request : Request) (numDrafts : Nat) (count : Option Int) :
    (cls.scheduled cfg request numDrafts count).useStructuredOutput =
      request.useStructuredOutput := by
  unfold scheduled
  split
  · rfl
  · unfold Request.reservePlaceholders
    split
    · split <;> rfl
    · rfl

/-- What the flag is computed from is what the call finds. -/
theorem Scheduled.before (lawful : host.Lawful) (hqueues : start.Queues)
    (hscheduled : Scheduled cls cfg host start pass next output) {id : ReqId}
    (hmem : id ∈ output.numScheduledTokens.keys) :
    (pass.obj id).useStructuredOutput = (start.objs id).useStructuredOutput ∧
      (pass.obj id).numOutputPlaceholders = (start.objs id).numOutputPlaceholders ∧
      (start.objs id).isFinished = false ∧ id ∈ start.requests := by
  rw [hscheduled.numScheduledTokens] at hmem
  have htracked := hscheduled.tracked lawful hqueues
  rcases (hscheduled.placed lawful hqueues).mem_scheduled.mp hmem with hran | hentered
  · obtain ⟨hrunning, hobj, -⟩ := htracked.ran id hran
    rw [hobj, Request.isFinished, hqueues.running_status id hrunning]
    exact ⟨rfl, rfl, rfl, hqueues.live id (List.mem_append_left _ hrunning)⟩
  · obtain ⟨hwaiting, ready, computed, -, hprepared, -, hobj, -⟩ := htracked.entered id hentered
    refine ⟨?_, ?_, RequestStatus.not_finished_of_waits (hqueues.waiting_status id hwaiting),
      hqueues.live id (List.mem_append_right _ hwaiting)⟩
    · rw [hobj]
      exact hprepared.same_structured
    · rw [hobj]
      exact hprepared.same_placeholders

/-- A step of `AsyncScheduler` is pending when a structured request of it has placeholders. -/
theorem Scheduled.pending_iff (lawful : host.Lawful) (hqueues : start.Queues)
    (hscheduled : Scheduled .async cfg host start pass next output) :
    output.pendingStructuredOutputTokens = true ↔ ∃ id ∈ output.numScheduledTokens.keys,
      (start.objs id).useStructuredOutput = true ∧
        0 < (start.objs id).numOutputPlaceholders := by
  have hflag : output.pendingStructuredOutputTokens =
      output.numScheduledTokens.keys.any fun id =>
        (pass.obj id).useStructuredOutput && 0 < (pass.obj id).numOutputPlaceholders := by
    rw [hscheduled.output]
    rfl
  rw [hflag, List.any_eq_true]
  apply exists_congr
  intro id
  rw [Bool.and_eq_true, decide_eq_true_eq]
  apply and_congr_right
  intro hmem
  obtain ⟨hstructured, hplaceholders, -, -⟩ := hscheduled.before lawful hqueues hmem
  rw [hstructured, hplaceholders]

end Pending

/-! Whole runs. -/

/-- The events of a run in which no block fails to load. -/
def Event.Clean (pipeline : Pipeline σ) : Event → Prop
  | .update model => (Event.update model).Allowed pipeline ∧ model.Loaded
  | event => event.Allowed pipeline

instance (pipeline : Pipeline σ) (event : Event) : Decidable (event.Clean pipeline) :=
  match event with
  | .update _ => instDecidableAnd
  | .schedule => (inferInstance : Decidable (Event.schedule.Allowed pipeline))
  | .addRequest request => (inferInstance : Decidable ((Event.addRequest request).Allowed pipeline))
  | .finishRequest id status =>
      (inferInstance : Decidable ((Event.finishRequest id status).Allowed pipeline))
  | .setDraftTokenIds drafts =>
      (inferInstance : Decidable ((Event.setDraftTokenIds drafts).Allowed pipeline))

theorem Event.Clean.allowed {pipeline : Pipeline σ} {event : Event} (hclean : event.Clean pipeline) :
    event.Allowed pipeline := by
  cases event with
  | update model => exact hclean.1
  | addRequest | finishRequest | setDraftTokenIds | schedule => exact hclean

structure Pipeline.Covered (pipeline : Pipeline σ) : Prop where
  queues : pipeline.sched.Queues
  covered : ∀ id ∈ pipeline.sched.requests,
    (pipeline.sched.objs id).Covered (pipeline.outstanding id)

namespace Pipeline.Covered

variable {pipeline next : Pipeline σ}

theorem empty (st : σ) : Pipeline.Covered ⟨.empty st, []⟩ where
  queues := Scheduler.empty_queues st
  covered := fun _ hmem => nomatch hmem

theorem schedule (lawful : host.Lawful) (hasync : cls.isAsync = true)
    (hcovered : pipeline.Covered) (hok : pipeline.schedule cls cfg host = .ok next) :
    next.Covered := by
  obtain ⟨sched, output, hschedule, rfl⟩ := Pipeline.schedule_ok hok
  have hqueues := hcovered.queues
  obtain ⟨pass, hscheduled⟩ := SchedulerClass.schedule_scheduled lawful hqueues hschedule
  have hrequests : sched.requests = pipeline.sched.requests :=
    hscheduled.sameQueues.requests.trans (hscheduled.placed lawful hqueues).requests
  refine ⟨hscheduled.queues lawful hqueues, fun id hmem => ?_⟩
  rw [hrequests] at hmem
  unfold Pipeline.outstanding
  rw [List.map_append, List.sum_append, List.map_singleton, List.sum_singleton]
  exact (hscheduled.fate lawful hqueues id).covered hasync hqueues (hcovered.covered id hmem)

theorem update (lawful : host.Lawful) (hasync : cls.isAsync = true) (hcovered : pipeline.Covered)
    {model : ModelRunnerOutput} (hloaded : model.Loaded)
    (hanswered : ∀ batch ∈ pipeline.inFlight.head?, batch.Answered model)
    (hok : pipeline.update cls cfg host model = .ok next) : next.Covered := by
  obtain ⟨batch, rest, locals, hinFlight, hupdate, rfl⟩ := Pipeline.update_ok hok
  have hanswered : batch.Answered model := hanswered batch (by rw [hinFlight]; rfl)
  have hbooks := hcovered.covered
  unfold Pipeline.outstanding at hbooks
  rw [hinFlight] at hbooks
  simp only [List.map_cons, List.sum_cons] at hbooks
  refine ⟨SchedulerClass.updateFromOutput_queues lawful hcovered.queues (.of_answered hanswered)
    hupdate, ?_⟩
  exact (SchedulerClass.updateFromOutput_settles lawful (.of_answered hanswered)
    (Batch.coveredRule lawful hasync hanswered)
    (Pipeline.mk pipeline.sched rest).outstanding_nonneg
    (hloaded.handleInvalidBlocks host pipeline.sched) (fun _ _ => List.not_mem_nil) hbooks
    hupdate).1

theorem addRequest (lawful : host.Lawful) (hcovered : pipeline.Covered) {request : Request}
    (hfresh : request.Fresh) (hid : request.requestId ∉ pipeline.sched.requests) :
    Pipeline.Covered { pipeline with sched := pipeline.sched.addRequest cfg host request } := by
  refine ⟨Scheduler.addRequest_queues lawful hcovered.queues hfresh hid, fun id hmem => ?_⟩
  change (Function.update pipeline.sched.objs request.requestId request id).Covered
    (pipeline.outstanding id)
  by_cases heq : id = request.requestId
  · rw [heq, Function.update_self]
    exact fun _ => hfresh.numOutputPlaceholders.trans_le (pipeline.outstanding_nonneg _)
  · rw [Function.update_of_ne heq]
    exact hcovered.covered id ((List.mem_append.mp hmem).resolve_right (by simpa using heq))

theorem finishRequest (lawful : host.Lawful) (hcovered : pipeline.Covered) (id : ReqId)
    {status : RequestStatus} (hstatus : status.isFinished = true) :
    Pipeline.Covered
      { pipeline with sched := pipeline.sched.finishRequest cfg host id status } := by
  refine ⟨Scheduler.finishRequest_queues lawful hcovered.queues id hstatus, ?_⟩
  rcases Scheduler.finishRequest_eq cfg host pipeline.sched id status with
    hsame | ⟨hobjs, hrequests, -⟩
  · rw [hsame]
    exact hcovered.covered
  · intro other hmem
    change ((pipeline.sched.finishRequest cfg host id status).objs other).Covered
      (pipeline.outstanding other)
    rw [hobjs]
    by_cases heq : other = id
    · subst heq
      rw [Function.update_self]
      intro hunfinished
      rw [Request.isFinished, Request.withStatus, hstatus] at hunfinished
      cases hunfinished
    · rw [Function.update_of_ne heq]
      exact hcovered.covered other (hrequests other hmem)

theorem step (lawful : host.Lawful) (hasync : cls.isAsync = true) (hcovered : pipeline.Covered)
    {event : Event} (hclean : event.Clean pipeline)
    (hok : pipeline.step cls cfg host event = .ok next) : next.Covered := by
  cases event with
  | addRequest request =>
      cases hok
      exact hcovered.addRequest lawful hclean.1 hclean.2.1
  | finishRequest id status =>
      cases hok
      exact hcovered.finishRequest lawful id hclean
  | setDraftTokenIds drafts =>
      cases hok
      exact ⟨hcovered.queues.of_objs rfl rfl rfl fun id => ⟨rfl, rfl⟩, hcovered.covered⟩
  | schedule => exact hcovered.schedule lawful hasync hok
  | update model => exact hcovered.update lawful hasync hclean.2 hclean.1 hok

theorem run (lawful : host.Lawful) (hasync : cls.isAsync = true) {st : σ}
    (run : (cls.pipeline cfg host).Run Event.Clean ⟨.empty st, []⟩ pipeline) : pipeline.Covered :=
  run.invariant (empty st) fun _ _ _ hcovered hclean hok =>
    hcovered.step lawful hasync hclean hok

end Pipeline.Covered

end VllmMlu.Sched
