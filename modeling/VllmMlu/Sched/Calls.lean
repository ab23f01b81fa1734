import VllmMlu.Sched.Outcome
import VllmMlu.Sched.Rows

/-! The scheduler as a machine whose steps are the calls made of it, and the
queue invariant that every call which returns preserves. -/
namespace VllmMlu.Sched
open VllmMlu.Library

variable {σ : Type}

/-- A request as it arrives at the scheduler. -/
structure Request.Fresh (request : Request) : Prop where
  status : request.status = .waiting ∨ request.status = .waitingForFsm
  outputTokenIds : request.outputTokenIds = []
  specTokenIds : request.specTokenIds = []
  numComputedTokens : request.numComputedTokens = 0
  numOutputPlaceholders : request.numOutputPlaceholders = 0

instance (request : Request) : Decidable request.Fresh :=
  decidable_of_iff ((request.status = .waiting ∨ request.status = .waitingForFsm) ∧
      request.outputTokenIds = [] ∧ request.specTokenIds = [] ∧
      request.numComputedTokens = 0 ∧ request.numOutputPlaceholders = 0)
    ⟨fun h => ⟨h.1, h.2.1, h.2.2.1, h.2.2.2.1, h.2.2.2.2⟩,
      fun h => ⟨h.status, h.outputTokenIds, h.specTokenIds, h.numComputedTokens,
        h.numOutputPlaceholders⟩⟩

namespace Scheduler

def empty (st : σ) : Scheduler σ where
  objs := fun id => { requestId := id, promptTokenIds := [], maxTokens := 0 }
  host := st

def addRequest (cfg : Config) (host : Host σ) (self : Scheduler σ) (request : Request) :
    Scheduler σ :=
  let objs := Function.update self.objs request.requestId request
  { self with
    objs := objs
    requests := self.requests ++ [request.requestId]
    waiting := host.addRequest cfg.policy objs self.waiting request.requestId }

/-- `finish_requests` of the parent, for one id: an abort from outside. -/
def finishRequest (cfg : Config) (host : Host σ) (self : Scheduler σ) (id : ReqId)
    (status : RequestStatus) : Scheduler σ :=
  if id ∈ self.requests ∧ (self.objs id).isFinished = false then
    let self :=
      if (self.objs id).status = .running then
        { self with running := self.running.filter (· ≠ id) }
      else
        { self with waiting := host.removeRequests cfg.policy self.objs self.waiting [id] }
    ((self.modify id (·.withStatus status)).freeRequest host id).1
  else self

/-- `update_draft_token_ids` of the parent, for one request. -/
def updateDraft (host : Host σ) (self : Scheduler σ) (entry : ReqId × List Token) : Scheduler σ :=
  if entry.1 ∈ self.requests ∧ (self.objs entry.1).isFinished = false then
    self.modify entry.1 fun request => { request with
      specTokenIds :=
        if host.shouldAdvance self.host request then
          host.validateTokens self.host request entry.2
        else entry.2 }
  else self

def updateDraftTokenIds (host : Host σ) (self : Scheduler σ) (drafts : DraftTokenIds) :
    Scheduler σ :=
  (drafts.reqIds.zip drafts.draftTokenIds).foldl (updateDraft host) self

end Scheduler

/-- The calls that are made of a scheduler. -/
inductive Call where
  | addRequest (request : Request)
  | schedule
  | updateFromOutput (output : SchedulerOutput) (model : ModelRunnerOutput)
  | finishRequest (id : ReqId) (status : RequestStatus)
  | updateDraftTokenIds (drafts : DraftTokenIds)
  /-- The engine stores the draft tokens it hands to decode instances. -/
  | setDraftTokenIds (drafts : Option DraftTokenIds)

def SchedulerClass.call (cls : SchedulerClass) (cfg : Config) (host : Host σ)
    (self : Scheduler σ) : Call → Except Error (Scheduler σ)
  | .addRequest request => .ok (self.addRequest cfg host request)
  | .schedule => do
      let (self, _) ← cls.schedule cfg host self
      pure self
  | .updateFromOutput output model => do
      let locals ← cls.updateFromOutput cfg host self output model
      pure locals.self
  | .finishRequest id status => .ok (self.finishRequest cfg host id status)
  | .updateDraftTokenIds drafts => .ok (self.updateDraftTokenIds host drafts)
  | .setDraftTokenIds drafts => .ok { self with draftTokenIds := drafts }

def SchedulerClass.machine (cls : SchedulerClass) (cfg : Config) (host : Host σ) :
    Machine (Scheduler σ) Call Error where
  step := cls.call cfg host

/-- Requests arrive under ids that are not in use, and the values passed in are
well formed. -/
def Call.Allowed (self : Scheduler σ) : Call → Prop
  | .addRequest request => request.Fresh ∧ request.requestId ∉ self.requests
  | .updateFromOutput _ model => model.OneKind
  | .finishRequest _ status => status.isFinished = true
  | _ => True

instance (model : ModelRunnerOutput) : Decidable model.OneKind := by
  unfold ModelRunnerOutput.OneKind
  infer_instance

instance (self : Scheduler σ) (call : Call) : Decidable (call.Allowed self) := by
  cases call <;> unfold Call.Allowed <;> infer_instance

/-- The states of a scheduler after any sequence of calls that return. -/
def SchedulerClass.Reachable (cls : SchedulerClass) (cfg : Config) (host : Host σ) (st : σ)
    (self : Scheduler σ) : Prop :=
  (cls.machine cfg host).Run Call.Allowed (.empty st) self

/-- The state after the given calls, when all of them are allowed and return. -/
def SchedulerClass.after (cls : SchedulerClass) (cfg : Config) (host : Host σ) (st : σ)
    (calls : List Call) : Option (Scheduler σ) :=
  (cls.machine cfg host).perform Call.Allowed (.empty st) calls

theorem SchedulerClass.Reachable.of_after {cls : SchedulerClass} {cfg : Config} {host : Host σ}
    {st : σ} {calls : List Call} {self : Scheduler σ}
    (hafter : cls.after cfg host st calls = some self) : cls.Reachable cfg host st self :=
  Machine.Run.refl.of_perform hafter

/-- Run the calls, then `schedule()`, and test what it makes of the state. -/
def SchedulerClass.tryAfter (cls : SchedulerClass) (cfg : Config) (host : Host σ) (st : σ)
    (calls : List Call) (test : Scheduler σ → Scheduler σ → SchedulerOutput → Bool) : Bool :=
  match cls.after cfg host st calls with
  | none => false
  | some self =>
      match cls.schedule cfg host self with
      | .ok (next, output) => test self next output
      | .error _ => false

theorem SchedulerClass.exists_of_tryAfter (cls : SchedulerClass) (cfg : Config) (host : Host σ)
    (st : σ) (calls : List Call) (test : Scheduler σ → Scheduler σ → SchedulerOutput → Bool)
    (htest : cls.tryAfter cfg host st calls test = true) :
    ∃ self next output, cls.Reachable cfg host st self ∧
      cls.schedule cfg host self = .ok (next, output) ∧ test self next output = true := by
  unfold tryAfter at htest
  split at htest
  · cases htest
  · rename_i self hafter
    split at htest
    · rename_i next output hschedule
      exact ⟨self, next, output, .of_after hafter, hschedule, htest⟩
    · cases htest

theorem RequestStatus.not_running_of_waits {status : RequestStatus}
    (hwaits : status.waits = true) : status ≠ .running := by
  rintro rfl
  cases hwaits

theorem RequestStatus.not_finished_of_waits {status : RequestStatus}
    (hwaits : status.waits = true) : status.isFinished = false := by
  cases status <;> first | rfl | cases hwaits

/-! The queues while the rows of a model runner output are being processed. -/

structure UpdateLocals.Open (locals : UpdateLocals σ) : Prop where
  nodup : (locals.self.running ++ locals.self.waiting).Nodup
  running : ∀ id ∈ locals.self.running, id ∉ locals.stoppedRunningReqs →
    (locals.self.objs id).status = .running ∧ id ∈ locals.self.requests
  waiting : ∀ id ∈ locals.self.waiting, id ∉ locals.stoppedPreemptedReqs →
    (locals.self.objs id).status.waits = true ∧ id ∈ locals.self.requests
  placed : ∀ id ∈ locals.self.requests, (locals.self.objs id).isFinished = false →
    id ∈ locals.self.running ++ locals.self.waiting
  stopped : ∀ id, id ∈ locals.stoppedRunningReqs ∨ id ∈ locals.stoppedPreemptedReqs →
    (locals.self.objs id).isFinished = true
  requestId : ∀ id, (locals.self.objs id).requestId = id

theorem Scheduler.Queues.toOpen {self : Scheduler σ} (hqueues : self.Queues) :
    UpdateLocals.Open { self := self } where
  nodup := hqueues.nodup
  running := fun id hmem _ =>
    ⟨hqueues.running_status id hmem, hqueues.live id (List.mem_append_left _ hmem)⟩
  waiting := fun id hmem _ =>
    ⟨hqueues.waiting_status id hmem, hqueues.live id (List.mem_append_right _ hmem)⟩
  placed := hqueues.placed
  stopped := fun _ hmem => nomatch hmem
  requestId := hqueues.requestId

/-- What one processed row preserves. -/
theorem RowEffect.toOpen {locals next : UpdateLocals σ} {id : ReqId} {row : RowUpdate}
    (heffect : RowEffect id row locals next) (hopen : locals.Open)
    (hupdated : Updated (locals.self.objs id) row.request row.stopped) : next.Open := by
  obtain ⟨nans, hobjs⟩ := heffect.objs
  have hself : next.self.objs id = { row.request with numNansInLogits := nans } := by
    rw [hobjs, Function.update_self]
  have hother : ∀ other, other ≠ id → next.self.objs other = locals.self.objs other := by
    intro other hne
    rw [hobjs, Function.update_of_ne hne]
  have hrequests : ∀ other ∈ locals.self.requests,
      other ≠ id ∨ row.stopped = false → other ∈ next.self.requests := by
    intro other hmem hkept
    rcases heffect.requests with heq | ⟨hstopped, heq⟩
    · rwa [heq]
    · rw [heq, List.mem_filter]
      refine ⟨hmem, by simpa using hkept.resolve_right (by simp [hstopped])⟩
  have hsubset : ∀ other ∈ next.self.requests, other ∈ locals.self.requests := by
    intro other hmem
    rcases heffect.requests with heq | ⟨-, heq⟩
    · rwa [← heq]
    · rw [heq] at hmem
      exact (List.mem_filter.mp hmem).1
  refine ⟨?_, ?_, ?_, ?_, ?_, ?_⟩
  · rw [heffect.running, heffect.waiting]
    exact hopen.nodup
  · intro other hmem hkept
    rw [heffect.running] at hmem
    rw [heffect.stoppedRunning, List.mem_append, not_or] at hkept
    obtain ⟨hstatus, hlive⟩ := hopen.running other hmem hkept.1
    by_cases heq : other = id
    · subst heq
      cases hstopped : row.stopped with
      | true => exact absurd hkept.2 (by simp [hstopped, hstatus])
      | false =>
          rw [hself]
          exact ⟨(hupdated.continues hstopped).trans hstatus,
            hrequests other hlive (.inr hstopped)⟩
    · rw [hother other heq]
      exact ⟨hstatus, hrequests other hlive (.inl heq)⟩
  · intro other hmem hkept
    rw [heffect.waiting] at hmem
    rw [heffect.stoppedPreempted, List.mem_append, not_or] at hkept
    obtain ⟨hstatus, hlive⟩ := hopen.waiting other hmem hkept.1
    by_cases heq : other = id
    · subst heq
      cases hstopped : row.stopped with
      | true =>
          exact absurd hkept.2 (by
            simp [hstopped, RequestStatus.not_running_of_waits hstatus])
      | false =>
          rw [hself]
          exact ⟨(congrArg RequestStatus.waits (hupdated.continues hstopped)).trans hstatus,
            hrequests other hlive (.inr hstopped)⟩
    · rw [hother other heq]
      exact ⟨hstatus, hrequests other hlive (.inl heq)⟩
  · intro other hmem hunfinished
    rw [heffect.running, heffect.waiting]
    refine hopen.placed other (hsubset other hmem) ?_
    by_cases heq : other = id
    · subst heq
      rw [hself] at hunfinished
      cases hstopped : row.stopped with
      | true =>
          have hfinished := hupdated.stops hstopped
          change row.request.isFinished = false at hunfinished
          rw [hfinished] at hunfinished
          cases hunfinished
      | false =>
          have hstatus := hupdated.continues hstopped
          change row.request.status.isFinished = false at hunfinished
          rwa [hstatus] at hunfinished
    · rwa [hother other heq] at hunfinished
  · intro other hmem
    by_cases heq : other = id
    · subst heq
      rw [hself]
      change row.request.isFinished = true
      cases hstopped : row.stopped with
      | true => exact hupdated.stops hstopped
      | false =>
          rw [heffect.stoppedRunning, heffect.stoppedPreempted] at hmem
          simp only [hstopped, Bool.false_eq_true, false_and, if_false, List.append_nil] at hmem
          have hfinished := hopen.stopped other hmem
          rw [Request.isFinished, hupdated.continues hstopped]
          exact hfinished
    · rw [hother other heq]
      refine hopen.stopped other ?_
      rw [heffect.stoppedRunning, heffect.stoppedPreempted, List.mem_append, List.mem_append]
        at hmem
      refine hmem.imp (fun hrunning => hrunning.resolve_right ?_)
        (fun hpreempted => hpreempted.resolve_right ?_)
      · split
        · simpa using heq
        · exact List.not_mem_nil
      · split
        · simpa using heq
        · exact List.not_mem_nil
  · intro other
    by_cases heq : other = id
    · subst heq
      rw [hself]
      exact hupdated.requestId.trans (hopen.requestId other)
    · rw [hother other heq]
      exact hopen.requestId other

/-- The stopped requests leave their queue in the end. -/
theorem UpdateLocals.Open.close {cfg : Config} {host : Host σ} (lawful : host.Lawful)
    {locals : UpdateLocals σ} (hopen : locals.Open) (model : ModelRunnerOutput) :
    (locals.close cfg host model).self.Queues := by
  have hwaiting : ∀ id, id ∈ (if locals.stoppedPreemptedReqs = [] then locals.self.waiting
      else host.removeRequests cfg.policy locals.self.objs locals.self.waiting
        locals.stoppedPreemptedReqs) ↔
      id ∈ locals.self.waiting ∧ id ∉ locals.stoppedPreemptedReqs := by
    intro id
    split
    · rename_i hnil
      simp [hnil]
    · rw [(lawful.removeRequests_perm ..).mem_iff, List.mem_filter, decide_eq_true_eq]
  have hnodup : (if locals.stoppedPreemptedReqs = [] then locals.self.waiting
      else host.removeRequests cfg.policy locals.self.objs locals.self.waiting
        locals.stoppedPreemptedReqs).Nodup := by
    have hold := (List.nodup_append'.mp hopen.nodup).2.1
    split
    · exact hold
    · exact (lawful.removeRequests_perm ..).nodup_iff.mpr (hold.filter _)
  have hclosed : ∀ (next : Scheduler σ), next.objs = locals.self.objs →
      next.running = locals.self.running.filter (· ∉ locals.stoppedRunningReqs) →
      next.waiting = (if locals.stoppedPreemptedReqs = [] then locals.self.waiting
        else host.removeRequests cfg.policy locals.self.objs locals.self.waiting
          locals.stoppedPreemptedReqs) →
      (∀ id ∈ next.requests, id ∈ locals.self.requests) →
      (∀ id ∈ locals.self.requests, (locals.self.objs id).isFinished = false →
        id ∈ next.requests) → next.Queues := by
    intro next hobjs hrunning hqueue hsubset hkept
    have hmemRunning : ∀ id ∈ next.running,
        id ∈ locals.self.running ∧ id ∉ locals.stoppedRunningReqs := by
      intro id hmem
      rw [hrunning] at hmem
      simpa using List.mem_filter.mp hmem
    have hmemWaiting : ∀ id ∈ next.waiting,
        id ∈ locals.self.waiting ∧ id ∉ locals.stoppedPreemptedReqs := by
      intro id hmem
      rw [hqueue] at hmem
      exact (hwaiting id).mp hmem
    have hstatusRunning : ∀ id ∈ next.running, (locals.self.objs id).status = .running ∧
        id ∈ locals.self.requests := fun id hmem =>
      hopen.running id (hmemRunning id hmem).1 (hmemRunning id hmem).2
    have hstatusWaiting : ∀ id ∈ next.waiting, (locals.self.objs id).status.waits = true ∧
        id ∈ locals.self.requests := fun id hmem =>
      hopen.waiting id (hmemWaiting id hmem).1 (hmemWaiting id hmem).2
    have hold := List.nodup_append'.mp hopen.nodup
    refine ⟨?_, ?_, ?_, ?_, ?_, ?_⟩
    · refine List.nodup_append'.mpr ⟨hrunning ▸ hold.1.filter _, hqueue ▸ hnodup, ?_⟩
      intro id hleft hright
      exact hold.2.2 (hmemRunning id hleft).1 (hmemWaiting id hright).1
    · intro id hmem
      rw [hobjs]
      exact (hstatusRunning id hmem).1
    · intro id hmem
      rw [hobjs]
      exact (hstatusWaiting id hmem).1
    · intro id hmem
      rcases List.mem_append.mp hmem with hleft | hright
      · refine hkept id (hstatusRunning id hleft).2 ?_
        rw [Request.isFinished, (hstatusRunning id hleft).1]
        rfl
      · exact hkept id (hstatusWaiting id hright).2
          (RequestStatus.not_finished_of_waits (hstatusWaiting id hright).1)
    · intro id hmem hunfinished
      rw [hobjs] at hunfinished
      have hkeptId : ∀ stopped : List ReqId, (∀ other ∈ stopped, (locals.self.objs other).isFinished = true) →
          id ∉ stopped := by
        intro stopped hstopped hin
        rw [hstopped id hin] at hunfinished
        cases hunfinished
      refine List.mem_append.mpr ((List.mem_append.mp
        (hopen.placed id (hsubset id hmem) hunfinished)).imp (fun hleft => ?_) (fun hright => ?_))
      · rw [hrunning, List.mem_filter, decide_eq_true_eq]
        exact ⟨hleft, hkeptId _ fun other hin => hopen.stopped other (.inl hin)⟩
      · rw [hqueue, hwaiting]
        exact ⟨hright, hkeptId _ fun other hin => hopen.stopped other (.inr hin)⟩
    · intro id
      rw [hobjs]
      exact hopen.requestId id
  unfold UpdateLocals.close
  dsimp only
  split
  · exact hclosed _ rfl rfl rfl (fun _ hmem => hmem) (fun _ hmem _ => hmem)
  · refine hclosed _ rfl rfl rfl ?_ ?_
    · intro id hmem
      exact (List.mem_filter.mp hmem).1
    · intro id hmem hunfinished
      refine List.mem_filter.mpr ⟨hmem, ?_⟩
      change (!(decide _ && (locals.self.objs id).isFinished)) = true
      rw [hunfinished]
      simp

/-- Only computed token counts change in the queues' eyes. -/
theorem Scheduler.Queues.of_objs {self next : Scheduler σ} (hqueues : self.Queues)
    (hrunning : next.running = self.running) (hwaiting : next.waiting = self.waiting)
    (hrequests : next.requests = self.requests)
    (hobjs : ∀ id, (next.objs id).status = (self.objs id).status ∧
      (next.objs id).requestId = (self.objs id).requestId) : next.Queues := by
  refine ⟨?_, ?_, ?_, ?_, ?_, ?_⟩
  · rw [hrunning, hwaiting]
    exact hqueues.nodup
  · intro id hmem
    rw [(hobjs id).1]
    exact hqueues.running_status id (hrunning ▸ hmem)
  · intro id hmem
    rw [(hobjs id).1]
    exact hqueues.waiting_status id (hwaiting ▸ hmem)
  · intro id hmem
    rw [hrunning, hwaiting] at hmem
    rw [hrequests]
    exact hqueues.live id hmem
  · intro id hmem hunfinished
    rw [Request.isFinished, (hobjs id).1] at hunfinished
    rw [hrunning, hwaiting]
    exact hqueues.placed id (hrequests ▸ hmem) hunfinished
  · intro id
    rw [(hobjs id).2]
    exact hqueues.requestId id

theorem Scheduler.applyInvalidBlocks_same (answer : List (ReqId × Int)) (self : Scheduler σ) :
    let next := answer.foldl (fun self entry =>
      self.modify entry.1 fun request => { request with numComputedTokens := entry.2 }) self
    next.running = self.running ∧ next.waiting = self.waiting ∧ next.requests = self.requests ∧
      next.draftTokenIds = self.draftTokenIds ∧
      ∀ id, ∃ computed, next.objs id = { self.objs id with numComputedTokens := computed } := by
  induction answer generalizing self with
  | nil => exact ⟨rfl, rfl, rfl, rfl, fun id => ⟨_, rfl⟩⟩
  | cons entry rest ih =>
      obtain ⟨hrunning, hwaiting, hrequests, hdrafts, hobjs⟩ := ih (self.modify entry.1
        fun request => { request with numComputedTokens := entry.2 })
      refine ⟨hrunning, hwaiting, hrequests, hdrafts, fun id => ?_⟩
      obtain ⟨computed, heq⟩ := hobjs id
      refine ⟨computed, heq.trans ?_⟩
      by_cases hid : id = entry.1
      · rw [hid, modify_objs_self]
      · rw [modify_objs_of_ne _ _ hid]

theorem Scheduler.handleInvalidBlocks_same (host : Host σ) (self : Scheduler σ)
    (model : ModelRunnerOutput) :
    (self.handleInvalidBlocks host model).1.running = self.running ∧
      (self.handleInvalidBlocks host model).1.waiting = self.waiting ∧
      (self.handleInvalidBlocks host model).1.requests = self.requests ∧
      (self.handleInvalidBlocks host model).1.draftTokenIds = self.draftTokenIds ∧
      ∀ id, ∃ computed, (self.handleInvalidBlocks host model).1.objs id =
        { self.objs id with numComputedTokens := computed } := by
  unfold handleInvalidBlocks
  split
  · split
    · exact ⟨rfl, rfl, rfl, rfl, fun id => ⟨_, rfl⟩⟩
    · exact applyInvalidBlocks_same _ _
  · exact ⟨rfl, rfl, rfl, rfl, fun id => ⟨_, rfl⟩⟩

/-! Every call preserves the queues. -/

section Preservation

variable {cfg : Config} {cls : SchedulerClass} {host : Host σ}

theorem SchedulerClass.updateFromOutput_queues (lawful : host.Lawful) {self : Scheduler σ}
    (hqueues : self.Queues) {output : SchedulerOutput} {model : ModelRunnerOutput}
    (hkind : model.OneKind) {locals : UpdateLocals σ}
    (hok : cls.updateFromOutput cfg host self output model = .ok locals) :
    locals.self.Queues := by
  unfold updateFromOutput at hok
  obtain ⟨hrunning, hwaiting, hrequests, -, hobjs⟩ := self.handleInvalidBlocks_same host model
  have hinvalid : (self.handleInvalidBlocks host model).1.Queues := by
    refine hqueues.of_objs hrunning hwaiting hrequests fun id => ?_
    obtain ⟨computed, heq⟩ := hobjs id
    rw [heq]
    exact ⟨rfl, rfl⟩
  obtain ⟨processed, hprocessed, hclose⟩ := bind_eq_ok.mp hok
  have hopen : processed.Open := by
    refine foldlM_invariant hinvalid.toOpen ?_ hprocessed
    intro entry _ before next hbefore hrow
    obtain ⟨-, hskip | ⟨-, -, reqIndex, row, -, hupdate, heffect⟩⟩ := updateRow_cases hrow
    · exact hskip.1 ▸ hbefore
    · exact heffect.toOpen hbefore (rowUpdate_updated lawful hkind hupdate)
  rw [pure_eq_ok] at hclose
  exact hclose ▸ hopen.close lawful model

theorem Scheduler.addRequest_queues (lawful : host.Lawful) {self : Scheduler σ}
    (hqueues : self.Queues) {request : Request} (hfresh : request.Fresh)
    (hid : request.requestId ∉ self.requests) :
    (self.addRequest cfg host request).Queues := by
  have hperm := lawful.addRequest_perm cfg.policy
    (Function.update self.objs request.requestId request) self.waiting request.requestId
  have hout : request.requestId ∉ self.running ++ self.waiting := fun hmem =>
    hid (hqueues.live _ hmem)
  have hother : ∀ other ∈ self.running ++ self.waiting,
      Function.update self.objs request.requestId request other = self.objs other := by
    intro other hmem
    refine Function.update_of_ne ?_ ..
    rintro rfl
    exact hout hmem
  have hqueue : (self.running ++ host.addRequest cfg.policy
      (Function.update self.objs request.requestId request) self.waiting
        request.requestId).Perm (request.requestId :: (self.running ++ self.waiting)) :=
    (hperm.append_left _).trans List.perm_middle
  refine ⟨?_, ?_, ?_, ?_, ?_, ?_⟩
  · exact hqueue.nodup_iff.mpr (List.nodup_cons.mpr ⟨hout, hqueues.nodup⟩)
  · intro id hmem
    change (Function.update self.objs request.requestId request id).status = _
    rw [hother id (List.mem_append_left _ hmem)]
    exact hqueues.running_status id hmem
  · intro id hmem
    change (Function.update self.objs request.requestId request id).status.waits = _
    rcases List.mem_cons.mp (hperm.mem_iff.mp hmem) with rfl | hold
    · rw [Function.update_self]
      rcases hfresh.status with hstatus | hstatus <;> rw [hstatus] <;> rfl
    · rw [hother id (List.mem_append_right _ hold)]
      exact hqueues.waiting_status id hold
  · intro id hmem
    rcases List.mem_cons.mp (hqueue.mem_iff.mp hmem) with rfl | hold
    · exact List.mem_append_right _ (List.mem_singleton_self _)
    · exact List.mem_append_left _ (hqueues.live id hold)
  · intro id hmem hunfinished
    refine hqueue.mem_iff.mpr (List.mem_cons.mpr ?_)
    by_cases heq : id = request.requestId
    · exact .inl heq
    · change (Function.update self.objs request.requestId request id).isFinished = false
        at hunfinished
      rw [Function.update_of_ne heq] at hunfinished
      refine .inr (hqueues.placed id ?_ hunfinished)
      exact (List.mem_append.mp hmem).resolve_right (by simpa using heq)
  · intro id
    change (Function.update self.objs request.requestId request id).requestId = id
    by_cases heq : id = request.requestId
    · rw [heq, Function.update_self]
    · rw [Function.update_of_ne heq]
      exact hqueues.requestId id

theorem Scheduler.finishRequest_queues (lawful : host.Lawful) {self : Scheduler σ}
    (hqueues : self.Queues) (id : ReqId) {status : RequestStatus}
    (hstatus : status.isFinished = true) : (self.finishRequest cfg host id status).Queues := by
  unfold finishRequest
  split
  · rename_i hlive
    have hold := List.nodup_append'.mp hqueues.nodup
    -- Whichever queue the request was in, it is in neither now.
    have hcleared : ∀ next : Scheduler σ, next.objs = self.objs → next.requests = self.requests →
        (∀ other, other ∈ next.running ↔ other ∈ self.running ∧ other ≠ id) →
        (∀ other, other ∈ next.waiting ↔ other ∈ self.waiting ∧ other ≠ id) →
        next.running.Nodup → next.waiting.Nodup →
        ((next.modify id (·.withStatus status)).freeRequest host id).1.Queues := by
      intro next hobjs hrequests hrunning hwaiting hnodupRunning hnodupWaiting
      have hother : ∀ other, other ≠ id →
          (next.modify id (·.withStatus status)).objs other = self.objs other := by
        intro other hne
        rw [modify_objs_of_ne _ _ hne, hobjs]
      have hself : (next.modify id (·.withStatus status)).objs id =
          (self.objs id).withStatus status := by
        rw [modify_objs_self, hobjs]
      refine ⟨?_, ?_, ?_, ?_, ?_, ?_⟩
      · refine List.nodup_append'.mpr ⟨hnodupRunning, hnodupWaiting, ?_⟩
        intro other hleft hright
        exact hold.2.2 ((hrunning other).mp hleft).1 ((hwaiting other).mp hright).1
      · intro other hmem
        obtain ⟨hmemOld, hne⟩ := (hrunning other).mp hmem
        rw [freeRequest, hother other hne]
        exact hqueues.running_status other hmemOld
      · intro other hmem
        obtain ⟨hmemOld, hne⟩ := (hwaiting other).mp hmem
        rw [freeRequest, hother other hne]
        exact hqueues.waiting_status other hmemOld
      · intro other hmem
        have hmemOld : other ∈ self.running ++ self.waiting ∧ other ≠ id := by
          rcases List.mem_append.mp hmem with hleft | hright
          · exact ⟨List.mem_append_left _ ((hrunning other).mp hleft).1,
              ((hrunning other).mp hleft).2⟩
          · exact ⟨List.mem_append_right _ ((hwaiting other).mp hright).1,
              ((hwaiting other).mp hright).2⟩
        have hliveOld := hqueues.live other hmemOld.1
        rw [← hrequests] at hliveOld
        unfold freeRequest
        dsimp only
        split
        · exact hliveOld
        · exact List.mem_filter.mpr ⟨hliveOld, by simpa using hmemOld.2⟩
      · intro other hmem hunfinished
        have hmemOld : other ∈ self.requests := by
          rw [← hrequests]
          unfold freeRequest at hmem
          dsimp only at hmem
          split at hmem
          · exact hmem
          · exact (List.mem_filter.mp hmem).1
        have hne : other ≠ id := by
          rintro rfl
          rw [freeRequest, hself] at hunfinished
          change status.isFinished = false at hunfinished
          rw [hstatus] at hunfinished
          cases hunfinished
        rw [freeRequest, hother other hne] at hunfinished
        refine List.mem_append.mpr ((List.mem_append.mp
          (hqueues.placed other hmemOld hunfinished)).imp (fun hleft => ?_) (fun hright => ?_))
        · exact (hrunning other).mpr ⟨hleft, hne⟩
        · exact (hwaiting other).mpr ⟨hright, hne⟩
      · intro other
        by_cases heq : other = id
        · rw [freeRequest, heq, hself]
          exact hqueues.requestId id
        · rw [freeRequest, hother other heq]
          exact hqueues.requestId other
    dsimp only
    split
    · rename_i hrunning
      refine hcleared _ rfl rfl ?_ ?_ (hold.1.filter _) hold.2.1
      · intro other
        simp
      · intro other
        refine ⟨fun hmem => ⟨hmem, ?_⟩, And.left⟩
        rintro rfl
        exact RequestStatus.not_running_of_waits (hqueues.waiting_status other hmem) hrunning
    · rename_i hrunning
      have hperm := lawful.removeRequests_perm cfg.policy self.objs self.waiting [id]
      refine hcleared _ rfl rfl ?_ ?_ hold.1 (hperm.nodup_iff.mpr (hold.2.1.filter _))
      · intro other
        refine ⟨fun hmem => ⟨hmem, ?_⟩, And.left⟩
        rintro rfl
        exact hrunning (hqueues.running_status other hmem)
      · intro other
        change other ∈ host.removeRequests cfg.policy self.objs self.waiting [id] ↔ _
        rw [hperm.mem_iff, List.mem_filter]
        simp
  · exact hqueues

theorem Scheduler.updateDraftTokenIds_same (host : Host σ) (entries : List (ReqId × List Token))
    (self : Scheduler σ) :
    (entries.foldl (updateDraft host) self).running = self.running ∧
      (entries.foldl (updateDraft host) self).waiting = self.waiting ∧
      (entries.foldl (updateDraft host) self).requests = self.requests ∧
      ∀ id, ∃ drafts, (entries.foldl (updateDraft host) self).objs id =
        { self.objs id with specTokenIds := drafts } := by
  induction entries generalizing self with
  | nil => exact ⟨rfl, rfl, rfl, fun id => ⟨_, rfl⟩⟩
  | cons entry rest ih =>
      obtain ⟨hrunning, hwaiting, hrequests, hobjs⟩ := ih (self.updateDraft host entry)
      have hfirst : (self.updateDraft host entry).running = self.running ∧
          (self.updateDraft host entry).waiting = self.waiting ∧
          (self.updateDraft host entry).requests = self.requests ∧
          ∀ id, ∃ drafts, (self.updateDraft host entry).objs id =
            { self.objs id with specTokenIds := drafts } := by
        unfold updateDraft
        split
        · refine ⟨rfl, rfl, rfl, fun id => ?_⟩
          by_cases hid : id = entry.1
          · rw [hid, modify_objs_self]
            exact ⟨_, rfl⟩
          · rw [modify_objs_of_ne _ _ hid]
            exact ⟨_, rfl⟩
        · exact ⟨rfl, rfl, rfl, fun id => ⟨_, rfl⟩⟩
      refine ⟨hrunning.trans hfirst.1, hwaiting.trans hfirst.2.1, hrequests.trans hfirst.2.2.1,
        fun id => ?_⟩
      obtain ⟨drafts, heq⟩ := hobjs id
      obtain ⟨draftsFirst, heqFirst⟩ := hfirst.2.2.2 id
      exact ⟨drafts, heq.trans (by rw [heqFirst])⟩

/-- What one call preserves. -/
theorem SchedulerClass.call_queues (lawful : host.Lawful) {self next : Scheduler σ} {call : Call}
    (hqueues : self.Queues) (hallowed : call.Allowed self)
    (hok : cls.call cfg host self call = .ok next) : next.Queues := by
  cases call with
  | addRequest request =>
      cases hok
      exact Scheduler.addRequest_queues lawful hqueues hallowed.1 hallowed.2
  | schedule =>
      obtain ⟨⟨scheduled, output⟩, hschedule, hpure⟩ := bind_eq_ok.mp hok
      rw [pure_eq_ok] at hpure
      obtain ⟨pass, hscheduled⟩ := schedule_scheduled lawful hqueues hschedule
      exact hpure ▸ hscheduled.queues lawful hqueues
  | updateFromOutput output model =>
      obtain ⟨locals, hupdate, hpure⟩ := bind_eq_ok.mp hok
      rw [pure_eq_ok] at hpure
      exact hpure ▸ updateFromOutput_queues lawful hqueues hallowed hupdate
  | finishRequest id status =>
      cases hok
      exact Scheduler.finishRequest_queues lawful hqueues id hallowed
  | updateDraftTokenIds drafts =>
      cases hok
      obtain ⟨hrunning, hwaiting, hrequests, hobjs⟩ := Scheduler.updateDraftTokenIds_same host
        (drafts.reqIds.zip drafts.draftTokenIds) self
      refine hqueues.of_objs hrunning hwaiting hrequests fun id => ?_
      obtain ⟨drafts, heq⟩ := hobjs id
      rw [Scheduler.updateDraftTokenIds, heq]
      exact ⟨rfl, rfl⟩
  | setDraftTokenIds drafts =>
      cases hok
      exact hqueues.of_objs rfl rfl rfl fun id => ⟨rfl, rfl⟩

theorem Scheduler.empty_queues (st : σ) : (Scheduler.empty st).Queues where
  nodup := List.nodup_nil
  running_status := fun _ hmem => nomatch hmem
  waiting_status := fun _ hmem => nomatch hmem
  live := fun _ hmem => nomatch hmem
  placed := fun _ hmem => nomatch hmem
  requestId := fun _ => rfl

/-- In every reachable state each unfinished request is in exactly one queue. -/
theorem SchedulerClass.Reachable.queues (lawful : host.Lawful) {st : σ} {self : Scheduler σ}
    (reachable : cls.Reachable cfg host st self) : self.Queues :=
  Machine.Run.invariant (Scheduler.empty_queues st)
    (fun _ _ _ hqueues hallowed hok => call_queues lawful hqueues hallowed hok) reachable

end Preservation

end VllmMlu.Sched
