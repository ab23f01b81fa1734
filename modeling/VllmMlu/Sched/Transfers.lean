import VllmMlu.Sched.Consistency
import VllmMlu.Sched.Placeholders

/-! What becomes of the tokens that a prefill instance hands over with a request, over any
number of calls that look at the request. -/
namespace VllmMlu.Sched
open VllmMlu.Library

variable {σ : Type} {cfg : Config} {host : Host σ} {cls : SchedulerClass}

/-- The tokens and transfer parameters of a request. -/
structure Request.SameTokens (before after : Request) : Prop where
  promptTokenIds : after.promptTokenIds = before.promptTokenIds
  outputTokenIds : after.outputTokenIds = before.outputTokenIds
  specTokenIds : after.specTokenIds = before.specTokenIds
  kvTransferParams : after.kvTransferParams = before.kvTransferParams

instance (before after : Request) : Decidable (before.SameTokens after) :=
  decidable_of_iff (after.promptTokenIds = before.promptTokenIds ∧
      after.outputTokenIds = before.outputTokenIds ∧ after.specTokenIds = before.specTokenIds ∧
      after.kvTransferParams = before.kvTransferParams)
    ⟨fun h => ⟨h.1, h.2.1, h.2.2.1, h.2.2.2⟩,
      fun h => ⟨h.promptTokenIds, h.outputTokenIds, h.specTokenIds, h.kvTransferParams⟩⟩

/-- A request in the waiting queue keeps its tokens, or takes over the transferred ones. -/
theorem Prepared.sameTokens {rules : Rules} {before ready : Request}
    (hprepared : Prepared cfg rules before ready) :
    before.SameTokens ready ∨ (Pass.takeTransferredTokens cfg before).SameTokens ready := by
  obtain ⟨base, hbase, heq, -⟩ := hprepared
  have hsame : base.SameTokens ready := by
    rw [heq]
    exact ⟨rfl, rfl, rfl, rfl⟩
  rcases hbase with rfl | ⟨-, rfl⟩
  · exact .inl hsame
  · exact .inr hsame

/-- The first tokens that wait in the transfer parameters of a request. -/
def Request.pendingFirstToks (request : Request) : Nat :=
  (request.kvTransferParams.bind (·.firstTok)).toList.length

theorem Request.pendingFirstToks_le (request : Request) : request.pendingFirstToks ≤ 1 := by
  unfold pendingFirstToks
  cases request.kvTransferParams.bind (·.firstTok) with
  | none => simp
  | some token => simp

/-- Every token that is taken over leaves the parameters. -/
theorem Pass.takeTransferredTokens_pending (hreal : cfg.disaggFakeDecoder = false)
    (request : Request) :
    (takeTransferredTokens cfg request).outputTokenIds.length +
        (takeTransferredTokens cfg request).pendingFirstToks =
      request.outputTokenIds.length + request.pendingFirstToks := by
  have hparams : transferParams cfg request = request.kvTransferParams := by
    rw [transferParams, hreal]
    rfl
  unfold takeTransferredTokens
  rw [hparams]
  split
  · rename_i params _ heq
    simp [Request.pendingFirstToks, heq]
  · rfl

/-- The tokens that a call of `schedule()` appends to a request, and those still waiting. -/
theorem Fate.pending {start next : Scheduler σ} {output : SchedulerOutput} {id : ReqId}
    (hreal : cfg.disaggFakeDecoder = false) (fate : Fate cls cfg start next output id) :
    (next.objs id).outputTokenIds.length + (next.objs id).pendingFirstToks =
        (start.objs id).outputTokenIds.length + (start.objs id).pendingFirstToks ∧
      (start.objs id).outputTokenIds.length ≤ (next.objs id).outputTokenIds.length := by
  have hsame : ∀ {before after : Request}, before.SameTokens after →
      after.outputTokenIds.length + after.pendingFirstToks =
          before.outputTokenIds.length + before.pendingFirstToks ∧
        before.outputTokenIds.length ≤ after.outputTokenIds.length := by
    intro before after hkept
    unfold Request.pendingFirstToks
    rw [hkept.outputTokenIds, hkept.kvTransferParams]
    exact ⟨rfl, le_refl _⟩
  have hprepared : ∀ {before ready : Request}, Prepared cfg (cls.rules cfg) before ready →
      ready.outputTokenIds.length + ready.pendingFirstToks =
          before.outputTokenIds.length + before.pendingFirstToks ∧
        before.outputTokenIds.length ≤ ready.outputTokenIds.length := by
    intro before ready hready
    rcases hready.sameTokens with hkept | htaken
    · exact hsame hkept
    · obtain ⟨hsum, hle⟩ := hsame htaken
      refine ⟨hsum.trans (Pass.takeTransferredTokens_pending hreal before), le_trans ?_ hle⟩
      unfold Pass.takeTransferredTokens
      split
      · simp
      · exact le_refl _
  have hscheduled : ∀ (request : Request) (numDrafts : Nat) (count : Option Int),
      (cls.scheduled cfg request numDrafts count).outputTokenIds = request.outputTokenIds ∧
        (cls.scheduled cfg request numDrafts count).pendingFirstToks =
          request.pendingFirstToks := by
    intro request numDrafts count
    obtain ⟨computed, placeholders, drafts, heq⟩ :=
      Scheduled.scheduled_eq cls cfg request numDrafts count
    rw [heq]
    exact ⟨rfl, rfl⟩
  cases fate with
  | untouched hnone hobj =>
      rw [hobj]
      exact ⟨rfl, le_refl _⟩
  | ran hrunning hcount hzero hpositive hbetween hdrafts hobj =>
      rw [hobj, (hscheduled _ _ _).1, (hscheduled _ _ _).2]
      exact ⟨rfl, le_refl _⟩
  | entered hwaiting hready hlookup hcount hpositive hle hdrafts hobj =>
      rw [hobj, (hscheduled _ _ _).1, (hscheduled _ _ _).2]
      have hpending := hprepared hready
      exact hpending
  | evicted hrunning hnone hobj =>
      rcases hobj with hobj | hobj
      · rw [hobj]
        exact ⟨rfl, le_refl _⟩
      · rw [hobj]
        exact ⟨rfl, le_refl _⟩
  | waits hwaiting hnone hstatus hready => exact hprepared hready

/-! Runs in which the transferred tokens are counted. -/

/-- A scheduler, and how many tokens its `schedule()` calls have appended to each request
since it arrived. -/
structure Traced (σ : Type) where
  sched : Scheduler σ
  appended : ReqId → Nat := fun _ => 0

/-- What one call adds to the count: only `schedule()` appends tokens from the parameters. -/
def Traced.count (traced : Traced σ) (next : Scheduler σ) : Call → ReqId → Nat
  | .schedule, id => traced.appended id +
      ((next.objs id).outputTokenIds.length - (traced.sched.objs id).outputTokenIds.length)
  | .addRequest request, id => if id = request.requestId then 0 else traced.appended id
  | _, id => traced.appended id

def SchedulerClass.traced (cls : SchedulerClass) (cfg : Config) (host : Host σ) :
    Machine (Traced σ) Call Error where
  step := fun traced call => do
    let next ← cls.call cfg host traced.sched call
    pure ⟨next, traced.count next call⟩

@[simp]
theorem Traced.count_updateFromOutput (traced : Traced σ) (next : Scheduler σ)
    (output : SchedulerOutput) (model : ModelRunnerOutput) :
    traced.count next (.updateFromOutput output model) = traced.appended := rfl

@[simp]
theorem Traced.count_finishRequest (traced : Traced σ) (next : Scheduler σ) (id : ReqId)
    (status : RequestStatus) : traced.count next (.finishRequest id status) = traced.appended := rfl

@[simp]
theorem Traced.count_updateDraftTokenIds (traced : Traced σ) (next : Scheduler σ)
    (drafts : DraftTokenIds) :
    traced.count next (.updateDraftTokenIds drafts) = traced.appended := rfl

@[simp]
theorem Traced.count_setDraftTokenIds (traced : Traced σ) (next : Scheduler σ)
    (drafts : Option DraftTokenIds) :
    traced.count next (.setDraftTokenIds drafts) = traced.appended := rfl

/-- Every run can be counted. -/
theorem SchedulerClass.Reachable.exists_traced {st : σ} {self : Scheduler σ}
    (reachable : cls.Reachable cfg host st self) :
    ∃ traced, (cls.traced cfg host).Run (fun traced call => call.Allowed traced.sched)
      ⟨.empty st, fun _ => 0⟩ traced ∧ traced.sched = self := by
  induction reachable with
  | refl => exact ⟨_, .refl, rfl⟩
  | step _ hallowed hok ih =>
      obtain ⟨traced, hrun, rfl⟩ := ih
      exact ⟨_, hrun.step hallowed (bind_eq_ok.mpr ⟨_, hok, rfl⟩), rfl⟩

theorem SchedulerClass.traced_step_queues (lawful : host.Lawful) {traced next : Traced σ}
    {call : Call} (hqueues : traced.sched.Queues) (hallowed : call.Allowed traced.sched)
    (hok : (cls.traced cfg host).step traced call = .ok next) : next.sched.Queues := by
  obtain ⟨sched, hcall, hpure⟩ := bind_eq_ok.mp hok
  rw [pure_eq_ok] at hpure
  rw [← hpure]
  exact SchedulerClass.call_queues lawful hqueues hallowed hcall

theorem SchedulerClass.traced_queues (lawful : host.Lawful) {start traced : Traced σ}
    (run : (cls.traced cfg host).Run (fun traced call => call.Allowed traced.sched) start traced)
    (hstart : start.sched.Queues) : traced.sched.Queues := by
  induction run with
  | refl => exact hstart
  | step _ hallowed hok ih => exact SchedulerClass.traced_step_queues lawful ih hallowed hok

/-- A request is given the transferred token, or still has it to come. -/
structure Traced.Once (traced : Traced σ) : Prop where
  queues : traced.sched.Queues
  bound : ∀ id, traced.appended id + (traced.sched.objs id).pendingFirstToks ≤ 1

/-- Nothing but `schedule()` and an arrival changes the transfer parameters. -/
theorem SchedulerClass.call_params (lawful : host.Lawful) {self next : Scheduler σ} {call : Call}
    (hok : cls.call cfg host self call = .ok next) (hschedule : call ≠ .schedule)
    (harrival : ∀ request, call ≠ .addRequest request) (id : ReqId) :
    (next.objs id).kvTransferParams = (self.objs id).kvTransferParams := by
  cases call with
  | addRequest request => exact absurd rfl (harrival request)
  | schedule => exact absurd rfl hschedule
  | updateFromOutput output model =>
      obtain ⟨locals, hupdate, hpure⟩ := bind_eq_ok.mp hok
      rw [pure_eq_ok] at hpure
      rw [← hpure]
      refine @updateFromOutput_objs _ cls cfg host model
        (fun id request => request.kvTransferParams = (self.objs id).kvTransferParams) self output
        locals (fun _ _ _ hkept => hkept) (fun _ _ _ hkept => hkept) ?_ (fun _ => rfl) hupdate id
      intro other _ reqIndex _ request row hkept hrow
      obtain ⟨outputTokens, status, stopReason, computed, placeholders, heq⟩ :=
        rowUpdate_fields lawful hrow
      rw [heq]
      exact hkept
  | finishRequest other status =>
      cases hok
      rcases Scheduler.finishRequest_eq cfg host self other status with hsame | ⟨hobjs, -, -⟩
      · rw [hsame]
      · rw [hobjs, Function.update_apply]
        split
        · rename_i heq
          rw [heq]
          rfl
        · rfl
  | updateDraftTokenIds drafts =>
      cases hok
      obtain ⟨-, -, -, hobjs⟩ := Scheduler.updateDraftTokenIds_same host
        (drafts.reqIds.zip drafts.draftTokenIds) self
      obtain ⟨tokens, heq⟩ := hobjs id
      rw [Scheduler.updateDraftTokenIds, heq]
  | setDraftTokenIds drafts =>
      cases hok
      rfl

namespace Traced.Once

variable {traced next : Traced σ}

theorem initial (st : σ) : Traced.Once ⟨.empty st, fun _ => 0⟩ where
  queues := Scheduler.empty_queues st
  bound := fun _ => Nat.zero_le 1

/-- What one call preserves. -/
theorem step (lawful : host.Lawful) (hreal : cfg.disaggFakeDecoder = false) {call : Call}
    (honce : traced.Once) (hallowed : call.Allowed traced.sched)
    (hok : (cls.traced cfg host).step traced call = .ok next) : next.Once := by
  refine ⟨SchedulerClass.traced_step_queues lawful honce.queues hallowed hok, fun id => ?_⟩
  obtain ⟨sched, hcall, hpure⟩ := bind_eq_ok.mp hok
  rw [pure_eq_ok] at hpure
  subst hpure
  have hbound := honce.bound id
  have hkept : call ≠ .schedule → (∀ request, call ≠ .addRequest request) →
      traced.appended id + (sched.objs id).pendingFirstToks ≤ 1 := by
    intro hschedule harrival
    have hparams := cls.call_params lawful hcall hschedule harrival id
    rw [Request.pendingFirstToks, hparams]
    exact hbound
  cases call with
  | addRequest request =>
      cases hcall
      change (if id = request.requestId then 0 else traced.appended id) +
        (Function.update traced.sched.objs request.requestId request id).pendingFirstToks ≤ 1
      rw [Function.update_apply]
      split
      · have hpending := request.pendingFirstToks_le
        omega
      · exact hbound
  | schedule =>
      obtain ⟨⟨scheduled, output⟩, hschedule, hnext⟩ := bind_eq_ok.mp hcall
      rw [pure_eq_ok] at hnext
      subst hnext
      obtain ⟨pass, hscheduled⟩ := SchedulerClass.schedule_scheduled lawful honce.queues hschedule
      obtain ⟨hsum, hle⟩ := (hscheduled.fate lawful honce.queues id).pending hreal
      change traced.appended id + ((scheduled.objs id).outputTokenIds.length -
        (traced.sched.objs id).outputTokenIds.length) + (scheduled.objs id).pendingFirstToks ≤ 1
      omega
  | updateFromOutput output model =>
      simp only [Traced.count_updateFromOutput]
      exact hkept (by simp) (by simp)
  | finishRequest other status =>
      simp only [Traced.count_finishRequest]
      exact hkept (by simp) (by simp)
  | updateDraftTokenIds drafts =>
      simp only [Traced.count_updateDraftTokenIds]
      exact hkept (by simp) (by simp)
  | setDraftTokenIds drafts =>
      simp only [Traced.count_setDraftTokenIds]
      exact hkept (by simp) (by simp)

theorem run (lawful : host.Lawful) (hreal : cfg.disaggFakeDecoder = false) {st : σ}
    (run : (cls.traced cfg host).Run (fun traced call => call.Allowed traced.sched)
      ⟨.empty st, fun _ => 0⟩ traced) : traced.Once :=
  run.invariant (initial st) fun _ _ _ honce hallowed hok => honce.step lawful hreal hallowed hok

end Traced.Once

/-- A call that leaves a request in the waiting queue has taken over its transferred tokens or
changed none of its tokens, and over a whole run, when the parameters are the ones it came
with, the transferred first token is appended at most once. -/
theorem transferred_at_most_once (lawful : host.Lawful) {st : σ} {traced : Traced σ}
    (run : (cls.traced cfg host).Run (fun traced call => call.Allowed traced.sched)
      ⟨.empty st, fun _ => 0⟩ traced) :
    (∀ next output, cls.schedule cfg host traced.sched = .ok (next, output) →
      ∀ id ∈ traced.sched.waiting, id ∉ output.numScheduledTokens.keys →
        (traced.sched.objs id).SameTokens (next.objs id) ∨
          (Pass.takeTransferredTokens cfg (traced.sched.objs id)).SameTokens (next.objs id)) ∧
    (cfg.disaggFakeDecoder = false → ∀ id, traced.appended id ≤ 1) := by
  constructor
  · intro next output hok id hwaiting hnone
    have hqueues := SchedulerClass.traced_queues lawful run (Scheduler.empty_queues st)
    obtain ⟨pass, hscheduled⟩ := SchedulerClass.schedule_scheduled lawful hqueues hok
    have hnotRunning : id ∉ traced.sched.running := fun hrunning =>
      (List.nodup_append'.mp hqueues.nodup).2.2 hrunning hwaiting
    cases hscheduled.fate lawful hqueues id with
    | untouched _ hobj =>
        rw [hobj]
        exact .inl ⟨rfl, rfl, rfl, rfl⟩
    | ran hrunning => exact absurd hrunning hnotRunning
    | entered _ _ _ hcount => exact absurd (Dict.mem_keys_of_get? hcount) hnone
    | evicted hrunning => exact absurd hrunning hnotRunning
    | waits _ _ _ hprepared => exact hprepared.sameTokens
  · intro hreal id
    have honce := (Traced.Once.run lawful hreal run).bound id
    omega

namespace Samples

/-- No block is free. -/
def fullPool : Pool := { numFreeBlocks := 0 }

/-- A request whose first token a prefill instance has computed. -/
def handedOver : Request :=
  { requestId := 0, promptTokenIds := [5, 6], maxTokens := 4,
    kvTransferParams := some { firstTok := some 7 } }

end Samples

open Samples in
/-- The first call takes the token over and finds no block, the second has none to take. -/
theorem transferred_at_most_once_full_pool : ∃ self : Scheduler Pool,
    self.waiting = [0] ∧ (self.objs 0).outputTokenIds = [7] ∧
      ∀ next output, SchedulerClass.profiler.schedule shortModel (Pool.host shortModel) self =
          .ok (next, output) → 0 ∉ output.numScheduledTokens.keys →
        (self.objs 0).SameTokens (next.objs 0) := by
  obtain ⟨self, hreachable, htest⟩ := Machine.exists_of_leadsTo
    (SchedulerClass.profiler.machine shortModel (Pool.host shortModel)) Call.Allowed
    (.empty fullPool) [.addRequest handedOver, .schedule]
    (fun self => decide (self.waiting = [0] ∧ (self.objs 0).outputTokenIds = [7] ∧
      (self.objs 0).SameTokens (Pass.takeTransferredTokens shortModel (self.objs 0))))
    (by decide +kernel)
  obtain ⟨hwaiting, htokens, htaken⟩ := of_decide_eq_true htest
  refine ⟨self, hwaiting, htokens, fun next output hok hnone => ?_⟩
  obtain ⟨traced, hrun, rfl⟩ := SchedulerClass.Reachable.exists_traced hreachable
  rcases (transferred_at_most_once (Pool.host_lawful _) hrun).1 next output hok 0
    (by rw [hwaiting]; exact List.mem_cons_self) hnone with hsame | hsame
  · exact hsame
  · exact ⟨hsame.1.trans htaken.1, hsame.2.trans htaken.2, hsame.3.trans htaken.3,
      hsame.4.trans htaken.4⟩

open Samples in
/-- A request that finds no block keeps waiting with the transferred token appended. -/
theorem rejected_request_changed : ∃ self next output,
    SchedulerClass.profiler.Reachable shortModel (Pool.host shortModel) fullPool self ∧
      SchedulerClass.profiler.schedule shortModel (Pool.host shortModel) self =
        .ok (next, output) ∧
      self.waiting = [0] ∧ next.waiting = [0] ∧ output.numScheduledTokens.keys = [] ∧
      (self.objs 0).outputTokenIds = [] ∧ (next.objs 0).outputTokenIds = [7] ∧
      ¬(self.objs 0).SameTokens (next.objs 0) := by
  obtain ⟨self, next, output, hreachable, hok, htest⟩ :=
    SchedulerClass.exists_of_tryAfter .profiler shortModel (Pool.host shortModel) fullPool
      [.addRequest handedOver]
      (fun self next output => decide (self.waiting = [0] ∧ next.waiting = [0] ∧
        output.numScheduledTokens.keys = [] ∧ (self.objs 0).outputTokenIds = [] ∧
        (next.objs 0).outputTokenIds = [7] ∧ ¬(self.objs 0).SameTokens (next.objs 0)))
      (by decide +kernel)
  exact ⟨self, next, output, hreachable, hok, of_decide_eq_true htest⟩

end VllmMlu.Sched
