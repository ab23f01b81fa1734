import VllmMlu.Sched.Outcome

/-! How many tokens a call of `schedule()` grants, in terms of the budgets at the turn of
each request, and what it records of the drafts. -/
namespace VllmMlu.Sched
open VllmMlu.Library

variable {σ : Type} {cfg : Config} {rules : Rules} {host : Host σ} {start : Scheduler σ}

/-- The tokens that a turn of the running loop settles on. -/
def runningTokens (cfg : Config) (rules : Rules) (host : Host σ) (st : σ) (request : Request)
    (tokenBudget encoderBudget : Int) : Int :=
  (planEncoder host st request request.numComputedTokens
    (numNewRunningTokens cfg rules request tokenBudget) encoderBudget).2.numNewTokens

/-- The tokens that a turn of the waiting loop settles on. -/
def waitingTokens (cfg : Config) (rules : Rules) (host : Host σ) (st : σ) (request : Request)
    (numComputedTokens tokenBudget encoderBudget : Int) : Int :=
  (planEncoder host st request numComputedTokens
    (min (numNewWaitingTokens cfg rules request numComputedTokens) tokenBudget)
    encoderBudget).2.numNewTokens

/-- How a waiting request was admitted: as it stood at its turn, with its computed tokens
and the budgets of that moment. -/
structure Grant (cfg : Config) (rules : Rules) (host : Host σ) (before : Request)
    (count : Option Int) (ready : Request) (numComputedTokens : Int) (st : σ)
    (tokenBudget encoderBudget : Int) : Prop where
  prepared : Prepared cfg rules before ready
  count : count =
    some (waitingTokens cfg rules host st ready numComputedTokens tokenBudget encoderBudget)
  positive : 0 < waitingTokens cfg rules host st ready numComputedTokens tokenBudget encoderBudget
  whole : rules.chunked = false →
    numNewWaitingTokens cfg rules ready numComputedTokens ≤ tokenBudget

/-- The counts that the call has recorded so far, and its drafts. -/
structure Pass.Granted (cfg : Config) (rules : Rules) (host : Host σ) (start : Scheduler σ)
    (pass : Pass σ) : Prop where
  ran : ∀ id ∈ start.running, ∀ count, pass.numScheduledTokens.get? id = some count →
    ∃ st tokenBudget encoderBudget, count =
      runningTokens cfg rules host st (start.objs id) tokenBudget encoderBudget
  entered : ∀ id, id ∈ pass.scheduledNewReqs ∨ id ∈ pass.scheduledResumedReqs →
    ∃ ready computed st tokenBudget encoderBudget, pass.obj id = ready.admitted computed ∧
      Grant cfg rules host (start.objs id) (pass.numScheduledTokens.get? id) ready computed st
        tokenBudget encoderBudget
  drafts : ∀ id drafts, pass.scheduledSpecDecodeTokens.get? id = some drafts → drafts ≠ []

namespace Pass.Granted

variable {pass next : Pass σ}

theorem initial : (Pass.start cfg start).Granted cfg rules host start where
  ran := fun _ _ _ hcount => nomatch hcount
  entered := fun _ hmem => by simp [Pass.start] at hmem
  drafts := fun _ _ hdrafts => nomatch hdrafts

/-- What leaves the records of the call and the requests in them alone. -/
theorem of_same (hgranted : pass.Granted cfg rules host start)
    (hcounts : next.numScheduledTokens = pass.numScheduledTokens)
    (hnew : next.scheduledNewReqs = pass.scheduledNewReqs)
    (hresumed : next.scheduledResumedReqs = pass.scheduledResumedReqs)
    (hdrafts : next.scheduledSpecDecodeTokens = pass.scheduledSpecDecodeTokens)
    (hobjs : ∀ id, id ∈ pass.scheduledNewReqs ∨ id ∈ pass.scheduledResumedReqs →
      next.obj id = pass.obj id) : next.Granted cfg rules host start where
  ran := by
    rw [hcounts]
    exact hgranted.ran
  entered := by
    intro id hmem
    rw [hnew, hresumed] at hmem
    rw [hobjs id hmem, hcounts]
    exact hgranted.entered id hmem
  drafts := by
    rw [hdrafts]
    exact hgranted.drafts

/-! The running loop. -/

theorem preempt (hgranted : pass.Granted cfg rules host start)
    (hnone : pass.scheduledNewReqs = [] ∧ pass.scheduledResumedReqs = []) {taken : Pass σ}
    {victim : ReqId} (htake : pass.takeVictim cfg host = .ok (victim, taken)) :
    (taken.preempt cfg host victim).Granted cfg rules host start ∧
      taken.scheduledNewReqs = [] ∧ taken.scheduledResumedReqs = [] := by
  have hkept : ∀ other : Pass σ, other.numScheduledTokens = pass.numScheduledTokens →
      other.scheduledSpecDecodeTokens = pass.scheduledSpecDecodeTokens →
      other.scheduledNewReqs = pass.scheduledNewReqs →
      other.scheduledResumedReqs = pass.scheduledResumedReqs →
      (other.preempt cfg host victim).Granted cfg rules host start := by
    intro other hcounts hdrafts hnew hresumed
    refine hgranted.of_same hcounts hnew hresumed hdrafts fun id hmem => ?_
    simp [hnone] at hmem
  rcases takeVictim_cases htake with ⟨-, -, rfl⟩ | ⟨-, -, -, rfl⟩ | ⟨-, -, -, count, -, rfl⟩
  · exact ⟨hkept _ rfl rfl rfl rfl, hnone⟩
  · exact ⟨hkept _ rfl rfl rfl rfl, hnone⟩
  · refine ⟨⟨?_, ?_, ?_⟩, hnone⟩
    · intro id hrunning count hcount
      change (pass.numScheduledTokens.pop victim).get? id = some count at hcount
      rw [Dict.get?_pop] at hcount
      split at hcount
      · cases hcount
      · exact hgranted.ran id hrunning count hcount
    · intro id hmem
      change id ∈ pass.scheduledNewReqs ∨ id ∈ pass.scheduledResumedReqs at hmem
      simp [hnone] at hmem
    · intro id drafts hdrafts
      change (pass.scheduledSpecDecodeTokens.pop victim).get? id = some drafts at hdrafts
      rw [Dict.get?_pop] at hdrafts
      split at hdrafts
      · cases hdrafts
      · exact hgranted.drafts id drafts hdrafts

/-- Whatever is preempted to make room, no count is changed. -/
theorem allocateOrPreempt {id : ReqId} {numNewTokens : Int} (fuel : Nat) {pass : Pass σ}
    {result : Pass σ × Option KVCacheBlocks} (hgranted : pass.Granted cfg rules host start)
    (hnone : pass.scheduledNewReqs = [] ∧ pass.scheduledResumedReqs = [])
    (hok : allocateOrPreempt cfg rules host id numNewTokens fuel pass = .ok result) :
    result.1.Granted cfg rules host start := by
  induction fuel generalizing pass with
  | zero => cases hok
  | succ fuel ih =>
      unfold Sched.allocateOrPreempt at hok
      split at hok
      · cases hok
      · cases hok
        exact hgranted.of_same rfl rfl rfl rfl fun _ _ => rfl
      · rename_i st _
        split at hok
        · cases hok
        · split at hok
          · cases hok
          · rename_i victim taken htake
            have hhost : (pass.withHost st).Granted cfg rules host start :=
              hgranted.of_same rfl rfl rfl rfl fun _ _ => rfl
            obtain ⟨hpreempted, htaken⟩ := hhost.preempt hnone htake
            dsimp only at hok
            split at hok
            · cases hok
              exact hpreempted
            · exact ih hpreempted htaken hok

theorem record (hgranted : pass.Granted cfg rules host start)
    (hnone : pass.scheduledNewReqs = [] ∧ pass.scheduledResumedReqs = []) {id : ReqId}
    {numNewTokens : Int} (hcount : ∃ st tokenBudget encoderBudget, numNewTokens =
      runningTokens cfg rules host st (start.objs id) tokenBudget encoderBudget)
    (newBlocks : KVCacheBlocks) (plan : EncoderPlan) :
    (pass.record cfg host id numNewTokens newBlocks plan).Granted cfg rules host start := by
  obtain ⟨specTokens, hspec, hother, -⟩ :=
    (pass.recordRunning id numNewTokens newBlocks).recordSpecTokens_eq id numNewTokens
  have hfilled : ∀ drafts, specTokens.get? id = some drafts →
      pass.scheduledSpecDecodeTokens.get? id = some drafts ∨ drafts ≠ [] := by
    intro drafts hdrafts
    have hsame := congrArg Pass.scheduledSpecDecodeTokens hspec
    change _ = specTokens at hsame
    rw [← hsame] at hdrafts
    unfold recordSpecTokens at hdrafts
    dsimp only at hdrafts
    split at hdrafts
    · exact .inl hdrafts
    · rename_i hsome
      split at hdrafts
      · rename_i hpositive
        refine .inr ?_
        change (pass.scheduledSpecDecodeTokens.set id _).get? id = some drafts at hdrafts
        rw [Dict.get?_set_self, Option.some.injEq] at hdrafts
        rw [← hdrafts]
        intro hnil
        rcases List.take_eq_nil_iff.mp hnil with hzero | hnil
        · omega
        · exact hsome hnil
      · exact .inl hdrafts
  obtain ⟨st, inputs, budget, hencoder, -⟩ := recordEncoder_eq cfg host
    ((pass.recordRunning id numNewTokens newBlocks).recordSpecTokens id numNewTokens) id plan
  rw [Pass.record, hencoder, hspec]
  refine ⟨?_, ?_, ?_⟩
  · intro other hrunning count hget
    change (pass.numScheduledTokens.set id numNewTokens).get? other = some count at hget
    rw [Dict.get?_set] at hget
    split at hget
    · rename_i heq
      cases hget
      rw [heq]
      exact hcount
    · exact hgranted.ran other hrunning count hget
  · intro other hmem
    change other ∈ pass.scheduledNewReqs ∨ other ∈ pass.scheduledResumedReqs at hmem
    simp [hnone] at hmem
  · intro other drafts hdrafts
    change specTokens.get? other = some drafts at hdrafts
    by_cases heq : other = id
    · subst heq
      exact (hfilled drafts hdrafts).elim (hgranted.drafts other drafts) id
    · rw [hother other heq] at hdrafts
      exact hgranted.drafts other drafts hdrafts

end Pass.Granted

section RunningLoop

variable (lawful : host.Lawful) (hqueues : start.Queues)
include lawful hqueues

theorem runningStep_granted {pass : Pass σ} {id : ReqId} {flow : Flow σ}
    (hreaches : Reaches cfg rules host start (.start cfg start) pass) (hindexed : pass.Indexed)
    (hid : pass.self.running[pass.reqIndex]? = some id)
    (hgranted : pass.Granted cfg rules host start)
    (hok : runningStep cfg rules host pass id = .ok flow) :
    flow.pass.Granted cfg rules host start := by
  have hplaced := Pass.Placed.reaches lawful hqueues hreaches
  have hcursor : pass.Cursor cfg id := hindexed.cursor (hplaced.running_nodup hqueues) hid
  have hsame : pass.obj id = start.objs id := by
    refine ((Pass.Tracked.reaches lawful hqueues hreaches).untouched id hcursor.mem_running ?_).2
    exact fun hmem =>
      hcursor.fresh ((hplaced.scheduled_of_none hindexed.noneAdmitted).mem_iff.mp hmem)
  unfold runningStep at hok
  dsimp only at hok
  split at hok
  · cases hok
    exact hgranted.of_same rfl rfl rfl rfl fun _ _ => rfl
  · have hhost : (pass.withHost (planEncoder host pass.host (pass.obj id)
        (pass.obj id).numComputedTokens (numNewRunningTokens cfg rules (pass.obj id)
          pass.tokenBudget) pass.encoderComputeBudget).1).Granted cfg rules host start :=
      hgranted.of_same rfl rfl rfl rfl fun _ _ => rfl
    split at hok
    · cases hok
    · rename_i halted hhalted
      cases hok
      exact Pass.Granted.allocateOrPreempt _ hhost hindexed.noneAdmitted hhalted
    · rename_i allocated newBlocks hallocated
      cases hok
      have henv : Reaches cfg rules host start (.start cfg start) (pass.withHost (planEncoder host
          pass.host (pass.obj id) (pass.obj id).numComputedTokens (numNewRunningTokens cfg rules
            (pass.obj id) pass.tokenBudget) pass.encoderComputeBudget).1) :=
        hreaches.tail (.environment _ fun owns other _ => planEncoder_keeps owns _ _ _ _ _ other)
      have hpost := (allocateOrPreempt_within lawful hqueues _ pass.self.running.length henv
        (hcursor.withHost _) (le_refl _)).of_ok hallocated
      refine Pass.Granted.record (Pass.Granted.allocateOrPreempt _ hhost hindexed.noneAdmitted
        hallocated) hpost.noneAdmitted ⟨pass.host, pass.tokenBudget, pass.encoderComputeBudget, ?_⟩
        newBlocks _
      rw [runningTokens, hsame]

theorem runningLoop_granted (fuel : Nat) {pass next : Pass σ}
    (hreaches : Reaches cfg rules host start (.start cfg start) pass) (hindexed : pass.Indexed)
    (hgranted : pass.Granted cfg rules host start)
    (hok : runningLoop cfg rules host fuel pass = .ok next) :
    next.Granted cfg rules host start := by
  induction fuel generalizing pass with
  | zero =>
      unfold runningLoop at hok
      split at hok
      · split at hok
        · cases hok
          exact hgranted
        · cases hok
        · rename_i heq
          cases heq
      · cases hok
        exact hgranted
  | succ fuel ih =>
      unfold runningLoop at hok
      split at hok
      · rename_i hbudget
        split at hok
        · cases hok
          exact hgranted
        · cases hok
        · rename_i id _ hid heq
          cases heq
          have hstep := runningStep_within lawful hqueues hreaches hindexed hid hbudget
          split at hok
          · cases hok
          · rename_i halted hhalted
            cases hok
            exact runningStep_granted lawful hqueues hreaches hindexed hid hgranted hhalted
          · rename_i continued hcontinued
            obtain ⟨hnext, -, -, hindexedNext⟩ := hstep.of_ok hcontinued
            exact ih hnext (hindexedNext continued rfl).1
              (runningStep_granted lawful hqueues hreaches hindexed hid hgranted hcontinued) hok
      · cases hok
        exact hgranted

end RunningLoop

/-! The waiting loop. -/

namespace Pass.Granted

variable {pass : Pass σ} {id : ReqId} {rest : List ReqId}

theorem modify (lawful : host.Lawful) (hqueues : start.Queues)
    (hhead : pass.Head cfg rules host start id rest)
    (hgranted : pass.Granted cfg rules host start) (change : Request → Request) :
    (pass.modify id change).Granted cfg rules host start := by
  refine hgranted.of_same rfl rfl rfl rfl fun other hmem => Pass.modify_obj_of_ne _ _ ?_
  rintro rfl
  exact hhead.not_scheduled lawful hqueues
    ((Pass.Placed.reaches lawful hqueues hhead.reaches).mem_scheduled.mpr (.inr hmem))

theorem accept (lawful : host.Lawful) (hqueues : start.Queues)
    (hhead : pass.Head cfg rules host start id rest)
    (hgranted : pass.Granted cfg rules host start) {withSpecTokens : Bool} {computed : Int}
    {plan : EncoderPlan} {st : σ} {tokenBudget encoderBudget : Int}
    (hplan : plan.numNewTokens =
      waitingTokens cfg rules host st (pass.obj id) computed tokenBudget encoderBudget)
    (hpositive : 0 < plan.numNewTokens)
    (hwhole : rules.chunked = false →
      numNewWaitingTokens cfg rules (pass.obj id) computed ≤ tokenBudget)
    {after : σ} {admitted : Pass σ}
    (haccept : (pass.withHost after).accept cfg host withSpecTokens id rest computed
      plan.numNewTokens plan = .ok admitted) : admitted.Granted cfg rules host start := by
  have hplaced := Pass.Placed.reaches lawful hqueues hhead.reaches
  have hwaits := (Pass.Tracked.reaches lawful hqueues hhead.reaches).waits id
    (List.mem_append_left _ hhead.mem_waiting)
    (by rw [hhead.nonePreempted]; exact List.not_mem_nil)
  obtain ⟨-, last, inputs, budget, rfl, -⟩ := accept_eq haccept
  refine ⟨?_, ?_, ?_⟩
  · intro other hrunning count hcount
    have hne : other ≠ id := by
      rintro rfl
      exact (List.nodup_append'.mp hqueues.nodup).2.2 hrunning hwaits.1
    change (pass.numScheduledTokens.set id plan.numNewTokens).get? other = some count at hcount
    rw [Dict.get?_set_of_ne _ _ hne] at hcount
    exact hgranted.ran other hrunning count hcount
  · intro other hmem
    by_cases heq : other = id
    · subst heq
      refine ⟨pass.obj other, computed, st, tokenBudget, encoderBudget, Function.update_self ..,
        hwaits.2, ?_, hplan ▸ hpositive, hwhole⟩
      rw [← hplan]
      exact Dict.get?_set_self _ _ _
    · have hold : other ∈ pass.scheduledNewReqs ∨ other ∈ pass.scheduledResumedReqs := by
        refine hmem.imp (fun hnew => ?_) (fun hresumed => ?_)
        · rcases List.mem_append.mp hnew with hold | hsingle
          · exact hold
          · split at hsingle
            · exact absurd (List.mem_singleton.mp hsingle) heq
            · cases hsingle
        · rcases List.mem_append.mp hresumed with hold | hsingle
          · exact hold
          · split at hsingle
            · exact absurd (List.mem_singleton.mp hsingle) heq
            · cases hsingle
      obtain ⟨ready, found, state, budget, encoder, hgrant⟩ := hgranted.entered other hold
      refine ⟨ready, found, state, budget, encoder, ?_⟩
      have hobj : Function.update pass.self.objs id ((pass.obj id).admitted computed) other =
          pass.obj other := Function.update_of_ne heq ..
      have hcount : (pass.numScheduledTokens.set id plan.numNewTokens).get? other =
          pass.numScheduledTokens.get? other := Dict.get?_set_of_ne _ _ heq
      rw [← hobj, ← hcount] at hgrant
      exact hgrant
  · intro other drafts hdrafts
    change (if withSpecTokens = true ∧ (pass.obj id).specTokenIds ≠ [] then
      pass.scheduledSpecDecodeTokens.set id (pass.obj id).specTokenIds
      else pass.scheduledSpecDecodeTokens).get? other = some drafts at hdrafts
    split at hdrafts
    · rename_i hsome
      rw [Dict.get?_set] at hdrafts
      split at hdrafts
      · cases hdrafts
        exact hsome.2
      · exact hgranted.drafts other drafts hdrafts
    · exact hgranted.drafts other drafts hdrafts

end Pass.Granted

section WaitingLoop

variable {pass : Pass σ} {id : ReqId} {rest : List ReqId} {flow : Flow σ} (lawful : host.Lawful)
  (hqueues : start.Queues) (hgranted : pass.Granted cfg rules host start)
include lawful hqueues hgranted

theorem allocateWaiting_granted (hhead : pass.Head cfg rules host start id rest)
    {computed : ComputedTokens} {plan : EncoderPlan} (st : σ) (tokenBudget encoderBudget : Int)
    (hplan : computed.loadKvAsync = false →
      plan.numNewTokens = waitingTokens cfg rules host st (pass.obj id)
        computed.numComputedTokens tokenBudget encoderBudget ∧ 0 < plan.numNewTokens ∧
      (rules.chunked = false →
        numNewWaitingTokens cfg rules (pass.obj id) computed.numComputedTokens ≤ tokenBudget))
    (hok : allocateWaiting cfg rules host pass id rest computed plan = .ok flow) :
    flow.pass.Granted cfg rules host start := by
  unfold allocateWaiting at hok
  dsimp only at hok
  split at hok
  · cases hok
  · cases hok
    exact hgranted.of_same rfl rfl rfl rfl fun _ _ => rfl
  · split at hok
    · cases hok
      exact (hgranted.modify lawful hqueues hhead (·.withStatus .waitingForRemoteKvs)).of_same
        rfl rfl rfl rfl fun _ _ => rfl
    · rename_i hsync
      obtain ⟨hcount, hpositive, hwhole⟩ := hplan (by simpa using hsync)
      split at hok
      · cases hok
      · rename_i admitted haccept
        cases hok
        exact hgranted.accept lawful hqueues hhead hcount hpositive hwhole haccept

theorem scheduleWaiting_granted (hhead : pass.Head cfg rules host start id rest)
    {computed : ComputedTokens}
    (hok : scheduleWaiting cfg rules host pass id rest computed = .ok flow) :
    flow.pass.Granted cfg rules host start := by
  unfold scheduleWaiting at hok
  dsimp only at hok
  split at hok
  · rename_i hasync
    split at hok
    · cases hok
    · refine allocateWaiting_granted lawful hqueues hgranted hhead pass.host 0 0 ?_ hok
      intro hsync
      rw [hasync] at hsync
      cases hsync
  · split at hok
    · cases hok
      exact hgranted.of_same rfl rfl rfl rfl fun _ _ => rfl
    · split at hok
      · cases hok
        exact hgranted
      · rename_i hfits
        split at hok
        · cases hok
        · rename_i hpositive
          have hbetween := planEncoder_between lawful pass.host (pass.obj id)
            computed.numComputedTokens (min (numNewWaitingTokens cfg rules (pass.obj id)
              computed.numComputedTokens) pass.tokenBudget) pass.encoderComputeBudget
          have hkeeps := fun (owns : host.OwnsBlocks cfg.blockSize) =>
            planEncoder_keeps owns pass.host (pass.obj id) computed.numComputedTokens
              (min (numNewWaitingTokens cfg rules (pass.obj id) computed.numComputedTokens)
                pass.tokenBudget) pass.encoderComputeBudget
          unfold Host.Between at hbetween
          split at hok
          · cases hok
            exact hgranted.of_same rfl rfl rfl rfl fun _ _ => rfl
          · rename_i hzero
            have hplannedHead := hhead.withHost lawful hqueues fun owns other _ =>
              hkeeps owns other
            have hgiven : 0 < (planEncoder host pass.host (pass.obj id)
                computed.numComputedTokens (min (numNewWaitingTokens cfg rules (pass.obj id)
                  computed.numComputedTokens) pass.tokenBudget)
                pass.encoderComputeBudget).2.numNewTokens := by omega
            refine allocateWaiting_granted lawful hqueues ?_ hplannedHead pass.host
              pass.tokenBudget pass.encoderComputeBudget (fun _ => ⟨rfl, hgiven, ?_⟩) hok
            · exact hgranted.of_same rfl rfl rfl rfl fun _ _ => rfl
            · intro hunchunk
              exact not_lt.mp fun hlt => hfits ⟨hunchunk, hlt⟩

theorem considerWaiting_granted (hhead : pass.Head cfg rules host start id rest)
    (hok : considerWaiting cfg rules host pass id rest = .ok flow) :
    flow.pass.Granted cfg rules host start := by
  have hkeeps := fun (owns : host.OwnsBlocks cfg.blockSize) =>
    lookUpComputedTokens_keeps owns pass.host (pass.obj id)
  unfold considerWaiting at hok
  dsimp only at hok
  split at hok
  · cases hok
    exact hgranted.of_same rfl rfl rfl rfl fun _ _ => rfl
  · split at hok
    · cases hok
      exact hgranted.of_same rfl rfl rfl rfl fun _ _ => rfl
    · rename_i st computed heq
      rw [heq] at hkeeps
      have hhost : (pass.withHost st).Granted cfg rules host start :=
        hgranted.of_same rfl rfl rfl rfl fun _ _ => rfl
      exact scheduleWaiting_granted lawful hqueues hhost
        (hhead.withHost lawful hqueues fun owns other _ => hkeeps owns other) hok

theorem awaitGrammar_granted (hhead : pass.Head cfg rules host start id rest)
    (hok : awaitGrammar cfg rules host pass id rest = .ok flow) :
    flow.pass.Granted cfg rules host start := by
  unfold awaitGrammar at hok
  split at hok
  · rename_i hstatus
    split at hok
    · exact considerWaiting_granted lawful hqueues (hgranted.modify lawful hqueues hhead _)
        (hhead.modify (.compiled hhead.mem_waiting hhead.nonePreempted hstatus)) hok
    · cases hok
      exact hgranted.of_same rfl rfl rfl rfl fun _ _ => rfl
  · exact considerWaiting_granted lawful hqueues hgranted hhead hok

theorem awaitRemoteKv_granted (hhead : pass.Head cfg rules host start id rest)
    (hok : awaitRemoteKv cfg rules host pass id rest = .ok flow) :
    flow.pass.Granted cfg rules host start := by
  have hid : (pass.obj id).requestId = id :=
    (Pass.Placed.reaches lawful hqueues hhead.reaches).requestId id
  have hkeeps : host.OwnsBlocks cfg.blockSize → host.Keeps id pass.host
      (host.updateWaitingForRemoteKv pass.host (pass.obj id)).1 := fun owns other hne =>
    owns.remoteKv_keeps pass.host (pass.obj id) other (by rwa [hid])
  unfold awaitRemoteKv at hok
  split at hok
  · rename_i hstatus
    split at hok
    · cases hok
      exact hgranted.of_same rfl rfl rfl rfl fun _ _ => rfl
    · rename_i st computed heq
      have hcomputed : 0 ≤ computed :=
        lawful.remoteKv_nonneg pass.host (pass.obj id) computed (by rw [heq])
      rw [heq] at hkeeps
      have harrived := hhead.withHost lawful hqueues hkeeps
      refine awaitGrammar_granted lawful hqueues ?_ (harrived.modify
        (.receive hhead.mem_waiting hhead.nonePreempted hstatus hcomputed)) hok
      have hhost : (pass.withHost st).Granted cfg rules host start :=
        hgranted.of_same rfl rfl rfl rfl fun _ _ => rfl
      exact hhost.modify lawful hqueues harrived _
  · exact awaitGrammar_granted lawful hqueues hgranted hhead hok

theorem waitingStep_granted (hhead : pass.Head cfg rules host start id rest)
    (hfresh : rules.chunked = true → pass.obj id = start.objs id)
    (hok : waitingStep cfg rules host pass id rest = .ok flow) :
    flow.pass.Granted cfg rules host start := by
  unfold waitingStep at hok
  split at hok
  · rename_i hchunked
    exact awaitRemoteKv_granted lawful hqueues (hgranted.modify lawful hqueues hhead _)
      (hhead.modify (.transfer hchunked hhead.mem_waiting hhead.nonePreempted
        (hfresh hchunked))) hok
  · exact awaitRemoteKv_granted lawful hqueues hgranted hhead hok

omit hgranted in
theorem waitingLoop_granted (prefillBatchMet : Bool) (fuel : Nat) {pass next : Pass σ}
    (hqueued : pass.Queued cfg rules host start)
    (hfresh : rules.chunked = true → ∀ id ∈ pass.self.waiting, pass.obj id = start.objs id)
    (hgranted : pass.Granted cfg rules host start)
    (hok : waitingLoop cfg rules host prefillBatchMet fuel pass = .ok next) :
    next.Granted cfg rules host start := by
  induction fuel generalizing pass with
  | zero =>
      unfold waitingLoop at hok
      split at hok
      · split at hok
        · cases hok
          exact hgranted
        · cases hok
        · rename_i heq
          cases heq
      · cases hok
        exact hgranted
  | succ fuel ih =>
      unfold waitingLoop at hok
      split at hok
      · rename_i hcondition
        split at hok
        · cases hok
          exact hgranted
        · cases hok
        · rename_i id rest _ hpop heq
          cases heq
          have hperm := lawful.popRequest_perm _ _ _ _ _ hpop
          have hhead : pass.Head cfg rules host start id rest :=
            { hqueued with perm := hperm, room := hcondition.2.2 }
          have hturn : rules.chunked = true → pass.obj id = start.objs id := fun hchunked =>
            hfresh hchunked id hhead.mem_waiting
          have hstep := waitingStep_within lawful hqueues hhead hturn
          split at hok
          · cases hok
          · rename_i halted hhalted
            cases hok
            exact waitingStep_granted lawful hqueues hgranted hhead hturn hhalted
          · rename_i popped hpopped
            have hpost := hstep.of_ok hpopped
            have hrest : popped.self.waiting = rest := hpost.rest popped rfl
            have hnext : popped.Queued cfg rules host start :=
              ⟨hpost.reaches, hpost.nonePreempted, hpost.phase⟩
            refine ih hnext ?_
              (waitingStep_granted lawful hqueues hgranted hhead hturn hpopped) hok
            intro hchunked other hmem
            rw [hrest] at hmem
            have hne := ((Pass.Placed.reaches lawful hqueues hqueued.reaches).accept_rest hqueues
              hperm other (List.mem_append_left _ hmem)).1
            rw [show popped.obj other = pass.obj other from hpost.objs other hne]
            exact hfresh hchunked other (hperm.mem_iff.mpr (List.mem_cons_of_mem _ hmem))
      · cases hok
        exact hgranted

end WaitingLoop

/-! One call. -/

theorem SchedulerClass.scheduled_computed (cls : SchedulerClass) (cfg : Config)
    (request : Request) (numDrafts : Nat) (count : Int) :
    (cls.scheduled cfg request numDrafts (some count)).numComputedTokens =
        request.numComputedTokens + count ∧
      (cls.scheduled cfg request numDrafts (some count)).numTokens = request.numTokens := by
  unfold SchedulerClass.scheduled Request.reservePlaceholders
  dsimp only
  split
  · split
    · exact ⟨rfl, rfl⟩
    · exact ⟨rfl, rfl⟩
  · exact ⟨rfl, rfl⟩

theorem Pass.Granted.putBack {pass : Pass σ} (hgranted : pass.Granted cfg rules host start) :
    (pass.putBackSkipped cfg host).Granted cfg rules host start := by
  obtain ⟨waiting, skipped, heq⟩ := Pass.Placed.putBackSkipped_eq cfg host pass
  rw [heq]
  exact hgranted.of_same rfl rfl rfl rfl fun _ _ => rfl

theorem SchedulerWithProfiler.loops_granted (lawful : host.Lawful) (hqueues : start.Queues)
    {pass : Pass σ} (hok : SchedulerWithProfiler.loops cfg host start = .ok pass) :
    pass.Granted cfg (chunkedRules cfg) host start := by
  obtain ⟨ran, hran, hrest⟩ := bind_eq_ok.mp hok
  obtain ⟨collected, hcollect, hrest⟩ := bind_eq_ok.mp hrest
  obtain ⟨admitted, hadmit, hlast⟩ := bind_eq_ok.mp hrest
  rw [pure_eq_ok] at hlast
  have hindexed : (Pass.start cfg start).Indexed := ⟨⟨rfl, rfl⟩, fun _ hmem => nomatch hmem⟩
  have hranGranted := runningLoop_granted lawful hqueues _ .refl hindexed .initial hran
  obtain ⟨hreaches, hruns, hnone⟩ := (runningLoop_within lawful hqueues start.running.length
    .refl hindexed (Nat.sub_le _ _)).of_ok hran
  have hcollected := hreaches.tail (.loras hnone hcollect)
  obtain ⟨loras, rfl⟩ := Pass.collectLoras_eq hcollect
  have hgranted : ({ ran with scheduledLoras := loras } : Pass σ).Granted cfg (chunkedRules cfg)
      host start := hranGranted.of_same rfl rfl rfl rfl fun _ _ => rfl
  subst hlast
  apply Pass.Granted.putBack
  unfold admitWaiting at hadmit
  split at hadmit
  · rename_i hpreempted
    refine waitingLoop_granted lawful hqueues true _ ⟨hcollected, hpreempted,
      fun hchunked => nomatch hchunked⟩ ?_ hgranted hadmit
    intro _ id hmem
    have hwaiting := ((Pass.Tracked.reaches lawful hqueues hreaches).waits id
      (List.mem_append_left _ hmem) (by
        rw [show ran.preemptedReqs = [] from hpreempted]
        exact List.not_mem_nil)).1
    refine hruns.objs id fun hrunning => ?_
    exact (List.nodup_append'.mp hqueues.nodup).2.2 hrunning hwaiting
  · cases hadmit
    exact hgranted

theorem MLUUnchunkScheduler.loops_granted (lawful : host.Lawful) (hqueues : start.Queues)
    {pass : Pass σ} (hok : MLUUnchunkScheduler.loops cfg host start = .ok pass) :
    pass.Granted cfg (unchunkRules cfg) host start := by
  obtain ⟨collected, hcollect, hrest⟩ := bind_eq_ok.mp hok
  have hcollected : Reaches cfg (unchunkRules cfg) host start (.start cfg start) collected :=
    .single (.loras ⟨rfl, rfl⟩ hcollect)
  obtain ⟨loras, rfl⟩ := Pass.collectLoras_eq hcollect
  obtain ⟨waited, hwaited, hlast⟩ := bind_eq_ok.mp hrest
  have hqueued : Pass.Queued cfg (unchunkRules cfg) host start
      { Pass.start cfg start with scheduledLoras := loras, reqIndex := start.running.length } :=
    ⟨hcollected.tail (.reindex start.running.length), rfl, fun _ => rfl⟩
  have hinitial : Pass.Granted cfg (unchunkRules cfg) host start
      { Pass.start cfg start with scheduledLoras := loras, reqIndex := start.running.length } :=
    Pass.Granted.initial.of_same rfl rfl rfl rfl fun _ _ => rfl
  have hgranted := waitingLoop_granted lawful hqueues _ _ hqueued
    (fun hchunked => nomatch hchunked) hinitial hwaited
  have hloop := (waitingLoop_within lawful hqueues _ start.waiting.length hqueued
    (fun hchunked => nomatch hchunked) (le_refl _)).of_ok hwaited
  obtain ⟨waiting, skipped, heq⟩ := Pass.Placed.putBackSkipped_eq cfg host waited
  dsimp only at hlast
  split at hlast
  · rename_i hnone
    have hreaches := (hloop.reaches.tail .putBack).tail (.reindex 0)
    have hindexed : Pass.Indexed { waited.putBackSkipped cfg host with reqIndex := 0 } := by
      refine ⟨hnone, fun id hmem => ?_⟩
      rw [heq] at hmem
      change id ∈ waited.scheduledRunningReqs at hmem
      rw [hloop.phase rfl] at hmem
      cases hmem
    exact runningLoop_granted lawful hqueues _ hreaches hindexed
      (hgranted.putBack.of_same rfl rfl rfl rfl fun _ _ => rfl) hlast
  · cases hlast
    exact hgranted.putBack

end VllmMlu.Sched
