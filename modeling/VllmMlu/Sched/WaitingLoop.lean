import VllmMlu.Sched.RunningLoop

/-! The waiting loop is made of actions and does not run out of its fuel, and so
are both `schedule()` methods. -/
namespace VllmMlu.Sched
open VllmMlu.Library

variable {σ : Type} {cfg : Config} {rules : Rules} {host : Host σ} {start : Scheduler σ}

/-- The waiting loop looks at `id`, with `rest` behind it. -/
structure Pass.Head (cfg : Config) (rules : Rules) (host : Host σ) (start : Scheduler σ)
    (id : ReqId) (rest : List ReqId) (pass : Pass σ) : Prop where
  reaches : Reaches cfg rules host start (.start cfg start) pass
  nonePreempted : pass.preemptedReqs = []
  phase : rules.chunked = false → pass.scheduledRunningReqs = []
  perm : pass.self.waiting.Perm (id :: rest)
  room : pass.self.running.length ≠ cfg.maxNumRunningReqs

/-- What one iteration makes of `pass`: it stops, or goes on with `rest`. -/
structure Pass.Popped (cfg : Config) (rules : Rules) (host : Host σ) (start : Scheduler σ)
    (id : ReqId) (rest : List ReqId) (pass : Pass σ) (flow : Flow σ) : Prop where
  reaches : Reaches cfg rules host start (.start cfg start) flow.pass
  nonePreempted : flow.pass.preemptedReqs = []
  phase : rules.chunked = false → flow.pass.scheduledRunningReqs = []
  rest : ∀ next, flow = .next next → next.self.waiting = rest
  objs : ∀ other, other ≠ id → flow.pass.obj other = pass.obj other

theorem Pass.Popped.mono {id : ReqId} {rest : List ReqId} {pass next : Pass σ} {flow : Flow σ}
    (hpopped : Pass.Popped cfg rules host start id rest next flow)
    (hobjs : ∀ other, other ≠ id → next.obj other = pass.obj other) :
    Pass.Popped cfg rules host start id rest pass flow :=
  { hpopped with objs := fun other hne => (hpopped.objs other hne).trans (hobjs other hne) }

namespace Pass.Head

variable {pass : Pass σ} {id : ReqId} {rest : List ReqId}

theorem mem_waiting (hhead : Pass.Head cfg rules host start id rest pass) :
    id ∈ pass.self.waiting :=
  hhead.perm.mem_iff.mpr List.mem_cons_self

theorem not_scheduled (lawful : host.Lawful) (hqueues : start.Queues)
    (hhead : Pass.Head cfg rules host start id rest pass) :
    id ∉ pass.numScheduledTokens.keys :=
  (Pass.Placed.reaches lawful hqueues hhead.reaches).not_scheduled hqueues
    (List.mem_append_left _ hhead.mem_waiting)

theorem withHost (lawful : host.Lawful) (hqueues : start.Queues)
    (hhead : Pass.Head cfg rules host start id rest pass) {st : σ}
    (hkeeps : host.OwnsBlocks cfg.blockSize → host.Keeps id pass.host st) :
    Pass.Head cfg rules host start id rest (pass.withHost st) :=
  { hhead with
    reaches := hhead.reaches.environment (hhead.not_scheduled lawful hqueues) hkeeps }

theorem modify (hhead : Pass.Head cfg rules host start id rest pass) {change : Request → Request}
    (haction : Action cfg rules host start pass (pass.modify id change)) :
    Pass.Head cfg rules host start id rest (pass.modify id change) :=
  { hhead with reaches := hhead.reaches.tail haction }

theorem skip (hhead : Pass.Head cfg rules host start id rest pass) :
    Pass.Popped cfg rules host start id rest pass (.next (pass.skipWaiting cfg host id rest)) where
  reaches := hhead.reaches.tail (.skip hhead.perm)
  nonePreempted := hhead.nonePreempted
  phase := hhead.phase
  rest := by
    rintro next ⟨⟩
    rfl
  objs := fun _ _ => rfl

theorem halt (hhead : Pass.Head cfg rules host start id rest pass) :
    Pass.Popped cfg rules host start id rest pass (.halt pass) where
  reaches := hhead.reaches
  nonePreempted := hhead.nonePreempted
  phase := hhead.phase
  rest := fun _ hnext => nomatch hnext
  objs := fun _ _ => rfl

theorem park (hhead : Pass.Head cfg rules host start id rest pass) :
    Pass.Popped cfg rules host start id rest pass (.next
      ((pass.skipWaiting cfg host id rest).modify id (·.withStatus .waitingForRemoteKvs))) where
  reaches := hhead.reaches.tail (.park hhead.nonePreempted hhead.perm)
  nonePreempted := hhead.nonePreempted
  phase := hhead.phase
  rest := by
    rintro next ⟨⟩
    rfl
  objs := fun _ hne => Pass.modify_obj_of_ne _ _ hne

theorem accept (hhead : Pass.Head cfg rules host start id rest pass) {admitted : Pass σ}
    {computed : ComputedTokens} {numNewTokens : Int} {plan : EncoderPlan}
    (haction : Action cfg rules host start pass admitted)
    (haccept : pass.accept cfg host (rules.chunked && cfg.disaggTransAllBlocks) id rest
      computed.numComputedTokens numNewTokens plan = .ok admitted) :
    Pass.Popped cfg rules host start id rest pass (.next admitted) := by
  have hreaches := hhead.reaches.tail haction
  obtain ⟨-, st, inputs, budget, rfl, -, -⟩ := accept_eq haccept
  exact {
    reaches := hreaches
    nonePreempted := hhead.nonePreempted
    phase := hhead.phase
    rest := by
      rintro next ⟨⟩
      rfl
    objs := fun _ hne => Function.update_of_ne hne .. }

end Pass.Head

theorem Pass.accept_within {withSpecTokens : Bool} {pass : Pass σ} {id : ReqId}
    {rest : List ReqId} {numComputedTokens numNewTokens : Int} {plan : EncoderPlan} :
    Within (fun _ => True) (pass.accept cfg host withSpecTokens id rest numComputedTokens
      numNewTokens plan) := by
  unfold accept
  dsimp only
  split
  · trivial
  · trivial
  · exact fun heq => nomatch heq

theorem lookUpComputedTokens_keeps (owns : host.OwnsBlocks cfg.blockSize) (st : σ)
    (request : Request) : host.KeepsAll st (lookUpComputedTokens cfg host st request).1 := by
  intro other
  have hcomputed := owns.getComputed_keeps st request other
  unfold lookUpComputedTokens
  split
  · dsimp only
    split
    · have hmatched := owns.matched_keeps (host.getComputedBlocks st request).1 request
        (host.getComputedBlocks st request).2.2 other
      split
      · rename_i heq
        rw [heq] at hmatched
        exact hmatched.trans hcomputed
      · rename_i heq
        rw [heq] at hmatched
        exact hmatched.trans hcomputed
    · exact hcomputed
  · rfl

theorem lookUpComputedTokens_lookedUp {st : σ} {request : Request} {computed : ComputedTokens}
    (hlookup : (lookUpComputedTokens cfg host st request).2 = some computed) :
    computed.LookedUp request := by
  unfold lookUpComputedTokens at hlookup
  split at hlookup
  · rename_i hzero
    dsimp only at hlookup
    split at hlookup
    · split at hlookup
      · cases hlookup
      · cases hlookup
        exact ⟨by simp [hzero]⟩
    · cases hlookup
      exact ⟨by simp [hzero]⟩
  · cases hlookup
    exact ⟨by simp⟩

variable {pass : Pass σ} {id : ReqId} {rest : List ReqId}

theorem allocateWaiting_within (lawful : host.Lawful) (hqueues : start.Queues)
    (hhead : Pass.Head cfg rules host start id rest pass) {computed : ComputedTokens}
    {plan : EncoderPlan} (hlookup : computed.LookedUp (pass.obj id))
    (hloras : exceedsLoras cfg pass.scheduledLoras (pass.obj id) = false)
    (hcount : computed.loadKvAsync = false → 0 < plan.numNewTokens ∧
      plan.numNewTokens ≤ pass.tokenBudget ∧ plan.numNewTokens ≤
        numNewWaitingTokens cfg rules (pass.obj id) computed.numComputedTokens) :
    Within (Pass.Popped cfg rules host start id rest pass)
      (allocateWaiting cfg rules host pass id rest computed plan) := by
  have hid : (pass.obj id).requestId = id :=
    (Pass.Placed.reaches lawful hqueues hhead.reaches).requestId id
  unfold allocateWaiting
  dsimp only
  split
  · rename_i err herr
    have hslots := allocateSlots_within.of_error herr
    exact hslots
  · rename_i st hok
    exact (hhead.withHost lawful hqueues fun owns => hid ▸ allocateSlots_keeps owns hok).halt.mono
      fun _ _ => rfl
  · rename_i st newBlocks hok
    generalize hst : (if cfg.hasConnector = true then host.updateStateAfterAlloc st (pass.obj id)
      (KVCacheBlocks.add computed.newComputedBlocks newBlocks)
      computed.numExternalComputedTokens else st) = after
    have hafter : host.OwnsBlocks cfg.blockSize → host.KeepsAll st after := by
      intro owns other
      rw [← hst]
      split
      · exact owns.updateAfterAlloc_keeps _ _ _ _ other
      · rfl
    have hkeeps : host.OwnsBlocks cfg.blockSize → host.Keeps id pass.host after :=
      fun owns other hne =>
        (hafter owns other).trans (allocateSlots_keeps owns hok other (by rwa [hid]))
    have hallocated := hhead.withHost lawful hqueues hkeeps
    split
    · exact hallocated.park.mono fun _ _ => rfl
    · rename_i hsync
      obtain ⟨hpositive, hbudget, hle⟩ := hcount (by simpa using hsync)
      split
      · rename_i err herr
        exact Pass.accept_within.of_error herr
      · rename_i admitted haccept
        refine (hallocated.accept (.accept hhead.nonePreempted hhead.phase hhead.perm hhead.room
          hloras hlookup hpositive hbudget hle ?_ haccept) haccept).mono fun _ _ => rfl
        intro owns
        have howned := allocateSlots_owned owns hok
        rw [← hafter owns] at howned
        exact howned

theorem scheduleWaiting_within (lawful : host.Lawful) (hqueues : start.Queues)
    (hhead : Pass.Head cfg rules host start id rest pass) {computed : ComputedTokens}
    (hlookup : computed.LookedUp (pass.obj id))
    (hloras : exceedsLoras cfg pass.scheduledLoras (pass.obj id) = false) :
    Within (Pass.Popped cfg rules host start id rest pass)
      (scheduleWaiting cfg rules host pass id rest computed) := by
  unfold scheduleWaiting
  dsimp only
  split
  · rename_i hasync
    split
    · exact fun heq => nomatch heq
    · refine allocateWaiting_within lawful hqueues hhead hlookup hloras fun hsync => ?_
      rw [hasync] at hsync
      cases hsync
  · split
    · exact hhead.skip
    · split
      · exact hhead.halt
      · split
        · exact fun heq => nomatch heq
        · rename_i hpositive
          have hbetween := planEncoder_between lawful pass.host (pass.obj id)
            computed.numComputedTokens (min (numNewWaitingTokens cfg rules (pass.obj id)
              computed.numComputedTokens) pass.tokenBudget) pass.encoderComputeBudget
          have hkeeps := fun (owns : host.OwnsBlocks cfg.blockSize) =>
            planEncoder_keeps owns pass.host (pass.obj id) computed.numComputedTokens
              (min (numNewWaitingTokens cfg rules (pass.obj id) computed.numComputedTokens)
                pass.tokenBudget) pass.encoderComputeBudget
          generalize planEncoder host pass.host (pass.obj id) computed.numComputedTokens
            (min (numNewWaitingTokens cfg rules (pass.obj id) computed.numComputedTokens)
              pass.tokenBudget) pass.encoderComputeBudget = planned at hbetween hkeeps ⊢
          obtain ⟨st, plan⟩ := planned
          dsimp only at hbetween hkeeps ⊢
          have hplanned := hhead.withHost lawful hqueues fun owns other _ => hkeeps owns other
          split
          · exact hplanned.halt.mono fun _ _ => rfl
          · rename_i hzero
            refine (allocateWaiting_within lawful hqueues hplanned hlookup hloras ?_).imp
              fun flow hflow => hflow.mono fun _ _ => rfl
            intro _
            unfold Host.Between at hbetween
            refine ⟨by omega, ?_, ?_⟩
            · change plan.numNewTokens ≤ pass.tokenBudget
              omega
            · change plan.numNewTokens ≤
                numNewWaitingTokens cfg rules (pass.obj id) computed.numComputedTokens
              omega

theorem considerWaiting_within (lawful : host.Lawful) (hqueues : start.Queues)
    (hhead : Pass.Head cfg rules host start id rest pass) :
    Within (Pass.Popped cfg rules host start id rest pass)
      (considerWaiting cfg rules host pass id rest) := by
  unfold considerWaiting
  dsimp only
  split
  · exact hhead.skip
  · rename_i hloras
    have hkeeps := fun (owns : host.OwnsBlocks cfg.blockSize) =>
      lookUpComputedTokens_keeps owns pass.host (pass.obj id)
    split
    · rename_i st heq
      rw [heq] at hkeeps
      exact (hhead.withHost lawful hqueues fun owns other _ => hkeeps owns other).skip.mono
        fun _ _ => rfl
    · rename_i st computed heq
      have hlookup : computed.LookedUp (pass.obj id) :=
        lookUpComputedTokens_lookedUp (by rw [heq])
      rw [heq] at hkeeps
      exact (scheduleWaiting_within lawful hqueues
        (hhead.withHost lawful hqueues fun owns other _ => hkeeps owns other) hlookup
        (Bool.eq_false_of_not_eq_true hloras)).imp fun flow hflow => hflow.mono fun _ _ => rfl

theorem awaitGrammar_within (lawful : host.Lawful) (hqueues : start.Queues)
    (hhead : Pass.Head cfg rules host start id rest pass) :
    Within (Pass.Popped cfg rules host start id rest pass)
      (awaitGrammar cfg rules host pass id rest) := by
  unfold awaitGrammar
  split
  · rename_i hstatus
    split
    · exact (considerWaiting_within lawful hqueues (hhead.modify
        (.compiled hhead.mem_waiting hhead.nonePreempted hstatus))).imp fun flow hflow =>
          hflow.mono fun _ hne => Pass.modify_obj_of_ne _ _ hne
    · exact hhead.skip
  · exact considerWaiting_within lawful hqueues hhead

theorem awaitRemoteKv_within (lawful : host.Lawful) (hqueues : start.Queues)
    (hhead : Pass.Head cfg rules host start id rest pass) :
    Within (Pass.Popped cfg rules host start id rest pass)
      (awaitRemoteKv cfg rules host pass id rest) := by
  have hid : (pass.obj id).requestId = id :=
    (Pass.Placed.reaches lawful hqueues hhead.reaches).requestId id
  have hkeeps : host.OwnsBlocks cfg.blockSize → host.Keeps id pass.host
      (host.updateWaitingForRemoteKv pass.host (pass.obj id)).1 := fun owns other hne =>
    owns.remoteKv_keeps pass.host (pass.obj id) other (by rwa [hid])
  unfold awaitRemoteKv
  split
  · rename_i hstatus
    split
    · rename_i st heq
      rw [heq] at hkeeps
      exact (hhead.withHost lawful hqueues hkeeps).skip.mono fun _ _ => rfl
    · rename_i st computed heq
      have hcomputed : 0 ≤ computed :=
        lawful.remoteKv_nonneg pass.host (pass.obj id) computed (by rw [heq])
      rw [heq] at hkeeps
      have harrived := hhead.withHost lawful hqueues hkeeps
      exact (awaitGrammar_within lawful hqueues (harrived.modify
        (.receive hhead.mem_waiting hhead.nonePreempted hstatus hcomputed))).imp
          fun flow hflow => hflow.mono fun _ hne => Pass.modify_obj_of_ne _ _ hne
  · exact awaitGrammar_within lawful hqueues hhead

theorem waitingStep_within (lawful : host.Lawful) (hqueues : start.Queues)
    (hhead : Pass.Head cfg rules host start id rest pass)
    (hfresh : rules.chunked = true → pass.obj id = start.objs id) :
    Within (Pass.Popped cfg rules host start id rest pass)
      (waitingStep cfg rules host pass id rest) := by
  unfold waitingStep
  split
  · rename_i hchunked
    exact (awaitRemoteKv_within lawful hqueues (hhead.modify (.transfer hchunked hhead.mem_waiting
      hhead.nonePreempted (hfresh hchunked)))).imp fun flow hflow =>
        hflow.mono fun _ hne => Pass.modify_obj_of_ne _ _ hne
  · exact awaitRemoteKv_within lawful hqueues hhead

/-- What the waiting loop is at between two iterations. -/
structure Pass.Queued (cfg : Config) (rules : Rules) (host : Host σ) (start : Scheduler σ)
    (pass : Pass σ) : Prop where
  reaches : Reaches cfg rules host start (.start cfg start) pass
  nonePreempted : pass.preemptedReqs = []
  phase : rules.chunked = false → pass.scheduledRunningReqs = []

/-- The waiting loop is made of actions, and needs no more fuel than there are
waiting requests. -/
theorem waitingLoop_within (lawful : host.Lawful) (hqueues : start.Queues)
    (prefillBatchMet : Bool) (fuel : Nat)
    {pass : Pass σ} (hqueued : Pass.Queued cfg rules host start pass)
    (hfresh : rules.chunked = true → ∀ id ∈ pass.self.waiting, pass.obj id = start.objs id)
    (hfuel : pass.self.waiting.length ≤ fuel) :
    Within (Pass.Queued cfg rules host start)
      (waitingLoop cfg rules host prefillBatchMet fuel pass) := by
  induction fuel generalizing pass with
  | zero =>
      have hempty : pass.self.waiting = [] := List.eq_nil_of_length_eq_zero (by omega)
      unfold waitingLoop
      split
      · split
        · exact hqueued
        · rename_i result hpop _
          have hperm := lawful.popRequest_perm _ _ _ _ _ hpop
          rw [hempty] at hperm
          exact absurd hperm.length_eq (by simp)
        · rename_i heq
          cases heq
      · exact hqueued
  | succ fuel ih =>
      unfold waitingLoop
      split
      · rename_i hcondition
        split
        · exact hqueued
        · rename_i heq
          cases heq
        · rename_i id rest _ hpop heq
          cases heq
          have hperm := lawful.popRequest_perm _ _ _ _ _ hpop
          have hhead : Pass.Head cfg rules host start id rest pass :=
            { hqueued with perm := hperm, room := hcondition.2.2 }
          have hstep := waitingStep_within lawful hqueues hhead
            fun hchunked => hfresh hchunked id hhead.mem_waiting
          split
          · rename_i err herr
            exact hstep.of_error herr
          · rename_i halted hhalted
            have hpost := hstep.of_ok hhalted
            exact ⟨hpost.reaches, hpost.nonePreempted, hpost.phase⟩
          · rename_i next hok
            have hpost := hstep.of_ok hok
            have hrest : next.self.waiting = rest := hpost.rest next rfl
            refine ih ⟨hpost.reaches, hpost.nonePreempted, hpost.phase⟩ ?_ ?_
            · intro hchunked other hmem
              rw [hrest] at hmem
              have hplaced := Pass.Placed.reaches lawful hqueues hqueued.reaches
              have hne := (hplaced.accept_rest hqueues hperm other
                (List.mem_append_left _ hmem)).1
              rw [show next.obj other = pass.obj other from hpost.objs other hne]
              exact hfresh hchunked other (hperm.mem_iff.mpr (List.mem_cons_of_mem _ hmem))
            · have hlength := hperm.length_eq
              rw [List.length_cons] at hlength
              rw [hrest]
              omega
      · exact hqueued

end VllmMlu.Sched
