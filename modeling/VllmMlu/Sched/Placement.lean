import VllmMlu.Sched.Action

/-! Where the requests stand: outside a call of `schedule()` every unfinished
request is in exactly one queue, and during a call the queues, the requests set
aside and the records of the call stay consistent with each other. -/
namespace VllmMlu.Sched
open VllmMlu.Library

variable {σ : Type}

structure Scheduler.Queues (sched : Scheduler σ) : Prop where
  nodup : (sched.running ++ sched.waiting).Nodup
  running_status : ∀ id ∈ sched.running, (sched.objs id).status = .running
  waiting_status : ∀ id ∈ sched.waiting, (sched.objs id).status.waits = true
  live : ∀ id ∈ sched.running ++ sched.waiting, id ∈ sched.requests
  placed : ∀ id ∈ sched.requests, (sched.objs id).isFinished = false →
    id ∈ sched.running ++ sched.waiting
  requestId : ∀ id, (sched.objs id).requestId = id

structure Pass.Placed (cfg : Config) (start : Scheduler σ) (pass : Pass σ) : Prop where
  perm : (pass.self.running ++ (pass.self.waiting ++ pass.skippedWaitingRequests)).Perm
    (start.running ++ start.waiting)
  running_status : ∀ id ∈ pass.self.running, (pass.obj id).status = .running
  waiting_status : ∀ id ∈ pass.self.waiting ++ pass.skippedWaitingRequests,
    (pass.obj id).status.waits = true
  others : ∀ id ∉ start.running ++ start.waiting, pass.obj id = start.objs id
  requestId : ∀ id, (pass.obj id).requestId = id
  requests : pass.self.requests = start.requests
  scheduled : pass.numScheduledTokens.keys.Perm
    (pass.scheduledRunningReqs ++ (pass.scheduledNewReqs ++ pass.scheduledResumedReqs))
  inRunning : ∀ id ∈ pass.numScheduledTokens.keys, id ∈ pass.self.running
  blocks : ∀ id, id ∈ pass.reqToNewBlocks.keys ↔ id ∈ pass.numScheduledTokens.keys
  specTokens : ∀ id ∈ pass.scheduledSpecDecodeTokens.keys, id ∈ pass.numScheduledTokens.keys
  encoderInputs : ∀ id ∈ pass.scheduledEncoderInputs.keys, id ∈ pass.numScheduledTokens.keys
  preempted : ∀ id ∈ pass.preemptedReqs, id ∈ pass.self.waiting ++ pass.skippedWaitingRequests
  exclusive : pass.preemptedReqs = [] ∨
    pass.scheduledNewReqs = [] ∧ pass.scheduledResumedReqs = []
  balance : pass.tokenBudget + pass.numScheduledTokens.total = cfg.maxNumScheduledTokens

namespace Pass.Placed

variable {cfg : Config} {start : Scheduler σ} {pass : Pass σ}

theorem nodup (hplaced : pass.Placed cfg start) (hqueues : start.Queues) :
    (pass.self.running ++ (pass.self.waiting ++ pass.skippedWaitingRequests)).Nodup :=
  hplaced.perm.nodup_iff.mpr hqueues.nodup

theorem running_nodup (hplaced : pass.Placed cfg start) (hqueues : start.Queues) :
    pass.self.running.Nodup :=
  (List.nodup_append'.mp (hplaced.nodup hqueues)).1

theorem not_mem_running (hplaced : pass.Placed cfg start) (hqueues : start.Queues) {id : ReqId}
    (hwaiting : id ∈ pass.self.waiting ++ pass.skippedWaitingRequests) :
    id ∉ pass.self.running := fun hrunning =>
  (List.nodup_append'.mp (hplaced.nodup hqueues)).2.2 hrunning hwaiting

theorem not_scheduled (hplaced : pass.Placed cfg start) (hqueues : start.Queues) {id : ReqId}
    (hwaiting : id ∈ pass.self.waiting ++ pass.skippedWaitingRequests) :
    id ∉ pass.numScheduledTokens.keys := fun hmem =>
  hplaced.not_mem_running hqueues hwaiting (hplaced.inRunning id hmem)

theorem mem_scheduled (hplaced : pass.Placed cfg start) {id : ReqId} :
    id ∈ pass.numScheduledTokens.keys ↔
      id ∈ pass.scheduledRunningReqs ∨ id ∈ pass.scheduledNewReqs ∨
        id ∈ pass.scheduledResumedReqs := by
  rw [hplaced.scheduled.mem_iff, List.mem_append, List.mem_append]

theorem scheduled_nodup (hplaced : pass.Placed cfg start) :
    (pass.scheduledRunningReqs ++ (pass.scheduledNewReqs ++ pass.scheduledResumedReqs)).Nodup :=
  hplaced.scheduled.nodup_iff.mp pass.numScheduledTokens.keys_nodup

/-- While nothing has been admitted, the scheduled requests are the running ones. -/
theorem scheduled_of_none (hplaced : pass.Placed cfg start)
    (hnone : pass.scheduledNewReqs = [] ∧ pass.scheduledResumedReqs = []) :
    pass.numScheduledTokens.keys.Perm pass.scheduledRunningReqs := by
  have hscheduled := hplaced.scheduled
  rw [hnone.1, hnone.2] at hscheduled
  simpa using hscheduled

theorem initial (hqueues : start.Queues) : (Pass.start cfg start).Placed cfg start where
  perm := by simp [Pass.start]
  running_status := hqueues.running_status
  waiting_status := by
    intro id hmem
    exact hqueues.waiting_status id (by simpa [Pass.start] using hmem)
  others := fun _ _ => rfl
  requestId := hqueues.requestId
  requests := rfl
  scheduled := List.Perm.refl _
  inRunning := by simp [Pass.start]
  blocks := fun _ => Iff.rfl
  specTokens := by simp [Pass.start]
  encoderInputs := by simp [Pass.start]
  preempted := by simp [Pass.start]
  exclusive := .inl rfl
  balance := by simp [Pass.start]

end Pass.Placed

/-- What preempting `victim` makes of the local variables of the call. -/
structure Pass.Vacates (host : Host σ) (cfg : Config) (victim : ReqId) (pass next : Pass σ) :
    Prop where
  running : pass.self.running.Perm (victim :: next.self.running)
  waiting : next.self.waiting.Perm (victim :: pass.self.waiting)
  skipped : next.skippedWaitingRequests = pass.skippedWaitingRequests
  objs : next.self.objs = Function.update pass.self.objs victim (pass.obj victim).preempted
  requests : next.self.requests = pass.self.requests
  preempted : next.preemptedReqs = pass.preemptedReqs ++ [victim]
  noneAdmitted : next.scheduledNewReqs = [] ∧ next.scheduledResumedReqs = []
  scheduled : next.numScheduledTokens.keys.Perm next.scheduledRunningReqs
  numScheduledTokens : ∀ id, next.numScheduledTokens.get? id =
    if id = victim then none else pass.numScheduledTokens.get? id
  specTokens : ∀ id, next.scheduledSpecDecodeTokens.get? id =
    if id = victim then none else pass.scheduledSpecDecodeTokens.get? id
  blocks : ∀ id, id ∈ next.reqToNewBlocks.keys ↔ id ∈ pass.reqToNewBlocks.keys ∧ id ≠ victim
  encoderInputs : ∀ id ∈ next.scheduledEncoderInputs.keys,
    id ∈ pass.scheduledEncoderInputs.keys ∧ id ≠ victim
  balance : next.tokenBudget + next.numScheduledTokens.total =
    pass.tokenBudget + pass.numScheduledTokens.total
  tokenBudget : next.tokenBudget =
    pass.tokenBudget + (pass.numScheduledTokens.get? victim).getD 0
  loras : next.scheduledLoras = pass.scheduledLoras
  keeps : host.OwnsBlocks cfg.blockSize → host.Keeps victim pass.host next.host

theorem Pass.Vacates.mem_scheduled {host : Host σ} {cfg : Config} {victim : ReqId}
    {pass next : Pass σ} (hvacates : Pass.Vacates host cfg victim pass next) (id : ReqId) :
    id ∈ next.numScheduledTokens.keys ↔ id ∈ pass.numScheduledTokens.keys ∧ id ≠ victim := by
  rw [Dict.mem_keys_iff, Dict.mem_keys_iff, hvacates.numScheduledTokens]
  split <;> simp_all

theorem Pass.Vacates.mem_specTokens {host : Host σ} {cfg : Config} {victim : ReqId}
    {pass next : Pass σ} (hvacates : Pass.Vacates host cfg victim pass next) (id : ReqId) :
    id ∈ next.scheduledSpecDecodeTokens.keys ↔
      id ∈ pass.scheduledSpecDecodeTokens.keys ∧ id ≠ victim := by
  rw [Dict.mem_keys_iff, Dict.mem_keys_iff, hvacates.specTokens]
  split <;> simp_all

/-- The victim leaves `self.running`, and its records if it had any. -/
theorem Pass.takeVictim_forgets {cfg : Config} {host : Host σ} {pass taken : Pass σ}
    {victim : ReqId} (hok : pass.takeVictim cfg host = .ok (victim, taken))
    (hfcfs : cfg.policy = .fcfs → victim ∉ pass.scheduledRunningReqs) :
    ∃ rest, pass.self.running.Perm (victim :: rest) ∧
      ((victim ∉ pass.scheduledRunningReqs ∧ taken = pass.withRunning rest) ∨
        (victim ∈ pass.scheduledRunningReqs ∧
          ∃ numTokens, pass.numScheduledTokens.get? victim = some numTokens ∧
            taken = (pass.withRunning rest).forget host victim numTokens)) := by
  rcases takeVictim_cases hok with ⟨hpolicy, hlast, htaken⟩ | ⟨-, hmem, hfresh, htaken⟩ |
    ⟨-, hmem, hscheduled, htaken⟩
  · refine ⟨pass.self.running.dropLast, ?_, .inl ⟨hfcfs hpolicy, htaken⟩⟩
    have hsplit := List.dropLast_append_getLast? victim hlast
    exact (List.Perm.of_eq hsplit.symm).trans (List.perm_append_singleton _ _)
  · exact ⟨_, List.perm_cons_erase hmem, .inl ⟨hfresh, htaken⟩⟩
  · exact ⟨_, List.perm_cons_erase hmem, .inr ⟨hscheduled, htaken⟩⟩

namespace Pass.Placed

variable {cfg : Config} {rules : Rules} {host : Host σ} {start : Scheduler σ} {pass : Pass σ}

theorem vacates (lawful : host.Lawful) (hplaced : pass.Placed cfg start)
    {taken : Pass σ} {victim : ReqId}
    (hnone : pass.scheduledNewReqs = [] ∧ pass.scheduledResumedReqs = [])
    (htake : pass.takeVictim cfg host = .ok (victim, taken))
    (hfcfs : cfg.policy = .fcfs → victim ∉ pass.scheduledRunningReqs) :
    Pass.Vacates host cfg victim pass (taken.preempt cfg host victim) := by
  obtain ⟨rest, hrest, hcases⟩ := takeVictim_forgets htake hfcfs
  have hperm := hplaced.scheduled_of_none hnone
  have hkeeps : host.OwnsBlocks cfg.blockSize → host.Keeps victim pass.host
      (host.freeEncoder (host.freeBlocks pass.host (pass.obj victim)) (pass.obj victim)) := by
    intro owns other hne
    rw [owns.freeEncoder_keeps]
    exact owns.freeBlocks_keeps _ _ other (by rwa [hplaced.requestId])
  rcases hcases with ⟨hfresh, rfl⟩ | ⟨hscheduled, numTokens, hget, rfl⟩
  · have hvictim : victim ∉ pass.numScheduledTokens.keys := fun hmem =>
      hfresh (hperm.mem_iff.mp hmem)
    have hne : ∀ id ∈ pass.numScheduledTokens.keys, id ≠ victim := fun id hmem heq =>
      hvictim (heq ▸ hmem)
    have hnum := (Dict.get?_eq_none_iff _ _).mpr hvictim
    exact {
      running := hrest
      waiting := lawful.prependRequest_perm ..
      skipped := rfl
      objs := rfl
      requests := rfl
      preempted := rfl
      noneAdmitted := hnone
      scheduled := hperm
      numScheduledTokens := by
        intro id
        split
        · rename_i heq
          rw [heq]
          exact hnum
        · rfl
      specTokens := by
        intro id
        split
        · rename_i heq
          rw [heq]
          exact (Dict.get?_eq_none_iff _ _).mpr fun hmem => hvictim (hplaced.specTokens _ hmem)
        · rfl
      blocks := fun id =>
        ⟨fun hmem => ⟨hmem, hne id ((hplaced.blocks id).mp hmem)⟩, And.left⟩
      encoderInputs := fun id hmem => ⟨hmem, hne id (hplaced.encoderInputs id hmem)⟩
      balance := rfl
      tokenBudget := by
        rw [hnum]
        exact (add_zero _).symm
      loras := rfl
      keeps := hkeeps }
  · have hnodup := hperm.nodup_iff.mp pass.numScheduledTokens.keys_nodup
    exact {
      running := hrest
      waiting := lawful.prependRequest_perm ..
      skipped := rfl
      objs := rfl
      requests := rfl
      preempted := rfl
      noneAdmitted := hnone
      scheduled := by
        change (pass.numScheduledTokens.pop victim).keys.Perm
          (pass.scheduledRunningReqs.erase victim)
        rw [Dict.keys_pop, hnodup.erase_eq_filter]
        simpa [bne, Bool.beq_eq_decide_eq] using hperm.filter fun other => other ≠ victim
      numScheduledTokens := Dict.get?_pop _ _
      specTokens := Dict.get?_pop _ _
      blocks := Dict.mem_keys_pop _ _
      encoderInputs := fun id => (Dict.mem_keys_pop _ _ id).mp
      balance := by
        have htotal := Dict.total_pop hget
        change pass.tokenBudget + numTokens + (pass.numScheduledTokens.pop victim).total = _
        omega
      tokenBudget := by
        rw [hget]
        rfl
      loras := rfl
      keeps := hkeeps }

theorem preempt (hqueues : start.Queues) (hplaced : pass.Placed cfg start) {next : Pass σ}
    {victim : ReqId} (hvacates : Pass.Vacates host cfg victim pass next) :
    next.Placed cfg start := by
  have hvictim : victim ∈ pass.self.running :=
    hvacates.running.mem_iff.mpr List.mem_cons_self
  have hfresh : victim ∉ next.self.running := by
    have hnodup := hvacates.running.nodup_iff.mp (hplaced.running_nodup hqueues)
    exact (List.nodup_cons.mp hnodup).1
  have hobj : ∀ id, id ≠ victim → next.obj id = pass.obj id := by
    intro id hne
    rw [Pass.obj, hvacates.objs, Function.update_of_ne hne]
  have hself : next.obj victim = (pass.obj victim).preempted := by
    rw [Pass.obj, hvacates.objs, Function.update_self]
  refine { perm := ?_, running_status := ?_, waiting_status := ?_, others := ?_, requestId := ?_,
           requests := hvacates.requests.trans hplaced.requests, scheduled := ?_, inRunning := ?_,
           blocks := ?_, specTokens := ?_, encoderInputs := ?_, preempted := ?_,
           exclusive := .inr hvacates.noneAdmitted,
           balance := hvacates.balance.trans hplaced.balance }
  · refine List.Perm.trans ?_ hplaced.perm
    have hrunning := hvacates.running
    have hwaiting := hvacates.waiting
    rw [hvacates.skipped]
    rw [List.perm_iff_count] at hrunning hwaiting ⊢
    intro id
    have hleft := hrunning id
    have hright := hwaiting id
    simp only [List.count_append, List.count_cons] at hleft hright ⊢
    omega
  · intro id hmem
    rw [hobj id (fun heq => hfresh (heq ▸ hmem))]
    exact hplaced.running_status id (hvacates.running.mem_iff.mpr (List.mem_cons_of_mem _ hmem))
  · intro id hmem
    rw [hvacates.skipped, List.mem_append, hvacates.waiting.mem_iff, List.mem_cons, or_assoc]
      at hmem
    by_cases heq : id = victim
    · rw [heq, hself]
      rfl
    · rw [hobj id heq]
      exact hplaced.waiting_status id (List.mem_append.mpr (hmem.resolve_left heq))
  · intro id hmem
    have hne : id ≠ victim := by
      rintro rfl
      exact hmem (hplaced.perm.mem_iff.mp (List.mem_append_left _ hvictim))
    rw [hobj id hne]
    exact hplaced.others id hmem
  · intro id
    by_cases heq : id = victim
    · rw [heq, hself]
      exact hplaced.requestId victim
    · rw [hobj id heq]
      exact hplaced.requestId id
  · rw [hvacates.noneAdmitted.1, hvacates.noneAdmitted.2]
    simpa using hvacates.scheduled
  · intro id hmem
    obtain ⟨hold, hne⟩ := (hvacates.mem_scheduled id).mp hmem
    exact (List.mem_cons.mp (hvacates.running.mem_iff.mp
      (hplaced.inRunning id hold))).resolve_left hne
  · intro id
    rw [hvacates.blocks, hvacates.mem_scheduled, hplaced.blocks]
  · intro id hmem
    obtain ⟨hold, hne⟩ := (hvacates.mem_specTokens id).mp hmem
    exact (hvacates.mem_scheduled id).mpr ⟨hplaced.specTokens id hold, hne⟩
  · intro id hmem
    obtain ⟨hold, hne⟩ := hvacates.encoderInputs id hmem
    exact (hvacates.mem_scheduled id).mpr ⟨hplaced.encoderInputs id hold, hne⟩
  · intro id hmem
    rw [hvacates.skipped, List.mem_append, hvacates.waiting.mem_iff, List.mem_cons, or_assoc]
    rw [hvacates.preempted, List.mem_append, List.mem_singleton] at hmem
    rcases hmem with hold | heq
    · exact .inr (List.mem_append.mp (hplaced.preempted id hold))
    · exact .inl heq

theorem record (hqueues : start.Queues) (hplaced : pass.Placed cfg start) {id : ReqId}
    {numNewTokens : Int} {newBlocks : KVCacheBlocks} {plan : EncoderPlan}
    (hnone : pass.scheduledNewReqs = [] ∧ pass.scheduledResumedReqs = [])
    (hrunning : id ∈ pass.self.running) (hfresh : id ∉ pass.scheduledRunningReqs) :
    (pass.record cfg host id numNewTokens newBlocks plan).Placed cfg start := by
  obtain ⟨specTokens, st, inputs, budget, heq, hother, -, hinputs, -⟩ :=
    record_eq cfg host pass id numNewTokens newBlocks plan
  rw [heq]
  have hnew : id ∉ pass.numScheduledTokens.keys := fun hmem =>
    hfresh ((hplaced.scheduled_of_none hnone).mem_iff.mp hmem)
  have hobj : ∀ other, other ≠ id →
      Function.update pass.self.objs id (pass.obj id).withoutDrafts other = pass.obj other :=
    fun other hne => Function.update_of_ne hne ..
  refine { perm := hplaced.perm, running_status := ?_, waiting_status := ?_, others := ?_,
           requestId := ?_, requests := hplaced.requests, scheduled := ?_, inRunning := ?_,
           blocks := ?_, specTokens := ?_, encoderInputs := ?_, preempted := hplaced.preempted,
           exclusive := hplaced.exclusive, balance := ?_ }
  · intro other hmem
    change (Function.update pass.self.objs id (pass.obj id).withoutDrafts other).status = _
    by_cases heq : other = id
    · rw [heq, Function.update_self]
      exact hplaced.running_status id hrunning
    · rw [hobj other heq]
      exact hplaced.running_status other hmem
  · intro other hmem
    change (Function.update pass.self.objs id (pass.obj id).withoutDrafts other).status.waits = _
    have hne : other ≠ id := by
      rintro rfl
      exact hplaced.not_mem_running hqueues hmem hrunning
    rw [hobj other hne]
    exact hplaced.waiting_status other hmem
  · intro other hmem
    change Function.update pass.self.objs id (pass.obj id).withoutDrafts other = _
    have hne : other ≠ id := by
      rintro rfl
      exact hmem (hplaced.perm.mem_iff.mp (List.mem_append_left _ hrunning))
    rw [hobj other hne]
    exact hplaced.others other hmem
  · intro other
    change (Function.update pass.self.objs id (pass.obj id).withoutDrafts other).requestId = _
    by_cases heq : other = id
    · rw [heq, Function.update_self]
      exact hplaced.requestId id
    · rw [hobj other heq]
      exact hplaced.requestId other
  · change (pass.numScheduledTokens.set id numNewTokens).keys.Perm
      (pass.scheduledRunningReqs ++ [id] ++ (pass.scheduledNewReqs ++ pass.scheduledResumedReqs))
    rw [Dict.keys_set_of_not_mem _ _ _ hnew, hnone.1, hnone.2, List.append_nil, List.append_nil]
    exact (hplaced.scheduled_of_none hnone).append_right [id]
  · intro other hmem
    rcases (Dict.mem_keys_set _ _ _ _).mp hmem with rfl | hold
    · exact hrunning
    · exact hplaced.inRunning other hold
  · intro other
    change other ∈ (pass.reqToNewBlocks.set id newBlocks).keys ↔
      other ∈ (pass.numScheduledTokens.set id numNewTokens).keys
    rw [Dict.mem_keys_set, Dict.mem_keys_set, hplaced.blocks]
  · intro other hmem
    change other ∈ (pass.numScheduledTokens.set id numNewTokens).keys
    rw [Dict.mem_keys_set]
    by_cases heq : other = id
    · exact .inl heq
    · refine .inr (hplaced.specTokens other ?_)
      obtain ⟨tokens, hget⟩ := (Dict.mem_keys_iff _ _).mp hmem
      exact Dict.mem_keys_of_get? ((hother other heq).symm.trans hget)
  · intro other hmem
    change other ∈ (pass.numScheduledTokens.set id numNewTokens).keys
    rw [Dict.mem_keys_set]
    exact (hinputs other hmem).imp_right (hplaced.encoderInputs other)
  · change pass.tokenBudget - numNewTokens +
      (pass.numScheduledTokens.set id numNewTokens).total = _
    rw [Dict.total_set_of_not_mem _ _ _ hnew]
    have hbalance := hplaced.balance
    omega

/-- A request that stands in no loop's record may change while it waits. -/
theorem modify (hqueues : start.Queues) (hplaced : pass.Placed cfg start) {id : ReqId}
    {change : Request → Request}
    (hwaiting : id ∈ pass.self.waiting ++ pass.skippedWaitingRequests)
    (hstatus : (change (pass.obj id)).status.waits = true)
    (hid : (change (pass.obj id)).requestId = (pass.obj id).requestId) :
    (pass.modify id change).Placed cfg start := by
  have hself : (pass.modify id change).obj id = change (pass.obj id) :=
    Pass.modify_obj_self ..
  have hobj : ∀ other, other ≠ id → (pass.modify id change).obj other = pass.obj other :=
    fun other hne => Pass.modify_obj_of_ne _ _ hne
  refine { hplaced with running_status := ?_, waiting_status := ?_, others := ?_, requestId := ?_ }
  · intro other hmem
    have hne : other ≠ id := by
      rintro rfl
      exact hplaced.not_mem_running hqueues hwaiting hmem
    rw [hobj other hne]
    exact hplaced.running_status other hmem
  · intro other hmem
    by_cases heq : other = id
    · rw [heq, hself]
      exact hstatus
    · rw [hobj other heq]
      exact hplaced.waiting_status other hmem
  · intro other hmem
    have hne : other ≠ id := by
      rintro rfl
      exact hmem (hplaced.perm.mem_iff.mp (List.mem_append_right _ hwaiting))
    rw [hobj other hne]
    exact hplaced.others other hmem
  · intro other
    by_cases heq : other = id
    · rw [heq, hself, hid]
      exact hplaced.requestId id
    · rw [hobj other heq]
      exact hplaced.requestId other

theorem skip_queue (cfg : Config) (lawful : host.Lawful) {id : ReqId} {rest : List ReqId}
    (hperm : pass.self.waiting.Perm (id :: rest)) :
    (rest ++ host.prependRequest cfg.policy pass.self.objs pass.skippedWaitingRequests id).Perm
      (pass.self.waiting ++ pass.skippedWaitingRequests) := by
  have hskipped := lawful.prependRequest_perm cfg.policy pass.self.objs
    pass.skippedWaitingRequests id
  rw [List.perm_iff_count] at hperm hskipped ⊢
  intro other
  have hleft := hperm other
  have hright := hskipped other
  simp only [List.count_append, List.count_cons] at hleft hright ⊢
  omega

theorem skip (lawful : host.Lawful) (hplaced : pass.Placed cfg start) {id : ReqId}
    {rest : List ReqId} (hperm : pass.self.waiting.Perm (id :: rest)) :
    (pass.skipWaiting cfg host id rest).Placed cfg start := by
  have hqueue := skip_queue cfg lawful hperm
  exact { hplaced with
    perm := (hqueue.append_left _).trans hplaced.perm
    waiting_status := fun other hmem => hplaced.waiting_status other (hqueue.mem_iff.mp hmem)
    preempted := fun other hmem => hqueue.mem_iff.mpr (hplaced.preempted other hmem) }

theorem putBack_queue (cfg : Config) (lawful : host.Lawful) (pass : Pass σ) :
    ((pass.putBackSkipped cfg host).self.waiting ++
      (pass.putBackSkipped cfg host).skippedWaitingRequests).Perm
      (pass.self.waiting ++ pass.skippedWaitingRequests) := by
  unfold putBackSkipped
  split
  · exact List.Perm.refl _
  · change (host.prependRequests cfg.policy pass.self.objs pass.self.waiting
      pass.skippedWaitingRequests ++ []).Perm _
    rw [List.append_nil]
    exact (lawful.prependRequests_perm ..).trans List.perm_append_comm

theorem putBackSkipped_eq (cfg : Config) (host : Host σ) (pass : Pass σ) :
    ∃ waiting skipped, pass.putBackSkipped cfg host =
      { pass.withWaiting waiting with skippedWaitingRequests := skipped } := by
  unfold putBackSkipped
  split
  · exact ⟨_, _, rfl⟩
  · exact ⟨_, _, rfl⟩

theorem putBack (lawful : host.Lawful) (hplaced : pass.Placed cfg start) :
    (pass.putBackSkipped cfg host).Placed cfg start := by
  have hqueue := putBack_queue cfg lawful pass
  obtain ⟨waiting, skipped, heq⟩ := putBackSkipped_eq cfg host pass
  rw [heq] at hqueue ⊢
  exact { hplaced with
    perm := (hqueue.append_left _).trans hplaced.perm
    waiting_status := fun other hmem => hplaced.waiting_status other (hqueue.mem_iff.mp hmem)
    preempted := fun other hmem => hqueue.mem_iff.mpr (hplaced.preempted other hmem) }

theorem accept_queue {id : ReqId} {rest : List ReqId}
    (hperm : pass.self.waiting.Perm (id :: rest)) :
    (pass.self.running ++ [id] ++ (rest ++ pass.skippedWaitingRequests)).Perm
      (pass.self.running ++ (pass.self.waiting ++ pass.skippedWaitingRequests)) := by
  rw [List.perm_iff_count] at hperm ⊢
  intro other
  have hcount := hperm other
  simp only [List.count_append, List.count_cons, List.count_nil] at hcount ⊢
  omega

/-- The requests that still wait after an admission waited before it. -/
theorem accept_rest (hplaced : pass.Placed cfg start) (hqueues : start.Queues) {id : ReqId}
    {rest : List ReqId} (hperm : pass.self.waiting.Perm (id :: rest)) :
    ∀ other ∈ rest ++ pass.skippedWaitingRequests,
      other ≠ id ∧ other ∈ pass.self.waiting ++ pass.skippedWaitingRequests := by
  intro other hmem
  have hnodup := ((accept_queue hperm).trans hplaced.perm).nodup_iff.mpr hqueues.nodup
  constructor
  · rintro rfl
    exact (List.nodup_append'.mp hnodup).2.2
      (List.mem_append_right _ (List.mem_singleton_self _)) hmem
  · rw [List.mem_append, hperm.mem_iff, List.mem_cons, or_assoc]
    exact .inr (List.mem_append.mp hmem)

theorem accept (hqueues : start.Queues) (hplaced : pass.Placed cfg start) {admitted : Pass σ}
    {withSpecTokens : Bool} {id : ReqId} {rest : List ReqId} {numComputedTokens numNewTokens : Int}
    {plan : EncoderPlan} (hnone : pass.preemptedReqs = [])
    (hperm : pass.self.waiting.Perm (id :: rest))
    (haccept : pass.accept cfg host withSpecTokens id rest numComputedTokens numNewTokens plan =
      .ok admitted) :
    admitted.Placed cfg start := by
  obtain ⟨hstatus, st, inputs, budget, rfl, hinputs, -⟩ := accept_eq haccept
  have hwaiting : id ∈ pass.self.waiting ++ pass.skippedWaitingRequests :=
    List.mem_append_left _ (hperm.mem_iff.mpr List.mem_cons_self)
  have hnew := hplaced.not_scheduled hqueues hwaiting
  have hobj : ∀ other, other ≠ id →
      Function.update pass.self.objs id ((pass.obj id).admitted numComputedTokens) other =
        pass.obj other := fun other hne => Function.update_of_ne hne ..
  have hrest := hplaced.accept_rest hqueues hperm
  refine { perm := (accept_queue hperm).trans hplaced.perm, running_status := ?_, waiting_status := ?_,
           others := ?_, requestId := ?_, requests := hplaced.requests, scheduled := ?_,
           inRunning := ?_, blocks := ?_, specTokens := ?_, encoderInputs := ?_, preempted := ?_,
           exclusive := .inl hnone, balance := ?_ }
  · intro other hmem
    change (Function.update pass.self.objs id _ other).status = _
    by_cases heq : other = id
    · rw [heq, Function.update_self]
      rfl
    · rw [hobj other heq]
      rcases List.mem_append.mp hmem with hold | hsingle
      · exact hplaced.running_status other hold
      · exact absurd (List.mem_singleton.mp hsingle) heq
  · intro other hmem
    change (Function.update pass.self.objs id _ other).status.waits = _
    rw [hobj other (hrest other hmem).1]
    exact hplaced.waiting_status other (hrest other hmem).2
  · intro other hmem
    change Function.update pass.self.objs id _ other = _
    have hne : other ≠ id := by
      rintro rfl
      exact hmem (hplaced.perm.mem_iff.mp (List.mem_append_right _ hwaiting))
    rw [hobj other hne]
    exact hplaced.others other hmem
  · intro other
    change (Function.update pass.self.objs id _ other).requestId = _
    by_cases heq : other = id
    · rw [heq, Function.update_self]
      exact hplaced.requestId id
    · rw [hobj other heq]
      exact hplaced.requestId other
  · have hscheduled := hplaced.scheduled
    dsimp only
    rw [Dict.keys_set_of_not_mem _ _ _ hnew]
    rw [List.perm_iff_count] at hscheduled ⊢
    intro other
    have hcount := hscheduled other
    rcases hstatus with hwaits | hresumes
    · simp only [hwaits, if_true, reduceCtorEq, if_false, List.count_append, List.append_nil]
        at hcount ⊢
      omega
    · simp only [hresumes, if_true, reduceCtorEq, if_false, List.count_append, List.append_nil]
        at hcount ⊢
      omega
  · intro other hmem
    rcases (Dict.mem_keys_set _ _ _ _).mp hmem with rfl | hold
    · exact List.mem_append_right _ (List.mem_singleton_self _)
    · exact List.mem_append_left _ (hplaced.inRunning other hold)
  · intro other
    change other ∈ (pass.reqToNewBlocks.set id _).keys ↔
      other ∈ (pass.numScheduledTokens.set id numNewTokens).keys
    rw [Dict.mem_keys_set, Dict.mem_keys_set, hplaced.blocks]
  · intro other hmem
    change other ∈ (pass.numScheduledTokens.set id numNewTokens).keys
    rw [Dict.mem_keys_set]
    dsimp only at hmem
    split at hmem
    · exact ((Dict.mem_keys_set _ _ _ _).mp hmem).imp_right (hplaced.specTokens other)
    · exact .inr (hplaced.specTokens other hmem)
  · intro other hmem
    change other ∈ (pass.numScheduledTokens.set id numNewTokens).keys
    rw [Dict.mem_keys_set]
    exact (hinputs other hmem).imp_right (hplaced.encoderInputs other)
  · intro other hmem
    rw [hnone] at hmem
    cases hmem
  · change pass.tokenBudget - numNewTokens +
      (pass.numScheduledTokens.set id numNewTokens).total = _
    rw [Dict.total_set_of_not_mem _ _ _ hnew]
    have hbalance := hplaced.balance
    omega

/-- What one action preserves. -/
theorem action (lawful : host.Lawful) (hqueues : start.Queues) {next : Pass σ}
    (hplaced : pass.Placed cfg start) (haction : Action cfg rules host start pass next) :
    next.Placed cfg start := by
  cases haction with
  | reindex index => exact { hplaced with }
  | environment st hkeeps => exact { hplaced with }
  | preempt hnone htake hfcfs =>
      exact hplaced.preempt hqueues (hplaced.vacates lawful hnone htake hfcfs)
  | record hnone hrunning hfresh => exact hplaced.record hqueues hnone hrunning hfresh
  | transfer hchunked hwaiting hnone hfresh =>
      obtain ⟨outputTokens, specTokens, params, heq⟩ := takeTransferredTokens_eq cfg (pass.obj _)
      apply hplaced.modify hqueues (List.mem_append_left _ hwaiting)
      · rw [heq]
        exact hplaced.waiting_status _ (List.mem_append_left _ hwaiting)
      · rw [heq]
  | receive hwaiting => exact hplaced.modify hqueues (List.mem_append_left _ hwaiting) rfl rfl
  | compiled hwaiting => exact hplaced.modify hqueues (List.mem_append_left _ hwaiting) rfl rfl
  | skip hperm => exact hplaced.skip lawful hperm
  | park hnone hperm =>
      refine (hplaced.skip lawful hperm).modify hqueues ?_ rfl rfl
      exact List.mem_append_right _ ((lawful.prependRequest_perm ..).mem_iff.mpr
        List.mem_cons_self)
  | accept hnone _ hperm _ _ _ _ _ _ _ haccept => exact hplaced.accept hqueues hnone hperm haccept
  | putBack => exact hplaced.putBack lawful
  | loras hnone hcollect =>
      obtain ⟨loras, rfl⟩ := collectLoras_eq hcollect
      exact { hplaced with }

/-- What the whole call preserves, at every point of it. -/
theorem reaches (lawful : host.Lawful) (hqueues : start.Queues)
    (hreaches : Reaches cfg rules host start (.start cfg start) pass) :
    pass.Placed cfg start := by
  induction hreaches with
  | refl => exact initial hqueues
  | tail _ haction ih => exact ih.action lawful hqueues haction

end Pass.Placed

end VllmMlu.Sched
