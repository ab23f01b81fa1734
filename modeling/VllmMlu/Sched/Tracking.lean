import VllmMlu.Sched.Placement

/-! What one call of `schedule()` does to each request, by where the request
ends up: it is left alone, scheduled from `self.running`, admitted from the
waiting queue, preempted, or looked at in the waiting queue. -/
namespace VllmMlu.Sched
open VllmMlu.Library

variable {σ : Type}

def Pass.specTokens (pass : Pass σ) (id : ReqId) : List Token :=
  (pass.scheduledSpecDecodeTokens.get? id).getD []

/-- A running request that was scheduled with `count` tokens. -/
def Ran (cfg : Config) (rules : Rules) (before after : Request) (count : Option Int)
    (drafts : List Token) : Prop :=
  after = before.withoutDrafts ∧
  ∃ numNewTokens budget, count = some numNewTokens ∧ numNewTokens ≠ 0 ∧ 0 < budget ∧
    Host.Between (numNewRunningTokens cfg rules before budget) numNewTokens ∧
    drafts = before.draftsWithin numNewTokens

/-- A waiting request that was admitted with `count` tokens. -/
def Entered (cfg : Config) (rules : Rules) (before after : Request) (count : Option Int)
    (drafts : List Token) : Prop :=
  ∃ ready computed numNewTokens, Prepared cfg rules before ready ∧
    ComputedTokens.LookedUp computed ready ∧
    after = ready.admitted computed.numComputedTokens ∧
    count = some numNewTokens ∧ 0 < numNewTokens ∧
    numNewTokens ≤ numNewWaitingTokens cfg rules ready computed.numComputedTokens ∧
    drafts = if rules.chunked && cfg.disaggTransAllBlocks then ready.specTokenIds else []

/-- A running request that was preempted, before or after it had been scheduled. -/
def Evicted (before after : Request) : Prop :=
  after = before.preempted ∨ after = before.withoutDrafts.preempted

structure Pass.Tracked (cfg : Config) (rules : Rules) (start : Scheduler σ) (pass : Pass σ) :
    Prop where
  untouched : ∀ id ∈ pass.self.running, id ∉ pass.numScheduledTokens.keys →
    id ∈ start.running ∧ pass.obj id = start.objs id
  ran : ∀ id ∈ pass.scheduledRunningReqs, id ∈ start.running ∧
    Ran cfg rules (start.objs id) (pass.obj id) (pass.numScheduledTokens.get? id)
      (pass.specTokens id)
  entered : ∀ id, id ∈ pass.scheduledNewReqs ∨ id ∈ pass.scheduledResumedReqs →
    id ∈ start.waiting ∧
    Entered cfg rules (start.objs id) (pass.obj id) (pass.numScheduledTokens.get? id)
      (pass.specTokens id)
  evicted : ∀ id ∈ pass.preemptedReqs, id ∈ start.running ∧
    Evicted (start.objs id) (pass.obj id)
  waits : ∀ id ∈ pass.self.waiting ++ pass.skippedWaitingRequests, id ∉ pass.preemptedReqs →
    id ∈ start.waiting ∧ Prepared cfg rules (start.objs id) (pass.obj id)

namespace Prepared

variable {cfg : Config} {rules : Rules} {before request : Request}

theorem refl (cfg : Config) (rules : Rules) (request : Request) :
    Prepared cfg rules request request :=
  ⟨request, .inl rfl, rfl, .inl rfl⟩

theorem transfer (hchunked : rules.chunked = true) (request : Request) :
    Prepared cfg rules request (Pass.takeTransferredTokens cfg request) := by
  obtain ⟨outputTokens, specTokens, params, heq⟩ := Pass.takeTransferredTokens_eq cfg request
  refine ⟨_, .inr ⟨hchunked, rfl⟩, rfl, .inl ?_⟩
  rw [heq]

theorem received (hprepared : Prepared cfg rules before request) {computed : Int}
    (hcomputed : 0 ≤ computed) : Prepared cfg rules before (request.received computed) := by
  obtain ⟨base, hbase, heq, -⟩ := hprepared
  refine ⟨base, hbase, ?_, .inr hcomputed⟩
  rw [heq]
  rfl

theorem withStatus (hprepared : Prepared cfg rules before request) (status : RequestStatus) :
    Prepared cfg rules before (request.withStatus status) := by
  obtain ⟨base, hbase, heq, hcomputed⟩ := hprepared
  refine ⟨base, hbase, ?_, hcomputed⟩
  rw [heq]
  rfl

end Prepared

namespace Pass.Tracked

variable {cfg : Config} {rules : Rules} {host : Host σ} {start : Scheduler σ} {pass : Pass σ}

theorem initial : (Pass.start cfg start).Tracked cfg rules start where
  untouched := fun _ hmem _ => ⟨hmem, rfl⟩
  ran := fun _ hmem => nomatch hmem
  entered := fun _ hmem => nomatch hmem
  evicted := fun _ hmem => nomatch hmem
  waits := by
    intro id hmem _
    exact ⟨by simpa [Pass.start] using hmem, Prepared.refl cfg rules _⟩

theorem preempt (hplaced : pass.Placed cfg start) (hqueues : start.Queues)
    (htracked : pass.Tracked cfg rules start) {next : Pass σ} {victim : ReqId}
    (hnone : pass.scheduledNewReqs = [] ∧ pass.scheduledResumedReqs = [])
    (hvacates : Pass.Vacates host cfg victim pass next) : next.Tracked cfg rules start := by
  have hvictim : victim ∈ pass.self.running :=
    hvacates.running.mem_iff.mpr List.mem_cons_self
  have hrunning := hplaced.scheduled_of_none hnone
  have hobj : ∀ id, id ≠ victim → next.obj id = pass.obj id := by
    intro id hne
    rw [Pass.obj, hvacates.objs, Function.update_of_ne hne]
  have hspec : ∀ id, id ≠ victim → next.specTokens id = pass.specTokens id := by
    intro id hne
    rw [Pass.specTokens, hvacates.specTokens, if_neg hne]
    rfl
  refine { untouched := ?_, ran := ?_, entered := ?_, evicted := ?_, waits := ?_ }
  · intro id hmem hfresh
    have hne : id ≠ victim := by
      rintro rfl
      exact (List.nodup_cons.mp (hvacates.running.nodup_iff.mp
        (hplaced.running_nodup hqueues))).1 hmem
    rw [hobj id hne]
    refine htracked.untouched id (hvacates.running.mem_iff.mpr (List.mem_cons_of_mem _ hmem)) ?_
    exact fun hold => hfresh ((hvacates.mem_scheduled id).mpr ⟨hold, hne⟩)
  · intro id hmem
    obtain ⟨hold, hne⟩ := (hvacates.mem_scheduled id).mp (hvacates.scheduled.mem_iff.mpr hmem)
    rw [hobj id hne, hspec id hne, hvacates.numScheduledTokens, if_neg hne]
    exact htracked.ran id (hrunning.mem_iff.mp hold)
  · intro id hmem
    rw [hvacates.noneAdmitted.1, hvacates.noneAdmitted.2] at hmem
    exact absurd hmem (by simp)
  · intro id hmem
    by_cases heq : id = victim
    · rw [heq, Pass.obj, hvacates.objs, Function.update_self]
      by_cases hscheduled : victim ∈ pass.numScheduledTokens.keys
      · obtain ⟨hstart, hran, -⟩ := htracked.ran victim (hrunning.mem_iff.mp hscheduled)
        exact ⟨hstart, .inr (by rw [hran])⟩
      · obtain ⟨hstart, hsame⟩ := htracked.untouched victim hvictim hscheduled
        exact ⟨hstart, .inl (by rw [hsame])⟩
    · rw [hobj id heq]
      rw [hvacates.preempted, List.mem_append, List.mem_singleton] at hmem
      exact htracked.evicted id (hmem.resolve_right heq)
  · intro id hmem hfresh
    rw [hvacates.preempted, List.mem_append, List.mem_singleton, not_or] at hfresh
    rw [hvacates.skipped, List.mem_append, hvacates.waiting.mem_iff, List.mem_cons, or_assoc]
      at hmem
    rw [hobj id hfresh.2]
    exact htracked.waits id (List.mem_append.mpr (hmem.resolve_left hfresh.2)) hfresh.1

theorem record (hplaced : pass.Placed cfg start) (hqueues : start.Queues)
    (htracked : pass.Tracked cfg rules start) {id : ReqId} {numNewTokens budget : Int}
    {newBlocks : KVCacheBlocks} {plan : EncoderPlan}
    (hnone : pass.scheduledNewReqs = [] ∧ pass.scheduledResumedReqs = [])
    (hrunning : id ∈ pass.self.running) (hfresh : id ∉ pass.scheduledRunningReqs)
    (hzero : numNewTokens ≠ 0) (hpositive : 0 < budget)
    (hbetween : Host.Between (numNewRunningTokens cfg rules (pass.obj id) budget) numNewTokens) :
    (pass.record cfg host id numNewTokens newBlocks plan).Tracked cfg rules start := by
  obtain ⟨specTokens, st, inputs, encoderBudget, heq, hother, hself, -, -⟩ :=
    record_eq cfg host pass id numNewTokens newBlocks plan
  rw [heq]
  have hnew : id ∉ pass.numScheduledTokens.keys := fun hmem =>
    hfresh ((hplaced.scheduled_of_none hnone).mem_iff.mp hmem)
  obtain ⟨hstart, hsame⟩ := htracked.untouched id hrunning hnew
  have hobj : ∀ other, other ≠ id →
      Function.update pass.self.objs id (pass.obj id).withoutDrafts other = pass.obj other :=
    fun other hne => Function.update_of_ne hne ..
  have hwaiting : ∀ other ∈ pass.self.waiting ++ pass.skippedWaitingRequests, other ≠ id := by
    rintro other hmem rfl
    exact hplaced.not_mem_running hqueues hmem hrunning
  refine { untouched := ?_, ran := ?_, entered := ?_, evicted := ?_, waits := ?_ }
  · intro other hmem hfresh
    change other ∈ start.running ∧
      Function.update pass.self.objs id (pass.obj id).withoutDrafts other = start.objs other
    change other ∉ (pass.numScheduledTokens.set id numNewTokens).keys at hfresh
    rw [Dict.mem_keys_set, not_or] at hfresh
    rw [hobj other hfresh.1]
    exact htracked.untouched other hmem hfresh.2
  · intro other hmem
    change other ∈ start.running ∧ Ran cfg rules (start.objs other)
      (Function.update pass.self.objs id (pass.obj id).withoutDrafts other)
      ((pass.numScheduledTokens.set id numNewTokens).get? other)
      ((specTokens.get? other).getD [])
    by_cases heq : other = id
    · rw [heq, Function.update_self, Dict.get?_set_self,
        hself (fun hmem => hnew (hplaced.specTokens id hmem)), hsame]
      refine ⟨hstart, rfl, numNewTokens, budget, rfl, hzero, hpositive, ?_, rfl⟩
      rwa [hsame] at hbetween
    · rw [hobj other heq, Dict.get?_set_of_ne _ _ heq, hother other heq]
      rcases List.mem_append.mp hmem with hold | hsingle
      · exact htracked.ran other hold
      · exact absurd (List.mem_singleton.mp hsingle) heq
  · intro other hmem
    exact absurd hmem (by simp [hnone.1, hnone.2])
  · intro other hmem
    change other ∈ start.running ∧ Evicted (start.objs other)
      (Function.update pass.self.objs id (pass.obj id).withoutDrafts other)
    rw [hobj other (hwaiting other (hplaced.preempted other hmem))]
    exact htracked.evicted other hmem
  · intro other hmem hfresh
    change other ∈ start.waiting ∧ Prepared cfg rules (start.objs other)
      (Function.update pass.self.objs id (pass.obj id).withoutDrafts other)
    rw [hobj other (hwaiting other hmem)]
    exact htracked.waits other hmem hfresh

/-- A waiting request may change as long as it stays one that is only prepared. -/
theorem modify (hplaced : pass.Placed cfg start) (hqueues : start.Queues)
    (htracked : pass.Tracked cfg rules start) {id : ReqId} {change : Request → Request}
    (hwaiting : id ∈ pass.self.waiting ++ pass.skippedWaitingRequests)
    (hnone : pass.preemptedReqs = [])
    (hprepared : Prepared cfg rules (start.objs id) (change (pass.obj id))) :
    (pass.modify id change).Tracked cfg rules start := by
  have hself : (pass.modify id change).obj id = change (pass.obj id) :=
    Pass.modify_obj_self ..
  have hobj : ∀ other, other ≠ id → (pass.modify id change).obj other = pass.obj other :=
    fun other hne => Pass.modify_obj_of_ne _ _ hne
  have hrunning : ∀ other ∈ pass.self.running, other ≠ id := by
    rintro other hmem rfl
    exact hplaced.not_mem_running hqueues hwaiting hmem
  have hscheduled : ∀ other ∈ pass.numScheduledTokens.keys, other ≠ id := fun other hmem =>
    hrunning other (hplaced.inRunning other hmem)
  refine { untouched := ?_, ran := ?_, entered := ?_, evicted := ?_, waits := ?_ }
  · intro other hmem hfresh
    rw [hobj other (hrunning other hmem)]
    exact htracked.untouched other hmem hfresh
  · intro other hmem
    rw [hobj other (hscheduled other (hplaced.mem_scheduled.mpr (.inl hmem)))]
    exact htracked.ran other hmem
  · intro other hmem
    rw [hobj other (hscheduled other (hplaced.mem_scheduled.mpr (.inr hmem)))]
    exact htracked.entered other hmem
  · intro other hmem
    change other ∈ pass.preemptedReqs at hmem
    rw [hnone] at hmem
    cases hmem
  · intro other hmem hfresh
    by_cases heq : other = id
    · rw [heq, hself]
      exact ⟨(htracked.waits id hwaiting (by simp [hnone])).1, hprepared⟩
    · rw [hobj other heq]
      exact htracked.waits other hmem hfresh

theorem skip (lawful : host.Lawful) (htracked : pass.Tracked cfg rules start) {id : ReqId}
    {rest : List ReqId} (hperm : pass.self.waiting.Perm (id :: rest)) :
    (pass.skipWaiting cfg host id rest).Tracked cfg rules start :=
  { htracked with
    waits := fun other hmem hfresh =>
      htracked.waits other ((Placed.skip_queue cfg lawful hperm).mem_iff.mp hmem) hfresh }

theorem putBack (lawful : host.Lawful) (htracked : pass.Tracked cfg rules start) :
    (pass.putBackSkipped cfg host).Tracked cfg rules start := by
  have hqueue := Placed.putBack_queue cfg lawful pass
  obtain ⟨waiting, skipped, heq⟩ := Placed.putBackSkipped_eq cfg host pass
  rw [heq] at hqueue ⊢
  exact { htracked with
    waits := fun other hmem hfresh => htracked.waits other (hqueue.mem_iff.mp hmem) hfresh }

theorem accept (hplaced : pass.Placed cfg start) (hqueues : start.Queues)
    (htracked : pass.Tracked cfg rules start) {admitted : Pass σ} {id : ReqId}
    {rest : List ReqId} {computed : ComputedTokens} {numNewTokens : Int} {plan : EncoderPlan}
    (hnone : pass.preemptedReqs = []) (hperm : pass.self.waiting.Perm (id :: rest))
    (hlookup : computed.LookedUp (pass.obj id)) (hpositive : 0 < numNewTokens)
    (hcount : numNewTokens ≤
      numNewWaitingTokens cfg rules (pass.obj id) computed.numComputedTokens)
    (haccept : pass.accept cfg host (rules.chunked && cfg.disaggTransAllBlocks) id rest
      computed.numComputedTokens numNewTokens plan = .ok admitted) :
    admitted.Tracked cfg rules start := by
  obtain ⟨hstatus, st, inputs, budget, rfl, -, -⟩ := accept_eq haccept
  have hwaiting : id ∈ pass.self.waiting ++ pass.skippedWaitingRequests :=
    List.mem_append_left _ (hperm.mem_iff.mpr List.mem_cons_self)
  have hnew := hplaced.not_scheduled hqueues hwaiting
  obtain ⟨hstart, hprepared⟩ := htracked.waits id hwaiting (by simp [hnone])
  have hobj : ∀ other, other ≠ id → Function.update pass.self.objs id
      ((pass.obj id).admitted computed.numComputedTokens) other = pass.obj other :=
    fun other hne => Function.update_of_ne hne ..
  have hscheduled : ∀ other ∈ pass.numScheduledTokens.keys, other ≠ id := fun other hmem heq =>
    hnew (heq ▸ hmem)
  have hspec : ∀ other, other ≠ id → ((if (rules.chunked && cfg.disaggTransAllBlocks) = true ∧
      (pass.obj id).specTokenIds ≠ [] then
        pass.scheduledSpecDecodeTokens.set id (pass.obj id).specTokenIds
      else pass.scheduledSpecDecodeTokens).get? other).getD [] = pass.specTokens other := by
    intro other hne
    split
    · rw [Dict.get?_set_of_ne _ _ hne]
      rfl
    · rfl
  have hfresh : pass.scheduledSpecDecodeTokens.get? id = none :=
    (Dict.get?_eq_none_iff _ _).mpr fun hmem => hnew (hplaced.specTokens id hmem)
  have hdrafts : ((if (rules.chunked && cfg.disaggTransAllBlocks) = true ∧
      (pass.obj id).specTokenIds ≠ [] then
        pass.scheduledSpecDecodeTokens.set id (pass.obj id).specTokenIds
      else pass.scheduledSpecDecodeTokens).get? id).getD [] =
        if (rules.chunked && cfg.disaggTransAllBlocks) = true then (pass.obj id).specTokenIds
        else [] := by
    by_cases hwith : (rules.chunked && cfg.disaggTransAllBlocks) = true
    · rw [if_pos hwith]
      by_cases hnil : (pass.obj id).specTokenIds = []
      · rw [if_neg (fun hand => hand.2 hnil), hfresh, hnil]
        rfl
      · rw [if_pos ⟨hwith, hnil⟩, Dict.get?_set_self]
        rfl
    · rw [if_neg hwith, if_neg (fun hand => hwith hand.1), hfresh]
      rfl
  refine { untouched := ?_, ran := ?_, entered := ?_, evicted := ?_, waits := ?_ }
  · intro other hmem hnotScheduled
    change other ∈ start.running ∧ Function.update pass.self.objs id _ other = start.objs other
    change other ∉ (pass.numScheduledTokens.set id numNewTokens).keys at hnotScheduled
    rw [Dict.mem_keys_set, not_or] at hnotScheduled
    rw [hobj other hnotScheduled.1]
    rcases List.mem_append.mp hmem with hold | hsingle
    · exact htracked.untouched other hold hnotScheduled.2
    · exact absurd (List.mem_singleton.mp hsingle) hnotScheduled.1
  · intro other hmem
    have hne := hscheduled other (hplaced.mem_scheduled.mpr (.inl hmem))
    change other ∈ start.running ∧ Ran cfg rules (start.objs other)
      (Function.update pass.self.objs id _ other)
      ((pass.numScheduledTokens.set id numNewTokens).get? other) (Option.getD _ [])
    rw [hobj other hne, Dict.get?_set_of_ne _ _ hne, hspec other hne]
    exact htracked.ran other hmem
  · intro other hmem
    change other ∈ start.waiting ∧ Entered cfg rules (start.objs other)
      (Function.update pass.self.objs id _ other)
      ((pass.numScheduledTokens.set id numNewTokens).get? other) (Option.getD _ [])
    by_cases heq : other = id
    · rw [heq, Function.update_self, Dict.get?_set_self]
      exact ⟨hstart, pass.obj id, computed, numNewTokens, hprepared, hlookup, rfl, rfl,
        hpositive, hcount, hdrafts⟩
    · rw [hobj other heq, Dict.get?_set_of_ne _ _ heq, hspec other heq]
      refine htracked.entered other ?_
      refine hmem.imp (fun hnewReq => ?_) (fun hresumed => ?_)
      · rcases List.mem_append.mp hnewReq with hold | hsingle
        · exact hold
        · split at hsingle
          · exact absurd (List.mem_singleton.mp hsingle) heq
          · cases hsingle
      · rcases List.mem_append.mp hresumed with hold | hsingle
        · exact hold
        · split at hsingle
          · exact absurd (List.mem_singleton.mp hsingle) heq
          · cases hsingle
  · intro other hmem
    change other ∈ pass.preemptedReqs at hmem
    rw [hnone] at hmem
    cases hmem
  · intro other hmem hnotPreempted
    change other ∈ start.waiting ∧ Prepared cfg rules (start.objs other)
      (Function.update pass.self.objs id _ other)
    obtain ⟨hne, hold⟩ := hplaced.accept_rest hqueues hperm other hmem
    rw [hobj other hne]
    exact htracked.waits other hold hnotPreempted

/-- What one action preserves. -/
theorem action (lawful : host.Lawful) (hqueues : start.Queues) {next : Pass σ}
    (hplaced : pass.Placed cfg start) (htracked : pass.Tracked cfg rules start)
    (haction : Action cfg rules host start pass next) : next.Tracked cfg rules start := by
  cases haction with
  | reindex index => exact { htracked with }
  | environment st hkeeps => exact { htracked with }
  | preempt hnone htake hfcfs =>
      exact htracked.preempt hplaced hqueues hnone (hplaced.vacates lawful hnone htake hfcfs)
  | record hnone hrunning hfresh hzero hpositive hbetween =>
      exact htracked.record hplaced hqueues hnone hrunning hfresh hzero hpositive hbetween
  | transfer hchunked hwaiting hnone hfresh =>
      apply htracked.modify hplaced hqueues (List.mem_append_left _ hwaiting) hnone
      rw [hfresh]
      exact .transfer hchunked _
  | receive hwaiting hnone hstatus hcomputed =>
      have hmem := List.mem_append_left pass.skippedWaitingRequests hwaiting
      exact htracked.modify hplaced hqueues hmem hnone
        ((htracked.waits _ hmem (by simp [hnone])).2.received hcomputed)
  | compiled hwaiting hnone hstatus =>
      have hmem := List.mem_append_left pass.skippedWaitingRequests hwaiting
      exact htracked.modify hplaced hqueues hmem hnone
        ((htracked.waits _ hmem (by simp [hnone])).2.withStatus _)
  | skip hperm => exact htracked.skip lawful hperm
  | park hnone hperm =>
      have hmem := List.mem_append_left pass.skippedWaitingRequests
        (hperm.mem_iff.mpr List.mem_cons_self)
      refine (htracked.skip lawful hperm).modify (hplaced.skip lawful hperm) hqueues ?_ hnone
        ((htracked.waits _ hmem (by simp [hnone])).2.withStatus _)
      exact List.mem_append_right _ ((lawful.prependRequest_perm ..).mem_iff.mpr
        List.mem_cons_self)
  | accept hnone _ hperm _ _ hlookup hpositive _ hcount _ haccept =>
      exact htracked.accept hplaced hqueues hnone hperm hlookup hpositive hcount haccept
  | putBack => exact htracked.putBack lawful
  | loras hnone hcollect =>
      obtain ⟨loras, rfl⟩ := collectLoras_eq hcollect
      exact { htracked with }

/-- What the whole call does, at every point of it. -/
theorem reaches (lawful : host.Lawful) (hqueues : start.Queues)
    (hreaches : Reaches cfg rules host start (.start cfg start) pass) :
    pass.Tracked cfg rules start := by
  induction hreaches with
  | refl => exact initial
  | tail hreaches haction ih =>
      exact ih.action lawful hqueues (Placed.reaches lawful hqueues hreaches) haction

end Pass.Tracked

end VllmMlu.Sched
