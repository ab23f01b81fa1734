import VllmMlu.Sched.WaitingLoop

/-! What a call of `schedule()` that returns has done: its loops, its output, and
the counters that `_update_after_schedule` advances. -/
namespace VllmMlu.Sched
open VllmMlu.Library

variable {σ : Type} {cfg : Config} {host : Host σ}

theorem Pass.collectLoras_within {pass : Pass σ} :
    Within (fun collected => ∃ loras, collected = { pass with scheduledLoras := loras })
      (pass.collectLoras cfg) := by
  cases hcollect : pass.collectLoras cfg with
  | ok collected => exact collectLoras_eq hcollect
  | error err =>
      unfold collectLoras at hcollect
      rintro rfl
      split at hcollect
      · cases hcollect
      · dsimp only at hcollect
        split at hcollect <;> cases hcollect

@[simp] theorem Pass.putBackSkipped_skipped (pass : Pass σ) :
    (pass.putBackSkipped cfg host).skippedWaitingRequests = [] := by
  unfold putBackSkipped
  split
  · assumption
  · rfl

section Loops

variable {self : Scheduler σ} (lawful : host.Lawful) (hqueues : self.Queues)
include lawful hqueues

theorem SchedulerWithProfiler.loops_within :
    Within (fun pass => Reaches cfg (chunkedRules cfg) host self (.start cfg self) pass ∧
        pass.skippedWaitingRequests = [])
      (SchedulerWithProfiler.loops cfg host self) := by
  unfold loops
  refine (runningLoop_within lawful hqueues self.running.length .refl
    ⟨⟨rfl, rfl⟩, fun _ hmem => nomatch hmem⟩ (Nat.sub_le _ _)).bind ?_
  rintro pass ⟨hreaches, hruns, hnone⟩
  cases hcollect : pass.collectLoras cfg with
  | error err => exact Pass.collectLoras_within.of_error hcollect
  | ok collected =>
      have hcollected := hreaches.tail (.loras hnone hcollect)
      obtain ⟨loras, rfl⟩ := Pass.collectLoras_eq hcollect
      have htracked := Pass.Tracked.reaches lawful hqueues hreaches
      have haccept : Within (Reaches cfg (chunkedRules cfg) host self (.start cfg self))
          (admitWaiting cfg host { pass with scheduledLoras := loras }) := by
        unfold admitWaiting
        split
        · rename_i hpreempted
          refine (waitingLoop_within lawful hqueues true _ ⟨hcollected, hpreempted,
            fun hchunked => nomatch hchunked⟩ ?_ (le_refl _)).imp fun next hnext => hnext.reaches
          intro _ id hmem
          have hwaiting := (htracked.waits id (List.mem_append_left _ hmem) (by
            rw [show pass.preemptedReqs = [] from hpreempted]
            exact List.not_mem_nil)).1
          refine hruns.objs id fun hrunning => ?_
          exact (List.nodup_append'.mp hqueues.nodup).2.2 hrunning hwaiting
        · exact hcollected
      exact haccept.bind fun next hnext =>
        ⟨hnext.tail .putBack, Pass.putBackSkipped_skipped next⟩

theorem MLUUnchunkScheduler.loops_within :
    Within (fun pass => Reaches cfg (unchunkRules cfg) host self (.start cfg self) pass ∧
        pass.skippedWaitingRequests = [])
      (MLUUnchunkScheduler.loops cfg host self) := by
  unfold loops
  cases hcollect : (Pass.start cfg self).collectLoras cfg with
  | error err => exact Pass.collectLoras_within.of_error hcollect
  | ok collected =>
      have hcollected : Reaches cfg (unchunkRules cfg) host self (.start cfg self) collected :=
        .single (.loras ⟨rfl, rfl⟩ hcollect)
      obtain ⟨loras, rfl⟩ := Pass.collectLoras_eq hcollect
      refine (waitingLoop_within lawful hqueues _ self.waiting.length
        ⟨hcollected.tail (.reindex self.running.length), rfl, fun _ => rfl⟩
        (fun hchunked => nomatch hchunked) (le_refl _)).bind ?_
      intro pass hqueued
      have hreaches := hqueued.reaches.tail .putBack
      obtain ⟨waiting, skipped, heq⟩ := Pass.Placed.putBackSkipped_eq cfg host pass
      dsimp only
      split
      · rename_i hnone
        refine (runningLoop_within lawful hqueues _ (hreaches.tail (.reindex 0)) ⟨hnone, ?_⟩
          (Nat.sub_le _ _)).imp ?_
        · intro id hmem
          rw [heq] at hmem
          change id ∈ pass.scheduledRunningReqs at hmem
          rw [hqueued.phase rfl] at hmem
          cases hmem
        · rintro next ⟨hnext, hruns, -⟩
          exact ⟨hnext, hruns.skipped.trans (Pass.putBackSkipped_skipped pass)⟩
      · exact ⟨hreaches, Pass.putBackSkipped_skipped pass⟩

/-- Both loops of every scheduler class are made of actions, and neither runs out
of its fuel. -/
theorem SchedulerClass.loops_within (cls : SchedulerClass) :
    Within (fun pass => Reaches cfg (cls.rules cfg) host self (.start cfg self) pass ∧
        pass.skippedWaitingRequests = [])
      (cls.loops cfg host self) := by
  cases cls with
  | profiler => exact SchedulerWithProfiler.loops_within lawful hqueues
  | async => exact SchedulerWithProfiler.loops_within lawful hqueues
  | unchunk => exact MLUUnchunkScheduler.loops_within lawful hqueues
  | unchunkAsync => exact MLUUnchunkScheduler.loops_within lawful hqueues

end Loops

/-! `_update_after_schedule`. -/

/-- What `_update_after_schedule` makes of a request, by what it was scheduled with. -/
def SchedulerClass.scheduled (cls : SchedulerClass) (cfg : Config) (request : Request)
    (numDrafts : Nat) : Option Int → Request
  | none => request
  | some numScheduledTokens =>
      if cls.isAsync then
        (request.advance numScheduledTokens).reservePlaceholders cfg numDrafts
      else request.advance numScheduledTokens

/-- The fields of the scheduler that `_update_after_schedule` leaves alone. -/
structure Scheduler.SameQueues (before next : Scheduler σ) : Prop where
  running : next.running = before.running
  waiting : next.waiting = before.waiting
  requests : next.requests = before.requests
  draftTokenIds : next.draftTokenIds = before.draftTokenIds

theorem Scheduler.advance_objs (lawful : host.Lawful) (entries : List (ReqId × Int))
    (self : Scheduler σ) (hnodup : (entries.map Prod.fst).Nodup) (id : ReqId) :
    (entries.foldl (advanceComputed host) self).objs id =
      match Dict.find id entries with
      | none => self.objs id
      | some numScheduledTokens => (self.objs id).advance numScheduledTokens := by
  induction entries generalizing self with
  | nil => rfl
  | cons entry rest ih =>
      rw [List.map_cons, List.nodup_cons] at hnodup
      have hhead : ∀ other, (self.advanceComputed host entry).objs other =
          if other = entry.1 then (self.objs other).advance entry.2 else self.objs other := by
        intro other
        unfold advanceComputed
        dsimp only
        rw [lawful.updateAfterSchedule_request, Function.update_apply]
        split
        · rename_i heq
          rw [heq]
        · rfl
      rw [List.foldl_cons, ih _ hnodup.2, Dict.find]
      by_cases heq : entry.1 = id
      · have hfresh : Dict.find id rest = none := by
          cases hfind : Dict.find id rest with
          | none => rfl
          | some value =>
              have hmem := (Dict.find_eq_some_iff id value rest hnodup.2).mp hfind
              exact absurd (heq ▸ List.mem_map_of_mem (f := Prod.fst) hmem) hnodup.1
        rw [hfresh, if_pos heq]
        simp only
        rw [hhead, if_pos heq.symm]
      · rw [if_neg heq, hhead, if_neg (Ne.symm heq)]

theorem Scheduler.advance_sameQueues (host : Host σ) (entries : List (ReqId × Int)) (self : Scheduler σ) :
    self.SameQueues (entries.foldl (advanceComputed host) self) := by
  induction entries generalizing self with
  | nil => exact ⟨rfl, rfl, rfl, rfl⟩
  | cons entry rest ih =>
      have hrest := ih (self.advanceComputed host entry)
      exact ⟨hrest.running, hrest.waiting, hrest.requests, hrest.draftTokenIds⟩

theorem Scheduler.advance_keeps {blockSize : Nat} (owns : host.OwnsBlocks blockSize)
    (entries : List (ReqId × Int)) (self : Scheduler σ) :
    host.KeepsAll self.host (entries.foldl (advanceComputed host) self).host := by
  induction entries generalizing self with
  | nil => exact fun _ => rfl
  | cons entry rest ih =>
      intro other
      exact (ih (self.advanceComputed host entry) other).trans
        (owns.updateAfterSchedule_keeps _ _ _ other)

theorem Scheduler.reserve_host (cfg : Config) (output : SchedulerOutput) (ids : List ReqId)
    (self : Scheduler σ) :
    (ids.foldl (fun self id => self.modify id
      (Request.reservePlaceholders cfg (output.specTokens id).length)) self).host =
      self.host := by
  induction ids generalizing self with
  | nil => rfl
  | cons first rest ih => exact ih _

theorem Scheduler.reserve_objs (cfg : Config) (output : SchedulerOutput) (ids : List ReqId)
    (self : Scheduler σ) (hnodup : ids.Nodup) (id : ReqId) :
    (ids.foldl (fun self id => self.modify id
      (Request.reservePlaceholders cfg (output.specTokens id).length)) self).objs id =
      if id ∈ ids then
        (self.objs id).reservePlaceholders cfg (output.specTokens id).length
      else self.objs id := by
  induction ids generalizing self with
  | nil => rfl
  | cons first rest ih =>
      rw [List.nodup_cons] at hnodup
      rw [List.foldl_cons, ih _ hnodup.2]
      by_cases heq : id = first
      · subst heq
        rw [if_neg hnodup.1, if_pos List.mem_cons_self, modify_objs_self]
      · rw [modify_objs_of_ne _ _ heq]
        simp [heq]

theorem Scheduler.reserve_sameQueues (cfg : Config) (output : SchedulerOutput)
    (ids : List ReqId) (self : Scheduler σ) :
    self.SameQueues (ids.foldl (fun self id => self.modify id
      (Request.reservePlaceholders cfg (output.specTokens id).length)) self) := by
  induction ids generalizing self with
  | nil => exact ⟨rfl, rfl, rfl, rfl⟩
  | cons first rest ih =>
      have hrest := ih (self.modify first
        (Request.reservePlaceholders cfg (output.specTokens first).length))
      exact ⟨hrest.running, hrest.waiting, hrest.requests, hrest.draftTokenIds⟩

theorem SchedulerClass.updateAfterSchedule_objs (cfg : Config) (cls : SchedulerClass)
    (lawful : host.Lawful) (self : Scheduler σ) (output : SchedulerOutput) (id : ReqId) :
    (cls.updateAfterSchedule cfg host self output).1.objs id =
      cls.scheduled cfg (self.objs id) (output.specTokens id).length
        (output.numScheduledTokens.get? id) := by
  have hadvance := Scheduler.advance_objs lawful output.numScheduledTokens.entries self
    output.numScheduledTokens.nodup id
  have hreserve := Scheduler.reserve_objs cfg output output.numScheduledTokens.keys
    (self.updateAfterSchedule host output) output.numScheduledTokens.keys_nodup id
  have hbase : (self.updateAfterSchedule host output).objs id =
      match output.numScheduledTokens.get? id with
      | none => self.objs id
      | some numScheduledTokens => (self.objs id).advance numScheduledTokens := hadvance
  rw [hbase] at hreserve
  cases hget : output.numScheduledTokens.get? id with
  | none =>
      have hfresh := (Dict.get?_eq_none_iff _ _).mp hget
      rw [if_neg hfresh, hget] at hreserve
      rw [hget] at hbase
      cases cls with
      | profiler => exact hbase
      | async => exact hreserve
      | unchunk => exact hbase
      | unchunkAsync => exact hreserve
  | some numScheduledTokens =>
      rw [if_pos (Dict.mem_keys_of_get? hget), hget] at hreserve
      rw [hget] at hbase
      cases cls with
      | profiler => exact hbase
      | async => exact hreserve
      | unchunk => exact hbase
      | unchunkAsync => exact hreserve

theorem SchedulerClass.updateAfterSchedule_sameQueues (cfg : Config) (host : Host σ)
    (cls : SchedulerClass) (self : Scheduler σ) (output : SchedulerOutput) :
    self.SameQueues (cls.updateAfterSchedule cfg host self output).1 := by
  have hadvance : self.SameQueues (self.updateAfterSchedule host output) := by
    have hfold := Scheduler.advance_sameQueues host
      output.numScheduledTokens.entries self
    exact ⟨hfold.running, hfold.waiting, hfold.requests, hfold.draftTokenIds⟩
  have hreserve : self.SameQueues
      ((self.updateAfterSchedule host output).reserveAll cfg output) := by
    have hfold := Scheduler.reserve_sameQueues cfg output output.numScheduledTokens.keys
      (self.updateAfterSchedule host output)
    exact ⟨hfold.running.trans hadvance.running, hfold.waiting.trans hadvance.waiting,
      hfold.requests.trans hadvance.requests, hfold.draftTokenIds.trans hadvance.draftTokenIds⟩
  cases cls with
  | profiler => exact hadvance
  | async => exact hreserve
  | unchunk => exact hadvance
  | unchunkAsync => exact hreserve

theorem SchedulerClass.updateAfterSchedule_keeps (cfg : Config) {blockSize : Nat}
    (owns : host.OwnsBlocks blockSize) (cls : SchedulerClass) (self : Scheduler σ)
    (output : SchedulerOutput) :
    host.KeepsAll self.host (cls.updateAfterSchedule cfg host self output).1.host := by
  have hadvance : host.KeepsAll self.host (self.updateAfterSchedule host output).host :=
    Scheduler.advance_keeps owns output.numScheduledTokens.entries self
  have hreserve : host.KeepsAll self.host
      ((self.updateAfterSchedule host output).reserveAll cfg output).host := by
    rw [Scheduler.reserveAll, Scheduler.reserve_host]
    exact hadvance
  cases cls with
  | profiler => exact hadvance
  | async => exact hreserve
  | unchunk => exact hadvance
  | unchunkAsync => exact hreserve

/-- What `pending_structured_output_tokens` is set to. -/
def SchedulerClass.pending (cls : SchedulerClass) (objs : RequestObjects)
    (output : SchedulerOutput) : Bool :=
  match cls with
  | .async => output.numScheduledTokens.keys.any fun id =>
      (objs id).useStructuredOutput && 0 < (objs id).numOutputPlaceholders
  | _ => output.pendingStructuredOutputTokens

theorem SchedulerClass.updateAfterSchedule_pending (cfg : Config) (cls : SchedulerClass)
    (lawful : host.Lawful) (self : Scheduler σ) (output : SchedulerOutput) :
    (cls.updateAfterSchedule cfg host self output).2 =
      { output with pendingStructuredOutputTokens := cls.pending self.objs output } := by
  cases cls with
  | profiler => rfl
  | unchunk => rfl
  | unchunkAsync => rfl
  | async =>
      change { output with
        pendingStructuredOutputTokens := output.numScheduledTokens.keys.any _ } = _
      congr 1
      refine List.any_congr rfl fun id => ?_
      have hadvance := Scheduler.advance_objs lawful output.numScheduledTokens.entries self
        output.numScheduledTokens.nodup id
      change (self.updateAfterSchedule host output).objs id = _ at hadvance
      rw [hadvance]
      split <;> rfl

/-- A call of `schedule()` that returned, with its local variables at the end. -/
structure Scheduled (cls : SchedulerClass) (cfg : Config) (host : Host σ) (start : Scheduler σ)
    (pass : Pass σ) (next : Scheduler σ) (output : SchedulerOutput) : Prop where
  reaches : Reaches cfg (cls.rules cfg) host start (.start cfg start) pass
  putBack : pass.skippedWaitingRequests = []
  constraints : pass.meetsConstraints cfg
  objs : ∀ id, next.objs id =
    cls.scheduled cfg (pass.obj id) (pass.specTokens id).length (pass.numScheduledTokens.get? id)
  sameQueues : pass.self.SameQueues next
  output : output = { pass.output host with
    pendingStructuredOutputTokens := cls.pending pass.self.objs (pass.output host) }
  keeps : host.OwnsBlocks cfg.blockSize → host.KeepsAll pass.host next.host

namespace Scheduled

variable {cls : SchedulerClass} {start next : Scheduler σ} {pass : Pass σ}
  {output : SchedulerOutput}

theorem numScheduledTokens (hscheduled : Scheduled cls cfg host start pass next output) :
    output.numScheduledTokens = pass.numScheduledTokens := by
  rw [hscheduled.output]
  rfl

theorem specTokens (hscheduled : Scheduled cls cfg host start pass next output) (id : ReqId) :
    output.specTokens id = pass.specTokens id := by
  rw [hscheduled.output]
  rfl

end Scheduled

theorem SchedulerClass.schedule_eq (cls : SchedulerClass) (self : Scheduler σ) :
    cls.schedule cfg host self = (do
      let pass ← cls.loops cfg host self
      pass.finish cfg host (cls.updateAfterSchedule cfg host)) := by
  cases cls <;> rfl

theorem SchedulerClass.loops_of_schedule {cls : SchedulerClass} {self next : Scheduler σ}
    {output : SchedulerOutput} (hok : cls.schedule cfg host self = .ok (next, output)) :
    ∃ pass, cls.loops cfg host self = .ok pass ∧
      pass.finish cfg host (cls.updateAfterSchedule cfg host) = .ok (next, output) := by
  rw [schedule_eq] at hok
  exact bind_eq_ok.mp hok

theorem Scheduled.of_loops {cls : SchedulerClass} {self next : Scheduler σ} {pass : Pass σ}
    {output : SchedulerOutput} (lawful : host.Lawful) (hqueues : self.Queues)
    (hloops : cls.loops cfg host self = .ok pass)
    (hfinish : pass.finish cfg host (cls.updateAfterSchedule cfg host) = .ok (next, output)) :
    Scheduled cls cfg host self pass next output := by
  obtain ⟨hreaches, hputBack⟩ :=
    (SchedulerClass.loops_within lawful hqueues cls).of_ok hloops
  unfold Pass.finish at hfinish
  split at hfinish
  · cases hfinish
  rename_i hconstraints
  split at hfinish
  · cases hfinish
  dsimp only at hfinish
  rw [Except.ok.injEq] at hfinish
  have hobjs := fun before => cls.updateAfterSchedule_objs cfg lawful before (pass.output host)
  have hsame := fun before => cls.updateAfterSchedule_sameQueues cfg host before
    (pass.output host)
  have hpending := fun before => cls.updateAfterSchedule_pending cfg lawful before
    (pass.output host)
  generalize hbefore : ({ pass.self with
    prevStepScheduledReqIds := pass.numScheduledTokens.keys
    host := if cfg.hasConnector = true then host.buildConnectorMeta pass.host (pass.output host)
      else pass.host } : Scheduler σ) = before at hfinish
  have hnext := congrArg Prod.fst hfinish
  have houtput := congrArg Prod.snd hfinish
  dsimp only at hnext houtput
  refine {
    reaches := hreaches
    putBack := hputBack
    constraints := not_not.mp hconstraints
    objs := ?_
    sameQueues := ?_
    output := ?_
    keeps := ?_ }
  · intro id
    rw [← hnext, hobjs, ← hbefore]
    rfl
  · have hqueue := hsame before
    rw [hnext, ← hbefore] at hqueue
    exact ⟨hqueue.running, hqueue.waiting, hqueue.requests, hqueue.draftTokenIds⟩
  · rw [← houtput, hpending, ← hbefore]
  · intro owns other
    have hafter := cls.updateAfterSchedule_keeps cfg owns before (pass.output host) other
    rw [hnext, ← hbefore] at hafter
    rw [hafter]
    dsimp only
    split
    · exact owns.connectorMeta_keeps _ _ other
    · rfl

theorem SchedulerClass.schedule_scheduled {cls : SchedulerClass} {self next : Scheduler σ}
    {output : SchedulerOutput} (lawful : host.Lawful) (hqueues : self.Queues)
    (hok : cls.schedule cfg host self = .ok (next, output)) :
    ∃ pass, Scheduled cls cfg host self pass next output := by
  obtain ⟨pass, hloops, hfinish⟩ := loops_of_schedule hok
  exact ⟨pass, .of_loops lawful hqueues hloops hfinish⟩

/-- No call of `schedule()` is cut short by the fuel of the model. -/
theorem SchedulerClass.schedule_ne_outOfFuel {cls : SchedulerClass} {self : Scheduler σ}
    (lawful : host.Lawful) (hqueues : self.Queues) :
    cls.schedule cfg host self ≠ .error .outOfFuel := by
  rw [schedule_eq]
  have hwithin : Within _ (cls.loops cfg host self) := loops_within lawful hqueues cls
  cases hloops : cls.loops cfg host self with
  | error err =>
      have herr := hwithin.of_error hloops
      intro heq
      cases heq
      exact herr rfl
  | ok pass =>
      change pass.finish cfg host (cls.updateAfterSchedule cfg host) ≠ _
      unfold Pass.finish
      split
      · exact fun heq => nomatch heq
      · split
        · exact fun heq => nomatch heq
        · exact fun heq => nomatch heq

namespace Scheduled

variable {cls : SchedulerClass} {start next : Scheduler σ} {pass : Pass σ}
  {output : SchedulerOutput}

/-- Nothing but counters and placeholder drafts changes after the loops. -/
theorem scheduled_eq (cls : SchedulerClass) (cfg : Config) (request : Request)
    (numDrafts : Nat) (count : Option Int) :
    ∃ computed placeholders drafts, cls.scheduled cfg request numDrafts count =
      { request with
        numComputedTokens := computed
        numOutputPlaceholders := placeholders
        specTokenIds := drafts } := by
  unfold SchedulerClass.scheduled Request.reservePlaceholders
  split
  · exact ⟨_, _, _, rfl⟩
  · split
    · split
      · exact ⟨_, _, _, rfl⟩
      · exact ⟨_, _, _, rfl⟩
    · exact ⟨_, _, _, rfl⟩

theorem status (hscheduled : Scheduled cls cfg host start pass next output) (id : ReqId) :
    (next.objs id).status = (pass.obj id).status ∧
      (next.objs id).requestId = (pass.obj id).requestId := by
  obtain ⟨computed, placeholders, drafts, heq⟩ := scheduled_eq cls cfg (pass.obj id)
    (pass.specTokens id).length (pass.numScheduledTokens.get? id)
  rw [hscheduled.objs, heq]
  exact ⟨rfl, rfl⟩

theorem placed (hscheduled : Scheduled cls cfg host start pass next output)
    (lawful : host.Lawful) (hqueues : start.Queues) : pass.Placed cfg start :=
  .reaches lawful hqueues hscheduled.reaches

theorem tracked (hscheduled : Scheduled cls cfg host start pass next output)
    (lawful : host.Lawful) (hqueues : start.Queues) :
    pass.Tracked cfg (cls.rules cfg) start :=
  .reaches lawful hqueues hscheduled.reaches

/-- The queues after the call hold the requests that were in them before it. -/
theorem perm (hscheduled : Scheduled cls cfg host start pass next output)
    (lawful : host.Lawful) (hqueues : start.Queues) :
    (next.running ++ next.waiting).Perm (start.running ++ start.waiting) := by
  have hperm := (hscheduled.placed lawful hqueues).perm
  rw [hscheduled.putBack, List.append_nil] at hperm
  rw [hscheduled.sameQueues.running, hscheduled.sameQueues.waiting]
  exact hperm

theorem queues (hscheduled : Scheduled cls cfg host start pass next output)
    (lawful : host.Lawful) (hqueues : start.Queues) : next.Queues := by
  have hplaced := hscheduled.placed lawful hqueues
  have hperm := hscheduled.perm lawful hqueues
  have hrequests : next.requests = start.requests :=
    hscheduled.sameQueues.requests.trans hplaced.requests
  refine ⟨hperm.nodup_iff.mpr hqueues.nodup, ?_, ?_, ?_, ?_, ?_⟩
  · intro id hmem
    rw [(hscheduled.status id).1]
    exact hplaced.running_status id (hscheduled.sameQueues.running ▸ hmem)
  · intro id hmem
    rw [(hscheduled.status id).1]
    exact hplaced.waiting_status id
      (List.mem_append_left _ (hscheduled.sameQueues.waiting ▸ hmem))
  · intro id hmem
    rw [hrequests]
    exact hqueues.live id (hperm.mem_iff.mp hmem)
  · intro id hmem hunfinished
    rw [hrequests] at hmem
    by_contra hout
    have hstart : id ∉ start.running ++ start.waiting := fun hin => hout (hperm.mem_iff.mpr hin)
    rw [Request.isFinished, (hscheduled.status id).1, hplaced.others id hstart] at hunfinished
    exact hstart (hqueues.placed id hmem hunfinished)
  · intro id
    rw [(hscheduled.status id).2]
    exact hplaced.requestId id

end Scheduled

end VllmMlu.Sched
