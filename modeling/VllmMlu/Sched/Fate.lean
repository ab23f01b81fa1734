import VllmMlu.Sched.Outcome

/-! What one call of `schedule()` that returned has done with each request, with
the request as the caller finds it. -/
namespace VllmMlu.Sched
open VllmMlu.Library

variable {σ : Type} {cls : SchedulerClass} {cfg : Config} {host : Host σ}
  {start next : Scheduler σ} {pass : Pass σ} {output : SchedulerOutput}

inductive Fate (cls : SchedulerClass) (cfg : Config) (start next : Scheduler σ)
    (output : SchedulerOutput) (id : ReqId) : Prop where
  | untouched (hnone : id ∉ output.numScheduledTokens.keys)
      (hobj : next.objs id = start.objs id)
  | ran {numNewTokens budget : Int} (hrunning : id ∈ start.running)
      (hcount : output.numScheduledTokens.get? id = some numNewTokens)
      (hzero : numNewTokens ≠ 0) (hpositive : 0 < budget)
      (hbetween : Host.Between (numNewRunningTokens cfg (cls.rules cfg) (start.objs id) budget)
        numNewTokens)
      (hdrafts : output.specTokens id = (start.objs id).draftsWithin numNewTokens)
      (hobj : next.objs id = cls.scheduled cfg (start.objs id).withoutDrafts
        (output.specTokens id).length (some numNewTokens))
  | entered {ready : Request} {computed : ComputedTokens} {numNewTokens : Int}
      (hwaiting : id ∈ start.waiting)
      (hprepared : Prepared cfg (cls.rules cfg) (start.objs id) ready)
      (hlookup : computed.LookedUp ready)
      (hcount : output.numScheduledTokens.get? id = some numNewTokens)
      (hpositive : 0 < numNewTokens)
      (hle : numNewTokens ≤
        numNewWaitingTokens cfg (cls.rules cfg) ready computed.numComputedTokens)
      (hdrafts : output.specTokens id =
        if (cls.rules cfg).chunked && cfg.disaggTransAllBlocks then ready.specTokenIds else [])
      (hobj : next.objs id = cls.scheduled cfg (ready.admitted computed.numComputedTokens)
        (output.specTokens id).length (some numNewTokens))
  | evicted (hrunning : id ∈ start.running) (hnone : id ∉ output.numScheduledTokens.keys)
      (hobj : Evicted (start.objs id) (next.objs id))
  | waits (hwaiting : id ∈ start.waiting) (hnone : id ∉ output.numScheduledTokens.keys)
      (hstatus : (next.objs id).status.waits = true)
      (hprepared : Prepared cfg (cls.rules cfg) (start.objs id) (next.objs id))

namespace Scheduled

variable (lawful : host.Lawful) (hqueues : start.Queues)
  (hscheduled : Scheduled cls cfg host start pass next output)
include hscheduled

theorem objs_of_none {id : ReqId} (hnone : id ∉ pass.numScheduledTokens.keys) :
    next.objs id = pass.obj id := by
  rw [hscheduled.objs, (Dict.get?_eq_none_iff _ _).mpr hnone]
  rfl

include lawful hqueues

/-- The scheduled requests are running when the call returns. -/
theorem inRunning {id : ReqId} (hmem : id ∈ output.numScheduledTokens.keys) :
    id ∈ next.running := by
  rw [hscheduled.numScheduledTokens] at hmem
  rw [hscheduled.sameQueues.running]
  exact (hscheduled.placed lawful hqueues).inRunning id hmem

/-- Drafts are recorded for scheduled requests only. -/
theorem specTokens_of_none {id : ReqId} (hnone : id ∉ output.numScheduledTokens.keys) :
    output.specTokens id = [] := by
  rw [hscheduled.numScheduledTokens] at hnone
  rw [hscheduled.specTokens, Pass.specTokens, (Dict.get?_eq_none_iff _ _).mpr fun hmem =>
    hnone ((hscheduled.placed lawful hqueues).specTokens id hmem)]
  rfl

theorem fate (id : ReqId) : Fate cls cfg start next output id := by
  have hplaced := hscheduled.placed lawful hqueues
  have htracked := hscheduled.tracked lawful hqueues
  have hnum := hscheduled.numScheduledTokens
  have hspec := hscheduled.specTokens id
  by_cases hqueue : id ∈ start.running ++ start.waiting
  · have hperm := hplaced.perm.mem_iff.mpr hqueue
    rcases List.mem_append.mp hperm with hrunning | hwaiting
    · by_cases hmem : id ∈ pass.numScheduledTokens.keys
      · rcases hplaced.mem_scheduled.mp hmem with hran | hentered
        · obtain ⟨hstart, hobj, count, budget, hcount, hzero, hpositive, hbetween, hdrafts⟩ :=
            htracked.ran id hran
          refine .ran hstart (hnum ▸ hcount) hzero hpositive hbetween
            (hspec.trans hdrafts) ?_
          rw [hscheduled.objs, hobj, hcount, hspec]
        · obtain ⟨hstart, ready, computed, count, hprepared, hlookup, hobj, hcount, hpositive,
            hle, hdrafts⟩ := htracked.entered id hentered
          refine .entered hstart hprepared hlookup (hnum ▸ hcount) hpositive hle
            (hspec.trans hdrafts) ?_
          rw [hscheduled.objs, hobj, hcount, hspec]
      · refine .untouched (hnum ▸ hmem) ?_
        rw [hscheduled.objs_of_none hmem]
        exact (htracked.untouched id hrunning hmem).2
    · have hnone := hplaced.not_scheduled hqueues hwaiting
      have hobj := hscheduled.objs_of_none hnone
      by_cases hpreempted : id ∈ pass.preemptedReqs
      · obtain ⟨hstart, hevicted⟩ := htracked.evicted id hpreempted
        exact .evicted hstart (hnum ▸ hnone) (hobj ▸ hevicted)
      · obtain ⟨hstart, hprepared⟩ := htracked.waits id hwaiting hpreempted
        exact .waits hstart (hnum ▸ hnone) (hobj ▸ hplaced.waiting_status id hwaiting)
          (hobj ▸ hprepared)
  · have hnone : id ∉ pass.numScheduledTokens.keys := fun hmem =>
      hqueue (hplaced.perm.mem_iff.mp (List.mem_append_left _ (hplaced.inRunning id hmem)))
    refine .untouched (hnum ▸ hnone) ?_
    rw [hscheduled.objs_of_none hnone]
    exact hplaced.others id hqueue

end Scheduled

end VllmMlu.Sched
