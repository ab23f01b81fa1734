import VllmMlu.Engine.Deferral

/-! The grammar bitmask of a batch is computed from the tokens of all earlier batches: a batch that
has to wait for some of them is deferred. -/
namespace VllmMlu.Engine
open VllmMlu.Library VllmMlu.Sched

variable {σ : Type} {cls : SchedulerClass} {cfg : Config} {host : Host σ} {engine : EngineConfig}
  {core next : EngineCore σ} {answers : Answers} {batch : Batch} {future : Future} {st : σ}

namespace EngineCore

/-- No batch in the queue samples a token for a structured request of the batch. -/
def Fresh (core : EngineCore σ) (batch : Batch) : Prop :=
  ∀ entry ∈ core.batchQueue, ∀ id ∈ batch.reqIds,
    (core.scheduler.objs id).useStructuredOutput = true → id ∈ entry.2.reqIds →
      entry.2.samples id = false

/-- When a bitmask was computed for a batch, the scheduler had been given every token that an
earlier batch sampled for one of its structured requests. -/
def MasksFresh (calls : List (Call σ)) : Prop :=
  ∀ scheduler batch older, .getGrammarBitmask scheduler batch :: older <:+ calls →
    ∃ pending, launched older = batch :: pending ++ updated older ∧
      ∀ earlier ∈ pending, ∀ id ∈ batch.reqIds,
        (scheduler.objs id).useStructuredOutput = true → id ∈ earlier.reqIds →
          earlier.samples id = false

theorem MasksFresh.cons {calls : List (Call σ)} (hmasks : MasksFresh calls) {entry : Call σ}
    (hother : ∀ scheduler batch, entry ≠ .getGrammarBitmask scheduler batch) :
    MasksFresh (entry :: calls) := by
  intro scheduler batch older hsuffix
  rcases List.suffix_cons_iff.mp hsuffix with heq | hsuffix
  · cases heq
    exact absurd rfl (hother scheduler batch)
  · exact hmasks scheduler batch older hsuffix

theorem MasksFresh.mask (hmasks : MasksFresh core.calls) (horder : core.InOrder [batch])
    (hfresh : core.Fresh batch) :
    MasksFresh (.getGrammarBitmask core.scheduler batch :: core.calls) := by
  intro scheduler other older hsuffix
  rcases List.suffix_cons_iff.mp hsuffix with heq | hsuffix
  · cases heq
    refine ⟨core.batchQueue.map Prod.snd, horder, fun earlier hmem => ?_⟩
    obtain ⟨entry, hentry, rfl⟩ := List.mem_map.mp hmem
    exact hfresh entry hentry
  · exact hmasks scheduler other older hsuffix

theorem MasksFresh.sampleMasked (hmasks : MasksFresh core.calls) (horder : core.InOrder [batch])
    (hfresh : core.Fresh batch) : MasksFresh (core.sampleMasked batch).1.calls := by
  rw [(core.sampleMasked_frame batch).2.2]
  apply (hmasks.mask horder hfresh).cons
  intro _ _ heq
  cases heq

theorem MasksFresh.launch (hmasks : MasksFresh core.calls)
    (hok : core.launch cls cfg host engine = .ok (next, batch, future)) :
    MasksFresh next.calls := by
  obtain ⟨scheduler, output, -, -, hexecute⟩ := launch_ok hok
  have hcalls := (executeModel_frame engine batch { core with scheduler := scheduler }).2.2
  rw [hexecute] at hcalls
  rw [hcalls]
  apply MasksFresh.cons hmasks
  intro _ _ heq
  cases heq

theorem MasksFresh.update {outputs : List (Nat × EngineCoreOutput)} (hmasks : MasksFresh core.calls)
    (hok : core.update cls cfg host engine answers future batch = .ok (next, outputs)) :
    MasksFresh next.calls := by
  obtain ⟨ran, locals, -, -, rfl⟩ := update_ok hok
  have hdrafts : MasksFresh (core.takeDraftTokenIds engine answers).calls := by
    unfold takeDraftTokenIds
    split
    · apply MasksFresh.cons hmasks
      intro _ _ heq
      cases heq
    · exact hmasks
  apply MasksFresh.cons hdrafts
  intro _ _ heq
  cases heq

/-- The last batch in flight has come back before a deferred batch is sampled. -/
theorem MasksFresh.resolve (hmasks : MasksFresh core.calls) {deferred : Option Batch}
    (horder : core.InOrder deferred.toList)
    (hone : deferred.isSome = true → core.batchQueue.length ≤ 1)
    {modelExecuted executed : Bool} {outputs : EngineCoreOutputs}
    (hok : core.resolve cls cfg host engine answers deferred modelExecuted =
      .ok (next, outputs, executed)) : MasksFresh next.calls := by
  obtain ⟨rest, future, oldest, mid, outs, hqueue, hupdate, hcases⟩ := resolve_ok hok
  have hpopped : MasksFresh ({ core with batchQueue := rest } : EngineCore σ).calls := hmasks
  have hmid := MasksFresh.update hpopped hupdate
  rcases hcases with ⟨rfl, rfl⟩ | ⟨batch, rfl, rfl⟩
  · exact hmid
  · unfold InOrder at horder
    rw [hqueue, List.map_append, List.map_singleton] at horder
    obtain ⟨hmidOrder, hrest⟩ := InOrder.update horder hupdate
    refine hmid.sampleMasked hmidOrder fun entry hmem => ?_
    have hshort := hone rfl
    rw [hqueue, List.length_append, List.length_singleton] at hshort
    have hnil : rest = [] := List.length_eq_zero_iff.mp (by omega)
    rw [hrest] at hmem
    change entry ∈ rest at hmem
    rw [hnil] at hmem
    cases hmem

/-- With `AsyncScheduler`, a batch that is sampled at once has nothing in flight for its structured
requests. -/
theorem fresh_of_accounted (lawful : host.Lawful) (haccounted : (core.view []).Accounted)
    {mid : EngineCore σ} (hlaunch : core.launch .async cfg host engine = .ok (mid, batch, future))
    (hpending : batch.output.pendingStructuredOutputTokens = false) : mid.Fresh batch := by
  have hqueue := launch_batchQueue hlaunch
  obtain ⟨scheduler, output, hschedule, rfl, hexecute⟩ := launch_ok hlaunch
  have hscheduler := (executeModel_frame engine ⟨output, samples core.scheduler scheduler⟩
    { core with scheduler := scheduler }).1
  rw [hexecute] at hscheduler
  change mid.scheduler = scheduler at hscheduler
  have hqueues : core.scheduler.Queues := haccounted.queues
  obtain ⟨pass, hscheduled⟩ := SchedulerClass.schedule_scheduled lawful hqueues hschedule
  intro entry hentry id hmem hstructured hearlier
  rw [hqueue] at hentry
  rw [hscheduler, hscheduled.objs, SchedulerClass.scheduled_useStructuredOutput] at hstructured
  obtain ⟨hsame, -, hunfinished, hlive⟩ := hscheduled.before lawful hqueues hmem
  have hnone : (core.scheduler.objs id).numOutputPlaceholders ≤ 0 := by
    by_contra hpositive
    have htrue := (hscheduled.pending_iff lawful hqueues).mpr
      ⟨id, hmem, hsame.symm.trans hstructured, Int.not_le.mp hpositive⟩
    rw [htrue] at hpending
    cases hpending
  -- The placeholders of the request are those of all the batches in flight for it.
  have hzero : entry.2.outstanding id ≤ 0 := by
    refine le_trans ?_ ((haccounted.accounts id hlive).enough.trans hnone)
    apply List.single_le_sum
    · intro count hcount
      obtain ⟨other, -, rfl⟩ := List.mem_map.mp hcount
      exact other.outstanding_nonneg id
    · exact List.mem_map_of_mem (List.mem_reverse.mpr (List.mem_map_of_mem hentry))
  rw [← Bool.not_eq_true]
  intro hsamples
  rw [Batch.outstanding, if_pos ⟨hearlier, hsamples⟩] at hzero
  omega

theorem MasksFresh.submit (hmasks : MasksFresh core.calls) (hqueued : core.Queued engine)
    (lawful : host.Lawful) (haccounted : (core.view []).Accounted) {deferred : Option Batch}
    {modelExecuted : Bool}
    (hok : core.submit .async cfg host engine = .ok (next, deferred, modelExecuted)) :
    MasksFresh next.calls := by
  obtain ⟨mid, batch, execFuture, hlaunch, -, hcases⟩ := submit_ok hok
  have hmid := hmasks.launch hlaunch
  rcases hcases with ⟨-, rfl, -⟩ | ⟨-, -, rfl, -⟩ | ⟨-, hpending, rfl, -⟩
  · exact hmid
  · exact hmid
  · exact hmid.sampleMasked (hqueued.order.launch hlaunch)
      (fresh_of_accounted lawful haccounted hlaunch hpending)

theorem MasksFresh.stepWithBatchQueue (hmasks : MasksFresh core.calls)
    (hqueued : core.Queued engine) (hsize : engine.batchQueueSize = 2) (lawful : host.Lawful)
    (haccounted : (core.view []).Accounted) {outputs : EngineCoreOutputs} {executed : Bool}
    (hok : core.stepWithBatchQueue .async cfg host engine answers =
      .ok (next, outputs, executed)) : MasksFresh next.calls := by
  obtain ⟨hroom, ⟨mid, deferred, modelExecuted, hsubmit, hcases⟩ | ⟨-, rfl⟩ | hresolve⟩ :=
    stepWithBatchQueue_ok hok
  · have hmid := hmasks.submit hqueued lawful haccounted hsubmit
    obtain ⟨horder, hlength⟩ := hqueued.submit (by omega) hsubmit
    rcases hcases with ⟨-, -, rfl⟩ | hresolve
    · exact hmid
    · refine hmid.resolve horder (fun hsome => ?_) hresolve
      obtain ⟨batch, rfl⟩ := Option.isSome_iff_exists.mp hsome
      rw [Option.toList_some, List.length_singleton] at hlength
      omega
  · exact hmasks
  · have horder : core.InOrder (none : Option Batch).toList := hqueued.order
    exact hmasks.resolve horder (fun hsome => nomatch hsome) hresolve

/-- In `step` nothing is in flight when a batch is scheduled. -/
theorem MasksFresh.step (hmasks : MasksFresh core.calls) (hqueued : core.Queued engine)
    (hempty : core.batchQueue = []) {outputs : EngineCoreOutputs} {executed : Bool}
    (hok : core.step cls cfg host engine answers = .ok (next, outputs, executed)) :
    MasksFresh next.calls := by
  rcases step_ok hok with rfl | ⟨mid, batch, execFuture, outs, hlaunch, hupdate⟩
  · exact hmasks
  refine MasksFresh.update ?_ hupdate
  have hfresh : mid.Fresh batch := by
    intro entry hmem
    rw [launch_batchQueue hlaunch, hempty] at hmem
    cases hmem
  have hmasked := (hmasks.launch hlaunch).mask (hqueued.order.launch hlaunch) hfresh
  unfold sampleIfNone
  split
  · rw [(sampleTokens_frame _).2.2]
    apply MasksFresh.cons hmasked
    intro _ _ heq
    cases heq
  · exact hmasked

/-- The bitmask of the second batch is computed while the first one is in flight. -/
def secondMaskIsEarly : List (Call Pool) → Bool
  | [.updateFromOutput _, .sampleTokens, .getGrammarBitmask scheduler second, .executeModel _,
      .sampleTokens, .getGrammarBitmask _ _, .executeModel first] =>
      (scheduler.objs 0).useStructuredOutput && decide (0 ∈ second.reqIds) &&
        decide (0 ∈ first.reqIds) && first.samples 0
  | _ => false

theorem not_masksFresh_of_early {calls : List (Call Pool)}
    (hearly : secondMaskIsEarly calls = true) : ¬MasksFresh calls := by
  unfold secondMaskIsEarly at hearly
  split at hearly
  · rename_i scheduler second _ _ _ first
    simp only [Bool.and_eq_true, decide_eq_true_eq] at hearly
    obtain ⟨⟨⟨hstructured, hsecond⟩, hfirst⟩, hsamples⟩ := hearly
    intro hmasks
    obtain ⟨pending, hpending, hfresh⟩ := hmasks scheduler second _
      (List.IsSuffix.trans (List.suffix_cons _ _) (List.suffix_cons _ _))
    have htail : [first] = pending ++ [] := (List.cons.inj hpending).2
    rw [List.append_nil] at htail
    have hnone := hfresh first (htail ▸ List.mem_singleton_self first) 0 hsecond hstructured
      hfirst
    rw [hsamples] at hnone
    cases hnone
  · cases hearly

open Samples in
/-- `MLUUnchunkAsyncScheduler` does not tell that a step waits for structured tokens: the second
bitmask misses the token of the first step. -/
theorem unchunk_async_mask_early : ∃ core : EngineCore Pool,
    (engineCoreOf .unchunkAsync).Run
      (EngineEvent.Within (WithinClip (SchedulerClass.unchunkAsync.rules structuredModel)))
      (.empty Sched.Samples.pool) core ∧ ¬MasksFresh core.calls := by
  obtain ⟨core, hrun, htest⟩ := Machine.exists_of_leadsTo (engineCoreOf .unchunkAsync)
    (EngineEvent.Within (WithinClip (SchedulerClass.unchunkAsync.rules structuredModel)))
    (.empty Sched.Samples.pool)
    [.addRequest structuredPrompt, .step oneToken, .step oneToken]
    (fun core => secondMaskIsEarly core.calls) (by decide +kernel)
  exact ⟨core, hrun, not_masksFresh_of_early htest⟩

end EngineCore

end VllmMlu.Engine
