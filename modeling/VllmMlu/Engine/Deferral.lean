import VllmMlu.Engine.Refinement

/-! What a step of the engine core cannot run into: a full queue, an empty one, and a model runner
that holds another batch. -/
namespace VllmMlu.Engine
open VllmMlu.Library VllmMlu.Sched

variable {σ : Type} {cls : SchedulerClass} {cfg : Config} {host : Host σ} {engine : EngineConfig}
  {core next : EngineCore σ} {answers : Answers} {batch : Batch} {future : Future} {st : σ}
  {err : EngineError}

namespace EngineCore

/-! Which errors the parts of a step raise. -/

theorem launch_error (herr : core.launch cls cfg host engine = .error err) :
    ∃ other, err = .scheduler other := by
  rcases bind_eq_error.mp herr with hschedule | ⟨⟨scheduler, output⟩, -, hpure⟩
  · obtain ⟨other, -, rfl⟩ := mapError_eq_error.mp hschedule
    exact ⟨other, rfl⟩
  · cases hpure

theorem submit_error (herr : core.submit cls cfg host engine = .error err) :
    ∃ other, err = .scheduler other := by
  rcases bind_eq_error.mp herr with hlaunch | ⟨⟨mid, batch, execFuture⟩, -, hrest⟩
  · exact launch_error hlaunch
  · dsimp only at hrest
    split at hrest
    · cases hrest
    · split at hrest <;> cases hrest

theorem update_error (herr : core.update cls cfg host engine answers future batch = .error err) :
    (∀ ran, future ≠ .output ran) ∧ (err = .runtimeError ∨ err = .attributeError) ∨
      ∃ other, err = .scheduler other := by
  unfold update at herr
  split at herr
  · cases herr
    exact .inl ⟨(fun _ heq => nomatch heq), .inl rfl⟩
  · cases herr
    exact .inl ⟨(fun _ heq => nomatch heq), .inr rfl⟩
  · rcases bind_eq_error.mp herr with hupdate | ⟨locals, -, hpure⟩
    · obtain ⟨other, -, rfl⟩ := mapError_eq_error.mp hupdate
      exact .inr ⟨other, rfl⟩
    · cases hpure

theorem resolve_error {deferred : Option Batch} {modelExecuted : Bool}
    (herr : core.resolve cls cfg host engine answers deferred modelExecuted = .error err) :
    core.batchQueue = [] ∧ err = .indexError ∨
      (∃ entry ∈ core.batchQueue, ∀ ran, entry.1 ≠ .output ran) ∧
        (err = .runtimeError ∨ err = .attributeError) ∨
      ∃ other, err = .scheduler other := by
  unfold resolve at herr
  split at herr
  · rename_i hempty
    cases herr
    exact .inl ⟨List.getLast?_eq_none_iff.mp hempty, rfl⟩
  · rename_i future oldest hlast
    rcases bind_eq_error.mp herr with hupdate | ⟨⟨mid, outs⟩, -, hrest⟩
    · rcases update_error hupdate with ⟨hfuture, hraised⟩ | hscheduler
      · exact .inr (.inl ⟨⟨_, List.mem_of_getLast? hlast, hfuture⟩, hraised⟩)
      · exact .inr (.inr hscheduler)
    · dsimp only at hrest
      split at hrest <;> cases hrest

theorem stepWithBatchQueue_error
    (herr : core.stepWithBatchQueue cls cfg host engine answers = .error err) :
    engine.batchQueueSize ≤ core.batchQueue.length ∨ (∃ other, err = .scheduler other) ∨
      (∃ mid deferred modelExecuted,
        core.submit cls cfg host engine = .ok (mid, deferred, modelExecuted) ∧
        mid.resolve cls cfg host engine answers deferred modelExecuted = .error err) ∨
      core.batchQueue ≠ [] ∧
        core.resolve cls cfg host engine answers none false = .error err := by
  unfold stepWithBatchQueue at herr
  split at herr
  · exact .inl ‹_›
  refine .inr ?_
  split at herr
  · rcases bind_eq_error.mp herr with hsubmit | ⟨⟨mid, deferred, modelExecuted⟩, hsubmit, hrest⟩
    · exact .inl (submit_error hsubmit)
    · dsimp only at hrest
      split at hrest
      · cases hrest
      · exact .inr (.inl ⟨mid, deferred, modelExecuted, hsubmit, hrest⟩)
  · split at herr
    · cases herr
    · exact .inr (.inr ⟨‹_›, herr⟩)

theorem step_error (hsound : core.Sound)
    (herr : core.step cls cfg host engine answers = .error err) :
    ∃ other, err = .scheduler other := by
  unfold step at herr
  split at herr
  · rcases bind_eq_error.mp herr with hlaunch | ⟨⟨mid, batch, execFuture⟩, hlaunch, hrest⟩
    · exact launch_error hlaunch
    · rcases bind_eq_error.mp hrest with hupdate | ⟨⟨last, outs⟩, -, hpure⟩
      · refine (update_error hupdate).resolve_left fun ⟨hnone, _⟩ => ?_
        exact hnone _ (hsound.sampleIfNone hlaunch _).2.2.2
      · cases hpure
  · cases herr

/-! The queue is never popped when it is empty. -/

/-- Only `AsyncScheduler` defers a batch. -/
theorem submit_deferred {deferred : Option Batch} {modelExecuted : Bool}
    (lawful : host.Lawful) (hqueues : core.scheduler.Queues)
    (hok : core.submit cls cfg host engine = .ok (next, deferred, modelExecuted))
    (hsome : deferred = some batch) : cls = .async ∧
      ∃ id ∈ batch.reqIds, id ∈ core.scheduler.requests ∧
        (core.scheduler.objs id).isFinished = false ∧
        0 < (core.scheduler.objs id).numOutputPlaceholders := by
  obtain ⟨mid, launched, execFuture, hlaunch, -, hcases⟩ := submit_ok hok
  obtain ⟨scheduler, output, hschedule, rfl, -⟩ := launch_ok hlaunch
  have hpending : output.pendingStructuredOutputTokens = true ∧
      batch = ⟨output, samples core.scheduler scheduler⟩ := by
    rcases hcases with ⟨-, -, hnone⟩ | ⟨-, hpending, -, hdeferred⟩ | ⟨-, -, -, hnone⟩
    · cases hnone.symm.trans hsome
    · exact ⟨hpending, (Option.some.inj (hdeferred.symm.trans hsome)).symm⟩
    · cases hnone.symm.trans hsome
  obtain ⟨hpending, rfl⟩ := hpending
  obtain ⟨pass, hscheduled⟩ := SchedulerClass.schedule_scheduled lawful hqueues hschedule
  have hother : cls ≠ .async → False := by
    intro hne
    rw [hscheduled.output] at hpending
    cases cls with
    | async => exact hne rfl
    | profiler | unchunk | unchunkAsync => cases hpending
  obtain rfl : cls = .async := by
    by_contra hne
    exact hother hne
  obtain ⟨id, hmem, -, hpositive⟩ := (hscheduled.pending_iff lawful hqueues).mp hpending
  obtain ⟨-, -, hunfinished, hlive⟩ := hscheduled.before lawful hqueues hmem
  exact ⟨rfl, id, hmem, hlive, hunfinished, hpositive⟩

theorem Runs.queues {clip : Scheduler σ → Prop} {pipeline : Pipeline σ} (lawful : host.Lawful)
    (hruns : Runs cls cfg host clip st pipeline) : pipeline.sched.Queues :=
  @Machine.Run.invariant _ _ _ _ _ _ (fun pipeline : Pipeline σ => pipeline.sched.Queues)
    (Scheduler.empty_queues st)
    (fun _ _ _ hqueues hwithin hok => Pipeline.step_queues lawful hqueues hwithin.1.allowed hok)
    _ hruns

section Refined

variable {clip : Scheduler σ → Prop} (lawful : host.Lawful)
  (hrefined : core.Refined cls cfg host engine clip st)
include lawful hrefined

theorem Refined.queues : core.scheduler.Queues := hrefined.runs.queues lawful

/-- A batch is deferred only while another one is in flight. -/
theorem Refined.submit_behind {deferred : Option Batch} {modelExecuted : Bool}
    (hok : core.submit cls cfg host engine = .ok (next, deferred, modelExecuted))
    (hroom : core.batchQueue.length < engine.batchQueueSize) : next.batchQueue ≠ [] := by
  rcases submit_batchQueue hroom hok with ⟨-, entry, hqueue⟩ | ⟨batch, hsome, hqueue⟩
  · rw [hqueue]
    exact List.cons_ne_nil _ _
  · rw [hqueue]
    intro hempty
    obtain ⟨rfl, id, -, hlive, hunfinished, hpositive⟩ :=
      submit_deferred lawful (hrefined.queues lawful) hok hsome
    have hcovered : (core.view []).Covered :=
      Pipeline.Covered.run lawful rfl (hrefined.runs.mono fun _ _ hwithin => hwithin.1)
    have hle := hcovered.covered id hlive hunfinished
    have hnone : (core.view []).outstanding id = 0 := by
      rw [Pipeline.outstanding, view, hempty]
      rfl
    rw [hnone] at hle
    exact absurd hpositive (Int.not_lt.mpr hle)

/-- A step fails only where the scheduler does, or after counts that sum up to less than
nothing. -/
theorem Refined.stepFn_error (hsize : engine.batchQueueSize ≤ 2) (hclip : clip core.scheduler)
    (herr : core.stepFn cls cfg host engine answers = .error err) :
    (∃ other, err = .scheduler other) ∨
      (err = .runtimeError ∨ err = .attributeError) ∧ Overdrawn cls cfg host clip st := by
  have hresolve : ∀ (mid : EngineCore σ) deferred modelExecuted, mid.batchQueue ≠ [] →
      (Overdrawn cls cfg host clip st ∨ ∀ entry ∈ mid.batchQueue, entry.1 = .output entry.2) →
      mid.resolve cls cfg host engine answers deferred modelExecuted = .error err →
      (∃ other, err = .scheduler other) ∨
        (err = .runtimeError ∨ err = .attributeError) ∧ Overdrawn cls cfg host clip st := by
    intro mid deferred modelExecuted hbehind hfutures hfails
    rcases resolve_error hfails with ⟨hempty, -⟩ | ⟨⟨entry, hmem, hnone⟩, hraised⟩ | hscheduler
    · exact absurd hempty hbehind
    · refine .inr ⟨hraised, hfutures.resolve_right fun hsound => ?_⟩
      exact hnone _ (hsound entry hmem)
    · exact .inl hscheduler
  have hcore : Overdrawn cls cfg host clip st ∨
      ∀ entry ∈ core.batchQueue, entry.1 = .output entry.2 :=
    hrefined.sound.symm.imp And.right Sound.futures
  have hroom := hrefined.queued.room
  unfold stepFn at herr
  split at herr
  · rename_i hmany
    rw [Nat.max_eq_right hmany.le] at hroom
    rcases stepWithBatchQueue_error herr with hfull | hscheduler |
      ⟨mid, deferred, modelExecuted, hsubmit, hfails⟩ | ⟨hbehind, hfails⟩
    · exact absurd hroom (Nat.not_lt.mpr hfull)
    · exact .inl hscheduler
    · refine hresolve mid deferred modelExecuted
        (hrefined.submit_behind lawful hsubmit hroom) ?_ hfails
      rcases hrefined.sound.symm with ⟨-, hoverdrawn⟩ | hsound
      · exact .inl hoverdrawn
      · cases hsound.submit hroom hsubmit with
        | queued batch hnone hqueue hstate =>
            refine .inr fun entry hmem => ?_
            rw [hqueue] at hmem
            rcases List.mem_cons.mp hmem with rfl | hmem
            · rfl
            · exact hsound.futures entry hmem
        | unsampled batch hnone hqueue hschedule hnegative =>
            exact .inl ⟨_, _, _, hrefined.runs, hclip, hschedule, hnegative⟩
        | deferred batch hsome hqueue hstate =>
            rw [hqueue]
            exact .inr hsound.futures
    · exact hresolve core none false hbehind hcore hfails
  · have hempty : core.batchQueue = [] := by
      rw [Nat.max_eq_left (by omega)] at hroom
      exact List.length_eq_zero_iff.mp (Nat.lt_one_iff.mp hroom)
    refine .inl (step_error (hrefined.sound.resolve_right fun ⟨⟨entry, hentry, _⟩, _⟩ => ?_) herr)
    cases hempty.symm.trans hentry

end Refined

end EngineCore

end VllmMlu.Engine
