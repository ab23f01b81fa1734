import VllmMlu.Engine.Core

/-! Whatever the scheduler and the workers do: the scheduler is given the output of every launched
batch once and in the order of the launches, and the queue has room. -/
namespace VllmMlu.Engine
open VllmMlu.Library VllmMlu.Sched

variable {σ : Type} {cls : SchedulerClass} {cfg : Config} {host : Host σ} {engine : EngineConfig}
  {core next : EngineCore σ} {answers : Answers} {batch : Batch} {future : Future}

section Calls

variable (calls : List (Call σ)) (scheduler : Scheduler σ) (batch : Batch)

@[simp] theorem launched_executeModel :
    launched (.executeModel batch :: calls) = batch :: launched calls := rfl

@[simp] theorem launched_getGrammarBitmask :
    launched (.getGrammarBitmask scheduler batch :: calls) = launched calls := rfl

@[simp] theorem launched_sampleTokens : launched (.sampleTokens :: calls) = launched calls := rfl

@[simp] theorem launched_takeDraftTokenIds :
    launched (.takeDraftTokenIds :: calls) = launched calls := rfl

@[simp] theorem launched_updateFromOutput :
    launched (.updateFromOutput batch :: calls) = launched calls := rfl

@[simp] theorem updated_executeModel :
    updated (.executeModel batch :: calls) = updated calls := rfl

@[simp] theorem updated_getGrammarBitmask :
    updated (.getGrammarBitmask scheduler batch :: calls) = updated calls := rfl

@[simp] theorem updated_sampleTokens : updated (.sampleTokens :: calls) = updated calls := rfl

@[simp] theorem updated_takeDraftTokenIds :
    updated (.takeDraftTokenIds :: calls) = updated calls := rfl

@[simp] theorem updated_updateFromOutput :
    updated (.updateFromOutput batch :: calls) = batch :: updated calls := rfl

end Calls

namespace EngineCore

/-! What the parts of a step do. -/

theorem executeModel_frame (engine : EngineConfig) (batch : Batch) (core : EngineCore σ) :
    (executeModel engine batch core).1.scheduler = core.scheduler ∧
      (executeModel engine batch core).1.batchQueue = core.batchQueue ∧
      (executeModel engine batch core).1.calls = .executeModel batch :: core.calls := by
  unfold executeModel
  dsimp only
  split
  · exact ⟨rfl, rfl, rfl⟩
  split
  · exact ⟨rfl, rfl, rfl⟩
  split
  · exact ⟨rfl, rfl, rfl⟩
  split <;> exact ⟨rfl, rfl, rfl⟩

theorem sampleTokens_frame (core : EngineCore σ) :
    core.sampleTokens.1.scheduler = core.scheduler ∧
      core.sampleTokens.1.batchQueue = core.batchQueue ∧
      core.sampleTokens.1.calls = .sampleTokens :: core.calls := by
  unfold sampleTokens
  split <;> exact ⟨rfl, rfl, rfl⟩

theorem sampleMasked_frame (batch : Batch) (core : EngineCore σ) :
    (core.sampleMasked batch).1.scheduler = core.scheduler ∧
      (core.sampleMasked batch).1.batchQueue = core.batchQueue ∧
      (core.sampleMasked batch).1.calls =
        .sampleTokens :: .getGrammarBitmask core.scheduler batch :: core.calls :=
  (core.call (.getGrammarBitmask core.scheduler batch)).sampleTokens_frame

theorem appendLeft_batchQueue (hroom : core.batchQueue.length < engine.batchQueueSize)
    (future : Future) (batch : Batch) :
    (core.appendLeft engine future batch).batchQueue = (future, batch) :: core.batchQueue :=
  List.take_of_length_le hroom

theorem launch_ok (hok : core.launch cls cfg host engine = .ok (next, batch, future)) :
    ∃ scheduler output, cls.schedule cfg host core.scheduler = .ok (scheduler, output) ∧
      batch = ⟨output, samples core.scheduler scheduler⟩ ∧
      executeModel engine batch { core with scheduler := scheduler } = (next, future) := by
  obtain ⟨⟨scheduler, output⟩, hschedule, hok⟩ := bind_eq_ok.mp hok
  cases pure_eq_ok.mp hok
  exact ⟨scheduler, output, mapError_eq_ok.mp hschedule, rfl, rfl⟩

theorem launch_batchQueue (hok : core.launch cls cfg host engine = .ok (next, batch, future)) :
    next.batchQueue = core.batchQueue := by
  obtain ⟨scheduler, output, -, -, hexecute⟩ := launch_ok hok
  have hframe := (executeModel_frame engine batch { core with scheduler := scheduler }).2.1
  rwa [hexecute] at hframe

theorem update_ok {outputs : List (Nat × EngineCoreOutput)}
    (hok : core.update cls cfg host engine answers future batch = .ok (next, outputs)) :
    ∃ ran locals, future = .output ran ∧
      cls.updateFromOutput cfg host (core.takeDraftTokenIds engine answers).scheduler batch.output
        (answers.result ran) = .ok locals ∧
      next = { (core.takeDraftTokenIds engine answers).call (.updateFromOutput batch) with
        scheduler := locals.self } := by
  unfold update at hok
  split at hok
  · cases hok
  · cases hok
  · rename_i ran
    obtain ⟨locals, hupdate, hok⟩ := bind_eq_ok.mp hok
    cases pure_eq_ok.mp hok
    exact ⟨ran, locals, rfl, mapError_eq_ok.mp hupdate, rfl⟩

/-- A submitted batch is in the queue, where the executor has what it needs to return it, or waits
for the output of an earlier one. -/
theorem submit_ok {deferred : Option Batch} {modelExecuted : Bool}
    (hok : core.submit cls cfg host engine = .ok (next, deferred, modelExecuted)) :
    ∃ mid batch execFuture, core.launch cls cfg host engine = .ok (mid, batch, execFuture) ∧
      modelExecuted =
        (!engine.ecProducer && decide (0 < batch.output.totalNumScheduledTokens)) ∧
      ((engine.isPoolingModel || !modelExecuted) = true ∧
          next = mid.appendLeft engine execFuture batch ∧ deferred = none ∨
        (engine.isPoolingModel || !modelExecuted) = false ∧
          batch.output.pendingStructuredOutputTokens = true ∧ next = mid ∧ deferred = some batch ∨
        (engine.isPoolingModel || !modelExecuted) = false ∧
          batch.output.pendingStructuredOutputTokens = false ∧
          next = (mid.sampleMasked batch).1.appendLeft engine (mid.sampleMasked batch).2 batch ∧
          deferred = none) := by
  obtain ⟨⟨mid, batch, execFuture⟩, hlaunch, hok⟩ := bind_eq_ok.mp hok
  refine ⟨mid, batch, execFuture, hlaunch, ?_⟩
  dsimp only at hok
  split at hok
  · rename_i hunsampled
    cases pure_eq_ok.mp hok
    exact ⟨rfl, .inl ⟨hunsampled, rfl, rfl⟩⟩
  rename_i hsampled
  rw [Bool.not_eq_true] at hsampled
  split at hok
  · rename_i hpending
    cases pure_eq_ok.mp hok
    exact ⟨rfl, .inr (.inl ⟨hsampled, hpending, rfl, rfl⟩)⟩
  · rename_i hpending
    rw [Bool.not_eq_true] at hpending
    cases pure_eq_ok.mp hok
    exact ⟨rfl, .inr (.inr ⟨hsampled, hpending, rfl, rfl⟩)⟩

theorem resolve_ok {deferred : Option Batch} {modelExecuted executed : Bool}
    {outputs : EngineCoreOutputs}
    (hok : core.resolve cls cfg host engine answers deferred modelExecuted =
      .ok (next, outputs, executed)) :
    ∃ rest future oldest mid outs, core.batchQueue = rest ++ [(future, oldest)] ∧
      { core with batchQueue := rest }.update cls cfg host engine answers future oldest =
        .ok (mid, outs) ∧
      (deferred = none ∧ next = mid ∨ ∃ batch, deferred = some batch ∧
        next = (mid.sampleMasked batch).1.appendLeft engine (mid.sampleMasked batch).2 batch) := by
  unfold resolve at hok
  split at hok
  · cases hok
  · rename_i future oldest hlast
    obtain ⟨⟨mid, outs⟩, hupdate, hok⟩ := bind_eq_ok.mp hok
    refine ⟨core.batchQueue.dropLast, future, oldest, mid, outs,
      (List.dropLast_append_getLast? _ hlast).symm, hupdate, ?_⟩
    dsimp only at hok
    split at hok
    · cases pure_eq_ok.mp hok
      exact .inl ⟨rfl, rfl⟩
    · cases pure_eq_ok.mp hok
      exact .inr ⟨_, rfl, rfl⟩

theorem stepWithBatchQueue_ok {outputs : EngineCoreOutputs} {executed : Bool}
    (hok : core.stepWithBatchQueue cls cfg host engine answers = .ok (next, outputs, executed)) :
    core.batchQueue.length < engine.batchQueueSize ∧
      ((∃ mid deferred modelExecuted, core.submit cls cfg host engine =
          .ok (mid, deferred, modelExecuted) ∧
          (deferred = none ∧ mid.batchQueue.length < engine.batchQueueSize ∧ next = mid ∨
            mid.resolve cls cfg host engine answers deferred modelExecuted =
              .ok (next, outputs, executed))) ∨
        core.batchQueue = [] ∧ next = core ∨
        core.resolve cls cfg host engine answers none false = .ok (next, outputs, executed)) := by
  unfold stepWithBatchQueue at hok
  split at hok
  · cases hok
  rename_i hroom
  refine ⟨Nat.lt_of_not_le hroom, ?_⟩
  split at hok
  · obtain ⟨⟨mid, deferred, modelExecuted⟩, hsubmit, hok⟩ := bind_eq_ok.mp hok
    refine .inl ⟨mid, deferred, modelExecuted, hsubmit, ?_⟩
    dsimp only at hok
    split at hok
    · rename_i hreturns
      simp only [Bool.and_eq_true, decide_eq_true_eq] at hreturns
      cases pure_eq_ok.mp hok
      exact .inl ⟨Option.isNone_iff_eq_none.mp hreturns.1.1.1, hreturns.1.2, rfl⟩
    · exact .inr hok
  · split at hok
    · rename_i hempty
      cases pure_eq_ok.mp hok
      exact .inr (.inl ⟨hempty, rfl⟩)
    · exact .inr (.inr hok)

theorem step_ok {outputs : EngineCoreOutputs} {executed : Bool}
    (hok : core.step cls cfg host engine answers = .ok (next, outputs, executed)) :
    next = core ∨ ∃ mid batch execFuture outs,
      core.launch cls cfg host engine = .ok (mid, batch, execFuture) ∧
      ((mid.call (.getGrammarBitmask mid.scheduler batch)).sampleIfNone execFuture).1.update
        cls cfg host engine answers
        ((mid.call (.getGrammarBitmask mid.scheduler batch)).sampleIfNone execFuture).2 batch =
          .ok (next, outs) := by
  unfold step at hok
  split at hok
  · obtain ⟨⟨mid, batch, execFuture⟩, hlaunch, hok⟩ := bind_eq_ok.mp hok
    obtain ⟨⟨last, outs⟩, hupdate, hok⟩ := bind_eq_ok.mp hok
    cases pure_eq_ok.mp hok
    exact .inr ⟨mid, batch, execFuture, outs, hlaunch, hupdate⟩
  · cases pure_eq_ok.mp hok
    exact .inl rfl

/-! The order of the batches. -/

/-- The launched batches are those that wait for their sampling, those in the queue, and those
whose output the scheduler has been given, from the newest to the oldest. -/
def InOrder (core : EngineCore σ) (deferred : List Batch) : Prop :=
  launched core.calls = deferred ++ core.batchQueue.map Prod.snd ++ updated core.calls

theorem InOrder.of_calls {deferred : List Batch} (horder : core.InOrder deferred)
    (hqueue : next.batchQueue = core.batchQueue)
    (hlaunched : launched next.calls = launched core.calls)
    (hupdated : updated next.calls = updated core.calls) : next.InOrder deferred := by
  unfold InOrder at horder ⊢
  rw [hlaunched, hqueue, hupdated, horder]

theorem InOrder.launch (horder : core.InOrder [])
    (hok : core.launch cls cfg host engine = .ok (next, batch, future)) : next.InOrder [batch] := by
  obtain ⟨scheduler, output, -, -, hexecute⟩ := launch_ok hok
  obtain ⟨-, hqueue, hcalls⟩ :=
    executeModel_frame engine batch { core with scheduler := scheduler }
  rw [hexecute] at hqueue hcalls
  unfold InOrder at horder ⊢
  rw [hcalls, hqueue, launched_executeModel, updated_executeModel, horder]
  rfl

theorem InOrder.sampleTokens {deferred : List Batch} (horder : core.InOrder deferred) :
    core.sampleTokens.1.InOrder deferred := by
  obtain ⟨-, hqueue, hcalls⟩ := core.sampleTokens_frame
  apply horder.of_calls hqueue
  · rw [hcalls, launched_sampleTokens]
  · rw [hcalls, updated_sampleTokens]

theorem InOrder.sampleMasked {deferred : List Batch} (horder : core.InOrder deferred)
    (batch : Batch) : (core.sampleMasked batch).1.InOrder deferred := by
  have hcall : (core.call (.getGrammarBitmask core.scheduler batch)).InOrder deferred := horder
  exact hcall.sampleTokens

theorem InOrder.appendLeft (horder : core.InOrder [batch])
    (hroom : core.batchQueue.length < engine.batchQueueSize) (future : Future) :
    (core.appendLeft engine future batch).InOrder [] := by
  unfold InOrder at horder ⊢
  rw [appendLeft_batchQueue hroom]
  exact horder

theorem InOrder.update {deferred : List Batch} {outputs : List (Nat × EngineCoreOutput)}
    (horder : launched core.calls =
      deferred ++ (core.batchQueue.map Prod.snd ++ [batch]) ++ updated core.calls)
    (hok : core.update cls cfg host engine answers future batch = .ok (next, outputs)) :
    next.InOrder deferred ∧ next.batchQueue = core.batchQueue := by
  obtain ⟨ran, locals, -, -, rfl⟩ := update_ok hok
  have hdrafts : launched (core.takeDraftTokenIds engine answers).calls = launched core.calls ∧
      updated (core.takeDraftTokenIds engine answers).calls = updated core.calls ∧
      (core.takeDraftTokenIds engine answers).batchQueue = core.batchQueue := by
    unfold takeDraftTokenIds
    split <;> exact ⟨rfl, rfl, rfl⟩
  obtain ⟨hlaunched, hupdated, hqueue⟩ := hdrafts
  refine ⟨?_, hqueue⟩
  unfold InOrder
  change launched (core.takeDraftTokenIds engine answers).calls = _ ++
    (core.takeDraftTokenIds engine answers).batchQueue.map Prod.snd ++
      batch :: updated (core.takeDraftTokenIds engine answers).calls
  rw [hlaunched, hqueue, hupdated, horder]
  simp

/-- The queue of a core between two steps. -/
structure Queued (engine : EngineConfig) (core : EngineCore σ) : Prop where
  order : core.InOrder []
  room : core.batchQueue.length < max 1 engine.batchQueueSize

theorem Queued.submit (hqueued : core.Queued engine) (hsize : 1 < engine.batchQueueSize)
    {deferred : Option Batch} {modelExecuted : Bool}
    (hok : core.submit cls cfg host engine = .ok (next, deferred, modelExecuted)) :
    next.InOrder deferred.toList ∧
      next.batchQueue.length + deferred.toList.length = core.batchQueue.length + 1 := by
  have hroom := hqueued.room
  rw [Nat.max_eq_right hsize.le] at hroom
  obtain ⟨mid, batch, execFuture, hlaunch, -, hcases⟩ := submit_ok hok
  have horder := hqueued.order.launch hlaunch
  have hqueue := launch_batchQueue hlaunch
  rw [← hqueue] at hroom
  rcases hcases with ⟨-, rfl, rfl⟩ | ⟨-, -, rfl, rfl⟩ | ⟨-, -, rfl, rfl⟩
  · refine ⟨horder.appendLeft hroom _, ?_⟩
    rw [appendLeft_batchQueue hroom, ← hqueue]
    rfl
  · exact ⟨horder, congrArg (·.length + 1) hqueue⟩
  · have hsampled := (mid.sampleMasked_frame batch).2.1
    refine ⟨(horder.sampleMasked batch).appendLeft (hsampled ▸ hroom) _, ?_⟩
    rw [appendLeft_batchQueue (hsampled ▸ hroom), hsampled, ← hqueue]
    rfl

theorem Queued.resolve (hsize : 1 < engine.batchQueueSize) {deferred : Option Batch}
    (horder : core.InOrder deferred.toList)
    (hlength : core.batchQueue.length + deferred.toList.length ≤ engine.batchQueueSize)
    {modelExecuted executed : Bool} {outputs : EngineCoreOutputs}
    (hok : core.resolve cls cfg host engine answers deferred modelExecuted =
      .ok (next, outputs, executed)) : next.Queued engine := by
  obtain ⟨rest, future, oldest, mid, outs, hqueue, hupdate, hcases⟩ := resolve_ok hok
  unfold InOrder at horder
  rw [hqueue, List.map_append, List.map_singleton] at horder
  obtain ⟨hmid, hrest⟩ := InOrder.update horder hupdate
  change mid.batchQueue = rest at hrest
  rw [hqueue, List.length_append, List.length_singleton] at hlength
  rcases hcases with ⟨rfl, rfl⟩ | ⟨batch, rfl, rfl⟩
  · refine ⟨hmid, ?_⟩
    rw [Option.toList_none, List.length_nil] at hlength
    rw [hrest]
    omega
  · rw [Option.toList_some, List.length_singleton] at hlength
    have hsampled := (mid.sampleMasked_frame batch).2.1
    have hroom : (mid.sampleMasked batch).1.batchQueue.length < engine.batchQueueSize := by
      rw [hsampled, hrest]
      omega
    refine ⟨(hmid.sampleMasked batch).appendLeft hroom _, ?_⟩
    rw [appendLeft_batchQueue hroom, hsampled, hrest, List.length_cons]
    omega

theorem Queued.stepWithBatchQueue (hqueued : core.Queued engine) (hsize : 1 < engine.batchQueueSize)
    {outputs : EngineCoreOutputs} {executed : Bool}
    (hok : core.stepWithBatchQueue cls cfg host engine answers = .ok (next, outputs, executed)) :
    next.Queued engine := by
  obtain ⟨hroom, ⟨mid, deferred, modelExecuted, hsubmit, hcases⟩ | ⟨-, rfl⟩ | hresolve⟩ :=
    stepWithBatchQueue_ok hok
  · obtain ⟨horder, hlength⟩ := hqueued.submit hsize hsubmit
    rcases hcases with ⟨rfl, hshort, rfl⟩ | hresolve
    · exact ⟨horder, hshort.trans_le (le_max_right _ _)⟩
    · exact Queued.resolve hsize horder (by omega) hresolve
  · exact hqueued
  · refine @Queued.resolve _ _ _ _ _ _ _ _ hsize none hqueued.order ?_ _ _ _ hresolve
    rw [Option.toList_none, List.length_nil]
    omega

theorem Queued.step (hqueued : core.Queued engine) (hsize : engine.batchQueueSize ≤ 1)
    {outputs : EngineCoreOutputs} {executed : Bool}
    (hok : core.step cls cfg host engine answers = .ok (next, outputs, executed)) :
    next.Queued engine := by
  have hempty : core.batchQueue = [] := by
    have hroom := hqueued.room
    rw [Nat.max_eq_left hsize] at hroom
    exact List.length_eq_zero_iff.mp (Nat.lt_one_iff.mp hroom)
  rcases step_ok hok with rfl | ⟨mid, batch, execFuture, outs, hlaunch, hupdate⟩
  · exact hqueued
  have horder := hqueued.order.launch hlaunch
  have hqueue := launch_batchQueue hlaunch
  have hcall : (mid.call (.getGrammarBitmask mid.scheduler batch)).InOrder [batch] := horder
  have hsampled :
      ((mid.call (.getGrammarBitmask mid.scheduler batch)).sampleIfNone execFuture).1.InOrder
          [batch] ∧
        ((mid.call (.getGrammarBitmask mid.scheduler batch)).sampleIfNone
          execFuture).1.batchQueue = [] := by
    unfold sampleIfNone
    split
    · exact ⟨hcall.sampleTokens, (sampleTokens_frame _).2.1.trans (hqueue.trans hempty)⟩
    · exact ⟨hcall, hqueue.trans hempty⟩
  obtain ⟨hlast, hnone⟩ := hsampled
  unfold InOrder at hlast
  rw [hnone] at hlast
  have hdone : next.InOrder [] ∧ _ := InOrder.update (by rw [hlast, hnone]; rfl) hupdate
  refine ⟨hdone.1, ?_⟩
  rw [hdone.2, hnone]
  exact lt_max_of_lt_left Nat.one_pos

theorem Queued.handle (hqueued : core.Queued engine) {event : EngineEvent}
    (hok : core.handle cls cfg host engine event = .ok next) : next.Queued engine := by
  cases event with
  | addRequest request =>
      cases hok
      exact ⟨hqueued.order, hqueued.room⟩
  | finishRequest id status =>
      cases hok
      exact ⟨hqueued.order, hqueued.room⟩
  | step answers =>
      obtain ⟨⟨last, outputs, executed⟩, hstep, hok⟩ := bind_eq_ok.mp hok
      cases pure_eq_ok.mp hok
      unfold stepFn at hstep
      split at hstep
      · exact hqueued.stepWithBatchQueue ‹_› hstep
      · exact hqueued.step (by omega) hstep

theorem Queued.empty (engine : EngineConfig) (st : σ) : (empty st).Queued engine :=
  ⟨rfl, lt_max_of_lt_left Nat.one_pos⟩

theorem Queued.run {allowed : EngineCore σ → EngineEvent → Prop} {st : σ}
    (run : (engineCore cls cfg host engine).Run allowed (.empty st) core) : core.Queued engine :=
  run.invariant (Queued.empty engine st) fun _ _ _ hqueued _ hok => hqueued.handle hok

end EngineCore

end VllmMlu.Engine
