import VllmMlu.Engine.BatchQueue
import VllmMlu.Sched.Consistency
import VllmMlu.Sched.InFlightBound

/-! With one or two concurrent batches, the engine core takes the steps of the scheduler's
pipeline: at most one batch is in flight when a batch is scheduled, and the outputs come back in
the order in which their batches were scheduled. -/
namespace VllmMlu.Engine
open VllmMlu.Library VllmMlu.Sched

variable {σ : Type} {cls : SchedulerClass} {cfg : Config} {host : Host σ} {engine : EngineConfig}
  {core next : EngineCore σ} {answers : Answers} {batch : Batch} {future : Future} {st : σ}
  {clip : Scheduler σ → Prop}

/-- An event of a run without failed loads, whose `schedule()` finds the scheduler within
`clip`. -/
def EventWithin (clip : Scheduler σ → Prop) (pipeline : Pipeline σ) (event : Event) : Prop :=
  event.Clean pipeline ∧ (event = .schedule → clip pipeline.sched)

theorem EventWithin.smooth {rules : Rules} {pipeline : Pipeline σ} {event : Event}
    (hwithin : EventWithin (WithinClip rules) pipeline event) : event.Smooth rules pipeline := by
  cases event with
  | schedule => exact ⟨hwithin.1, hwithin.2 rfl⟩
  | update model => exact hwithin.1
  | addRequest | finishRequest | setDraftTokenIds => exact hwithin.1

/-- The same for the engine core, whose steps schedule first. -/
def EngineEvent.Within (clip : Scheduler σ → Prop) (core : EngineCore σ) (event : EngineEvent) :
    Prop :=
  event.Allowed core ∧ match event with
    | .step _ => clip core.scheduler
    | _ => True

instance [DecidablePred clip] (core : EngineCore σ) (event : EngineEvent) :
    Decidable (event.Within clip core) :=
  match event with
  | .step _ | .addRequest _ | .finishRequest _ _ => instDecidableAnd

namespace EngineCore

/-- The scheduler, with the batches that are to be sampled or to be returned. -/
def view (core : EngineCore σ) (deferred : List Batch) : Pipeline σ :=
  ⟨core.scheduler, (deferred ++ core.batchQueue.map Prod.snd).reverse⟩

/-- Every batch in the queue comes with the future of its own output, and the model runner holds
no batch. -/
structure Sound (core : EngineCore σ) : Prop where
  futures : ∀ entry ∈ core.batchQueue, entry.1 = .output entry.2
  state : core.executeModelState = none

/-- The only batch in the queue never returns an output. -/
def Doomed (core : EngineCore σ) : Prop :=
  ∃ entry, core.batchQueue = [entry] ∧ ∀ batch, entry.1 ≠ .output batch

/-- `executeModel` of a model runner that holds no batch. -/
theorem executeModel_idle (engine : EngineConfig) (batch : Batch)
    (hstate : core.executeModelState = none) :
    ((engine.ecProducer = true ∨ batch.output.totalNumScheduledTokens = 0 ∨
          engine.isPoolingModel = true) ∧
        (executeModel engine batch core).1.executeModelState = none ∧
        (executeModel engine batch core).2 = .output batch) ∨
      ((engine.ecProducer = false ∧ batch.output.totalNumScheduledTokens ≠ 0 ∧
          engine.isPoolingModel = false) ∧
        (executeModel engine batch core).1.executeModelState = some batch ∧
        (executeModel engine batch core).2 = .none) := by
  unfold executeModel
  dsimp only
  have hcall : (core.call (.executeModel batch)).executeModelState = none := hstate
  rw [hcall, Option.isSome_none, if_neg Bool.false_ne_true]
  split
  · rename_i hproducer
    exact .inl ⟨.inl hproducer, hstate, rfl⟩
  rename_i hproducer
  rw [Bool.not_eq_true] at hproducer
  split
  · rename_i hempty
    exact .inl ⟨.inr (.inl hempty), hstate, rfl⟩
  rename_i htokens
  split
  · rename_i hpooling
    exact .inl ⟨.inr (.inr hpooling), hstate, rfl⟩
  · rename_i hpooling
    exact .inr ⟨⟨hproducer, htokens, by rwa [Bool.not_eq_true] at hpooling⟩, rfl, rfl⟩

theorem sampleTokens_held (hstate : core.executeModelState = some batch) :
    core.sampleTokens.1.executeModelState = none ∧ core.sampleTokens.2 = .output batch := by
  unfold sampleTokens
  rw [hstate]
  exact ⟨rfl, rfl⟩

theorem sampleMasked_held (hstate : core.executeModelState = some batch) :
    (core.sampleMasked batch).1.executeModelState = none ∧
      (core.sampleMasked batch).2 = .output batch := by
  have hcall : (core.call (.getGrammarBitmask core.scheduler batch)).executeModelState =
      some batch := hstate
  exact sampleTokens_held hcall

/-- A launch from a sound core: the model runner holds the batch exactly when it has something to
sample. -/
theorem Sound.launch (hsound : core.Sound)
    (hok : core.launch cls cfg host engine = .ok (next, batch, future)) :
    (engine.ecProducer = true ∨ batch.output.totalNumScheduledTokens = 0 ∨
        engine.isPoolingModel = true) ∧
        next.executeModelState = none ∧ future = .output batch ∨
      (engine.ecProducer = false ∧ batch.output.totalNumScheduledTokens ≠ 0 ∧
        engine.isPoolingModel = false) ∧
        next.executeModelState = some batch ∧ future = .none := by
  obtain ⟨scheduler, output, -, -, hexecute⟩ := launch_ok hok
  have hstate : ({ core with scheduler := scheduler } : EngineCore σ).executeModelState = none :=
    hsound.state
  have hcases := executeModel_idle engine batch hstate
  rwa [hexecute] at hcases

/-! The parts of a step as steps of the pipeline. -/

/-- A run of the pipeline leads to the state. -/
def Runs (cls : SchedulerClass) (cfg : Config) (host : Host σ) (clip : Scheduler σ → Prop)
    (st : σ) (pipeline : Pipeline σ) : Prop :=
  (cls.pipeline cfg host).Run (EventWithin clip) ⟨.empty st, []⟩ pipeline

theorem view_of_frame {deferred : List Batch} (hscheduler : next.scheduler = core.scheduler)
    (hqueue : next.batchQueue = core.batchQueue) : next.view deferred = core.view deferred := by
  rw [view, view, hscheduler, hqueue]

theorem view_sampleMasked (batch : Batch) (deferred : List Batch) :
    (core.sampleMasked batch).1.view deferred = core.view deferred :=
  view_of_frame (core.sampleMasked_frame batch).1 (core.sampleMasked_frame batch).2.1

theorem view_appendLeft (hroom : core.batchQueue.length < engine.batchQueueSize)
    (future : Future) (batch : Batch) :
    (core.appendLeft engine future batch).view [] = core.view [batch] := by
  rw [view, appendLeft_batchQueue hroom]
  rfl

theorem Runs.launch (hruns : Runs cls cfg host clip st (core.view []))
    (hroom : core.batchQueue.length ≤ 1) (hclip : clip core.scheduler)
    (hok : core.launch cls cfg host engine = .ok (next, batch, future)) :
    Runs cls cfg host clip st (next.view [batch]) := by
  obtain ⟨scheduler, output, hschedule, hbatch, hexecute⟩ := launch_ok hok
  obtain ⟨hscheduler, hqueue, -⟩ :=
    executeModel_frame engine batch { core with scheduler := scheduler }
  rw [hexecute] at hscheduler hqueue
  have hview : next.view [batch] =
      ⟨scheduler, (core.view []).inFlight ++ [⟨output, samples core.scheduler scheduler⟩]⟩ := by
    rw [view, hscheduler, hqueue, hbatch]
    simp [view]
  have hstep : (core.view []).schedule cls cfg host = .ok (next.view [batch]) := by
    rw [hview, Pipeline.schedule]
    exact bind_eq_ok.mpr ⟨_, hschedule, rfl⟩
  have hallowed : Event.schedule.Clean (core.view []) := by
    change ((core.batchQueue.map Prod.snd).reverse).length ≤ 1
    rwa [List.length_reverse, List.length_map]
  have hevent : EventWithin clip (core.view []) .schedule := ⟨hallowed, fun _ => hclip⟩
  exact Machine.Run.step hruns hevent hstep

/-- A batch that returns is the oldest one in flight. -/
theorem Runs.update {deferred : List Batch} {outputs : List (Nat × EngineCoreOutput)}
    {pipeline : Pipeline σ} (hruns : Runs cls cfg host clip st pipeline)
    (hscheduler : pipeline.sched = core.scheduler)
    (hinFlight : pipeline.inFlight = batch :: (core.view deferred).inFlight)
    (hok : core.update cls cfg host engine answers (.output batch) batch = .ok (next, outputs)) :
    Runs cls cfg host clip st (next.view deferred) ∧
      next.batchQueue = core.batchQueue ∧ next.executeModelState = core.executeModelState := by
  obtain ⟨ran, locals, hran, hupdate, rfl⟩ := update_ok hok
  cases hran
  have hframe : (core.takeDraftTokenIds engine answers).batchQueue = core.batchQueue ∧
      (core.takeDraftTokenIds engine answers).executeModelState = core.executeModelState := by
    unfold EngineCore.takeDraftTokenIds
    split <;> exact ⟨rfl, rfl⟩
  refine ⟨?_, hframe.1, hframe.2⟩
  -- The drafts are set before the update, where they are taken at all.
  have hdrafted : Runs cls cfg host clip st
      ⟨(core.takeDraftTokenIds engine answers).scheduler, pipeline.inFlight⟩ := by
    unfold EngineCore.takeDraftTokenIds
    split
    · have hevent : EventWithin clip pipeline (.setDraftTokenIds answers.draftTokenIds) :=
        ⟨trivial, fun heq => nomatch heq⟩
      have hstep := Machine.Run.step hruns hevent rfl
      rw [hscheduler] at hstep
      exact hstep
    · rw [← hscheduler]
      exact hruns
  have hstep : Pipeline.update cls cfg host
      ⟨(core.takeDraftTokenIds engine answers).scheduler, pipeline.inFlight⟩
      (answers.result batch) = .ok ⟨locals.self, (core.view deferred).inFlight⟩ := by
    rw [hinFlight]
    exact bind_eq_ok.mpr ⟨locals, hupdate, rfl⟩
  have hevent : EventWithin clip
      ⟨(core.takeDraftTokenIds engine answers).scheduler, pipeline.inFlight⟩
      (.update (answers.result batch)) := by
    refine ⟨⟨?_, answers.loaded batch⟩, fun heq => nomatch heq⟩
    intro oldest hmem
    rw [hinFlight, List.head?_cons, Option.mem_some_iff] at hmem
    exact hmem ▸ answers.answered batch
  have hrun := hdrafted.step hevent hstep
  have hview : (⟨locals.self, (core.view deferred).inFlight⟩ : Pipeline σ) =
      view { (core.takeDraftTokenIds engine answers).call (.updateFromOutput batch) with
        scheduler := locals.self } deferred := by
    change _ = Pipeline.mk locals.self
      (deferred ++ (core.takeDraftTokenIds engine answers).batchQueue.map Prod.snd).reverse
    rw [hframe.1]
    rfl
  exact hview ▸ hrun

theorem Runs.resolve {deferred : Option Batch}
    (hruns : Runs cls cfg host clip st (core.view deferred.toList))
    (houtput : ∀ entry ∈ core.batchQueue.getLast?, entry.1 = .output entry.2)
    (hheld : ∀ batch ∈ deferred, core.executeModelState = some batch)
    (hlength : core.batchQueue.length + deferred.toList.length ≤ engine.batchQueueSize)
    {modelExecuted executed : Bool} {outputs : EngineCoreOutputs}
    (hok : core.resolve cls cfg host engine answers deferred modelExecuted =
      .ok (next, outputs, executed)) :
    Runs cls cfg host clip st (next.view []) ∧ ∃ rest oldest,
      core.batchQueue = rest ++ [oldest] ∧
      (deferred = none ∧ next.batchQueue = rest ∧
          next.executeModelState = core.executeModelState ∨
        ∃ batch, deferred = some batch ∧ next.batchQueue = (.output batch, batch) :: rest ∧
          next.executeModelState = none) := by
  obtain ⟨rest, future, oldest, mid, outs, hqueue, hupdate, hcases⟩ := resolve_ok hok
  have hfuture : future = .output oldest := by
    apply houtput (future, oldest)
    rw [hqueue, List.getLast?_append, List.getLast?_singleton]
    rfl
  subst hfuture
  have hinFlight : (core.view deferred.toList).inFlight =
      oldest :: (({ core with batchQueue := rest } : EngineCore σ).view deferred.toList).inFlight := by
    rw [view, hqueue]
    simp [view]
  have hscheduler : (core.view deferred.toList).sched =
      ({ core with batchQueue := rest } : EngineCore σ).scheduler := rfl
  obtain ⟨hrun, hrest, hstate⟩ := Runs.update hruns hscheduler hinFlight hupdate
  change mid.batchQueue = rest at hrest
  rw [hqueue, List.length_append, List.length_singleton] at hlength
  rcases hcases with ⟨rfl, rfl⟩ | ⟨batch, rfl, rfl⟩
  · exact ⟨hrun, rest, _, hqueue, .inl ⟨rfl, hrest, hstate⟩⟩
  · rw [Option.toList_some, List.length_singleton] at hlength
    have hsampled := (mid.sampleMasked_frame batch).2.1.trans hrest
    have hroom : (mid.sampleMasked batch).1.batchQueue.length < engine.batchQueueSize := by
      rw [hsampled]
      omega
    obtain ⟨hnone, houtput⟩ := sampleMasked_held (hstate.trans (hheld batch rfl))
    refine ⟨?_, rest, _, hqueue, .inr ⟨batch, rfl, ?_, hnone⟩⟩
    · rw [view_appendLeft hroom, view_sampleMasked]
      exact hrun
    · rw [appendLeft_batchQueue hroom, hsampled, houtput]

/-- What a submitted batch leaves behind in a sound core. A batch whose counts sum up to less than
nothing is executed but not sampled. -/
inductive Submitted (cls : SchedulerClass) (cfg : Config) (host : Host σ) (core next : EngineCore σ)
    (deferred : Option Batch) : Prop where
  | queued (batch : Batch) (hnone : deferred = none)
      (hqueue : next.batchQueue = (.output batch, batch) :: core.batchQueue)
      (hstate : next.executeModelState = none)
  | unsampled (batch : Batch) (hnone : deferred = none)
      (hqueue : next.batchQueue = (.none, batch) :: core.batchQueue)
      {scheduler : Scheduler σ} {output : SchedulerOutput}
      (hschedule : cls.schedule cfg host core.scheduler = .ok (scheduler, output))
      (hnegative : output.totalNumScheduledTokens < 0)
  | deferred (batch : Batch) (hsome : deferred = some batch)
      (hqueue : next.batchQueue = core.batchQueue) (hstate : next.executeModelState = some batch)

theorem Sound.submit (hsound : core.Sound)
    (hroom : core.batchQueue.length < engine.batchQueueSize) {deferred : Option Batch}
    {modelExecuted : Bool}
    (hok : core.submit cls cfg host engine = .ok (next, deferred, modelExecuted)) :
    Submitted cls cfg host core next deferred := by
  obtain ⟨mid, batch, execFuture, hlaunch, rfl, hcases⟩ := submit_ok hok
  have hheld := hsound.launch hlaunch
  obtain ⟨scheduler, output, hschedule, hbatch, -⟩ := launch_ok hlaunch
  have hqueue := launch_batchQueue hlaunch
  rw [← hqueue] at hroom
  -- A batch that is executed and sampled is one that the model runner holds.
  have hsampled : (engine.isPoolingModel || !(!engine.ecProducer &&
      decide (0 < batch.output.totalNumScheduledTokens))) = false →
      mid.executeModelState = some batch := by
    intro hsampled
    simp only [Bool.or_eq_false_iff, Bool.not_eq_false', Bool.and_eq_true, Bool.not_eq_true',
      decide_eq_true_eq] at hsampled
    rcases hheld with ⟨hidle, -, -⟩ | ⟨-, hstate, -⟩
    · rcases hidle with hproducer | hempty | hpooling
      · exact absurd hproducer (by simp [hsampled.2.1])
      · exact absurd hempty hsampled.2.2.ne'
      · exact absurd hpooling (by simp [hsampled.1])
    · exact hstate
  rcases hcases with ⟨hunsampled, rfl, rfl⟩ | ⟨hsome, -, rfl, rfl⟩ | ⟨hsome, -, rfl, rfl⟩
  · rcases hheld with ⟨-, hstate, rfl⟩ | ⟨⟨hproducer, htokens, hpooling⟩, -, rfl⟩
    · refine .queued batch rfl ?_ hstate
      rw [appendLeft_batchQueue hroom, hqueue]
    · refine .unsampled batch rfl ?_ hschedule ?_
      · rw [appendLeft_batchQueue hroom, hqueue]
      · rw [hproducer, hpooling, hbatch] at hunsampled
        simp only [Bool.false_or, Bool.not_false, Bool.true_and, Bool.not_eq_true',
          decide_eq_false_iff_not] at hunsampled
        rw [hbatch] at htokens
        exact lt_of_le_of_ne (Int.not_lt.mp hunsampled) htokens
  · exact .deferred batch rfl hqueue (hsampled hsome)
  · obtain ⟨hnone, houtput⟩ := sampleMasked_held (hsampled hsome)
    have hframe := (mid.sampleMasked_frame batch).2.1
    refine .queued batch rfl ?_ hnone
    rw [appendLeft_batchQueue (hframe ▸ hroom), hframe, houtput, hqueue]

theorem Runs.submit (hruns : Runs cls cfg host clip st (core.view []))
    (hroom : core.batchQueue.length < engine.batchQueueSize)
    (hsize : engine.batchQueueSize = 2) (hclip : clip core.scheduler) {deferred : Option Batch}
    {modelExecuted : Bool}
    (hok : core.submit cls cfg host engine = .ok (next, deferred, modelExecuted)) :
    Runs cls cfg host clip st (next.view deferred.toList) := by
  obtain ⟨mid, batch, execFuture, hlaunch, -, hcases⟩ := submit_ok hok
  have hrun := hruns.launch (by omega) hclip hlaunch
  rw [← launch_batchQueue hlaunch] at hroom
  rcases hcases with ⟨-, rfl, rfl⟩ | ⟨-, -, rfl, rfl⟩ | ⟨-, -, rfl, rfl⟩
  · rw [Option.toList_none, view_appendLeft hroom]
    exact hrun
  · exact hrun
  · have hframe := (mid.sampleMasked_frame batch).2.1
    rw [Option.toList_none, view_appendLeft (hframe ▸ hroom), view_sampleMasked]
    exact hrun

theorem submit_batchQueue (hroom : core.batchQueue.length < engine.batchQueueSize)
    {deferred : Option Batch} {modelExecuted : Bool}
    (hok : core.submit cls cfg host engine = .ok (next, deferred, modelExecuted)) :
    (deferred = none ∧ ∃ entry, next.batchQueue = entry :: core.batchQueue) ∨
      ∃ batch, deferred = some batch ∧ next.batchQueue = core.batchQueue := by
  obtain ⟨mid, batch, execFuture, hlaunch, -, hcases⟩ := submit_ok hok
  have hqueue := launch_batchQueue hlaunch
  rw [← hqueue] at hroom ⊢
  rcases hcases with ⟨-, rfl, rfl⟩ | ⟨-, -, rfl, rfl⟩ | ⟨-, -, rfl, rfl⟩
  · exact .inl ⟨rfl, _, appendLeft_batchQueue hroom _ _⟩
  · exact .inr ⟨batch, rfl, rfl⟩
  · have hframe := (mid.sampleMasked_frame batch).2.1
    rw [← hframe] at hroom ⊢
    exact .inl ⟨rfl, _, appendLeft_batchQueue hroom _ _⟩

/-- Some call of `schedule()` has recorded counts that sum up to less than nothing. -/
def Overdrawn (cls : SchedulerClass) (cfg : Config) (host : Host σ) (clip : Scheduler σ → Prop)
    (st : σ) : Prop :=
  ∃ pipeline scheduler output, Runs cls cfg host clip st pipeline ∧ clip pipeline.sched ∧
    cls.schedule cfg host pipeline.sched = .ok (scheduler, output) ∧
    output.totalNumScheduledTokens < 0

/-- A core between two steps: a run of the pipeline has led to the scheduler and the batches in
the queue. -/
structure Refined (cls : SchedulerClass) (cfg : Config) (host : Host σ) (engine : EngineConfig)
    (clip : Scheduler σ → Prop) (st : σ) (core : EngineCore σ) : Prop where
  queued : core.Queued engine
  runs : Runs cls cfg host clip st (core.view [])
  sound : core.Sound ∨ core.Doomed ∧ Overdrawn cls cfg host clip st

theorem Doomed.not_resolve (hlast : ∀ entry ∈ core.batchQueue.getLast?, ∀ batch,
      entry.1 ≠ .output batch) {deferred : Option Batch} {modelExecuted executed : Bool}
    {outputs : EngineCoreOutputs} :
    core.resolve cls cfg host engine answers deferred modelExecuted ≠
      .ok (next, outputs, executed) := by
  intro hok
  obtain ⟨rest, future, oldest, mid, outs, hqueue, hupdate, -⟩ := resolve_ok hok
  obtain ⟨ran, -, hran, -, -⟩ := update_ok hupdate
  refine hlast (future, oldest) ?_ ran hran
  rw [hqueue, List.getLast?_append, List.getLast?_singleton]
  rfl

/-- A step from a doomed core waits for the output that never comes. -/
theorem Doomed.not_step (hdoomed : core.Doomed) (hsize : engine.batchQueueSize = 2)
    {outputs : EngineCoreOutputs} {executed : Bool} :
    core.stepWithBatchQueue cls cfg host engine answers ≠ .ok (next, outputs, executed) := by
  intro hok
  obtain ⟨entry, hqueue, hfuture⟩ := hdoomed
  obtain ⟨hroom, ⟨mid, deferred, modelExecuted, hsubmit, hcases⟩ | ⟨hempty, -⟩ | hresolve⟩ :=
    stepWithBatchQueue_ok hok
  · have hmid := submit_batchQueue hroom hsubmit
    have hlast : ∀ last ∈ mid.batchQueue.getLast?, ∀ batch, last.1 ≠ .output batch := by
      intro last hmem
      rcases hmid with ⟨-, newer, hmid⟩ | ⟨batch, -, hmid⟩
      · rw [hmid, hqueue] at hmem
        cases hmem
        exact hfuture
      · rw [hmid, hqueue] at hmem
        cases hmem
        exact hfuture
    rcases hcases with ⟨hnone, hshort, -⟩ | hresolve
    · rcases hmid with ⟨-, newer, hmid⟩ | ⟨batch, hsome, -⟩
      · rw [hmid, hqueue, hsize] at hshort
        exact Nat.lt_irrefl _ hshort
      · cases hnone.symm.trans hsome
    · exact Doomed.not_resolve hlast hresolve
  · rw [hqueue] at hempty
    cases hempty
  · refine Doomed.not_resolve ?_ hresolve
    intro last hmem
    rw [hqueue] at hmem
    cases hmem
    exact hfuture

theorem Refined.stepWithBatchQueue (hrefined : core.Refined cls cfg host engine clip st)
    (hsize : engine.batchQueueSize = 2) (hclip : clip core.scheduler)
    {outputs : EngineCoreOutputs} {executed : Bool}
    (hok : core.stepWithBatchQueue cls cfg host engine answers = .ok (next, outputs, executed)) :
    next.Refined cls cfg host engine clip st := by
  have hqueued := hrefined.queued.stepWithBatchQueue (by omega) hok
  have hsound := hrefined.sound.resolve_right fun hdoomed => hdoomed.1.not_step hsize hok
  obtain ⟨hroom, ⟨mid, deferred, modelExecuted, hsubmit, hcases⟩ | ⟨-, rfl⟩ | hresolve⟩ :=
    stepWithBatchQueue_ok hok
  · have hruns := hrefined.runs.submit hroom hsize hclip hsubmit
    have hlength := (hrefined.queued.submit (by omega) hsubmit).2
    have hone : core.batchQueue.length ≤ 1 := by omega
    cases hsound.submit hroom hsubmit with
    | queued batch hnone hqueue hstate =>
        subst hnone
        have hmid : mid.Sound := by
          refine ⟨fun entry hmem => ?_, hstate⟩
          rw [hqueue] at hmem
          rcases List.mem_cons.mp hmem with rfl | hmem
          · rfl
          · exact hsound.futures entry hmem
        rcases hcases with ⟨-, -, rfl⟩ | hresolve
        · exact ⟨hqueued, hruns, .inl hmid⟩
        · obtain ⟨hlast, rest, oldest, hsplit, hdone⟩ := Runs.resolve hruns
            (fun entry hmem => hmid.futures entry (List.mem_of_getLast? hmem))
            (fun _ hmem => nomatch hmem) (by omega) hresolve
          rcases hdone with ⟨-, hrest, hkept⟩ | ⟨_, hsome, -⟩
          · refine ⟨hqueued, hlast, .inl ⟨fun entry hmem => ?_, hkept.trans hstate⟩⟩
            apply hmid.futures
            rw [hsplit]
            exact List.mem_append_left _ (hrest ▸ hmem)
          · cases hsome
    | unsampled batch hnone hqueue hschedule hnegative =>
        subst hnone
        have hfuture : ∀ ran, (Future.none, batch).1 ≠ .output ran := fun _ heq => nomatch heq
        have hoverdrawn : Overdrawn cls cfg host clip st :=
          ⟨_, _, _, hrefined.runs, hclip, hschedule, hnegative⟩
        -- What is behind the batch returns first, if there is anything.
        match hbehind : core.batchQueue, hone with
        | [], _ =>
            rw [hbehind] at hqueue
            rcases hcases with ⟨-, -, rfl⟩ | hresolve
            · exact ⟨hqueued, hruns, .inr ⟨⟨_, hqueue, hfuture⟩, hoverdrawn⟩⟩
            · refine absurd hresolve (Doomed.not_resolve fun last hmem => ?_)
              rw [hqueue] at hmem
              cases hmem
              exact hfuture
        | [behind], _ =>
            rw [hbehind] at hqueue
            rcases hcases with ⟨-, hshort, rfl⟩ | hresolve
            · rw [hqueue, hsize] at hshort
              exact absurd hshort (Nat.lt_irrefl _)
            · have houtput : ∀ entry ∈ mid.batchQueue.getLast?, entry.1 = .output entry.2 := by
                intro entry hmem
                apply hsound.futures
                rw [hqueue] at hmem
                cases hmem
                rw [hbehind]
                exact List.mem_singleton_self _
              obtain ⟨hlast, rest, oldest, hsplit, hdone⟩ := Runs.resolve hruns houtput
                (fun _ hmem => nomatch hmem) (by omega) hresolve
              rcases hdone with ⟨-, hrest, -⟩ | ⟨_, hsome, -⟩
              · refine ⟨hqueued, hlast, .inr ⟨⟨_, ?_, hfuture⟩, hoverdrawn⟩⟩
                rw [hrest]
                rw [hqueue] at hsplit
                have hsame : [(Future.none, batch)] ++ [behind] = rest ++ [oldest] := hsplit
                exact (List.append_inj_left' hsame rfl).symm
              · cases hsome
    | deferred batch hsome hqueue hstate =>
        subst hsome
        rcases hcases with ⟨hnone, -⟩ | hresolve
        · cases hnone
        · obtain ⟨hlast, rest, oldest, hsplit, hdone⟩ := Runs.resolve hruns
            (fun entry hmem => hsound.futures entry
              (hqueue ▸ List.mem_of_getLast? hmem))
            (fun _ hmem => by rw [← Option.mem_some_iff.mp hmem, hstate]) (by omega) hresolve
          rcases hdone with ⟨hnone, -⟩ | ⟨sampled, hsampled, hrest, hnone⟩
          · cases hnone
          · refine ⟨hqueued, hlast, .inl ⟨fun entry hmem => ?_, hnone⟩⟩
            rw [hrest] at hmem
            rcases List.mem_cons.mp hmem with rfl | hmem
            · rfl
            · apply hsound.futures
              rw [← hqueue, hsplit]
              exact List.mem_append_left _ hmem
  · exact hrefined
  · obtain ⟨hlast, rest, oldest, hsplit, hdone⟩ := @Runs.resolve _ _ _ _ _ _ _ _ _ _ none
      hrefined.runs (fun entry hmem => hsound.futures entry (List.mem_of_getLast? hmem))
      (fun _ hmem => nomatch hmem) (by rw [Option.toList_none, List.length_nil]; omega) _ _ _
      hresolve
    rcases hdone with ⟨-, hrest, hkept⟩ | ⟨_, hsome, -⟩
    · refine ⟨hqueued, hlast, .inl ⟨fun entry hmem => ?_, hkept.trans hsound.state⟩⟩
      apply hsound.futures
      rw [hsplit]
      exact List.mem_append_left _ (hrest ▸ hmem)
    · cases hsome

/-- In `step` the output of a batch is there before the scheduler waits for it. -/
theorem Sound.sampleIfNone (hsound : core.Sound) {mid : EngineCore σ}
    (hok : core.launch cls cfg host engine = .ok (mid, batch, future)) (entry : Call σ) :
    ((mid.call entry).sampleIfNone future).1.scheduler = mid.scheduler ∧
      ((mid.call entry).sampleIfNone future).1.batchQueue = core.batchQueue ∧
      ((mid.call entry).sampleIfNone future).1.executeModelState = none ∧
      ((mid.call entry).sampleIfNone future).2 = .output batch := by
  have hqueue := launch_batchQueue hok
  rcases hsound.launch hok with ⟨-, hnone, rfl⟩ | ⟨-, hheld, rfl⟩
  · exact ⟨rfl, hqueue, hnone, rfl⟩
  · obtain ⟨hscheduler, hframe, -⟩ := (mid.call entry).sampleTokens_frame
    have hcall : (mid.call entry).executeModelState = some batch := hheld
    exact ⟨hscheduler, hframe.trans hqueue, sampleTokens_held hcall⟩

theorem Refined.step (hrefined : core.Refined cls cfg host engine clip st)
    (hsize : engine.batchQueueSize ≤ 1) (hclip : clip core.scheduler)
    {outputs : EngineCoreOutputs} {executed : Bool}
    (hok : core.step cls cfg host engine answers = .ok (next, outputs, executed)) :
    next.Refined cls cfg host engine clip st := by
  have hqueued := hrefined.queued.step hsize hok
  have hempty : core.batchQueue = [] := by
    have hroom := hrefined.queued.room
    rw [Nat.max_eq_left hsize] at hroom
    exact List.length_eq_zero_iff.mp (Nat.lt_one_iff.mp hroom)
  have hsound : core.Sound := by
    refine hrefined.sound.resolve_right fun ⟨⟨entry, hentry, _⟩, _⟩ => ?_
    cases hempty.symm.trans hentry
  rcases step_ok hok with rfl | ⟨mid, batch, execFuture, outs, hlaunch, hupdate⟩
  · exact hrefined
  have hruns := hrefined.runs.launch (by rw [hempty]; exact Nat.zero_le 1) hclip hlaunch
  obtain ⟨hscheduler, hqueue, hstate, hfuture⟩ :=
    hsound.sampleIfNone hlaunch (.getGrammarBitmask mid.scheduler batch)
  rw [hfuture] at hupdate
  have hinFlight : (mid.view [batch]).inFlight = batch ::
      (((mid.call (.getGrammarBitmask mid.scheduler batch)).sampleIfNone execFuture).1.view
        []).inFlight := by
    rw [view, view, hqueue, launch_batchQueue hlaunch, hempty]
    rfl
  obtain ⟨hlast, hnext, hnone⟩ := Runs.update hruns hscheduler.symm hinFlight hupdate
  refine ⟨hqueued, hlast, .inl ⟨fun entry hmem => ?_, hnone.trans hstate⟩⟩
  rw [hnext, hqueue, hempty] at hmem
  cases hmem

theorem Refined.handle (hrefined : core.Refined cls cfg host engine clip st)
    (hsize : engine.batchQueueSize ≤ 2) {event : EngineEvent} (hwithin : event.Within clip core)
    (hok : core.handle cls cfg host engine event = .ok next) :
    next.Refined cls cfg host engine clip st := by
  have hqueued := hrefined.queued.handle hok
  cases event with
  | addRequest request =>
      cases hok
      obtain ⟨⟨hfresh, hid, hunused⟩, -⟩ := hwithin
      have hallowed : (Event.addRequest request).Clean (core.view []) := by
        refine ⟨hfresh, hid, fun batch hmem => ?_⟩
        obtain ⟨entry, hentry, rfl⟩ := List.mem_map.mp (List.mem_reverse.mp hmem)
        exact hunused entry hentry
      have hevent : EventWithin clip (core.view []) (.addRequest request) :=
        ⟨hallowed, fun heq => nomatch heq⟩
      exact ⟨hqueued, Machine.Run.step hrefined.runs hevent rfl,
        hrefined.sound.imp (fun hsound => ⟨hsound.futures, hsound.state⟩) fun hdoomed => hdoomed⟩
  | finishRequest id status =>
      cases hok
      have hevent : EventWithin clip (core.view []) (.finishRequest id status) :=
        ⟨hwithin.1, fun heq => nomatch heq⟩
      exact ⟨hqueued, Machine.Run.step hrefined.runs hevent rfl,
        hrefined.sound.imp (fun hsound => ⟨hsound.futures, hsound.state⟩) fun hdoomed => hdoomed⟩
  | step answers =>
      obtain ⟨⟨last, outputs, executed⟩, hstep, hok⟩ := bind_eq_ok.mp hok
      cases pure_eq_ok.mp hok
      unfold stepFn at hstep
      split at hstep
      · exact hrefined.stepWithBatchQueue (by omega) hwithin.2 hstep
      · exact hrefined.step (by omega) hwithin.2 hstep

theorem Refined.run (hsize : engine.batchQueueSize ≤ 2)
    (run : (engineCore cls cfg host engine).Run (EngineEvent.Within clip) (.empty st) core) :
    core.Refined cls cfg host engine clip st := by
  refine run.invariant ⟨Queued.empty engine st, .refl, .inl ⟨(fun _ hmem => nomatch hmem), rfl⟩⟩ ?_
  exact fun _ _ _ hrefined hwithin hok => hrefined.handle hsize hwithin hok

namespace Samples

/-- A prompt of two tokens whose output follows a grammar. -/
def structuredPrompt : Request :=
  { requestId := 0, promptTokenIds := [5, 6], maxTokens := 4, useStructuredOutput := true }

def structuredModel : Config :=
  { maxNumScheduledTokens := 8
    maxNumRunningReqs := 4
    maxModelLen := 16
    blockSize := 4
    disaggTransAllBlocks := false }

/-- Request 0 samples a token in each of its steps that samples, and no future is done early. -/
def oneToken : Answers where
  oldestDone := false
  draftTokenIds := none
  result batch :=
    { reqIdToIndex := Dict.empty.set 0 0
      sampledTokenIds := [if batch.samples 0 then [7] else []] }
  answered batch := by
    refine ⟨rfl, fun id _ => ?_⟩
    unfold Batch.RowAnswered
    by_cases hid : id = 0
    · subst hid
      change batch.Reports 0 (if batch.samples 0 then [7] else [])
      unfold Batch.Reports
      split
      · exact ⟨List.cons_ne_nil _ _, Nat.le_add_left 1 _⟩
      · rfl
    · rw [Dict.get?_set_of_ne _ _ hid]
      trivial
  loaded _ := trivial

def engineCoreOf (cls : SchedulerClass) : Machine (EngineCore Pool) EngineEvent EngineError :=
  engineCore cls structuredModel (Pool.host structuredModel) { batchQueueSize := 2 }

end Samples

end EngineCore

end VllmMlu.Engine
