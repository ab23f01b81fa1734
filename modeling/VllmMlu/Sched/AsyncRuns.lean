import VllmMlu.Sched.Consistency
import VllmMlu.Sched.Placeholders

/-! What holds in every run of the async schedulers, with batches in flight. -/
namespace VllmMlu.Sched
open VllmMlu.Library

variable {σ : Type} {cfg : Config} {host : Host σ} {cls : SchedulerClass} {st : σ}
  {pipeline : Pipeline σ}

/-- The counters of an unfinished running request: it is still in prefill, or one
position behind the tokens it has and waits for. -/
def Request.Positioned (request : Request) : Prop :=
  0 ≤ request.numOutputPlaceholders ∧
    (request.numOutputPlaceholders = 0 ∧ request.numComputedTokens ≤ request.numTokens ∨
      request.numComputedTokens = request.numTokens + request.numOutputPlaceholders - 1)

instance (request : Request) : Decidable request.Positioned := by
  unfold Request.Positioned
  infer_instance

/-- In every run in which `schedule()` finds no running request past its clip, the
running requests are positioned, and `update_from_output` on the oldest batch
raises no placeholder assertion and caches no block past the tokens. -/
theorem placeholders_accounted (lawful : host.Lawful) (htrims : cls.TrimsDrafts cfg)
    (run : (cls.pipeline cfg host).Run (Event.Smooth (cls.rules cfg))
      ⟨.empty st, []⟩ pipeline) :
    (∀ id ∈ pipeline.sched.requests, (pipeline.sched.objs id).status = .running →
      (pipeline.sched.objs id).Positioned) ∧
    ∀ batch ∈ pipeline.inFlight.head?, ∀ model, batch.Answered model → model.Loaded →
      cls.updateFromOutput cfg host pipeline.sched batch.output model ≠
          .error (.assertionError .outputPlaceholders) ∧
        ∀ locals, cls.updateFromOutput cfg host pipeline.sched batch.output model = .ok locals →
          ∀ call ∈ locals.cacheBlocksCalls, call.2 ≤ call.1.numTokens := by
  have haccounted := Pipeline.Accounted.run lawful htrims run
  constructor
  · intro id hmem hrunning
    unfold Request.Positioned
    rcases (haccounted.accounts id hmem).running hrunning with hprefill | hdecode <;> omega
  · intro batch hhead model hanswered hloaded
    have hasync := htrims.isAsync
    have haccounts := haccounted.accounts
    have hdrafts := haccounted.drafts
    unfold Pipeline.outstanding at haccounts
    obtain ⟨rest, hinFlight⟩ := List.head?_eq_some_iff.mp hhead
    rw [hinFlight] at haccounts hdrafts
    simp only [List.map_cons, List.sum_cons] at haccounts
    have hdrafts := hdrafts batch List.mem_cons_self
    have hrule : RowRule cls host batch model Request.Accounts WithinTokens :=
      batch.rowRule lawful hasync hanswered hdrafts
    have hrest := (Pipeline.mk pipeline.sched rest).outstanding_nonneg
    have hhandled := hloaded.handleInvalidBlocks host pipeline.sched
    constructor
    · refine SchedulerClass.updateFromOutput_ne_outputPlaceholders lawful (.of_answered hanswered)
        hrule hrest hhandled (fun _ _ => List.not_mem_nil) haccounts ?_
      intro id hmem reqIndex hindex request rest hrest hbooks
      exact (rowUpdate_accounts lawful hasync hanswered hdrafts hmem hindex hrest hbooks).1
    · intro locals hok
      exact (SchedulerClass.updateFromOutput_settles lawful (.of_answered hanswered) hrule hrest
        hhandled (fun _ _ => List.not_mem_nil) haccounts hok).2.1

namespace Samples

/-- Two draft tokens for each request, far from `max_model_len`. -/
def longDraftModel : Config := { draftModel with maxModelLen := 16 }

/-- The row of request 0, with the tokens sampled for it. -/
def answer (tokens : List Token) : ModelRunnerOutput :=
  { reqIdToIndex := Dict.empty.set 0 0, sampledTokenIds := [tokens] }

end Samples

open Samples in
theorem placeholders_accounted_drafts : ∃ pipeline batch,
    (SchedulerClass.unchunkAsync.pipeline longDraftModel (Pool.host longDraftModel)).Run
      (Event.Smooth (SchedulerClass.unchunkAsync.rules longDraftModel))
      ⟨.empty pool, []⟩ pipeline ∧
    pipeline.inFlight.head? = some batch ∧
    (pipeline.sched.objs 0).numOutputPlaceholders = 3 ∧ (pipeline.sched.objs 0).Positioned ∧
    SchedulerClass.unchunkAsync.updateFromOutput longDraftModel (Pool.host longDraftModel)
      pipeline.sched batch.output (answer [8, 9]) ≠
        .error (.assertionError .outputPlaceholders) := by
  obtain ⟨pipeline, hrun, htest⟩ := Machine.exists_of_leadsTo
    (SchedulerClass.unchunkAsync.pipeline longDraftModel (Pool.host longDraftModel))
    (Event.Smooth (SchedulerClass.unchunkAsync.rules longDraftModel)) ⟨.empty pool, []⟩
    [.addRequest shortPrompt, .schedule, .schedule, .update (answer [7])]
    (fun pipeline => decide (0 ∈ pipeline.sched.requests) &&
      decide ((pipeline.sched.objs 0).status = .running) &&
      decide ((pipeline.sched.objs 0).numOutputPlaceholders = 3) &&
      pipeline.inFlight.head?.any fun batch : Batch => decide (batch.Answered (answer [8, 9])))
    (by decide +kernel)
  simp only [Bool.and_eq_true, decide_eq_true_eq] at htest
  obtain ⟨⟨⟨hlive, hrunning⟩, hplaceholders⟩, hhead⟩ := htest
  obtain ⟨batch, hbatch, hanswered⟩ := (Option.any_eq_true _ _).mp hhead
  obtain ⟨hpositioned, hupdate⟩ := placeholders_accounted (Pool.host_lawful _) (.inl rfl) hrun
  exact ⟨pipeline, batch, hrun, hbatch, hplaceholders, hpositioned 0 hlive hrunning,
    (hupdate batch hbatch (answer [8, 9]) (of_decide_eq_true hanswered) trivial).1⟩

open Samples in
/-- A prompt of `max_model_len` tokens is scheduled again while its first token is
in flight: it loses a computed token, and no longer counts its placeholder. -/
theorem full_prompt_unpositioned : ∃ pipeline,
    (SchedulerClass.unchunkAsync.pipeline shortModel (Pool.host shortModel)).Run Event.Allowed
      ⟨.empty pool, []⟩ pipeline ∧
    0 ∈ pipeline.sched.requests ∧ (pipeline.sched.objs 0).status = .running ∧
    ¬(pipeline.sched.objs 0).Positioned := by
  obtain ⟨pipeline, hrun, htest⟩ := Machine.exists_of_leadsTo
    (SchedulerClass.unchunkAsync.pipeline shortModel (Pool.host shortModel)) Event.Allowed
    ⟨.empty pool, []⟩ [.addRequest fullPrompt, .schedule, .schedule]
    (fun pipeline => decide (0 ∈ pipeline.sched.requests) &&
      decide ((pipeline.sched.objs 0).status = .running) &&
      decide (¬(pipeline.sched.objs 0).Positioned))
    (by decide +kernel)
  simp only [Bool.and_eq_true, decide_eq_true_eq] at htest
  exact ⟨pipeline, hrun, htest.1.1, htest.1.2, htest.2⟩

end VllmMlu.Sched
