import VllmMlu.Sched.Consistency
import VllmMlu.Sched.Grants

/-! How many tokens the unchunk scheduler gives a request that it admits, and which
requests share a step. -/
namespace VllmMlu.Sched
open VllmMlu.Library

variable {σ : Type} {cfg : Config} {host : Host σ} {start : Scheduler σ}

/-- The count that the encoder hook makes of a waiting request's demand. -/
def plannedTokens (cfg : Config) (host : Host σ) (st : σ) (request : Request)
    (numComputedTokens budget : Int) : Int :=
  (planEncoder host st request numComputedTokens
    (numNewWaitingTokens cfg (unchunkRules cfg) request numComputedTokens) budget).2.numNewTokens

/-- Neither the long prefill threshold nor the encoder hook takes tokens off a request. -/
structure Uncut (cfg : Config) (host : Host σ) (st : σ) (request : Request)
    (numComputedTokens budget : Int) : Prop where
  threshold : ¬(0 < cfg.longPrefillTokenThreshold ∧
    cfg.longPrefillTokenThreshold < request.numTokens - numComputedTokens)
  encoder : request.hasEncoderInputs = true →
    (host.tryScheduleEncoderInputs st request numComputedTokens
      (request.numTokens - numComputedTokens) budget).2.numNewTokens =
        request.numTokens - numComputedTokens

@[simp] theorem waitingDemand_unchunk (cfg : Config) (request : Request) :
    waitingDemand cfg (unchunkRules cfg) request = request.numTokens := by
  simp [waitingDemand, unchunkRules]

theorem plannedTokens_between (cfg : Config) (lawful : host.Lawful) (st : σ) (request : Request)
    (numComputedTokens budget : Int) :
    Host.Between (numNewWaitingTokens cfg (unchunkRules cfg) request numComputedTokens)
      (plannedTokens cfg host st request numComputedTokens budget) :=
  planEncoder_between lawful st request numComputedTokens _ budget

/-- A request is given all its tokens exactly when nothing is taken off. -/
theorem plannedTokens_eq_iff (lawful : host.Lawful) {st : σ} {request : Request}
    {numComputedTokens budget : Int}
    (hpositive : 0 < plannedTokens cfg host st request numComputedTokens budget) :
    plannedTokens cfg host st request numComputedTokens budget =
        request.numTokens - numComputedTokens ↔
      Uncut cfg host st request numComputedTokens budget := by
  have hbetween := plannedTokens_between cfg lawful st request numComputedTokens budget
  have hclip : numNewWaitingTokens cfg (unchunkRules cfg) request numComputedTokens =
      clipThreshold cfg (request.numTokens - numComputedTokens) := by
    rw [numNewWaitingTokens, waitingDemand_unchunk]
  rw [hclip] at hbetween
  have hle := clipThreshold_le cfg (request.numTokens - numComputedTokens)
  unfold Host.Between at hbetween
  constructor
  · intro hwhole
    have hsame : clipThreshold cfg (request.numTokens - numComputedTokens) =
        request.numTokens - numComputedTokens := by omega
    refine ⟨fun hcut => ?_, fun hencoder => ?_⟩
    · rw [clipThreshold, if_pos hcut] at hsame
      omega
    · unfold plannedTokens planEncoder at hwhole
      rw [if_pos hencoder, hclip, hsame] at hwhole
      exact hwhole
  · rintro ⟨hthreshold, hencoder⟩
    unfold plannedTokens planEncoder
    rw [hclip, clipThreshold, if_neg hthreshold]
    split
    · rename_i hinputs
      exact hencoder hinputs
    · rfl

/-- How a waiting request was admitted: as it stood when it was, with its computed
tokens and the encoder budget of that moment. -/
structure Admission (cfg : Config) (host : Host σ) (before : Request) (count : Option Int)
    (ready : Request) (numComputedTokens : Int) (st : σ) (budget : Int) : Prop where
  prepared : Prepared cfg (unchunkRules cfg) before ready
  count : count = some (plannedTokens cfg host st ready numComputedTokens budget)
  positive : 0 < plannedTokens cfg host st ready numComputedTokens budget

/-- Every request that the call has admitted so far. -/
def Pass.Planned (cfg : Config) (host : Host σ) (start : Scheduler σ) (pass : Pass σ) : Prop :=
  ∀ id, id ∈ pass.scheduledNewReqs ∨ id ∈ pass.scheduledResumedReqs →
    ∃ ready computed st budget, pass.obj id = ready.admitted computed ∧
      Admission cfg host (start.objs id) (pass.numScheduledTokens.get? id) ready computed st budget

/-! One call. -/

/-- Every request that a call of the unchunk scheduler admits is planned. -/
theorem MLUUnchunkScheduler.loops_planned (lawful : host.Lawful) (hqueues : start.Queues)
    {pass : Pass σ} (hok : MLUUnchunkScheduler.loops cfg host start = .ok pass) :
    pass.Planned cfg host start := by
  intro id hmem
  obtain ⟨ready, computed, st, tokenBudget, encoderBudget, hobj, hgrant⟩ :=
    (loops_granted lawful hqueues hok).entered id hmem
  -- Without chunking a request that does not fit in the budget ends the loop.
  have hplan : waitingTokens cfg (unchunkRules cfg) host st ready computed tokenBudget
      encoderBudget = plannedTokens cfg host st ready computed encoderBudget := by
    rw [waitingTokens, min_eq_left (hgrant.whole rfl)]
    rfl
  have hcount := hgrant.count
  have hpositive := hgrant.positive
  rw [hplan] at hcount hpositive
  exact ⟨ready, computed, st, encoderBudget, hobj, hgrant.prepared, hcount, hpositive⟩

/-- The fields that `verify_max_model_len` reads. -/
structure SchedulerConfig where
  maxNumBatchedTokens : Nat
  maxNumSeqs : Nat
  enableChunkedPrefill : Bool
  maxNumPartialPrefills : Nat
  maxLongPartialPrefills : Nat
  longPrefillTokenThreshold : Int

def SchedulerConfig.verifyMaxModelLen (v1Benchmark : Bool) (config : SchedulerConfig)
    (maxModelLen : Nat) : Except Error SchedulerConfig :=
  if v1Benchmark = false ∧ config.maxNumBatchedTokens < maxModelLen ∧
      config.enableChunkedPrefill = false then .error .valueError
  else if config.maxNumBatchedTokens < config.maxNumSeqs then .error .valueError
  else if 1 < config.maxNumPartialPrefills ∧ config.enableChunkedPrefill = false then
    .error .valueError
  else if 1 < config.maxNumPartialPrefills ∧
      (maxModelLen : Int) < config.longPrefillTokenThreshold then .error .valueError
  else if config.maxNumPartialPrefills < config.maxLongPartialPrefills then .error .valueError
  else .ok config

/-- The scheduler reads its limits and the threshold from an accepted configuration. -/
structure Config.From (cfg : Config) (config : SchedulerConfig) : Prop where
  accepted : config.verifyMaxModelLen cfg.v1Benchmark cfg.maxModelLen = .ok config
  tokens : cfg.maxNumScheduledTokens = config.maxNumBatchedTokens
  seqs : cfg.maxNumRunningReqs = config.maxNumSeqs
  chunked : cfg.enableChunkedPrefill = config.enableChunkedPrefill
  threshold : cfg.longPrefillTokenThreshold = config.longPrefillTokenThreshold

theorem Prepared.hasEncoderInputs {before ready : Request}
    (hprepared : Prepared cfg (unchunkRules cfg) before ready) :
    ready.hasEncoderInputs = before.hasEncoderInputs := by
  obtain ⟨base, hbase, heq, -⟩ := hprepared
  rw [heq, hbase.resolve_right fun hchunked => nomatch hchunked.1]

namespace Samples

/-- The threshold is accepted as long as there is one partial prefill. -/
def thresholdConfig : SchedulerConfig where
  maxNumBatchedTokens := 8
  maxNumSeqs := 4
  enableChunkedPrefill := true
  maxNumPartialPrefills := 1
  maxLongPartialPrefills := 1
  longPrefillTokenThreshold := 1

def thresholdModel : Config := { shortModel with longPrefillTokenThreshold := 1 }

end Samples

end VllmMlu.Sched
