import VllmMlu.Sched.Schedule

/-! What the two loops of `schedule()` can do, as one relation on the local
variables of the call. Both loops of both schedulers are made of these actions,
so what every action preserves holds wherever the call is, at each admission and
at each preemption, and in what it returns. -/
namespace VllmMlu.Sched
open VllmMlu.Library

variable {σ : Type}

/-- What the waiting loop may have done to a request before it admits it or sets
it aside: take over its transferred tokens, and learn that what it waited for is
there. -/
def Prepared (cfg : Config) (rules : Rules) (before request : Request) : Prop :=
  ∃ base, (base = before ∨
      rules.chunked = true ∧ base = Pass.takeTransferredTokens cfg before) ∧
    request = { base with
      status := request.status
      numComputedTokens := request.numComputedTokens } ∧
    (request.numComputedTokens = before.numComputedTokens ∨ 0 ≤ request.numComputedTokens)

/-- The slots that are asked for when a waiting request is admitted. -/
def admissionSlots (cfg : Config) (rules : Rules) (request : Request)
    (computed : ComputedTokens) (numNewTokens : Int) : Int :=
  min (request.numComputedTokens + computed.numNewLocalComputedTokens +
      (numNewTokens + computed.numExternalComputedTokens) +
      (if request.numComputedTokens = 0 then 0 else cfg.numLookaheadTokens) +
      rules.fixedWindowTokens)
    cfg.maxModelLen

/-- The slots that are asked for when a running request is scheduled. -/
def runningSlots (cfg : Config) (rules : Rules) (request : Request) (numNewTokens : Int) : Int :=
  min (request.numComputedTokens + numNewTokens + cfg.numLookaheadTokens +
    rules.fixedWindowTokens) cfg.maxModelLen

/-- `computed` is what the lookup of a request's computed tokens can yield. -/
structure ComputedTokens.LookedUp (computed : ComputedTokens) (request : Request) : Prop where
  total : computed.numComputedTokens = request.numComputedTokens +
    computed.numNewLocalComputedTokens + computed.numExternalComputedTokens

/-- No running request stands past what it may still be given: the state before
the call that the token clip of the running loop relies on. -/
def Clipped (rules : Rules) (self : Scheduler σ) : Prop :=
  ∀ id ∈ self.running,
    (self.objs id).numComputedTokens ≤
      (self.objs id).numTokensWithSpec + (self.objs id).numOutputPlaceholders ∧
    (self.objs id).numComputedTokens ≤ rules.maxPosition (self.objs id)

instance (rules : Rules) (self : Scheduler σ) : Decidable (Clipped rules self) := by
  unfold Clipped
  infer_instance

inductive Action (cfg : Config) (rules : Rules) (host : Host σ) (start : Scheduler σ) :
    Pass σ → Pass σ → Prop where
  | reindex {pass : Pass σ} (index : Nat) :
      Action cfg rules host start pass { pass with reqIndex := index }
  | environment {pass : Pass σ} (st : σ)
      (hkeeps : host.OwnsBlocks cfg.blockSize → ∀ id ∈ pass.numScheduledTokens.keys,
        host.numBlocks st id = host.numBlocks pass.host id) :
      Action cfg rules host start pass (pass.withHost st)
  | preempt {pass taken : Pass σ} {victim : ReqId}
      (hnone : pass.scheduledNewReqs = [] ∧ pass.scheduledResumedReqs = [])
      (htake : pass.takeVictim cfg host = .ok (victim, taken))
      (hfcfs : cfg.policy = .fcfs → victim ∉ pass.scheduledRunningReqs) :
      Action cfg rules host start pass (taken.preempt cfg host victim)
  | record {pass : Pass σ} {id : ReqId} {numNewTokens budget : Int} {newBlocks : KVCacheBlocks}
      {plan : EncoderPlan}
      (hnone : pass.scheduledNewReqs = [] ∧ pass.scheduledResumedReqs = [])
      (hrunning : id ∈ pass.self.running) (hfresh : id ∉ pass.scheduledRunningReqs)
      (hzero : numNewTokens ≠ 0) (hpositive : 0 < budget)
      (hbetween : Host.Between (numNewRunningTokens cfg rules (pass.obj id) budget) numNewTokens)
      (hbudget : Clipped rules start → budget ≤ pass.tokenBudget)
      (hslots : host.OwnsBlocks cfg.blockSize →
        Host.blocksFor cfg.blockSize (runningSlots cfg rules (pass.obj id) numNewTokens) ≤
          host.numBlocks pass.host (pass.obj id).requestId) :
      Action cfg rules host start pass (pass.record cfg host id numNewTokens newBlocks plan)
  | transfer {pass : Pass σ} {id : ReqId} (hchunked : rules.chunked = true)
      (hwaiting : id ∈ pass.self.waiting) (hnone : pass.preemptedReqs = [])
      (hfresh : pass.obj id = start.objs id) :
      Action cfg rules host start pass (pass.modify id (Pass.takeTransferredTokens cfg))
  | receive {pass : Pass σ} {id : ReqId} {computed : Int} (hwaiting : id ∈ pass.self.waiting)
      (hnone : pass.preemptedReqs = [])
      (hstatus : (pass.obj id).status = .waitingForRemoteKvs) (hcomputed : 0 ≤ computed) :
      Action cfg rules host start pass (pass.modify id (·.received computed))
  | compiled {pass : Pass σ} {id : ReqId} (hwaiting : id ∈ pass.self.waiting)
      (hnone : pass.preemptedReqs = [])
      (hstatus : (pass.obj id).status = .waitingForFsm) :
      Action cfg rules host start pass (pass.modify id (·.withStatus .waiting))
  | skip {pass : Pass σ} {id : ReqId} {rest : List ReqId}
      (hperm : pass.self.waiting.Perm (id :: rest)) :
      Action cfg rules host start pass (pass.skipWaiting cfg host id rest)
  | park {pass : Pass σ} {id : ReqId} {rest : List ReqId} (hnone : pass.preemptedReqs = [])
      (hperm : pass.self.waiting.Perm (id :: rest)) :
      Action cfg rules host start pass
        ((pass.skipWaiting cfg host id rest).modify id (·.withStatus .waitingForRemoteKvs))
  | accept {pass admitted : Pass σ} {id : ReqId} {rest : List ReqId} {computed : ComputedTokens}
      {numNewTokens : Int} {plan : EncoderPlan} (hnone : pass.preemptedReqs = [])
      (hunchunk : rules.chunked = false → pass.scheduledRunningReqs = [])
      (hperm : pass.self.waiting.Perm (id :: rest))
      (hroom : pass.self.running.length ≠ cfg.maxNumRunningReqs)
      (hloras : exceedsLoras cfg pass.scheduledLoras (pass.obj id) = false)
      (hlookup : computed.LookedUp (pass.obj id))
      (hpositive : 0 < numNewTokens) (hbudget : numNewTokens ≤ pass.tokenBudget)
      (hcount : numNewTokens ≤
        numNewWaitingTokens cfg rules (pass.obj id) computed.numComputedTokens)
      (hslots : host.OwnsBlocks cfg.blockSize →
        Host.blocksFor cfg.blockSize (admissionSlots cfg rules (pass.obj id) computed
          numNewTokens) ≤ host.numBlocks pass.host (pass.obj id).requestId)
      (haccept : pass.accept cfg host (rules.chunked && cfg.disaggTransAllBlocks) id rest
        computed.numComputedTokens numNewTokens plan = .ok admitted) :
      Action cfg rules host start pass admitted
  | putBack {pass : Pass σ} : Action cfg rules host start pass (pass.putBackSkipped cfg host)
  | loras {pass collected : Pass σ}
      (hnone : pass.scheduledNewReqs = [] ∧ pass.scheduledResumedReqs = []) (hcollect : pass.collectLoras cfg = .ok collected) :
      Action cfg rules host start pass collected

/-- The local variables of a call of `schedule()` on `start`, wherever it is. -/
def Reaches (cfg : Config) (rules : Rules) (host : Host σ) (start : Scheduler σ) :
    Pass σ → Pass σ → Prop :=
  Relation.ReflTransGen (Action cfg rules host start)

end VllmMlu.Sched
