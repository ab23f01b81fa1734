import VllmMlu.Sched.Pass

/-! The two loops of `schedule()` and the two schedulers built from them. The
chunked scheduler runs the running loop first, the unchunk scheduler the waiting
loop; the loops differ in the clip of the running requests, the slots kept for a
fixed attention window, and what may enter from the waiting queue. -/
namespace VllmMlu.Sched
open VllmMlu.Library

variable {σ : Type}

/-- Where the loops of the two schedulers differ. -/
structure Rules where
  /-- No running request is scheduled past this position. -/
  maxPosition : Request → Int
  fixedWindowTokens : Nat
  /-- The waiting loop takes over transferred tokens and cuts prompts to the budget. -/
  chunked : Bool

def chunkedRules (cfg : Config) : Rules where
  maxPosition := fun _ => cfg.maxModelLen
  fixedWindowTokens := 0
  chunked := true

/-- `min(num_prompt_tokens + max_tokens, max_model_len)`. -/
def maxTotalTokens (cfg : Config) (request : Request) : Int :=
  min (request.numPromptTokens + request.maxTokens) cfg.maxModelLen

def unchunkRules (cfg : Config) : Rules where
  maxPosition := fun request => maxTotalTokens cfg request + cfg.numSpecTokens - 1
  fixedWindowTokens := cfg.windowSize
  chunked := false

def planEncoder (host : Host σ) (st : σ) (request : Request)
    (numComputedTokens numNewTokens budget : Int) : σ × EncoderPlan :=
  if request.hasEncoderInputs then
    host.tryScheduleEncoderInputs st request numComputedTokens numNewTokens budget
  else (st, ⟨[], numNewTokens, budget, []⟩)

def clipThreshold (cfg : Config) (numNewTokens : Int) : Int :=
  if 0 < cfg.longPrefillTokenThreshold ∧ cfg.longPrefillTokenThreshold < numNewTokens then
    cfg.longPrefillTokenThreshold
  else numNewTokens

/-- The number of tokens a running request asks for under a token budget. -/
def numNewRunningTokens (cfg : Config) (rules : Rules) (request : Request) (budget : Int) : Int :=
  min (min (clipThreshold cfg (request.numTokensWithSpec + request.numOutputPlaceholders -
    request.numComputedTokens)) budget) (rules.maxPosition request - request.numComputedTokens)

/-- Allocate slots, preempting one request after another until they fit or the
request itself has been preempted. -/
def allocateOrPreempt (cfg : Config) (rules : Rules) (host : Host σ) (id : ReqId)
    (numNewTokens : Int) : Nat → Pass σ → Except Error (Pass σ × Option KVCacheBlocks)
  | 0, _ => .error .outOfFuel
  | fuel + 1, pass =>
      match allocateSlots cfg host pass.host (pass.obj id)
        { numNewTokens := numNewTokens
          numLookaheadTokens := cfg.numLookaheadTokens
          fixedWindowTokens := rules.fixedWindowTokens } with
      | .error err => .error err
      | .ok (st, some newBlocks) => .ok (pass.withHost st, some newBlocks)
      | .ok (st, none) =>
          if cfg.v1Benchmark then .error .runtimeError
          else
            match (pass.withHost st).takeVictim cfg host with
            | .error err => .error err
            | .ok (victim, pass) =>
                let pass := pass.preempt cfg host victim
                if victim = id then .ok (pass, none)
                else allocateOrPreempt cfg rules host id numNewTokens fuel pass

/-- One iteration of the running loop, on the request at `req_index`. -/
def runningStep (cfg : Config) (rules : Rules) (host : Host σ) (pass : Pass σ) (id : ReqId) :
    Except Error (Flow σ) :=
  let request := pass.obj id
  let (st, plan) := planEncoder host pass.host request request.numComputedTokens
    (numNewRunningTokens cfg rules request pass.tokenBudget) pass.encoderComputeBudget
  let pass := pass.withHost st
  if plan.numNewTokens = 0 then .ok (.next { pass with reqIndex := pass.reqIndex + 1 })
  else
    match allocateOrPreempt cfg rules host id plan.numNewTokens pass.self.running.length pass with
    | .error err => .error err
    | .ok (pass, none) => .ok (.halt pass)
    | .ok (pass, some newBlocks) =>
        .ok (.next (pass.record cfg host id plan.numNewTokens newBlocks plan))

def runningLoop (cfg : Config) (rules : Rules) (host : Host σ) :
    Nat → Pass σ → Except Error (Pass σ)
  | fuel, pass =>
      if 0 < pass.tokenBudget then
        match pass.self.running[pass.reqIndex]?, fuel with
        | none, _ => .ok pass
        | some _, 0 => .error .outOfFuel
        | some id, fuel + 1 =>
            match runningStep cfg rules host pass id with
            | .error err => .error err
            | .ok (.halt pass) => .ok pass
            | .ok (.next pass) => runningLoop cfg rules host fuel pass
      else .ok pass

/-- The tokens of a waiting request that are already computed. -/
structure ComputedTokens where
  newComputedBlocks : KVCacheBlocks
  numNewLocalComputedTokens : Nat
  numExternalComputedTokens : Nat
  loadKvAsync : Bool
  numComputedTokens : Int

/-- Look up the prefix cache and the connector; `none` when the connector cannot
tell yet. -/
def lookUpComputedTokens (cfg : Config) (host : Host σ) (st : σ) (request : Request) :
    σ × Option ComputedTokens :=
  if request.numComputedTokens = 0 then
    let (st, blocks, numLocal) := host.getComputedBlocks st request
    if cfg.hasConnector then
      match host.getNumNewMatchedTokens st request numLocal with
      | (st, none, _) => (st, none)
      | (st, some numExternal, loadKvAsync) =>
          (st, some ⟨blocks, numLocal, numExternal, loadKvAsync, numLocal + numExternal⟩)
    else (st, some ⟨blocks, numLocal, 0, false, numLocal⟩)
  -- Only a request whose remote KV has arrived waits with computed tokens.
  else (st, some ⟨host.emptyKVCacheBlocks, 0, 0, false, request.numComputedTokens⟩)

/-- The tokens that a waiting request has to compute from the first one on. -/
def waitingDemand (cfg : Config) (rules : Rules) (request : Request) : Int :=
  if rules.chunked ∧ cfg.disaggTransAllBlocks ∧ request.specTokenIds ≠ [] then
    request.numTokensWithSpec
  else request.numTokens

/-- The number of tokens a waiting request asks for. -/
def numNewWaitingTokens (cfg : Config) (rules : Rules) (request : Request)
    (numComputedTokens : Int) : Int :=
  clipThreshold cfg (waitingDemand cfg rules request - numComputedTokens)

/-- Allocate slots for the head of the waiting queue and accept it. -/
def allocateWaiting (cfg : Config) (rules : Rules) (host : Host σ) (pass : Pass σ) (id : ReqId)
    (rest : List ReqId) (computed : ComputedTokens) (plan : EncoderPlan) :
    Except Error (Flow σ) :=
  let request := pass.obj id
  let effectiveLookaheadTokens :=
    if request.numComputedTokens = 0 then 0 else cfg.numLookaheadTokens
  let numEncoderTokens :=
    if cfg.isEncoderDecoder ∧ request.hasEncoderInputs then cfg.encoderInputLimit else 0
  match allocateSlots cfg host pass.host request
    { numNewTokens := plan.numNewTokens + computed.numExternalComputedTokens
      numNewComputedTokens := computed.numNewLocalComputedTokens
      newComputedBlocks := some computed.newComputedBlocks
      numLookaheadTokens := effectiveLookaheadTokens
      delayCacheBlocks := computed.loadKvAsync
      numEncoderTokens := numEncoderTokens
      fixedWindowTokens := rules.fixedWindowTokens } with
  | .error err => .error err
  | .ok (st, none) => .ok (.halt (pass.withHost st))
  | .ok (st, some newBlocks) =>
      let st :=
        if cfg.hasConnector then
          host.updateStateAfterAlloc st request
            (KVCacheBlocks.add computed.newComputedBlocks newBlocks)
            computed.numExternalComputedTokens
        else st
      let pass := pass.withHost st
      if computed.loadKvAsync then
        .ok (.next ((pass.skipWaiting cfg host id rest).modify id
          (·.withStatus .waitingForRemoteKvs)))
      else
        match pass.accept cfg host (rules.chunked && cfg.disaggTransAllBlocks) id rest
          computed.numComputedTokens plan.numNewTokens plan with
        | .error err => .error err
        | .ok pass => .ok (.next pass)

/-- Choose the number of new tokens for the head of the waiting queue. -/
def scheduleWaiting (cfg : Config) (rules : Rules) (host : Host σ) (pass : Pass σ) (id : ReqId)
    (rest : List ReqId) (computed : ComputedTokens) : Except Error (Flow σ) :=
  let request := pass.obj id
  if computed.loadKvAsync then
    if computed.numExternalComputedTokens = 0 then
      .error (.assertionError .externalComputedTokens)
    else allocateWaiting cfg rules host pass id rest computed
      ⟨[], 0, pass.encoderComputeBudget, []⟩
  else
    let numNewTokens := numNewWaitingTokens cfg rules request computed.numComputedTokens
    if rules.chunked ∧ cfg.enableChunkedPrefill = false ∧ pass.tokenBudget < numNewTokens then
      .ok (.next (pass.skipWaiting cfg host id rest))
    else if rules.chunked = false ∧ pass.tokenBudget < numNewTokens then .ok (.halt pass)
    else
      let numNewTokens := min numNewTokens pass.tokenBudget
      if numNewTokens ≤ 0 then .error (.assertionError .newTokens)
      else
        let (st, plan) := planEncoder host pass.host request computed.numComputedTokens
          numNewTokens pass.encoderComputeBudget
        let pass := pass.withHost st
        if plan.numNewTokens = 0 then .ok (.halt pass)
        else allocateWaiting cfg rules host pass id rest computed plan

/-- Admitting the request would exceed `max_loras` in this call. -/
def exceedsLoras (cfg : Config) (scheduledLoras : List Nat) (request : Request) : Bool :=
  match cfg.maxLoras, request.loraIntId with
  | some maxLoras, some lora => scheduledLoras.length = maxLoras ∧ lora ∉ scheduledLoras
  | _, _ => false

/-- Check the LoRA bound, then look up the computed tokens. -/
def considerWaiting (cfg : Config) (rules : Rules) (host : Host σ) (pass : Pass σ) (id : ReqId)
    (rest : List ReqId) : Except Error (Flow σ) :=
  let request := pass.obj id
  if exceedsLoras cfg pass.scheduledLoras request then
    .ok (.next (pass.skipWaiting cfg host id rest))
  else
    match lookUpComputedTokens cfg host pass.host request with
    | (st, none) => .ok (.next ((pass.withHost st).skipWaiting cfg host id rest))
    | (st, some computed) => scheduleWaiting cfg rules host (pass.withHost st) id rest computed

/-- Skip a request whose grammar is still being compiled. -/
def awaitGrammar (cfg : Config) (rules : Rules) (host : Host σ) (pass : Pass σ) (id : ReqId)
    (rest : List ReqId) : Except Error (Flow σ) :=
  if (pass.obj id).status = .waitingForFsm then
    if host.grammarCompiled pass.host (pass.obj id) then
      considerWaiting cfg rules host
        (pass.modify id (·.withStatus .waiting)) id rest
    else .ok (.next (pass.skipWaiting cfg host id rest))
  else considerWaiting cfg rules host pass id rest

/-- Skip a request that still waits for its remote KV blocks. -/
def awaitRemoteKv (cfg : Config) (rules : Rules) (host : Host σ) (pass : Pass σ) (id : ReqId)
    (rest : List ReqId) : Except Error (Flow σ) :=
  if (pass.obj id).status = .waitingForRemoteKvs then
    match host.updateWaitingForRemoteKv pass.host (pass.obj id) with
    | (st, none) => .ok (.next ((pass.withHost st).skipWaiting cfg host id rest))
    | (st, some computed) =>
        awaitGrammar cfg rules host ((pass.withHost st).modify id (·.received computed)) id rest
  else awaitGrammar cfg rules host pass id rest

/-- One iteration of the waiting loop, on the head `id` of the queue. -/
def waitingStep (cfg : Config) (rules : Rules) (host : Host σ) (pass : Pass σ) (id : ReqId)
    (rest : List ReqId) : Except Error (Flow σ) :=
  if rules.chunked then
    awaitRemoteKv cfg rules host (pass.modify id (Pass.takeTransferredTokens cfg)) id rest
  else awaitRemoteKv cfg rules host pass id rest

/-- `prefillBatchMet` is `is_prefill_batch_met`, and true for the chunked scheduler. -/
def waitingLoop (cfg : Config) (rules : Rules) (host : Host σ) (prefillBatchMet : Bool) :
    Nat → Pass σ → Except Error (Pass σ)
  | fuel, pass =>
      if 0 < pass.tokenBudget ∧ prefillBatchMet ∧
          pass.self.running.length ≠ cfg.maxNumRunningReqs then
        match host.popRequest cfg.policy pass.self.objs pass.self.waiting, fuel with
        | none, _ => .ok pass
        | some _, 0 => .error .outOfFuel
        | some (id, rest), fuel + 1 =>
            match waitingStep cfg rules host pass id rest with
            | .error err => .error err
            | .ok (.halt pass) => .ok pass
            | .ok (.next pass) => waitingLoop cfg rules host prefillBatchMet fuel pass
      else .ok pass

/-- The constraints `schedule()` asserts before it builds its output. -/
def Pass.meetsConstraints (cfg : Config) (pass : Pass σ) : Prop :=
  pass.numScheduledTokens.total ≤ cfg.maxNumScheduledTokens ∧
  0 ≤ pass.tokenBudget ∧
  pass.self.running.length ≤ cfg.maxNumRunningReqs ∧
  pass.scheduledNewReqs.length + pass.scheduledResumedReqs.length +
    pass.scheduledRunningReqs.length ≤ pass.self.running.length

instance (cfg : Config) (pass : Pass σ) : Decidable (pass.meetsConstraints cfg) := by
  unfold Pass.meetsConstraints
  infer_instance

def Pass.newBlocks (pass : Pass σ) (id : ReqId) : KVCacheBlocks :=
  (pass.reqToNewBlocks.get? id).getD []

def Pass.output (host : Host σ) (pass : Pass σ) : SchedulerOutput where
  scheduledNewReqs := pass.scheduledNewReqs.map fun id =>
    .fromRequest (pass.obj id) (pass.newBlocks id)
  scheduledCachedReqs :=
    (pass.scheduledRunningReqs.map fun id =>
      host.makeCachedRequestData (pass.obj id) false (pass.newBlocks id)) ++
    pass.scheduledResumedReqs.map fun id =>
      host.makeCachedRequestData (pass.obj id) true (pass.newBlocks id)
  numScheduledTokens := pass.numScheduledTokens
  totalNumScheduledTokens := pass.numScheduledTokens.total
  scheduledSpecDecodeTokens := pass.scheduledSpecDecodeTokens
  scheduledEncoderInputs := pass.scheduledEncoderInputs
  finishedReqIds := pass.self.finishedReqIds

/-- The override of `_update_after_schedule` that a scheduler class brings. -/
abbrev UpdateAfterSchedule (σ : Type) :=
  Scheduler σ → SchedulerOutput → Scheduler σ × SchedulerOutput

/-- The common end of both `schedule()` methods. -/
def Pass.finish (cfg : Config) (host : Host σ) (updateAfterSchedule : UpdateAfterSchedule σ)
    (pass : Pass σ) : Except Error (Scheduler σ × SchedulerOutput) :=
  if ¬pass.meetsConstraints cfg then .error (.assertionError .constraints)
  else if ¬∀ id ∈ pass.scheduledNewReqs ++ pass.scheduledResumedReqs ++
      pass.scheduledRunningReqs, id ∈ pass.reqToNewBlocks.keys then .error .keyError
  else
    let output := pass.output host
    let st := if cfg.hasConnector then host.buildConnectorMeta pass.host output else pass.host
    .ok (updateAfterSchedule { pass.self with
      prevStepScheduledReqIds := pass.numScheduledTokens.keys
      host := st } output)

/-- The positive LoRA ids of a list of requests, without repetition. -/
def positiveLoras (objs : RequestObjects) (ids : List ReqId) : List Nat :=
  (ids.filterMap fun id => (objs id).loraIntId.filter (0 < ·)).dedup

/-- `scheduled_loras` as the running loop leaves it. -/
def Pass.collectLoras (cfg : Config) (pass : Pass σ) : Except Error (Pass σ) :=
  match cfg.maxLoras with
  | none => .ok pass
  | some maxLoras =>
      let loras := positiveLoras pass.self.objs pass.scheduledRunningReqs
      if maxLoras < loras.length then .error (.assertionError .scheduledLoras)
      else .ok { pass with scheduledLoras := loras }

theorem Pass.collectLoras_eq {cfg : Config} {pass collected : Pass σ}
    (hok : pass.collectLoras cfg = .ok collected) :
    ∃ loras, collected = { pass with scheduledLoras := loras } := by
  unfold collectLoras at hok
  split at hok
  · cases hok
    exact ⟨_, rfl⟩
  · dsimp only at hok
    split at hok
    · cases hok
    · cases hok
      exact ⟨_, rfl⟩

/-- Nothing is admitted in a call that has preempted a request. -/
def SchedulerWithProfiler.admitWaiting (cfg : Config) (host : Host σ) (pass : Pass σ) :
    Except Error (Pass σ) :=
  if pass.preemptedReqs = [] then
    waitingLoop cfg (chunkedRules cfg) host true pass.self.waiting.length pass
  else .ok pass

/-- The loops of `SchedulerWithProfiler.schedule`. -/
def SchedulerWithProfiler.loops (cfg : Config) (host : Host σ) (self : Scheduler σ) :
    Except Error (Pass σ) := do
  let pass ← runningLoop cfg (chunkedRules cfg) host self.running.length (.start cfg self)
  let pass ← pass.collectLoras cfg
  let pass ← admitWaiting cfg host pass
  pure (pass.putBackSkipped cfg host)

def SchedulerWithProfiler.schedule (cfg : Config) (host : Host σ)
    (updateAfterSchedule : UpdateAfterSchedule σ) (self : Scheduler σ) :
    Except Error (Scheduler σ × SchedulerOutput) := do
  let pass ← loops cfg host self
  pass.finish cfg host updateAfterSchedule

/-- The loops of `MLUUnchunkScheduler.schedule`. -/
def MLUUnchunkScheduler.loops (cfg : Config) (host : Host σ) (self : Scheduler σ) :
    Except Error (Pass σ) := do
  let pass ← (Pass.start cfg self).collectLoras cfg
  let pass ← waitingLoop cfg (unchunkRules cfg) host
    (cfg.v1MinPrefillBatch ≤ self.waiting.length) self.waiting.length
    { pass with reqIndex := self.running.length }
  let pass := pass.putBackSkipped cfg host
  if pass.scheduledNewReqs = [] ∧ pass.scheduledResumedReqs = [] then
    runningLoop cfg (unchunkRules cfg) host pass.self.running.length { pass with reqIndex := 0 }
  else pure pass

def MLUUnchunkScheduler.schedule (cfg : Config) (host : Host σ)
    (updateAfterSchedule : UpdateAfterSchedule σ) (self : Scheduler σ) :
    Except Error (Scheduler σ × SchedulerOutput) := do
  let pass ← loops cfg host self
  pass.finish cfg host updateAfterSchedule

/-! `_update_after_schedule`, of the parent class and of the two async classes. -/

/-- The parent advances the computed tokens of every scheduled request. -/
def Scheduler.advanceComputed (host : Host σ) (self : Scheduler σ) (entry : ReqId × Int) :
    Scheduler σ :=
  let (st, request) := host.updateAfterSchedule self.host (self.objs entry.1) entry.2
  { self with objs := Function.update self.objs entry.1 request, host := st }

def Scheduler.updateAfterSchedule (host : Host σ) (self : Scheduler σ)
    (output : SchedulerOutput) : Scheduler σ :=
  { output.numScheduledTokens.entries.foldl (advanceComputed host) self with
    finishedReqIds := [] }

/-- A request that will sample a token in this step gets a placeholder for it
and for each of its draft tokens, and placeholder drafts for the next step. -/
def Request.reservePlaceholders (cfg : Config) (curNumSpecTokens : Nat) (request : Request) :
    Request :=
  if request.numComputedTokens =
      request.numTokens + request.numOutputPlaceholders + curNumSpecTokens then
    { request with
      numOutputPlaceholders := request.numOutputPlaceholders + (1 + curNumSpecTokens)
      specTokenIds := List.replicate cfg.numSpecTokens placeholderToken }
  else request

def Scheduler.reserveAll (cfg : Config) (self : Scheduler σ) (output : SchedulerOutput) :
    Scheduler σ :=
  output.numScheduledTokens.keys.foldl (fun self id =>
    self.modify id (Request.reservePlaceholders cfg (output.specTokens id).length)) self

def SchedulerWithProfiler.updateAfterSchedule (host : Host σ) : UpdateAfterSchedule σ :=
  fun self output => (self.updateAfterSchedule host output, output)

def AsyncScheduler.updateAfterSchedule (cfg : Config) (host : Host σ) : UpdateAfterSchedule σ :=
  fun self output =>
    let self := self.updateAfterSchedule host output
    (self.reserveAll cfg output,
      { output with
        pendingStructuredOutputTokens := output.numScheduledTokens.keys.any fun id =>
          (self.objs id).useStructuredOutput && 0 < (self.objs id).numOutputPlaceholders })

def MLUUnchunkAsyncScheduler.updateAfterSchedule (cfg : Config) (host : Host σ) :
    UpdateAfterSchedule σ :=
  fun self output => ((self.updateAfterSchedule host output).reserveAll cfg output, output)

/-- The four scheduler classes of the repository. -/
inductive SchedulerClass where
  | profiler
  | async
  | unchunk
  | unchunkAsync
  deriving DecidableEq

def SchedulerClass.isUnchunk : SchedulerClass → Bool
  | .profiler | .async => false
  | .unchunk | .unchunkAsync => true

def SchedulerClass.isAsync : SchedulerClass → Bool
  | .profiler | .unchunk => false
  | .async | .unchunkAsync => true

def SchedulerClass.rules (cls : SchedulerClass) (cfg : Config) : Rules :=
  if cls.isUnchunk then unchunkRules cfg else chunkedRules cfg

def SchedulerClass.updateAfterSchedule (cls : SchedulerClass) (cfg : Config) (host : Host σ) :
    UpdateAfterSchedule σ :=
  match cls with
  | .profiler | .unchunk => SchedulerWithProfiler.updateAfterSchedule host
  | .async => AsyncScheduler.updateAfterSchedule cfg host
  | .unchunkAsync => MLUUnchunkAsyncScheduler.updateAfterSchedule cfg host

def SchedulerClass.loops (cls : SchedulerClass) (cfg : Config) (host : Host σ)
    (self : Scheduler σ) : Except Error (Pass σ) :=
  if cls.isUnchunk then MLUUnchunkScheduler.loops cfg host self
  else SchedulerWithProfiler.loops cfg host self

def SchedulerClass.schedule (cls : SchedulerClass) (cfg : Config) (host : Host σ)
    (self : Scheduler σ) : Except Error (Scheduler σ × SchedulerOutput) :=
  if cls.isUnchunk then
    MLUUnchunkScheduler.schedule cfg host (cls.updateAfterSchedule cfg host) self
  else SchedulerWithProfiler.schedule cfg host (cls.updateAfterSchedule cfg host) self

end VllmMlu.Sched
