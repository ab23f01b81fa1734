import VllmMlu.Sched.KVCacheManager

/-! The scheduler's own state, and the local variables of one `schedule()` call
with the updates its two loops make to them. -/
namespace VllmMlu.Sched
open VllmMlu.Library

variable {σ : Type}

structure Scheduler (σ : Type) where
  /-- Request objects by id; queues and dictionaries hold ids. -/
  objs : RequestObjects
  /-- The keys of `self.requests`. -/
  requests : List ReqId := []
  running : List ReqId := []
  waiting : List ReqId := []
  finishedReqIds : List ReqId := []
  prevStepScheduledReqIds : List ReqId := []
  draftTokenIds : Option DraftTokenIds := none
  host : σ

def Scheduler.modify (self : Scheduler σ) (id : ReqId) (change : Request → Request) :
    Scheduler σ :=
  { self with objs := Function.update self.objs id (change (self.objs id)) }

@[simp] theorem Scheduler.modify_objs_self (self : Scheduler σ) (id : ReqId)
    (change : Request → Request) : (self.modify id change).objs id = change (self.objs id) := by
  simp [modify]

theorem Scheduler.modify_objs_of_ne (self : Scheduler σ) {id other : ReqId}
    (change : Request → Request) (hne : other ≠ id) :
    (self.modify id change).objs other = self.objs other := by
  simp [modify, hne]

structure Pass (σ : Type) where
  self : Scheduler σ
  reqIndex : Nat := 0
  tokenBudget : Int
  encoderComputeBudget : Int
  scheduledNewReqs : List ReqId := []
  scheduledResumedReqs : List ReqId := []
  scheduledRunningReqs : List ReqId := []
  preemptedReqs : List ReqId := []
  reqToNewBlocks : Dict ReqId KVCacheBlocks := Dict.empty
  numScheduledTokens : Dict ReqId Int := Dict.empty
  scheduledEncoderInputs : Dict ReqId (List Nat) := Dict.empty
  scheduledSpecDecodeTokens : Dict ReqId (List Token) := Dict.empty
  scheduledLoras : List Nat := []
  skippedWaitingRequests : List ReqId := []

/-- What a loop body does next: `continue`, or leave the loop. -/
inductive Flow (σ : Type) where
  | next (pass : Pass σ)
  | halt (pass : Pass σ)

def Flow.pass : Flow σ → Pass σ
  | .next pass | .halt pass => pass

namespace Pass

def start (cfg : Config) (self : Scheduler σ) : Pass σ where
  self := self
  tokenBudget := cfg.maxNumScheduledTokens
  encoderComputeBudget := cfg.maxNumEncoderInputTokens

abbrev obj (pass : Pass σ) (id : ReqId) : Request := pass.self.objs id

abbrev host (pass : Pass σ) : σ := pass.self.host

def modify (pass : Pass σ) (id : ReqId) (change : Request → Request) : Pass σ :=
  { pass with self := pass.self.modify id change }

@[simp] theorem modify_obj_self (pass : Pass σ) (id : ReqId) (change : Request → Request) :
    (pass.modify id change).obj id = change (pass.obj id) :=
  Scheduler.modify_objs_self ..

theorem modify_obj_of_ne (pass : Pass σ) {id other : ReqId} (change : Request → Request)
    (hne : other ≠ id) : (pass.modify id change).obj other = pass.obj other :=
  Scheduler.modify_objs_of_ne _ _ hne

def withHost (pass : Pass σ) (st : σ) : Pass σ :=
  { pass with self := { pass.self with host := st } }

def withRunning (pass : Pass σ) (running : List ReqId) : Pass σ :=
  { pass with self := { pass.self with running := running } }

def withWaiting (pass : Pass σ) (waiting : List ReqId) : Pass σ :=
  { pass with self := { pass.self with waiting := waiting } }

/-! Updates of the running loop. -/

theorem foldl_choice_mem {choose : ReqId → ReqId → ReqId}
    (hchoose : ∀ best other, choose best other = best ∨ choose best other = other)
    (rest : List ReqId) (first : ReqId) : rest.foldl choose first ∈ first :: rest := by
  induction rest generalizing first with
  | nil => simp
  | cons id rest ih =>
      rw [List.foldl_cons]
      rcases hchoose first id with heq | heq
      · rw [heq]
        rcases List.mem_cons.mp (ih first) with hfirst | hrest
        · rw [hfirst]
          exact List.mem_cons_self
        · exact List.mem_cons_of_mem _ (List.mem_cons_of_mem _ hrest)
      · rw [heq]
        exact List.mem_cons_of_mem _ (ih id)

/-- `max(self.running, key=lambda r: (r.priority, r.arrival_time))`. -/
def lowestPriority (objs : RequestObjects) : List ReqId → Option ReqId
  | [] => none
  | id :: rest => some (rest.foldl (fun best other =>
      if (objs best).priority < (objs other).priority ∨
          (objs best).priority = (objs other).priority ∧
            (objs best).arrivalTime < (objs other).arrivalTime
      then other else best) id)

theorem lowestPriority_mem {objs : RequestObjects} {queue : List ReqId} {id : ReqId}
    (hlowest : lowestPriority objs queue = some id) : id ∈ queue := by
  cases queue with
  | nil => cases hlowest
  | cons head rest =>
      cases hlowest
      apply foldl_choice_mem
      intro best other
      split
      · exact .inr rfl
      · exact .inl rfl

/-- The encoder tokens of a preempted request that go back to the budget. -/
def encoderTokensToRestore (host : Host σ) (pass : Pass σ) (id : ReqId) : Int :=
  (((pass.scheduledEncoderInputs.get? id).getD []).map
    (host.getNumEncoderTokens (pass.obj id))).sum

/-- Undo what this call recorded for a request. -/
def forget (host : Host σ) (pass : Pass σ) (id : ReqId) (numTokens : Int) : Pass σ :=
  { pass with
    scheduledRunningReqs := pass.scheduledRunningReqs.erase id
    tokenBudget := pass.tokenBudget + numTokens
    reqToNewBlocks := pass.reqToNewBlocks.pop id
    numScheduledTokens := pass.numScheduledTokens.pop id
    scheduledSpecDecodeTokens := pass.scheduledSpecDecodeTokens.pop id
    scheduledEncoderInputs := pass.scheduledEncoderInputs.pop id
    encoderComputeBudget := pass.encoderComputeBudget + pass.encoderTokensToRestore host id
    reqIndex := pass.reqIndex - 1 }

def unrecord (host : Host σ) (pass : Pass σ) (id : ReqId) : Except Error (Pass σ) :=
  if id ∈ pass.scheduledRunningReqs then
    match pass.numScheduledTokens.get? id, pass.reqToNewBlocks.get? id with
    | some numTokens, some _ => .ok (pass.forget host id numTokens)
    | _, _ => .error .keyError
  else .ok pass

/-- Choose the request to preempt and take it out of `self.running`. -/
def takeVictim (cfg : Config) (host : Host σ) (pass : Pass σ) :
    Except Error (ReqId × Pass σ) :=
  match cfg.policy with
  | .priority =>
      match lowestPriority pass.self.objs pass.self.running with
      | none => .error .valueError
      | some victim =>
          match (pass.withRunning (pass.self.running.erase victim)).unrecord host victim with
          | .error err => .error err
          | .ok pass => .ok (victim, pass)
  | .fcfs =>
      match pass.self.running.getLast? with
      | none => .error .indexError
      | some victim => .ok (victim, pass.withRunning pass.self.running.dropLast)

/-- The victim is the last request in FCFS order; in priority order it may be one
that this call has already scheduled. -/
theorem takeVictim_cases {cfg : Config} {host : Host σ} {pass taken : Pass σ} {victim : ReqId}
    (hok : pass.takeVictim cfg host = .ok (victim, taken)) :
    (cfg.policy = .fcfs ∧ pass.self.running.getLast? = some victim ∧
      taken = pass.withRunning pass.self.running.dropLast) ∨
    (cfg.policy = .priority ∧ victim ∈ pass.self.running ∧
      victim ∉ pass.scheduledRunningReqs ∧
      taken = pass.withRunning (pass.self.running.erase victim)) ∨
    (cfg.policy = .priority ∧ victim ∈ pass.self.running ∧
      victim ∈ pass.scheduledRunningReqs ∧
      ∃ numTokens, pass.numScheduledTokens.get? victim = some numTokens ∧
        taken = (pass.withRunning (pass.self.running.erase victim)).forget host victim
          numTokens) := by
  unfold takeVictim at hok
  split at hok
  · rename_i hpolicy
    split at hok
    · cases hok
    · rename_i found hlowest
      have hmem := lowestPriority_mem hlowest
      unfold unrecord at hok
      split at hok
      · cases hok
      · rename_i result hresult
        cases hok
        split at hresult
        · rename_i hscheduled
          split at hresult
          · rename_i numTokens blocks hnum hblocks
            cases hresult
            exact .inr (.inr ⟨hpolicy, hmem, hscheduled, numTokens, hnum, rfl⟩)
          · cases hresult
        · rename_i hscheduled
          cases hresult
          exact .inr (.inl ⟨hpolicy, hmem, hscheduled, rfl⟩)
  · rename_i hpolicy
    split at hok
    · cases hok
    · rename_i found hlast
      cases hok
      exact .inl ⟨hpolicy, hlast, rfl⟩

/-- Free a victim's blocks and put it back at the head of the waiting queue. -/
def preempt (cfg : Config) (host : Host σ) (pass : Pass σ) (victim : ReqId) : Pass σ :=
  let st := host.freeEncoder (host.freeBlocks pass.host (pass.obj victim)) (pass.obj victim)
  let pass := (pass.withHost st).modify victim Request.preempted
  let pass := pass.withWaiting
    (host.prependRequest cfg.policy pass.self.objs pass.self.waiting victim)
  { pass with preemptedReqs := pass.preemptedReqs ++ [victim] }

def recordRunning (pass : Pass σ) (id : ReqId) (numNewTokens : Int) (newBlocks : KVCacheBlocks) :
    Pass σ :=
  { pass with
    scheduledRunningReqs := pass.scheduledRunningReqs ++ [id]
    reqToNewBlocks := pass.reqToNewBlocks.set id newBlocks
    numScheduledTokens := pass.numScheduledTokens.set id numNewTokens
    tokenBudget := pass.tokenBudget - numNewTokens
    reqIndex := pass.reqIndex + 1 }

/-- Trim the draft tokens to the ones that fit, and take them off the request. -/
def recordSpecTokens (pass : Pass σ) (id : ReqId) (numNewTokens : Int) : Pass σ :=
  let request := pass.obj id
  if request.specTokenIds = [] then pass
  else
    let numScheduledSpecTokens := numNewTokens + request.numComputedTokens -
      request.numTokens - request.numOutputPlaceholders
    let pass :=
      if 0 < numScheduledSpecTokens then
        { pass with
          scheduledSpecDecodeTokens := pass.scheduledSpecDecodeTokens.set id
            (request.specTokenIds.take numScheduledSpecTokens.toNat) }
      else pass
    pass.modify id Request.withoutDrafts

theorem recordSpecTokens_eq (pass : Pass σ) (id : ReqId) (numNewTokens : Int) :
    ∃ specTokens, pass.recordSpecTokens id numNewTokens =
        { pass.modify id Request.withoutDrafts with scheduledSpecDecodeTokens := specTokens } ∧
      (∀ other, other ≠ id → specTokens.get? other = pass.scheduledSpecDecodeTokens.get? other) ∧
      (id ∉ pass.scheduledSpecDecodeTokens.keys →
        (specTokens.get? id).getD [] = (pass.obj id).draftsWithin numNewTokens) := by
  have hdrop : (pass.obj id).specTokenIds = [] →
      pass.modify id Request.withoutDrafts = pass := by
    intro hnil
    simp only [modify, Scheduler.modify]
    rw [Request.withoutDrafts_eq_self hnil, Function.update_eq_self]
  unfold recordSpecTokens
  dsimp only
  split
  · rename_i hnil
    refine ⟨pass.scheduledSpecDecodeTokens, ?_, fun _ _ => rfl, ?_⟩
    · rw [hdrop hnil]
    · intro hfresh
      rw [(Dict.get?_eq_none_iff _ _).mpr hfresh, Request.draftsWithin, hnil, List.take_nil]
      rfl
  · split
    · refine ⟨_, rfl, fun other hne => Dict.get?_set_of_ne _ _ hne, ?_⟩
      intro _
      rw [Dict.get?_set_self]
      rfl
    · rename_i hnonpos
      refine ⟨_, rfl, fun _ _ => rfl, ?_⟩
      intro hfresh
      rw [(Dict.get?_eq_none_iff _ _).mpr hfresh, Request.draftsWithin,
        Int.toNat_of_nonpos (by omega), List.take_zero]
      rfl

def allocateExternal (cfg : Config) (host : Host σ) (request : Request) (st : σ) (i : Nat) : σ :=
  let st := host.allocateEncoder st request i
  if cfg.hasEcConnector then host.ecUpdateStateAfterAlloc st request i else st

def recordEncoder (cfg : Config) (host : Host σ) (pass : Pass σ) (id : ReqId)
    (plan : EncoderPlan) : Pass σ :=
  let pass :=
    if plan.inputsToSchedule = [] then pass
    else { pass.withHost (plan.inputsToSchedule.foldl
        (fun st i => host.allocateEncoder st (pass.obj id) i) pass.host) with
      scheduledEncoderInputs := pass.scheduledEncoderInputs.set id plan.inputsToSchedule
      encoderComputeBudget := plan.computeBudget }
  pass.withHost (plan.externalLoad.foldl (allocateExternal cfg host (pass.obj id)) pass.host)

theorem recordEncoder_eq (cfg : Config) (host : Host σ) (pass : Pass σ) (id : ReqId)
    (plan : EncoderPlan) :
    ∃ st inputs budget, pass.recordEncoder cfg host id plan =
        { pass.withHost st with
          scheduledEncoderInputs := inputs
          encoderComputeBudget := budget } ∧
      (∀ other ∈ inputs.keys, other = id ∨ other ∈ pass.scheduledEncoderInputs.keys) ∧
      (host.OwnsBlocks cfg.blockSize → host.KeepsAll pass.host st) := by
  have hallocate : host.OwnsBlocks cfg.blockSize → ∀ (inputs : List Nat) (st : σ),
      host.KeepsAll st (inputs.foldl (fun st i => host.allocateEncoder st (pass.obj id) i) st) := by
    intro owns inputs
    induction inputs with
    | nil => exact fun _ _ => rfl
    | cons i inputs ih =>
        intro st other
        rw [List.foldl_cons, ih, owns.allocateEncoder_keeps]
  have hexternal : host.OwnsBlocks cfg.blockSize → ∀ (inputs : List Nat) (st : σ),
      host.KeepsAll st (inputs.foldl (allocateExternal cfg host (pass.obj id)) st) := by
    intro owns inputs
    induction inputs with
    | nil => exact fun _ _ => rfl
    | cons i inputs ih =>
        intro st other
        rw [List.foldl_cons, ih]
        unfold allocateExternal
        dsimp only
        split
        · rw [owns.ecUpdate_keeps, owns.allocateEncoder_keeps]
        · rw [owns.allocateEncoder_keeps]
  unfold recordEncoder
  dsimp only
  split
  · refine ⟨_, pass.scheduledEncoderInputs, pass.encoderComputeBudget, rfl, ?_, ?_⟩
    · exact fun _ hmem => .inr hmem
    · exact fun owns => hexternal owns _ _
  · refine ⟨_, _, plan.computeBudget, rfl, ?_, ?_⟩
    · exact fun other hmem => (Dict.mem_keys_set _ _ _ _).mp hmem
    · intro owns other
      exact (hexternal owns _ _ other).trans (hallocate owns _ _ other)

/-- Record a running request that fits. -/
def record (cfg : Config) (host : Host σ) (pass : Pass σ) (id : ReqId) (numNewTokens : Int)
    (newBlocks : KVCacheBlocks) (plan : EncoderPlan) : Pass σ :=
  ((pass.recordRunning id numNewTokens newBlocks).recordSpecTokens id numNewTokens).recordEncoder
    cfg host id plan

theorem record_eq (cfg : Config) (host : Host σ) (pass : Pass σ) (id : ReqId)
    (numNewTokens : Int) (newBlocks : KVCacheBlocks) (plan : EncoderPlan) :
    ∃ specTokens st inputs budget, pass.record cfg host id numNewTokens newBlocks plan =
        { pass with
          self := { pass.self with
            objs := Function.update pass.self.objs id (pass.obj id).withoutDrafts
            host := st }
          reqIndex := pass.reqIndex + 1
          tokenBudget := pass.tokenBudget - numNewTokens
          encoderComputeBudget := budget
          scheduledRunningReqs := pass.scheduledRunningReqs ++ [id]
          reqToNewBlocks := pass.reqToNewBlocks.set id newBlocks
          numScheduledTokens := pass.numScheduledTokens.set id numNewTokens
          scheduledEncoderInputs := inputs
          scheduledSpecDecodeTokens := specTokens } ∧
      (∀ other, other ≠ id → specTokens.get? other = pass.scheduledSpecDecodeTokens.get? other) ∧
      (id ∉ pass.scheduledSpecDecodeTokens.keys →
        (specTokens.get? id).getD [] = (pass.obj id).draftsWithin numNewTokens) ∧
      (∀ other ∈ inputs.keys, other = id ∨ other ∈ pass.scheduledEncoderInputs.keys) ∧
      (host.OwnsBlocks cfg.blockSize → host.KeepsAll pass.host st) := by
  obtain ⟨specTokens, hspec, hother, hself⟩ :=
    (pass.recordRunning id numNewTokens newBlocks).recordSpecTokens_eq id numNewTokens
  obtain ⟨st, inputs, budget, hencoder, hinputs, hkeeps⟩ := recordEncoder_eq cfg host
    ((pass.recordRunning id numNewTokens newBlocks).recordSpecTokens id numNewTokens) id plan
  rw [hspec] at hinputs hkeeps
  refine ⟨specTokens, st, inputs, budget, ?_, hother, hself, hinputs, hkeeps⟩
  rw [record, hencoder, hspec]
  rfl

/-! Updates of the waiting loop. -/

/-- Pop the head of the waiting queue and set it aside for this call. -/
def skipWaiting (cfg : Config) (host : Host σ) (pass : Pass σ) (id : ReqId)
    (rest : List ReqId) : Pass σ :=
  { pass.withWaiting rest with
    skippedWaitingRequests :=
      host.prependRequest cfg.policy pass.self.objs pass.skippedWaitingRequests id }

/-- `VLLM_DISAGG_FAKE_DECODER` replaces the transfer parameters. -/
def transferParams (cfg : Config) (request : Request) : Option KvTransferParams :=
  if cfg.disaggFakeDecoder then
    some (if cfg.numSpeculativeTokens.isSome then { firstTok := some 0, firstSpecTok := some [1] }
      else { firstTok := some 0 })
  else request.kvTransferParams

/-- The tokens the prefill instance computed for a request, taken over by the
decode instance once. -/
def takeTransferredTokens (cfg : Config) (request : Request) : Request :=
  match cfg.disaggTransAllBlocks, transferParams cfg request with
  | true, some params => { request with
      outputTokenIds := request.outputTokenIds ++ params.firstTok.toList
      specTokenIds := params.firstSpecTok.getD request.specTokenIds
      kvTransferParams := some { params with firstTok := none, firstSpecTok := none } }
  | _, params => { request with kvTransferParams := params }

/-- Nothing is taken over but tokens and transfer parameters. -/
theorem takeTransferredTokens_eq (cfg : Config) (request : Request) :
    ∃ outputTokens specTokens params, takeTransferredTokens cfg request =
      { request with
        outputTokenIds := outputTokens
        specTokenIds := specTokens
        kvTransferParams := params } := by
  unfold takeTransferredTokens
  split
  · exact ⟨_, _, _, rfl⟩
  · exact ⟨_, _, _, rfl⟩

def addLora (cfg : Config) (request : Request) (scheduledLoras : List Nat) : List Nat :=
  match cfg.maxLoras, request.loraIntId with
  | some _, some lora => if lora ∈ scheduledLoras then scheduledLoras else scheduledLoras ++ [lora]
  | _, _ => scheduledLoras

/-- Move a request from the waiting queue to `self.running`, with its counters. -/
def enter (cfg : Config) (host : Host σ) (withSpecTokens : Bool) (pass : Pass σ) (id : ReqId)
    (rest : List ReqId) (numComputedTokens numNewTokens : Int) : Pass σ :=
  let request := pass.obj id
  let pass := { (pass.withWaiting rest).withRunning (pass.self.running ++ [id]) with
    reqIndex := pass.reqIndex + 1
    scheduledSpecDecodeTokens :=
      if withSpecTokens ∧ request.specTokenIds ≠ [] then
        pass.scheduledSpecDecodeTokens.set id request.specTokenIds
      else pass.scheduledSpecDecodeTokens
    scheduledLoras := addLora cfg request pass.scheduledLoras
    reqToNewBlocks := pass.reqToNewBlocks.set id (host.getBlocks pass.host id)
    numScheduledTokens := pass.numScheduledTokens.set id numNewTokens
    tokenBudget := pass.tokenBudget - numNewTokens }
  pass.modify id (·.admitted numComputedTokens)

/-- Record a waiting request as new or resumed, by the status it waited with. -/
def accept (cfg : Config) (host : Host σ) (withSpecTokens : Bool) (pass : Pass σ) (id : ReqId)
    (rest : List ReqId) (numComputedTokens numNewTokens : Int) (plan : EncoderPlan) :
    Except Error (Pass σ) :=
  let entered := (pass.enter cfg host withSpecTokens id rest numComputedTokens
    numNewTokens).recordEncoder cfg host id plan
  match (pass.obj id).status with
  | .waiting => .ok { entered with scheduledNewReqs := entered.scheduledNewReqs ++ [id] }
  | .preempted =>
      .ok { entered with scheduledResumedReqs := entered.scheduledResumedReqs ++ [id] }
  | _ => .error .runtimeError

/-- Only new and preempted requests are admitted, and nothing but their own
records and counters changes. -/
theorem accept_eq {cfg : Config} {host : Host σ} {withSpecTokens : Bool} {pass admitted : Pass σ}
    {id : ReqId} {rest : List ReqId} {numComputedTokens numNewTokens : Int} {plan : EncoderPlan}
    (hok : pass.accept cfg host withSpecTokens id rest numComputedTokens numNewTokens plan =
      .ok admitted) :
    ((pass.obj id).status = .waiting ∨ (pass.obj id).status = .preempted) ∧
    ∃ st inputs budget,
      admitted = { pass with
        self := { pass.self with
          objs := Function.update pass.self.objs id ((pass.obj id).admitted numComputedTokens)
          running := pass.self.running ++ [id]
          waiting := rest
          host := st }
        reqIndex := pass.reqIndex + 1
        tokenBudget := pass.tokenBudget - numNewTokens
        encoderComputeBudget := budget
        scheduledNewReqs := pass.scheduledNewReqs ++
          if (pass.obj id).status = .waiting then [id] else []
        scheduledResumedReqs := pass.scheduledResumedReqs ++
          if (pass.obj id).status = .preempted then [id] else []
        reqToNewBlocks := pass.reqToNewBlocks.set id (host.getBlocks pass.host id)
        numScheduledTokens := pass.numScheduledTokens.set id numNewTokens
        scheduledEncoderInputs := inputs
        scheduledSpecDecodeTokens :=
          if withSpecTokens ∧ (pass.obj id).specTokenIds ≠ [] then
            pass.scheduledSpecDecodeTokens.set id (pass.obj id).specTokenIds
          else pass.scheduledSpecDecodeTokens
        scheduledLoras := addLora cfg (pass.obj id) pass.scheduledLoras } ∧
      (∀ other ∈ inputs.keys, other = id ∨ other ∈ pass.scheduledEncoderInputs.keys) ∧
      (host.OwnsBlocks cfg.blockSize → host.KeepsAll pass.host st) := by
  obtain ⟨st, inputs, budget, heq, hinputs, hkeeps⟩ := recordEncoder_eq cfg host
    (pass.enter cfg host withSpecTokens id rest numComputedTokens numNewTokens) id plan
  unfold accept at hok
  dsimp only at hok
  rw [heq] at hok
  split at hok
  · rename_i hstatus
    cases hok
    refine ⟨.inl hstatus, st, inputs, budget, ?_, hinputs, hkeeps⟩
    rw [hstatus]
    simp [enter, withHost, withRunning, withWaiting, modify, Scheduler.modify, obj]
  · rename_i hstatus
    cases hok
    refine ⟨.inr hstatus, st, inputs, budget, ?_, hinputs, hkeeps⟩
    rw [hstatus]
    simp [enter, withHost, withRunning, withWaiting, modify, Scheduler.modify, obj]
  · cases hok

/-- Put the requests set aside back at the head of the waiting queue. -/
def putBackSkipped (cfg : Config) (host : Host σ) (pass : Pass σ) : Pass σ :=
  if pass.skippedWaitingRequests = [] then pass
  else { pass.withWaiting (host.prependRequests cfg.policy pass.self.objs pass.self.waiting
      pass.skippedWaitingRequests) with skippedWaitingRequests := [] }

end Pass

end VllmMlu.Sched
