import VllmMlu.Sched.WholePrefill

/-! When a call of the unchunk scheduler returns, and when it admits the head of its
waiting queue. -/
namespace VllmMlu.Sched
open VllmMlu.Library

variable {σ : Type} {cfg : Config} {host : Host σ} {start : Scheduler σ}

/-- What vLLM and its connectors promise about computed tokens: some token of a request
is left to compute unless its remote blocks are loaded, and no cached block is found
where caching is disabled. -/
structure Host.LeavesWork (host : Host σ) (cfg : Config) : Prop where
  cached : ∀ st request, 0 < request.numTokens →
    ((host.getComputedBlocks st request).2.2 : Int) < request.numTokens
  matched : ∀ st request numLocal external, cfg.hasConnector = true →
    (host.getNumNewMatchedTokens st request numLocal).2.1 = some external →
      if (host.getNumNewMatchedTokens st request numLocal).2.2 = true then 0 < external
      else (numLocal : Int) < request.numTokens → (numLocal + external : Int) < request.numTokens
  received : ∀ st request computed,
    (host.updateWaitingForRemoteKv st request).2 = some computed → computed < request.numTokens
  uncached : cfg.enableCaching = false → host.emptyKVCacheBlocks.isEmpty = true ∧
    ∀ st request, (host.getComputedBlocks st request).2.1.isEmpty = true

/-- Some token of the request is left to compute. -/
def Request.Unfinished (request : Request) : Prop := request.numComputedTokens < request.numTokens

instance (request : Request) : Decidable request.Unfinished := by
  unfold Request.Unfinished
  infer_instance

/-- The statuses with which a request is admitted. -/
def RequestStatus.admissible : RequestStatus → Bool
  | .waiting | .preempted => true
  | _ => false

theorem lookUpComputedTokens_leavesWork (work : host.LeavesWork cfg) {st after : σ}
    {request : Request} {computed : ComputedTokens} (hunfinished : request.Unfinished)
    (hlookup : lookUpComputedTokens cfg host st request = (after, some computed)) :
    (if computed.loadKvAsync = true then 0 < computed.numExternalComputedTokens
      else computed.numComputedTokens < request.numTokens) ∧
    (cfg.enableCaching = false → computed.newComputedBlocks.isEmpty = true) := by
  unfold lookUpComputedTokens at hlookup
  split at hlookup
  · rename_i hzero
    have hcached := work.cached st request (by unfold Request.Unfinished at hunfinished; omega)
    have hblocks := fun hdisabled => (work.uncached hdisabled).2 st request
    dsimp only at hlookup
    split at hlookup
    · rename_i hconnector
      have hmatched := work.matched (host.getComputedBlocks st request).1 request
        (host.getComputedBlocks st request).2.2
      split at hlookup
      · cases hlookup
      · rename_i asked external loadKvAsync heq
        rw [heq] at hmatched
        have hexternal := hmatched external hconnector rfl
        cases hlookup
        refine ⟨?_, hblocks⟩
        dsimp only at hexternal ⊢
        split
        · rename_i hasync
          rwa [if_pos hasync] at hexternal
        · rename_i hsync
          rw [if_neg hsync] at hexternal
          exact hexternal hcached
    · cases hlookup
      exact ⟨hcached, hblocks⟩
  · cases hlookup
    exact ⟨hunfinished, fun hdisabled => (work.uncached hdisabled).1⟩

theorem allocateSlots_error {st : σ} {request : Request} {slots : SlotRequest} {err : Error}
    (herr : allocateSlots cfg host st request slots = .error err) :
    slots.numNewTokens = 0 ∨ cfg.enableCaching = false ∧
      (slots.newComputedBlocks.getD host.emptyKVCacheBlocks).isEmpty = false := by
  unfold allocateSlots at herr
  split at herr
  · rename_i hzero
    exact .inl hzero
  · dsimp only at herr
    split at herr
    · cases herr
    · split at herr
      · rename_i hblocks
        exact .inr (by simpa using hblocks)
      · split at herr <;> cases herr

/-! The waiting loop raises nothing. -/

/-- A computation that returns, and what holds of its result. -/
def Yields {α : Type} (post : α → Prop) : Except Error α → Prop
  | .ok value => post value
  | .error _ => False

theorem Yields.ok {α : Type} {post : α → Prop} {result : Except Error α}
    (hyields : Yields post result) : ∃ value, result = .ok value ∧ post value := by
  cases result with
  | ok value => exact ⟨value, rfl, hyields⟩
  | error err => exact hyields.elim

theorem Yields.of_ne_error {α : Type} {post : α → Prop} {result : Except Error α}
    (herr : ∀ err, result ≠ .error err) (hok : ∀ value, result = .ok value → post value) :
    Yields post result := by
  cases result with
  | ok value => exact hok value rfl
  | error err => exact herr err rfl

/-- The call has admitted a request. -/
def Pass.Admits (pass : Pass σ) : Prop :=
  pass.scheduledNewReqs ≠ [] ∨ pass.scheduledResumedReqs ≠ []

section WaitingLoop

variable {pass : Pass σ} {id : ReqId} {rest : List ReqId}

theorem Pass.accept_yields {withSpecTokens : Bool} {computed numNewTokens : Int}
    {plan : EncoderPlan} (hstatus : (pass.obj id).status.admissible = true) :
    Yields Pass.Admits
      (pass.accept cfg host withSpecTokens id rest computed numNewTokens plan) := by
  unfold accept
  dsimp only
  split
  · exact .inl (List.append_ne_nil_of_right_ne_nil _ (List.cons_ne_nil _ _))
  · exact .inr (List.append_ne_nil_of_right_ne_nil _ (List.cons_ne_nil _ _))
  · rename_i hwaiting hpreempted
    cases hwaits : (pass.obj id).status with
    | waiting => exact hwaiting hwaits
    | preempted => exact hpreempted hwaits
    | waitingForFsm | waitingForRemoteKvs | running | finishedStopped | finishedLengthCapped
      | finishedAborted =>
        rw [hwaits] at hstatus
        cases hstatus

theorem allocateWaiting_yields (hstatus : (pass.obj id).status.admissible = true)
    {computed : ComputedTokens} {plan : EncoderPlan}
    (hpositive : 0 < plan.numNewTokens + computed.numExternalComputedTokens)
    (hblocks : cfg.enableCaching = false → computed.newComputedBlocks.isEmpty = true) :
    Yields (fun flow => pass.Admits → flow.pass.Admits)
      (allocateWaiting cfg (unchunkRules cfg) host pass id rest computed plan) := by
  unfold allocateWaiting
  dsimp only
  split
  · rename_i hslots
    rcases allocateSlots_error hslots with hzero | ⟨hcaching, hsome⟩
    · dsimp only at hzero
      omega
    · rw [Option.getD_some, hblocks hcaching] at hsome
      cases hsome
  · exact fun hadmits => hadmits
  · split
    · exact fun hadmits => hadmits
    · rename_i st newBlocks _ _
      generalize (if cfg.hasConnector = true then host.updateStateAfterAlloc st (pass.obj _)
        (KVCacheBlocks.add computed.newComputedBlocks newBlocks)
        computed.numExternalComputedTokens else st) = after
      obtain ⟨admitted, haccept, hadmits⟩ := (@Pass.accept_yields _ cfg host
        (pass.withHost after) _ rest ((unchunkRules cfg).chunked && cfg.disaggTransAllBlocks)
        computed.numComputedTokens plan.numNewTokens plan hstatus).ok
      rw [haccept]
      exact fun _ => hadmits

theorem scheduleWaiting_yields (lawful : host.Lawful)
    (hstatus : (pass.obj id).status.admissible = true) {computed : ComputedTokens}
    (hwork : if computed.loadKvAsync = true then 0 < computed.numExternalComputedTokens
      else computed.numComputedTokens < (pass.obj id).numTokens)
    (hblocks : cfg.enableCaching = false → computed.newComputedBlocks.isEmpty = true)
    (hbudget : 0 < pass.tokenBudget) :
    Yields (fun flow => pass.Admits → flow.pass.Admits)
      (scheduleWaiting cfg (unchunkRules cfg) host pass id rest computed) := by
  unfold scheduleWaiting
  dsimp only
  split
  · rename_i hasync
    rw [if_pos hasync] at hwork
    split
    · omega
    · exact allocateWaiting_yields hstatus (by dsimp only; omega) hblocks
  · rename_i hsync
    rw [if_neg hsync] at hwork
    have hdemand : 0 < numNewWaitingTokens cfg (unchunkRules cfg) (pass.obj id)
        computed.numComputedTokens := by
      unfold numNewWaitingTokens clipThreshold
      rw [waitingDemand_unchunk]
      split <;> omega
    split
    · exact fun hadmits => hadmits
    · split
      · exact fun hadmits => hadmits
      · split
        · omega
        · have hbetween := planEncoder_between lawful pass.host (pass.obj id)
            computed.numComputedTokens (min (numNewWaitingTokens cfg (unchunkRules cfg)
              (pass.obj id) computed.numComputedTokens) pass.tokenBudget)
                pass.encoderComputeBudget
          generalize planEncoder host pass.host (pass.obj id) computed.numComputedTokens
            (min (numNewWaitingTokens cfg (unchunkRules cfg) (pass.obj id)
              computed.numComputedTokens) pass.tokenBudget) pass.encoderComputeBudget =
                planned at hbetween ⊢
          obtain ⟨st, plan⟩ := planned
          unfold Host.Between at hbetween
          dsimp only at hbetween ⊢
          split
          · exact fun hadmits => hadmits
          · have hplan : 0 < plan.numNewTokens + computed.numExternalComputedTokens := by omega
            exact @allocateWaiting_yields _ cfg host (pass.withHost st) id rest hstatus computed
              plan hplan hblocks

theorem considerWaiting_yields (lawful : host.Lawful) (work : host.LeavesWork cfg)
    (hstatus : (pass.obj id).status.admissible = true) (hunfinished : (pass.obj id).Unfinished)
    (hbudget : 0 < pass.tokenBudget) :
    Yields (fun flow => pass.Admits → flow.pass.Admits)
      (considerWaiting cfg (unchunkRules cfg) host pass id rest) := by
  unfold considerWaiting
  dsimp only
  split
  · exact fun hadmits => hadmits
  · split
    · exact fun hadmits => hadmits
    · rename_i st computed hlookup
      obtain ⟨hwork, hblocks⟩ := lookUpComputedTokens_leavesWork work hunfinished hlookup
      exact @scheduleWaiting_yields _ cfg host (pass.withHost st) id rest lawful hstatus computed
        hwork hblocks hbudget

theorem awaitGrammar_yields (lawful : host.Lawful) (work : host.LeavesWork cfg)
    (hstatus : (pass.obj id).status = .waitingForFsm ∨
      (pass.obj id).status.admissible = true) (hunfinished : (pass.obj id).Unfinished)
    (hbudget : 0 < pass.tokenBudget) :
    Yields (fun flow => pass.Admits → flow.pass.Admits)
      (awaitGrammar cfg (unchunkRules cfg) host pass id rest) := by
  unfold awaitGrammar
  split
  · split
    · have hcompiled := Pass.modify_obj_self pass id (·.withStatus .waiting)
      refine @considerWaiting_yields _ cfg host (pass.modify id (·.withStatus .waiting)) id rest
        lawful work ?_ ?_ hbudget
      · rw [hcompiled]
        rfl
      · rw [hcompiled]
        exact hunfinished
    · exact fun hadmits => hadmits
  · rename_i hgrammar
    exact considerWaiting_yields lawful work (hstatus.resolve_left hgrammar) hunfinished hbudget

theorem RequestStatus.admissible_of_waits {status : RequestStatus} (hwaits : status.waits = true)
    (hremote : status ≠ .waitingForRemoteKvs) :
    status = .waitingForFsm ∨ status.admissible = true := by
  cases status with
  | waiting | preempted => exact .inr rfl
  | waitingForFsm => exact .inl rfl
  | waitingForRemoteKvs => exact absurd rfl hremote
  | running | finishedStopped | finishedLengthCapped | finishedAborted => cases hwaits

/-- An iteration of the waiting loop raises nothing, and keeps what was admitted. -/
theorem waitingStep_yields (lawful : host.Lawful) (work : host.LeavesWork cfg)
    (hwaits : (pass.obj id).status.waits = true) (hunfinished : (pass.obj id).Unfinished)
    (hbudget : 0 < pass.tokenBudget) :
    Yields (fun flow => pass.Admits → flow.pass.Admits)
      (waitingStep cfg (unchunkRules cfg) host pass id rest) := by
  change Yields _ (awaitRemoteKv cfg (unchunkRules cfg) host pass id rest)
  unfold awaitRemoteKv
  split
  · split
    · exact fun hadmits => hadmits
    · rename_i st computed hreceived
      have harrived := work.received pass.host (pass.obj id) computed (by rw [hreceived])
      have hobj := Pass.modify_obj_self (pass.withHost st) id (·.received computed)
      refine @awaitGrammar_yields _ cfg host ((pass.withHost st).modify id (·.received computed))
        id rest lawful work (.inr ?_) ?_ hbudget
      · rw [hobj]
        rfl
      · rw [hobj]
        exact harrived
  · rename_i hremote
    exact awaitGrammar_yields lawful work (RequestStatus.admissible_of_waits hwaits hremote)
      hunfinished hbudget

/-- The waiting loop raises nothing, and keeps what was admitted. -/
theorem waitingLoop_yields (lawful : host.Lawful) (hqueues : start.Queues)
    (work : host.LeavesWork cfg) (prefillBatchMet : Bool) (fuel : Nat) {pass : Pass σ}
    (hqueued : pass.Queued cfg (unchunkRules cfg) host start)
    (hunfinished : ∀ other ∈ pass.self.waiting, (pass.obj other).Unfinished)
    (hfuel : pass.self.waiting.length ≤ fuel) :
    Yields (fun last => pass.Admits → last.Admits)
      (waitingLoop cfg (unchunkRules cfg) host prefillBatchMet fuel pass) := by
  induction fuel generalizing pass with
  | zero =>
      unfold waitingLoop
      split
      · split
        · exact fun hadmits => hadmits
        · rename_i hpop _
          have hperm := lawful.popRequest_perm _ _ _ _ _ hpop
          rw [List.eq_nil_of_length_eq_zero (Nat.le_zero.mp hfuel)] at hperm
          exact absurd hperm.length_eq (by simp)
        · rename_i heq
          cases heq
      · exact fun hadmits => hadmits
  | succ fuel ih =>
      unfold waitingLoop
      split
      · rename_i hcondition
        split
        · exact fun hadmits => hadmits
        · rename_i heq
          cases heq
        · rename_i id rest _ hpop heq
          cases heq
          have hperm := lawful.popRequest_perm _ _ _ _ _ hpop
          have hhead : pass.Head cfg (unchunkRules cfg) host start id rest :=
            { hqueued with perm := hperm, room := hcondition.2.2 }
          have hplaced := Pass.Placed.reaches lawful hqueues hqueued.reaches
          have hwaits := hplaced.waiting_status id (List.mem_append_left _ hhead.mem_waiting)
          have hstep := waitingStep_within lawful hqueues hhead nofun
          obtain ⟨flow, hflow, hadmits⟩ := (@waitingStep_yields _ cfg host pass id rest lawful work
            hwaits (hunfinished id hhead.mem_waiting) hcondition.1).ok
          have hpost := hstep.of_ok hflow
          rw [hflow]
          cases flow with
          | halt halted => exact hadmits
          | next next =>
              have hrest : next.self.waiting = rest := hpost.rest next rfl
              have hlength := hperm.length_eq
              rw [List.length_cons] at hlength
              have hleft : ∀ other ∈ next.self.waiting, (next.obj other).Unfinished := by
                intro other hmem
                rw [hrest] at hmem
                have hne := (hplaced.accept_rest hqueues hperm other
                  (List.mem_append_left _ hmem)).1
                rw [show next.obj other = pass.obj other from hpost.objs other hne]
                exact hunfinished other (hperm.mem_iff.mpr (List.mem_cons_of_mem _ hmem))
              obtain ⟨last, hlast, hkeeps⟩ := (@ih next
                ⟨hpost.reaches, hpost.nonePreempted, hpost.phase⟩ hleft
                (by rw [hrest]; omega)).ok
              dsimp only
              rw [hlast]
              exact fun hbefore => hkeeps (hadmits hbefore)
      · exact fun hadmits => hadmits

end WaitingLoop

/-! The head of the waiting queue is admitted when it fits. -/

/-- A request whose grammar is compiled waits no longer. -/
def Request.considered (request : Request) : Request :=
  if request.status = .waitingForFsm then request.withStatus .waiting else request

/-- The slots that a waiting request asks for. -/
def waitingSlots (cfg : Config) (request : Request) (computed : ComputedTokens)
    (numNewTokens : Int) : SlotRequest where
  numNewTokens := numNewTokens + computed.numExternalComputedTokens
  numNewComputedTokens := computed.numNewLocalComputedTokens
  newComputedBlocks := some computed.newComputedBlocks
  numLookaheadTokens := (if request.numComputedTokens = 0 then 0 else cfg.numLookaheadTokens : Nat)
  delayCacheBlocks := computed.loadKvAsync
  numEncoderTokens :=
    if cfg.isEncoderDecoder ∧ request.hasEncoderInputs then cfg.encoderInputLimit else 0
  fixedWindowTokens := cfg.windowSize

/-- The free blocks suffice for what is asked for. -/
def SlotRequest.Fits (cfg : Config) (host : Host σ) (st : σ) (request : Request)
    (slots : SlotRequest) : Prop :=
  host.getNumBlocksToAllocate
      (host.removeSkippedBlocks st request.requestId request.numComputedTokens) request.requestId
      (slots.numTokensNeedSlot cfg request)
      (slots.newComputedBlocks.getD host.emptyKVCacheBlocks) slots.numEncoderTokens ≤
    host.getNumFreeBlocks
      (host.removeSkippedBlocks st request.requestId request.numComputedTokens)

instance (host : Host σ) (st : σ) (request : Request) (slots : SlotRequest) :
    Decidable (slots.Fits cfg host st request) := by
  unfold SlotRequest.Fits
  infer_instance

theorem SlotRequest.Fits.not_none {st : σ} {request : Request} {slots : SlotRequest}
    (hfits : slots.Fits cfg host st request) (after : σ) :
    allocateSlots cfg host st request slots ≠ .ok (after, none) := by
  intro hnone
  unfold allocateSlots at hnone
  unfold SlotRequest.Fits at hfits
  dsimp only at hnone
  split at hnone
  · cases hnone
  · split at hnone
    · omega
    · split at hnone
      · cases hnone
      · split at hnone <;> cases hnone

/-- Tokens and blocks are left for a waiting request in a call that has scheduled
nothing yet. -/
structure ComputedTokens.Fits (cfg : Config) (host : Host σ) (st : σ) (request : Request)
    (computed : ComputedTokens) : Prop where
  loaded : computed.loadKvAsync = false
  budget : numNewWaitingTokens cfg (unchunkRules cfg) request computed.numComputedTokens ≤
    cfg.maxNumScheduledTokens
  encoder : plannedTokens cfg host st request computed.numComputedTokens
    cfg.maxNumEncoderInputTokens ≠ 0
  blocks : (waitingSlots cfg request computed (plannedTokens cfg host st request
      computed.numComputedTokens cfg.maxNumEncoderInputTokens)).Fits cfg host
    (planEncoder host st request computed.numComputedTokens
      (numNewWaitingTokens cfg (unchunkRules cfg) request computed.numComputedTokens)
      cfg.maxNumEncoderInputTokens).1 request

/-- The head of the waiting queue is schedulable and fits. -/
structure HeadFits (cfg : Config) (host : Host σ) (sched : Scheduler σ) (id : ReqId)
    (rest : List ReqId) : Prop where
  head : host.popRequest cfg.policy sched.objs sched.waiting = some (id, rest)
  loaded : (sched.objs id).status ≠ .waitingForRemoteKvs
  compiled : (sched.objs id).status = .waitingForFsm →
    host.grammarCompiled sched.host (sched.objs id) = true
  loras : cfg.maxLoras ≠ some 0
  room : 0 < cfg.maxNumRunningReqs
  fits : ∃ st computed,
    lookUpComputedTokens cfg host sched.host (sched.objs id).considered = (st, some computed) ∧
      computed.Fits cfg host st (sched.objs id).considered

theorem HeadFits.budget_pos (work : host.LeavesWork cfg) {sched : Scheduler σ} {id : ReqId}
    {rest : List ReqId} (hfits : HeadFits cfg host sched id rest)
    (hunfinished : (sched.objs id).Unfinished) : (0 : Int) < cfg.maxNumScheduledTokens := by
  obtain ⟨st, computed, hlookup, hfit⟩ := hfits.fits
  have hconsidered : (sched.objs id).considered.Unfinished := by
    unfold Request.considered
    split <;> exact hunfinished
  have hwork := (lookUpComputedTokens_leavesWork work hconsidered hlookup).1
  rw [hfit.loaded, if_neg (by simp)] at hwork
  have hbudget := hfit.budget
  unfold numNewWaitingTokens clipThreshold at hbudget
  rw [waitingDemand_unchunk] at hbudget
  split at hbudget <;> omega

section Head

variable {pass : Pass σ} {id : ReqId} {rest : List ReqId}

/-- The flow goes on with a request admitted. -/
def Flow.Admits (flow : Flow σ) : Prop := ∃ next, flow = .next next ∧ next.Admits

theorem allocateWaiting_admits (hstatus : (pass.obj id).status.admissible = true)
    {computed : ComputedTokens} {plan : EncoderPlan}
    (hpositive : 0 < plan.numNewTokens + computed.numExternalComputedTokens)
    (hblocks : cfg.enableCaching = false → computed.newComputedBlocks.isEmpty = true)
    (hsync : computed.loadKvAsync = false)
    (hfits : (waitingSlots cfg (pass.obj id) computed plan.numNewTokens).Fits cfg host pass.host
      (pass.obj id)) :
    Yields Flow.Admits
      (allocateWaiting cfg (unchunkRules cfg) host pass id rest computed plan) := by
  unfold allocateWaiting
  dsimp only
  split
  · rename_i hslots
    rcases allocateSlots_error hslots with hzero | ⟨hcaching, hsome⟩
    · dsimp only at hzero
      omega
    · rw [Option.getD_some, hblocks hcaching] at hsome
      cases hsome
  · rename_i st hslots
    exact absurd hslots (hfits.not_none st)
  · split
    · rename_i hasync
      rw [hsync] at hasync
      cases hasync
    · rename_i st newBlocks _ _
      generalize (if cfg.hasConnector = true then host.updateStateAfterAlloc st (pass.obj _)
        (KVCacheBlocks.add computed.newComputedBlocks newBlocks)
        computed.numExternalComputedTokens else st) = after
      obtain ⟨admitted, haccept, hadmits⟩ := (@Pass.accept_yields _ cfg host
        (pass.withHost after) _ rest ((unchunkRules cfg).chunked && cfg.disaggTransAllBlocks)
        computed.numComputedTokens plan.numNewTokens plan hstatus).ok
      rw [haccept]
      exact ⟨admitted, rfl, hadmits⟩

theorem scheduleWaiting_admits (lawful : host.Lawful)
    (hstatus : (pass.obj id).status.admissible = true) {computed : ComputedTokens}
    (hwork : computed.numComputedTokens < (pass.obj id).numTokens)
    (hblocks : cfg.enableCaching = false → computed.newComputedBlocks.isEmpty = true)
    (hbudget : pass.tokenBudget = cfg.maxNumScheduledTokens)
    (hencoder : pass.encoderComputeBudget = cfg.maxNumEncoderInputTokens)
    (hfits : computed.Fits cfg host pass.host (pass.obj id)) :
    Yields Flow.Admits
      (scheduleWaiting cfg (unchunkRules cfg) host pass id rest computed) := by
  have hdemand : 0 < numNewWaitingTokens cfg (unchunkRules cfg) (pass.obj id)
      computed.numComputedTokens := by
    unfold numNewWaitingTokens clipThreshold
    rw [waitingDemand_unchunk]
    split <;> omega
  have hmin : min (numNewWaitingTokens cfg (unchunkRules cfg) (pass.obj id)
      computed.numComputedTokens) pass.tokenBudget =
        numNewWaitingTokens cfg (unchunkRules cfg) (pass.obj id) computed.numComputedTokens := by
    rw [hbudget]
    exact min_eq_left hfits.budget
  unfold scheduleWaiting
  dsimp only
  rw [hmin]
  split
  · rename_i hasync
    rw [hfits.loaded] at hasync
    cases hasync
  · split
    · rename_i hchunked
      cases hchunked.1
    · split
      · rename_i hover
        have hle := hfits.budget
        omega
      · split
        · omega
        · have hbetween := plannedTokens_between cfg lawful pass.host (pass.obj id)
            computed.numComputedTokens cfg.maxNumEncoderInputTokens
          have hnonzero := hfits.encoder
          have hslots := hfits.blocks
          unfold plannedTokens at hbetween hnonzero hslots
          rw [hencoder]
          generalize planEncoder host pass.host (pass.obj id) computed.numComputedTokens
            (numNewWaitingTokens cfg (unchunkRules cfg) (pass.obj id) computed.numComputedTokens)
            cfg.maxNumEncoderInputTokens = planned at hbetween hnonzero hslots ⊢
          obtain ⟨st, plan⟩ := planned
          unfold Host.Between at hbetween
          dsimp only at hbetween hnonzero hslots ⊢
          rw [if_neg hnonzero]
          have hpositive : 0 < plan.numNewTokens + computed.numExternalComputedTokens := by omega
          exact @allocateWaiting_admits _ cfg host (pass.withHost st) id rest hstatus computed
            plan hpositive hblocks hfits.loaded hslots

theorem considerWaiting_admits (lawful : host.Lawful) (work : host.LeavesWork cfg)
    (hstatus : (pass.obj id).status.admissible = true) (hunfinished : (pass.obj id).Unfinished)
    (hloras : pass.scheduledLoras = []) (hmax : cfg.maxLoras ≠ some 0)
    (hbudget : pass.tokenBudget = cfg.maxNumScheduledTokens)
    (hencoder : pass.encoderComputeBudget = cfg.maxNumEncoderInputTokens)
    (hfits : ∃ st computed, lookUpComputedTokens cfg host pass.host (pass.obj id) =
      (st, some computed) ∧ computed.Fits cfg host st (pass.obj id)) :
    Yields Flow.Admits (considerWaiting cfg (unchunkRules cfg) host pass id rest) := by
  obtain ⟨st, computed, hlookup, hfit⟩ := hfits
  have hroom : exceedsLoras cfg pass.scheduledLoras (pass.obj id) = false := by
    unfold exceedsLoras
    rw [hloras]
    split
    · rename_i maxLoras lora hlimit _
      rw [hlimit] at hmax
      simp only [List.length_nil, List.not_mem_nil, not_false_eq_true, and_true,
        decide_eq_false_iff_not]
      intro hzero
      exact hmax (by rw [← hzero])
    · rfl
  obtain ⟨hwork, hblocks⟩ := lookUpComputedTokens_leavesWork work hunfinished hlookup
  rw [hfit.loaded, if_neg (by simp)] at hwork
  unfold considerWaiting
  dsimp only
  rw [hroom, if_neg (by simp), hlookup]
  exact @scheduleWaiting_admits _ cfg host (pass.withHost st) id rest lawful hstatus computed
    hwork hblocks hbudget hencoder hfit

theorem waitingStep_admits (lawful : host.Lawful) (work : host.LeavesWork cfg)
    (hwaits : (pass.obj id).status.waits = true) (hunfinished : (pass.obj id).Unfinished)
    (hloras : pass.scheduledLoras = [])
    (hbudget : pass.tokenBudget = cfg.maxNumScheduledTokens)
    (hencoder : pass.encoderComputeBudget = cfg.maxNumEncoderInputTokens)
    (hfits : HeadFits cfg host pass.self id rest) :
    Yields Flow.Admits (waitingStep cfg (unchunkRules cfg) host pass id rest) := by
  have hlookup := hfits.fits
  change Yields _ (awaitRemoteKv cfg (unchunkRules cfg) host pass id rest)
  unfold awaitRemoteKv
  rw [if_neg hfits.loaded]
  unfold awaitGrammar
  unfold Request.considered at hlookup
  split
  · rename_i hgrammar
    have hobj := Pass.modify_obj_self pass id (·.withStatus .waiting)
    rw [if_pos hgrammar] at hlookup
    rw [if_pos (hfits.compiled hgrammar)]
    refine @considerWaiting_admits _ cfg host (pass.modify id (·.withStatus .waiting)) id rest
      lawful work ?_ ?_ hloras hfits.loras hbudget hencoder ?_
    · rw [hobj]
      rfl
    · rw [hobj]
      exact hunfinished
    · rw [hobj]
      exact hlookup
  · rename_i hgrammar
    rw [if_neg hgrammar] at hlookup
    exact considerWaiting_admits lawful work
      ((RequestStatus.admissible_of_waits hwaits hfits.loaded).resolve_left hgrammar)
      hunfinished hloras hfits.loras hbudget hencoder hlookup

end Head

/-! One call. -/

/-- Running requests never exceed their bound in a call that starts within it. -/
theorem Reaches.running_le {rules : Rules} (hstart : start.running.length ≤ cfg.maxNumRunningReqs)
    {pass : Pass σ} (hreaches : Reaches cfg rules host start (.start cfg start) pass) :
    pass.self.running.length ≤ cfg.maxNumRunningReqs := by
  induction hreaches with
  | refl => exact hstart
  | @tail pass next _ haction ih =>
      cases haction with
      | reindex | environment | transfer | receive | compiled | skip | park => exact ih
      | @preempt taken victim hnone htake hfcfs =>
          have hle : taken.self.running.length ≤ pass.self.running.length := by
            rcases Pass.takeVictim_cases htake with ⟨-, -, rfl⟩ | ⟨-, -, -, rfl⟩ |
              ⟨-, -, -, -, -, rfl⟩
            · exact (List.dropLast_sublist _).length_le
            · exact (List.erase_sublist).length_le
            · exact (List.erase_sublist).length_le
          exact hle.trans ih
      | @record id numNewTokens budget newBlocks plan hnone hrunning =>
          obtain ⟨specTokens, st, inputs, encoderBudget, heq, -⟩ :=
            Pass.record_eq cfg host pass id numNewTokens newBlocks plan
          rw [heq]
          exact ih
      | @accept _ id rest computed numNewTokens plan _ _ _ hroom _ _ _ _ _ _ haccept =>
          obtain ⟨-, st, inputs, encoderBudget, rfl, -⟩ := Pass.accept_eq haccept
          change (pass.self.running ++ [id]).length ≤ _
          rw [List.length_append, List.length_singleton]
          omega
      | putBack =>
          obtain ⟨waiting, skipped, heq⟩ := Pass.Placed.putBackSkipped_eq cfg host pass
          rw [heq]
          exact ih
      | loras hnone hcollect =>
          obtain ⟨loras, rfl⟩ := Pass.collectLoras_eq hcollect
          exact ih

/-- A call that gets through its loops returns, when no running request stands past
its clip and the running requests are within their bound. -/
theorem Pass.finish_yields {rules : Rules} (lawful : host.Lawful) (hqueues : start.Queues)
    (hclipped : Clipped rules start) (hrunning : start.running.length ≤ cfg.maxNumRunningReqs)
    {pass : Pass σ} (hreaches : Reaches cfg rules host start (.start cfg start) pass)
    (updateAfterSchedule : UpdateAfterSchedule σ) :
    Yields (fun _ => True) (pass.finish cfg host updateAfterSchedule) := by
  have hplaced := Pass.Placed.reaches lawful hqueues hreaches
  have hbudgeted := Pass.Budgeted.reaches lawful hqueues hclipped hreaches
  have hbalance := hplaced.balance
  have hbudget := hbudgeted.budget
  have hsubset : pass.numScheduledTokens.keys ⊆ pass.self.running := hplaced.inRunning
  have hcount := (List.subperm_of_subset pass.numScheduledTokens.keys_nodup hsubset).length_le
  rw [hplaced.scheduled.length_eq, List.length_append, List.length_append] at hcount
  have hconstraints : pass.meetsConstraints cfg :=
    ⟨by omega, hbudget, hreaches.running_le hrunning, by omega⟩
  unfold finish
  rw [if_neg (not_not.mpr hconstraints), if_neg]
  · trivial
  · rw [not_not]
    intro id hmem
    rw [hplaced.blocks, hplaced.mem_scheduled]
    rw [List.mem_append, List.mem_append] at hmem
    tauto

theorem Pass.collectLoras_start (cfg : Config) (self : Scheduler σ) :
    (Pass.start cfg self).collectLoras cfg = .ok (Pass.start cfg self) := by
  unfold collectLoras
  split
  · rfl
  · exact if_neg (Nat.not_lt_zero _)

section Call

variable {self : Scheduler σ}

/-- Below the minimum prefill batch, and with nothing running, nothing is done. -/
theorem MLUUnchunkScheduler.loops_unmet (hrunning : self.running = [])
    (hunmet : ¬cfg.v1MinPrefillBatch ≤ self.waiting.length) :
    MLUUnchunkScheduler.loops cfg host self = .ok (Pass.start cfg self) := by
  have hwaiting : waitingLoop cfg (unchunkRules cfg) host
      (decide (cfg.v1MinPrefillBatch ≤ self.waiting.length)) self.waiting.length
      { Pass.start cfg self with reqIndex := self.running.length } =
        .ok { Pass.start cfg self with reqIndex := self.running.length } := by
    unfold waitingLoop
    rw [if_neg]
    simp [hunmet]
  unfold loops
  rw [Pass.collectLoras_start]
  change (waitingLoop cfg (unchunkRules cfg) host _ _ _).bind _ = _
  rw [hwaiting]
  change runningLoop cfg (unchunkRules cfg) host self.running.length (Pass.start cfg self) = _
  unfold runningLoop
  split
  · split
    · rfl
    · rename_i hget _
      rw [show (Pass.start cfg self).self.running = [] from hrunning] at hget
      cases hget
    · rename_i hget _
      rw [show (Pass.start cfg self).self.running = [] from hrunning] at hget
      cases hget
  · rfl

theorem waitingLoop_next {rules : Rules} {prefillBatchMet : Bool} {pass next : Pass σ}
    {id : ReqId} {rest : List ReqId} {fuel : Nat}
    (hopen : 0 < pass.tokenBudget ∧ prefillBatchMet ∧
      pass.self.running.length ≠ cfg.maxNumRunningReqs)
    (hhead : host.popRequest cfg.policy pass.self.objs pass.self.waiting = some (id, rest))
    (hstep : waitingStep cfg rules host pass id rest = .ok (.next next)) :
    waitingLoop cfg rules host prefillBatchMet (fuel + 1) pass =
      waitingLoop cfg rules host prefillBatchMet fuel next := by
  conv_lhs => unfold waitingLoop
  rw [if_pos hopen, hhead]
  dsimp only
  rw [hstep]

/-- From the minimum prefill batch on, the head of the queue is admitted when it fits. -/
theorem MLUUnchunkScheduler.loops_admits (lawful : host.Lawful) (work : host.LeavesWork cfg)
    (hqueues : self.Queues) (hrunning : self.running = [])
    (hunfinished : ∀ id ∈ self.waiting, (self.objs id).Unfinished) {id : ReqId}
    {rest : List ReqId} (hfits : HeadFits cfg host self id rest)
    (hmet : cfg.v1MinPrefillBatch ≤ self.waiting.length) :
    Yields Pass.Admits (MLUUnchunkScheduler.loops cfg host self) := by
  have hqueued : Pass.Queued cfg (unchunkRules cfg) host self
      { Pass.start cfg self with reqIndex := self.running.length } :=
    ⟨.single (.reindex self.running.length), rfl, fun _ => rfl⟩
  have hperm := lawful.popRequest_perm _ _ _ _ _ hfits.head
  have hroom : self.running.length ≠ cfg.maxNumRunningReqs := by
    rw [hrunning]
    exact hfits.room.ne
  have hhead : Pass.Head cfg (unchunkRules cfg) host self id rest
      { Pass.start cfg self with reqIndex := self.running.length } :=
    { hqueued with perm := hperm, room := hroom }
  have hwaits := hqueues.waiting_status id hhead.mem_waiting
  have hleft := hunfinished id hhead.mem_waiting
  obtain ⟨flow, hstep, first, rfl, hadmits⟩ := (@waitingStep_admits _ cfg host
    { Pass.start cfg self with reqIndex := self.running.length } id rest lawful work hwaits hleft
    rfl rfl rfl hfits).ok
  have hpost := (waitingStep_within lawful hqueues hhead nofun).of_ok hstep
  have hrest : first.self.waiting = rest := hpost.rest first rfl
  have hlength : self.waiting.length = rest.length + 1 := hperm.length_eq
  have hbehind : ∀ other ∈ first.self.waiting, (first.obj other).Unfinished := by
    intro other hmem
    rw [hrest] at hmem
    have hne := ((Pass.Placed.reaches lawful hqueues hhead.reaches).accept_rest hqueues hperm
      other (List.mem_append_left _ hmem)).1
    rw [show first.obj other = self.objs other from hpost.objs other hne]
    exact hunfinished other (hperm.mem_iff.mpr (List.mem_cons_of_mem _ hmem))
  obtain ⟨last, hlast, hkeeps⟩ := (@waitingLoop_yields _ cfg host self lawful hqueues work
    (decide (cfg.v1MinPrefillBatch ≤ self.waiting.length)) rest.length first
    ⟨hpost.reaches, hpost.nonePreempted, hpost.phase⟩ hbehind (by rw [hrest])).ok
  have hloop : waitingLoop cfg (unchunkRules cfg) host
      (decide (cfg.v1MinPrefillBatch ≤ self.waiting.length)) self.waiting.length
      { Pass.start cfg self with reqIndex := self.running.length } = .ok last := by
    rw [hlength] at hlast hmet ⊢
    rw [waitingLoop_next ⟨hfits.budget_pos work hleft, by simpa using hmet, hroom⟩ hfits.head hstep]
    exact hlast
  obtain ⟨waiting, skipped, heq⟩ := Pass.Placed.putBackSkipped_eq cfg host last
  have hlastAdmits := hkeeps hadmits
  unfold loops
  rw [Pass.collectLoras_start]
  change Yields _ ((waitingLoop cfg (unchunkRules cfg) host _ _ _).bind _)
  rw [hloop]
  dsimp only [Except.bind]
  rw [heq, if_neg]
  · exact hlastAdmits
  · rintro ⟨hnew, hresumed⟩
    exact hlastAdmits.elim (absurd hnew) (absurd hresumed)

end Call

namespace Samples

/-- Nothing is admitted before two requests wait. -/
def pairModel : Config := { shortModel with v1MinPrefillBatch := 2 }

/-- The prompt of two tokens has arrived. -/
def arrived (cfg : Config) : Scheduler Pool :=
  (Scheduler.empty pool).addRequest cfg (Pool.host cfg) shortPrompt

theorem arrived_reachable (cls : SchedulerClass) (cfg : Config) :
    cls.Reachable cfg (Pool.host cfg) pool (arrived cfg) :=
  @SchedulerClass.Reachable.of_after _ cls cfg _ _ [.addRequest shortPrompt] _ rfl

theorem arrived_fits (cfg : Config) (hpolicy : cfg.policy = .fcfs)
    (hconnector : cfg.hasConnector = false) (hloras : cfg.maxLoras ≠ some 0)
    (hroom : 0 < cfg.maxNumRunningReqs)
    (hfits : (⟨[[]], 0, 0, false, 0⟩ : ComputedTokens).Fits cfg (Pool.host cfg) pool shortPrompt) :
    HeadFits cfg (Pool.host cfg) (arrived cfg) 0 [] where
  head := by
    change Pool.popRequest cfg.policy _ [0] = _
    rw [hpolicy]
    rfl
  loaded := nofun
  compiled := fun _ => rfl
  loras := hloras
  room := hroom
  fits := by
    refine ⟨pool, ⟨[[]], 0, 0, false, 0⟩, ?_, hfits⟩
    change lookUpComputedTokens cfg (Pool.host cfg) pool shortPrompt = _
    unfold lookUpComputedTokens
    rw [if_pos (show shortPrompt.numComputedTokens = 0 from rfl), hconnector]
    rfl

theorem pool_leavesWork (cfg : Config) (hconnector : cfg.hasConnector = false) :
    (Pool.host cfg).LeavesWork cfg where
  cached := fun _ _ hpositive => hpositive
  matched := by
    intro st request numLocal external hyes
    rw [hconnector] at hyes
    cases hyes
  received := by
    intro st request computed hsome
    cases hsome
  uncached := fun _ => ⟨rfl, fun _ _ => rfl⟩

end Samples

end VllmMlu.Sched
