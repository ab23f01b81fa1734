import VllmMlu.Sched.Pass

/-! A concrete host: a pool of interchangeable blocks, list-backed queues, no
prefix cache. It meets the assumptions on a host, so that they can be met, and
concrete runs are evaluated on it. -/
namespace VllmMlu.Sched
open VllmMlu.Library

structure Pool where
  numFreeBlocks : Nat
  owned : ReqId → Nat := fun _ => 0
  /-- Tokens the connector can load for a request. -/
  matched : ReqId → Nat := fun _ => 0
  /-- The requests whose loaded blocks turn out invalid. -/
  lost : List ReqId := []

namespace Pool

def appendUntilStop (maxModelLen : Int) (request : Request) :
    List Token → Request × List Token × Bool
  | [] => (request, [], false)
  | token :: tokens =>
      let request := request.appendOutputTokenIds [token]
      if maxModelLen ≤ request.numTokens ∨ request.maxTokens ≤ request.numOutputTokens then
        ({ request with status := .finishedLengthCapped }, [token], true)
      else
        let (request, tokens, stopped) := appendUntilStop maxModelLen request tokens
        (request, token :: tokens, stopped)

def release (pool : Pool) (id : ReqId) : Pool :=
  { pool with
    numFreeBlocks := pool.numFreeBlocks + pool.owned id
    owned := Function.update pool.owned id 0 }

def topUp (blockSize : Nat) (pool : Pool) (id : ReqId) (slots : Int) : Pool :=
  { pool with
    numFreeBlocks := pool.numFreeBlocks - (Host.blocksFor blockSize slots - pool.owned id)
    owned := Function.update pool.owned id
      (max (pool.owned id) (Host.blocksFor blockSize slots)) }

/-- The first request of lowest `(priority, arrival_time)`. -/
def firstInOrder (objs : RequestObjects) : List ReqId → Option ReqId
  | [] => none
  | id :: rest => some (rest.foldl (fun best other =>
      if (objs other).priority < (objs best).priority ∨
          (objs other).priority = (objs best).priority ∧
            (objs other).arrivalTime < (objs best).arrivalTime
      then other else best) id)

def popRequest (policy : SchedulingPolicy) (objs : RequestObjects) (queue : List ReqId) :
    Option (ReqId × List ReqId) :=
  match policy, queue with
  | _, [] => none
  | .fcfs, id :: rest => some (id, rest)
  | .priority, queue => (firstInOrder objs queue).map fun id => (id, queue.erase id)

def host (cfg : Config) : Host Pool where
  removeSkippedBlocks := fun pool _ _ => pool
  getNumBlocksToAllocate := fun pool id slots _ _ =>
    Host.blocksFor cfg.blockSize slots - pool.owned id
  getNumFreeBlocks := numFreeBlocks
  touch := fun pool _ => pool
  saveNewComputedBlocks := fun pool _ _ => pool
  allocateNewBlocks := fun pool id slots _ => (pool.topUp cfg.blockSize id slots, [[]])
  cacheBlocks := fun pool _ _ => pool
  getComputedBlocks := fun pool _ => (pool, [[]], 0)
  getBlocks := fun _ _ => [[]]
  emptyKVCacheBlocks := [[]]
  freeBlocks := fun pool request => pool.release request.requestId
  numBlocks := owned
  tryScheduleEncoderInputs := fun pool _ _ count budget => (pool, ⟨[], count, budget, []⟩)
  allocateEncoder := fun pool _ _ => pool
  freeEncoder := fun pool _ => pool
  getNumEncoderTokens := fun _ _ => 0
  ecUpdateStateAfterAlloc := fun pool _ _ => pool
  getNumNewMatchedTokens := fun pool request _ => (pool, some (pool.matched request.requestId), false)
  updateStateAfterAlloc := fun pool _ _ _ => pool
  buildConnectorMeta := fun pool _ => pool
  updateWaitingForRemoteKv := fun pool _ => (pool, none)
  handleInvalidBlocks := fun pool _ _ => (pool, ⟨pool.lost.map fun id => (id, 0), pool.lost⟩)
  updateFromKvXferFinished := fun pool kv => (pool, kv.finishedSending)
  grammarCompiled := fun _ _ => true
  shouldAdvance := fun _ request => request.useStructuredOutput
  acceptTokens := fun pool _ _ => pool
  validateTokens := fun _ _ tokens => tokens
  addRequest := fun _ _ queue id => queue ++ [id]
  prependRequest := fun _ _ queue id => id :: queue
  popRequest := popRequest
  prependRequests := fun _ _ queue skipped => skipped ++ queue
  removeRequests := fun _ _ queue removed => queue.filter (· ∉ removed)
  updateAfterSchedule := fun pool request count =>
    (pool, { request with numComputedTokens := request.numComputedTokens + count })
  makeCachedRequestData := fun request resumed blocks =>
    ⟨request.requestId, resumed, blocks, request.numComputedTokens,
      request.numOutputTokens + request.numOutputPlaceholders,
      request.promptTokenIds ++ request.outputTokenIds⟩
  updateRequestWithOutput := appendUntilStop cfg.maxModelLen
  checkStop := fun request row =>
    if row.isSome then ({ request with status := .finishedStopped }, true) else (request, false)
  freeRequest := fun pool request =>
    (pool.release request.requestId,
      request.kvTransferParams.map fun _ => { hasOther := true }, false)
  sliceLogprobs := fun rows first last => (rows.drop first).take (last - first)

theorem appendUntilStop_request (maxModelLen : Int) (request : Request) (tokens : List Token) :
    (appendUntilStop maxModelLen request tokens).1 =
      { request.appendOutputTokenIds (appendUntilStop maxModelLen request tokens).2.1 with
        status := (appendUntilStop maxModelLen request tokens).1.status
        stopReason := (appendUntilStop maxModelLen request tokens).1.stopReason } := by
  induction tokens generalizing request with
  | nil => simp [appendUntilStop, Request.appendOutputTokenIds]
  | cons token tokens ih =>
      unfold appendUntilStop
      dsimp only
      split
      · rfl
      · dsimp only
        rw [ih]
        simp [Request.appendOutputTokenIds]

theorem appendUntilStop_prefix (maxModelLen : Int) (request : Request) (tokens : List Token) :
    (appendUntilStop maxModelLen request tokens).2.1 <+: tokens := by
  induction tokens generalizing request with
  | nil => exact List.prefix_refl []
  | cons token tokens ih =>
      unfold appendUntilStop
      dsimp only
      split
      · exact ⟨tokens, rfl⟩
      · exact (List.prefix_cons_inj token).mpr (ih _)

theorem appendUntilStop_continues (maxModelLen : Int) (request : Request) (tokens : List Token)
    (hcontinues : (appendUntilStop maxModelLen request tokens).2.2 = false) :
    (appendUntilStop maxModelLen request tokens).2.1 = tokens ∧
      (appendUntilStop maxModelLen request tokens).1.status = request.status := by
  induction tokens generalizing request with
  | nil => exact ⟨rfl, rfl⟩
  | cons token tokens ih =>
      unfold appendUntilStop at hcontinues ⊢
      dsimp only at hcontinues ⊢
      split at hcontinues
      · cases hcontinues
      · rename_i hlong
        rw [if_neg hlong]
        have hrest := ih _ hcontinues
        exact ⟨congrArg (token :: ·) hrest.1, hrest.2⟩

theorem appendUntilStop_stops (maxModelLen : Int) (request : Request) (tokens : List Token)
    (hstops : (appendUntilStop maxModelLen request tokens).2.2 = true) :
    (appendUntilStop maxModelLen request tokens).1.isFinished = true := by
  induction tokens generalizing request with
  | nil => cases hstops
  | cons token tokens ih =>
      unfold appendUntilStop at hstops ⊢
      dsimp only at hstops ⊢
      split at hstops
      · rename_i hlong
        rw [if_pos hlong]
        rfl
      · rename_i hlong
        rw [if_neg hlong]
        exact ih _ hstops

theorem firstInOrder_mem {objs : RequestObjects} {queue : List ReqId} {id : ReqId}
    (hfirst : firstInOrder objs queue = some id) : id ∈ queue := by
  cases queue with
  | nil => cases hfirst
  | cons head rest =>
      cases hfirst
      apply Pass.foldl_choice_mem
      intro best other
      split
      · exact .inr rfl
      · exact .inl rfl

theorem popRequest_perm {policy : SchedulingPolicy} {objs : RequestObjects}
    {queue rest : List ReqId} {id : ReqId} (hpop : popRequest policy objs queue = some (id, rest)) :
    queue.Perm (id :: rest) := by
  cases queue with
  | nil => cases hpop
  | cons head tail =>
      cases policy with
      | fcfs =>
          cases hpop
          exact List.Perm.refl _
      | priority =>
          rw [popRequest, Option.map_eq_some_iff] at hpop
          obtain ⟨found, hfound, heq⟩ := hpop
          cases heq
          exact List.perm_cons_erase (firstInOrder_mem hfound)
          simp

theorem host_lawful (cfg : Config) : (host cfg).Lawful where
  addRequest_perm := fun _ _ _ _ => List.perm_append_singleton _ _
  prependRequest_perm := fun _ _ _ _ => List.Perm.refl _
  popRequest_perm := fun _ _ _ _ _ => popRequest_perm
  popRequest_none := by
    intro policy objs queue hnone
    cases queue with
    | nil => rfl
    | cons head tail => cases policy <;> cases hnone
  prependRequests_perm := fun _ _ _ _ => List.Perm.refl _
  removeRequests_perm := fun _ _ _ _ => List.Perm.refl _
  encoder_between := fun _ _ _ count _ => ⟨min_le_right 0 count, le_max_right 0 count⟩
  remoteKv_nonneg := by
    intro pool request computed hsome
    cases hsome
  updateAfterSchedule_request := fun _ _ _ => rfl
  cachedData_computed := fun _ _ _ => ⟨rfl, rfl, rfl⟩
  update_tokens := appendUntilStop_request cfg.maxModelLen
  update_prefix := appendUntilStop_prefix cfg.maxModelLen
  update_nonempty := by
    intro request tokens hne
    cases tokens with
    | nil => exact absurd rfl hne
    | cons token tokens =>
        change (appendUntilStop cfg.maxModelLen request (token :: tokens)).2.1 ≠ []
        unfold appendUntilStop
        dsimp only
        split <;> simp
  update_continues := appendUntilStop_continues cfg.maxModelLen
  update_stops := appendUntilStop_stops cfg.maxModelLen
  checkStop_request := by
    intro request row
    cases row <;> rfl
  checkStop_continues := by
    intro request row hcontinues
    cases row with
    | none => rfl
    | some row => cases hcontinues
  checkStop_stops := by
    intro request row hstops
    cases row with
    | none => cases hstops
    | some row => rfl

theorem host_ownsBlocks (cfg : Config) : (host cfg).OwnsBlocks cfg.blockSize where
  allocate_owned := by
    intro pool id slots encoder
    exact Function.update_self ..
  allocate_keeps := fun _ _ _ _ _ hne => Function.update_of_ne hne ..
  removeSkipped_keeps := fun _ _ _ _ _ => rfl
  saveComputed_keeps := fun _ _ _ _ _ => rfl
  freeBlocks_keeps := fun _ _ _ hne => Function.update_of_ne hne ..
  remoteKv_keeps := fun _ _ _ _ => rfl
  touch_keeps := fun _ _ _ => rfl
  cacheBlocks_keeps := fun _ _ _ _ => rfl
  getComputed_keeps := fun _ _ _ => rfl
  encoder_keeps := fun _ _ _ _ _ _ => rfl
  allocateEncoder_keeps := fun _ _ _ _ => rfl
  freeEncoder_keeps := fun _ _ _ => rfl
  ecUpdate_keeps := fun _ _ _ _ => rfl
  matched_keeps := fun _ _ _ _ => rfl
  updateAfterAlloc_keeps := fun _ _ _ _ _ => rfl
  connectorMeta_keeps := fun _ _ _ => rfl
  updateAfterSchedule_keeps := fun _ _ _ _ => rfl

end Pool

end VllmMlu.Sched
