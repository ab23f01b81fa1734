import VllmMlu.Sched.Request

/-! The parts of vLLM that the scheduler calls and this repository does not
contain: the block pool behind the KV cache manager, the request queues, the
encoder cache, the KV connector and the parent `Scheduler` class. They share
one state of an arbitrary type, so that nothing is assumed about what they
remember; what the scheduler relies on is stated in `Host.Lawful` and
`Host.OwnsBlocks`. -/
namespace VllmMlu.Sched
open VllmMlu.Library

/-- A row of a tensor; its entries are only carried along. -/
abbrev TensorRow := List Int

/-- The result of `_try_schedule_encoder_inputs`. -/
structure EncoderPlan where
  inputsToSchedule : List Nat
  numNewTokens : Int
  computeBudget : Int
  externalLoad : List Nat
  deriving DecidableEq

structure KVConnectorOutput where
  invalidBlockIds : List Nat := []
  finishedSending : List ReqId := []
  finishedRecving : List ReqId := []
  deriving DecidableEq

/-- The answer of `_handle_invalid_blocks`: the new `num_computed_tokens` of
each affected request, and the running requests to skip. -/
structure InvalidBlocksAnswer where
  numComputedTokens : List (ReqId × Int)
  skip : List ReqId
  deriving DecidableEq

abbrev RequestObjects := ReqId → Request

structure Host (σ : Type) where
  -- KVCacheManager, its coordinator and its block pool
  removeSkippedBlocks : σ → ReqId → Int → σ
  getNumBlocksToAllocate : σ → ReqId → Int → KVCacheBlocks → Int → Nat
  getNumFreeBlocks : σ → Nat
  touch : σ → KVCacheBlocks → σ
  saveNewComputedBlocks : σ → ReqId → KVCacheBlocks → σ
  allocateNewBlocks : σ → ReqId → Int → Int → σ × KVCacheBlocks
  cacheBlocks : σ → Request → Int → σ
  getComputedBlocks : σ → Request → σ × KVCacheBlocks × Nat
  getBlocks : σ → ReqId → KVCacheBlocks
  emptyKVCacheBlocks : KVCacheBlocks
  freeBlocks : σ → Request → σ
  /-- The number of blocks in a request's block table. -/
  numBlocks : σ → ReqId → Nat
  -- Encoder cache
  tryScheduleEncoderInputs : σ → Request → Int → Int → Int → σ × EncoderPlan
  allocateEncoder : σ → Request → Nat → σ
  freeEncoder : σ → Request → σ
  getNumEncoderTokens : Request → Nat → Int
  ecUpdateStateAfterAlloc : σ → Request → Nat → σ
  -- KV connector
  getNumNewMatchedTokens : σ → Request → Nat → σ × Option Nat × Bool
  updateStateAfterAlloc : σ → Request → KVCacheBlocks → Nat → σ
  buildConnectorMeta : σ → SchedulerOutput → σ
  /-- `some computed` once the blocks have arrived and `num_computed_tokens` is set. -/
  updateWaitingForRemoteKv : σ → Request → σ × Option Int
  handleInvalidBlocks : σ → RequestObjects → List Nat → σ × InvalidBlocksAnswer
  /-- The finished requests whose blocks have been sent and are freed now. -/
  updateFromKvXferFinished : σ → KVConnectorOutput → σ × List ReqId
  -- Structured output
  grammarCompiled : σ → Request → Bool
  shouldAdvance : σ → Request → Bool
  acceptTokens : σ → Request → List Token → σ
  validateTokens : σ → Request → List Token → List Token
  -- Request queues
  addRequest : SchedulingPolicy → RequestObjects → List ReqId → ReqId → List ReqId
  prependRequest : SchedulingPolicy → RequestObjects → List ReqId → ReqId → List ReqId
  popRequest : SchedulingPolicy → RequestObjects → List ReqId → Option (ReqId × List ReqId)
  prependRequests : SchedulingPolicy → RequestObjects → List ReqId → List ReqId → List ReqId
  removeRequests : SchedulingPolicy → RequestObjects → List ReqId → List ReqId → List ReqId
  -- Parent class `Scheduler`
  updateAfterSchedule : σ → Request → Int → σ × Request
  makeCachedRequestData : Request → Bool → KVCacheBlocks → CachedRequestData
  updateRequestWithOutput : Request → List Token → Request × List Token × Bool
  checkStop : Request → Option TensorRow → Request × Bool
  /-- The transfer parameters of a finished request, and whether its blocks are
  kept (and the request with them) until the connector has sent them. -/
  freeRequest : σ → Request → σ × Option KvTransferParams × Bool
  sliceLogprobs : List TensorRow → Nat → Nat → List TensorRow

namespace Host

variable {σ : Type}

/-- A count returned for a given one lies between zero and it. -/
def Between (given count : Int) : Prop := min 0 given ≤ count ∧ count ≤ max 0 given

/-- The documented behaviour of vLLM that the counters and queues rely on. -/
structure Lawful (host : Host σ) : Prop where
  addRequest_perm : ∀ policy objs queue id,
    (host.addRequest policy objs queue id).Perm (id :: queue)
  prependRequest_perm : ∀ policy objs queue id,
    (host.prependRequest policy objs queue id).Perm (id :: queue)
  popRequest_perm : ∀ policy objs queue id rest,
    host.popRequest policy objs queue = some (id, rest) → queue.Perm (id :: rest)
  popRequest_none : ∀ policy objs queue,
    host.popRequest policy objs queue = none → queue = []
  prependRequests_perm : ∀ policy objs queue skipped,
    (host.prependRequests policy objs queue skipped).Perm (skipped ++ queue)
  removeRequests_perm : ∀ policy objs queue removed,
    (host.removeRequests policy objs queue removed).Perm (queue.filter (· ∉ removed))
  /-- The encoder hook returns a count between zero and the one it was given. -/
  encoder_between : ∀ st request computed count budget,
    Between count (host.tryScheduleEncoderInputs st request computed count budget).2.numNewTokens
  /-- A request whose blocks have arrived has computed tokens to show for it. -/
  remoteKv_nonneg : ∀ st request computed,
    (host.updateWaitingForRemoteKv st request).2 = some computed → 0 ≤ computed
  /-- The parent advances `num_computed_tokens` by the scheduled tokens. -/
  updateAfterSchedule_request : ∀ st request count,
    (host.updateAfterSchedule st request count).2 = request.advance count
  cachedData_computed : ∀ request resumed blocks,
    (host.makeCachedRequestData request resumed blocks).reqId = request.requestId ∧
    (host.makeCachedRequestData request resumed blocks).resumed = resumed ∧
    (host.makeCachedRequestData request resumed blocks).numComputedTokens =
      request.numComputedTokens
  /-- The parent appends the new tokens one by one until the request stops. -/
  update_tokens : ∀ request tokens,
    (host.updateRequestWithOutput request tokens).1 =
      { request.appendOutputTokenIds (host.updateRequestWithOutput request tokens).2.1 with
        status := (host.updateRequestWithOutput request tokens).1.status
        stopReason := (host.updateRequestWithOutput request tokens).1.stopReason }
  update_prefix : ∀ request tokens,
    (host.updateRequestWithOutput request tokens).2.1 <+: tokens
  update_nonempty : ∀ request tokens, tokens ≠ [] →
    (host.updateRequestWithOutput request tokens).2.1 ≠ []
  update_continues : ∀ request tokens,
    (host.updateRequestWithOutput request tokens).2.2 = false →
      (host.updateRequestWithOutput request tokens).2.1 = tokens ∧
      (host.updateRequestWithOutput request tokens).1.status = request.status
  update_stops : ∀ request tokens,
    (host.updateRequestWithOutput request tokens).2.2 = true →
      (host.updateRequestWithOutput request tokens).1.isFinished = true
  checkStop_request : ∀ request row,
    (host.checkStop request row).1 =
      { request with status := (host.checkStop request row).1.status }
  checkStop_continues : ∀ request row, (host.checkStop request row).2 = false →
    (host.checkStop request row).1.status = request.status
  checkStop_stops : ∀ request row, (host.checkStop request row).2 = true →
    (host.checkStop request row).1.isFinished = true

/-- Nothing a call does for one request changes the blocks of another. -/
def Keeps (host : Host σ) (id : ReqId) (before after : σ) : Prop :=
  ∀ other, other ≠ id → host.numBlocks after other = host.numBlocks before other

/-- The call changes no request's blocks. -/
def KeepsAll (host : Host σ) (before after : σ) : Prop :=
  ∀ other, host.numBlocks after other = host.numBlocks before other

/-- The number of blocks of `blockSize` slots that hold `tokens` slots. -/
def blocksFor (blockSize : Nat) (tokens : Int) : Nat := (tokens.toNat + blockSize - 1) / blockSize

/-- Block ownership: `allocate_new_blocks` tops a request up to the blocks its
slots need, and the other calls leave the blocks of other requests alone. -/
structure OwnsBlocks (host : Host σ) (blockSize : Nat) : Prop where
  allocate_owned : ∀ st id slots encoder,
    host.numBlocks (host.allocateNewBlocks st id slots encoder).1 id =
      max (host.numBlocks st id) (blocksFor blockSize slots)
  allocate_keeps : ∀ st id slots encoder,
    host.Keeps id st (host.allocateNewBlocks st id slots encoder).1
  removeSkipped_keeps : ∀ st id computed,
    host.Keeps id st (host.removeSkippedBlocks st id computed)
  saveComputed_keeps : ∀ st id blocks,
    host.Keeps id st (host.saveNewComputedBlocks st id blocks)
  freeBlocks_keeps : ∀ st request,
    host.Keeps request.requestId st (host.freeBlocks st request)
  remoteKv_keeps : ∀ st request,
    host.Keeps request.requestId st (host.updateWaitingForRemoteKv st request).1
  touch_keeps : ∀ st blocks, host.KeepsAll st (host.touch st blocks)
  cacheBlocks_keeps : ∀ st request count, host.KeepsAll st (host.cacheBlocks st request count)
  getComputed_keeps : ∀ st request, host.KeepsAll st (host.getComputedBlocks st request).1
  encoder_keeps : ∀ st request computed count budget,
    host.KeepsAll st (host.tryScheduleEncoderInputs st request computed count budget).1
  allocateEncoder_keeps : ∀ st request i, host.KeepsAll st (host.allocateEncoder st request i)
  freeEncoder_keeps : ∀ st request, host.KeepsAll st (host.freeEncoder st request)
  ecUpdate_keeps : ∀ st request i, host.KeepsAll st (host.ecUpdateStateAfterAlloc st request i)
  matched_keeps : ∀ st request computed,
    host.KeepsAll st (host.getNumNewMatchedTokens st request computed).1
  updateAfterAlloc_keeps : ∀ st request blocks count,
    host.KeepsAll st (host.updateStateAfterAlloc st request blocks count)
  connectorMeta_keeps : ∀ st output, host.KeepsAll st (host.buildConnectorMeta st output)
  updateAfterSchedule_keeps : ∀ st request count,
    host.KeepsAll st (host.updateAfterSchedule st request count).1

end Host

end VllmMlu.Sched
