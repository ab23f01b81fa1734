import VllmMlu.Library.Dict

/-! The data the scheduler reads and writes: requests, its configuration, and
the records it exchanges with the model runner. -/
namespace VllmMlu.Sched
open VllmMlu.Library

/-- Request ids are used as dictionary keys only. -/
abbrev ReqId := Nat

abbrev Token := Int

/-- The id that stands for a token the scheduler does not know yet. -/
def placeholderToken : Token := -1

inductive RequestStatus where
  | waiting
  | waitingForFsm
  | waitingForRemoteKvs
  | running
  | preempted
  | finishedStopped
  | finishedLengthCapped
  | finishedAborted
  deriving DecidableEq

def RequestStatus.isFinished : RequestStatus → Bool
  | .finishedStopped | .finishedLengthCapped | .finishedAborted => true
  | _ => false

/-- The statuses with which a request stands in the waiting queue. -/
def RequestStatus.waits : RequestStatus → Bool
  | .waiting | .waitingForFsm | .waitingForRemoteKvs | .preempted => true
  | _ => false

/-- The entries of a `kv_transfer_params` dictionary that the scheduler looks up,
and whether it has any other. -/
structure KvTransferParams where
  firstTok : Option Token := none
  firstSpecTok : Option (List Token) := none
  retFirstTok : Bool := false
  hasOther : Bool := false
  deriving DecidableEq

structure Request where
  requestId : ReqId
  promptTokenIds : List Token
  outputTokenIds : List Token := []
  specTokenIds : List Token := []
  status : RequestStatus := .waiting
  numComputedTokens : Int := 0
  numOutputPlaceholders : Int := 0
  numCachedTokens : Int := -1
  numPreemptions : Nat := 0
  maxTokens : Nat
  priority : Int := 0
  arrivalTime : Int := 0
  loraIntId : Option Nat := none
  useStructuredOutput : Bool := false
  hasEncoderInputs : Bool := false
  kvTransferParams : Option KvTransferParams := none
  /-- `request.sampling_params.logprobs is not None`. -/
  wantsLogprobs : Bool := false
  clientIndex : Nat := 0
  stopReason : Option Token := none
  numNansInLogits : Nat := 0

namespace Request

def numPromptTokens (request : Request) : Int := request.promptTokenIds.length

def numOutputTokens (request : Request) : Int := request.outputTokenIds.length

def numTokens (request : Request) : Int :=
  request.promptTokenIds.length + request.outputTokenIds.length

def numTokensWithSpec (request : Request) : Int :=
  request.numTokens + request.specTokenIds.length

def isFinished (request : Request) : Bool := request.status.isFinished

def appendOutputTokenIds (request : Request) (tokens : List Token) : Request :=
  { request with outputTokenIds := request.outputTokenIds ++ tokens }

/-- The draft tokens of a running request that fit into its new tokens. -/
def draftsWithin (request : Request) (numNewTokens : Int) : List Token :=
  request.specTokenIds.take (numNewTokens + request.numComputedTokens - request.numTokens -
    request.numOutputPlaceholders).toNat

/-- What the running loop does to a request that it takes the drafts of. -/
def withoutDrafts (request : Request) : Request := { request with specTokenIds := [] }

/-- What preemption does to a request. -/
def preempted (request : Request) : Request :=
  { request with
    status := .preempted
    numComputedTokens := 0
    numPreemptions := request.numPreemptions + 1 }

/-- What admission does to a request. -/
def admitted (request : Request) (numComputedTokens : Int) : Request :=
  { request with
    status := .running
    numComputedTokens := numComputedTokens
    numCachedTokens :=
      if request.numCachedTokens < 0 then numComputedTokens else request.numCachedTokens }

def withStatus (request : Request) (status : RequestStatus) : Request :=
  { request with status := status }

/-- A request whose remote blocks have arrived, with the tokens they hold. -/
def received (request : Request) (numComputedTokens : Int) : Request :=
  { request with status := .waiting, numComputedTokens := numComputedTokens }

/-- What the parent's `_update_after_schedule` does to a scheduled request. -/
def advance (request : Request) (numScheduledTokens : Int) : Request :=
  { request with numComputedTokens := request.numComputedTokens + numScheduledTokens }

@[simp] theorem withoutDrafts_numComputedTokens (request : Request) :
    request.withoutDrafts.numComputedTokens = request.numComputedTokens := rfl

@[simp] theorem admitted_numComputedTokens (request : Request) (numComputedTokens : Int) :
    (request.admitted numComputedTokens).numComputedTokens = numComputedTokens := rfl

@[simp] theorem preempted_numComputedTokens (request : Request) :
    request.preempted.numComputedTokens = 0 := rfl

theorem withoutDrafts_eq_self {request : Request} (hnil : request.specTokenIds = []) :
    request.withoutDrafts = request := by
  rw [withoutDrafts, ← hnil]

theorem numTokens_nonneg (request : Request) : 0 ≤ request.numTokens := by
  unfold numTokens
  omega

@[simp] theorem numTokens_appendOutputTokenIds (request : Request) (tokens : List Token) :
    (request.appendOutputTokenIds tokens).numTokens = request.numTokens + tokens.length := by
  simp only [numTokens, appendOutputTokenIds, List.length_append]
  omega

end Request

inductive SchedulingPolicy where
  | fcfs
  | priority
  deriving DecidableEq

/-- Configuration and environment variables read by the scheduler. -/
structure Config where
  maxNumScheduledTokens : Nat
  maxNumRunningReqs : Nat
  maxModelLen : Nat
  blockSize : Nat := 16
  policy : SchedulingPolicy := .fcfs
  longPrefillTokenThreshold : Int := 0
  enableChunkedPrefill : Bool := true
  /-- `self.max_num_encoder_input_tokens`, the encoder budget of one step. -/
  maxNumEncoderInputTokens : Int := 0
  /-- `scheduler_config.max_num_encoder_input_tokens`. -/
  encoderInputLimit : Int := 0
  isEncoderDecoder : Bool := false
  numLookaheadTokens : Nat := 0
  /-- `speculative_config.num_speculative_tokens`, when there is one. -/
  numSpeculativeTokens : Option Nat := none
  /-- `lora_config.max_loras`, when LoRA is enabled. -/
  maxLoras : Option Nat := none
  enableCaching : Bool := true
  hasConnector : Bool := false
  hasEcConnector : Bool := false
  /-- `getattr(hf_config, "window_size", 0)`. -/
  windowSize : Nat := 0
  v1Benchmark : Bool := false
  v1MinPrefillBatch : Nat := 1
  disaggTransAllBlocks : Bool := true
  disaggFakeDecoder : Bool := false

/-- `self.num_spec_tokens`. -/
def Config.numSpecTokens (cfg : Config) : Nat := cfg.numSpeculativeTokens.getD 0

/-- The assertions of the modelled code, by what they assert. -/
inductive Assertion where
  /-- Computed blocks are only passed in when prefix caching is enabled. -/
  | noComputedBlocks
  /-- `num_external_computed_tokens > 0` of an asynchronous load. -/
  | externalComputedTokens
  /-- `num_new_tokens > 0` of a waiting request. -/
  | newTokens
  /-- `len(scheduled_loras) <= max_loras` after the running loop. -/
  | scheduledLoras
  /-- The constraints at the end of `schedule()`. -/
  | constraints
  /-- `num_tokens_scheduled > 0` of a row of `update_from_output`. -/
  | numTokensScheduled
  /-- `num_output_placeholders >= 0`. -/
  | outputPlaceholders
  /-- `not prompt_logprobs_tensors` of a row without output. -/
  | promptLogprobs
  /-- `req_index is None` of a request resumed from preemption. -/
  | resumedNotInBatch
  deriving DecidableEq

inductive Error where
  | valueError
  | assertionError (assertion : Assertion)
  | runtimeError
  | keyError
  | indexError
  | typeError
  /-- A loop of the model ran out of its fuel; no call of `schedule` does. -/
  | outOfFuel
  deriving DecidableEq

/-- One list of block ids for each KV cache group. -/
abbrev KVCacheBlocks := List (List Nat)

def KVCacheBlocks.isEmpty (blocks : KVCacheBlocks) : Bool := blocks.all List.isEmpty

def KVCacheBlocks.add (left right : KVCacheBlocks) : KVCacheBlocks :=
  List.zipWith (· ++ ·) left right

structure NewRequestData where
  reqId : ReqId
  promptTokenIds : List Token
  blockIds : KVCacheBlocks
  numComputedTokens : Int
  loraIntId : Option Nat
  newTokenIds : List Token
  deriving DecidableEq

def NewRequestData.fromRequest (request : Request) (blockIds : KVCacheBlocks) : NewRequestData :=
  ⟨request.requestId, request.promptTokenIds, blockIds, request.numComputedTokens,
    request.loraIntId, request.outputTokenIds⟩

/-- One request's entries in the parallel lists of `CachedRequestData`. -/
structure CachedRequestData where
  reqId : ReqId
  resumed : Bool
  newBlockIds : KVCacheBlocks
  numComputedTokens : Int
  numOutputTokens : Int
  /-- All tokens of the request, which the model runner recovers it from. -/
  allTokenIds : List Token
  deriving DecidableEq

structure DraftTokenIds where
  reqIds : List ReqId
  draftTokenIds : List (List Token)
  deriving DecidableEq

structure SchedulerOutput where
  scheduledNewReqs : List NewRequestData := []
  scheduledCachedReqs : List CachedRequestData := []
  numScheduledTokens : Dict ReqId Int := Dict.empty
  totalNumScheduledTokens : Int := 0
  scheduledSpecDecodeTokens : Dict ReqId (List Token) := Dict.empty
  scheduledEncoderInputs : Dict ReqId (List Nat) := Dict.empty
  finishedReqIds : List ReqId := []
  pendingStructuredOutputTokens : Bool := false

/-- `scheduled_spec_decode_tokens.get(req_id, ())`. -/
def SchedulerOutput.specTokens (output : SchedulerOutput) (id : ReqId) : List Token :=
  (output.scheduledSpecDecodeTokens.get? id).getD []

end VllmMlu.Sched
