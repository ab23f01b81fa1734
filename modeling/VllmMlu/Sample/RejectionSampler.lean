import VllmMlu.Library.Cuts
import VllmMlu.Library.Kernel

/-! The rejection sampler: two kernels that verify the packed draft tokens of a batch, one for
greedy and one for random requests, and the filter of a fixed acceptance rate. Probabilities are
of any type with an order and a division. -/
namespace VllmMlu.Sample
open VllmMlu.Library VllmMlu.Library.Cuts VllmMlu.Library.Kernel VllmMlu.Library.Rows

def placeholderTokenId : Int := -1

inductive SamplerError where
  | kernel (error : KernelError)
  | assertionError
  | invalidShape
deriving DecidableEq, Repr

variable {F : Type} [Zero F] [One F] [Div F] [LT F] [DecidableLT F] [LE F] [DecidableLE F] [BEq F]

/-- `row.argmax()`: the first entry that none exceeds. -/
def argmax (row : List F) : Nat :=
  row.findIdx fun prob => row.all fun other => !decide (prob < other)

/-- `SamplingMetadata`, of which the sampler reads the temperatures and two summaries of them. -/
structure SamplingMetadata (F : Type) [Zero F] [BEq F] (batchSize : Nat) where
  temperature : List F
  allGreedy : Bool
  allRandom : Bool
  length_temperature : temperature.length = batchSize
  allGreedy_eq : allGreedy = temperature.all (· == 0)
  allRandom_eq : allRandom = temperature.all fun value => !(value == 0)

/-- The inputs of `rejection_sample`: the drafts of all requests are packed into one row. -/
structure Batch (F : Type) [Zero F] [BEq F] where
  numDraftTokens : List Nat
  maxSpecLen : Nat
  vocabSize : Nat
  draftTokenIds : List Nat
  draftProbs : Option (List F)
  targetProbs : List F
  bonusTokenIds : List Nat
  samplingMetadata : SamplingMetadata F numDraftTokens.length
  num_le : ∀ num ∈ numDraftTokens, num ≤ maxSpecLen
  length_draftTokenIds : draftTokenIds.length = numDraftTokens.sum
  draft_lt : ∀ token ∈ draftTokenIds, token < vocabSize
  length_draftProbs : ∀ probs ∈ draftProbs, probs.length = draftTokenIds.length * vocabSize
  length_targetProbs : targetProbs.length = draftTokenIds.length * vocabSize
  length_bonusTokenIds : bonusTokenIds.length = numDraftTokens.length

/-- What is drawn at random: the numbers that the drafts are accepted by, the recovered tokens,
and the decision of the filter of the acceptance rate. -/
structure Draws (F : Type) (numTokens : Nat) where
  uniformProbs : List F
  recoveredTokenIds : List Nat
  acceptBatch : Bool
  length_uniformProbs : uniformProbs.length = numTokens
  length_recoveredTokenIds : recoveredTokenIds.length = numTokens

namespace Batch

variable (batch : Batch F)

def batchSize : Nat := batch.numDraftTokens.length

def cuNumDraftTokens : List Nat := (startLocs batch.numDraftTokens).tail

/-- `target_probs.argmax(dim=-1)`. -/
def targetArgmax : List Nat :=
  (List.range batch.draftTokenIds.length).map fun i =>
    argmax (chunk batch.vocabSize i batch.targetProbs)

def useFusionKernel : Bool :=
  batch.samplingMetadata.allRandom && batch.maxSpecLen == 1 && !batch.numDraftTokens.contains 0

/-- `is_greedy`, which is absent where all requests are greedy. -/
def isGreedy : Option (List Bool) :=
  if batch.samplingMetadata.allGreedy then none
  else some (batch.samplingMetadata.temperature.map (· == 0))

/-- `start_idx` and `num_draft_tokens` of a program. -/
def draftRange (reqIdx : Nat) : Except KernelError (Nat × Nat) := do
  let startIdx ← if reqIdx = 0 then pure 0 else load batch.cuNumDraftTokens (reqIdx - 1)
  let endIdx ← load batch.cuNumDraftTokens reqIdx
  pure (startIdx, endIdx - startIdx)

end Batch

/-- A turn of the loop over the drafts, on the output and `rejected`: `judge` gives the token to
store and whether the draft is rejected. -/
def verifyTurn (judge : Nat → Except KernelError (Nat × Bool)) (rowStart : Nat)
    (state : List Int × Bool) (pos : Nat) : Except KernelError (List Int × Bool) :=
  if state.2 then pure state
  else do
    let (tokenId, rejected) ← judge pos
    let output ← store state.1 (rowStart + pos) (Int.ofNat tokenId)
    pure (output, rejected)

/-- The part that the kernels share: the loop over the drafts, then the bonus token. -/
def verifyDrafts (judge : Nat → Except KernelError (Nat × Bool)) (bonusTokenIds : List Nat)
    (hasAcceptanceRate : Bool) (maxSpecLen numDraftTokens reqIdx : Nat) (output : List Int) :
    Except KernelError (List Int) := do
  let rowStart := reqIdx * (maxSpecLen + 1)
  let (output, rejected) ← (List.range' 0 numDraftTokens).foldlM (verifyTurn judge rowStart)
    (output, false)
  let rejected := if hasAcceptanceRate then false else rejected
  if rejected then pure output
  else do
    let bonusTokenId ← load bonusTokenIds reqIdx
    store output (rowStart + numDraftTokens) (Int.ofNat bonusTokenId)

/-- The verdict of the greedy kernel: the target's token is stored whether the draft is it or
not. -/
def greedyJudge (batch : Batch F) (startIdx pos : Nat) : Except KernelError (Nat × Bool) := do
  let draftTokenId ← load batch.draftTokenIds (startIdx + pos)
  let targetArgmaxId ← load batch.targetArgmax (startIdx + pos)
  pure (targetArgmaxId, draftTokenId != targetArgmaxId)

def rejectionGreedySampleKernel (batch : Batch F) (hasAcceptanceRate : Bool) (reqIdx : Nat)
    (output : List Int) : Except KernelError (List Int) := do
  let isGreedy ← match batch.isGreedy with
    | none => pure true
    | some isGreedy => load isGreedy reqIdx
  if isGreedy then do
    let (startIdx, numDraftTokens) ← batch.draftRange reqIdx
    verifyDrafts (greedyJudge batch startIdx) batch.bonusTokenIds hasAcceptanceRate
      batch.maxSpecLen numDraftTokens reqIdx output
  else pure output

/-- `draft_prob`, which is 1 where there are no draft probabilities. -/
def loadDraftProb (batch : Batch F) (place : Nat) : Except KernelError F :=
  match batch.draftProbs with
  | none => pure 1
  | some draftProbs => load draftProbs place

/-- The verdict of the random kernel. -/
def randomJudge (batch : Batch F) (draws : Draws F batch.draftTokenIds.length)
    (hasAcceptanceRate : Bool) (startIdx pos : Nat) : Except KernelError (Nat × Bool) := do
  let draftTokenId ← load batch.draftTokenIds (startIdx + pos)
  let draftProb ← loadDraftProb batch ((startIdx + pos) * batch.vocabSize + draftTokenId)
  let targetProb ← load batch.targetProbs ((startIdx + pos) * batch.vocabSize + draftTokenId)
  let uniformProb ← load draws.uniformProbs (startIdx + pos)
  if (0 < draftProb ∧ uniformProb ≤ targetProb / draftProb) ∨ hasAcceptanceRate then
    pure (draftTokenId, false)
  else do
    let recoveredTokenId ← load draws.recoveredTokenIds (startIdx + pos)
    pure (recoveredTokenId, true)

/-- The kernel has no reading of an absent `is_greedy`. -/
def rejectionRandomSampleKernel (batch : Batch F) (draws : Draws F batch.draftTokenIds.length)
    (hasAcceptanceRate : Bool) (reqIdx : Nat) (output : List Int) :
    Except KernelError (List Int) := do
  let isGreedy ← match batch.isGreedy with
    | none => .error .outOfBounds
    | some isGreedy => load isGreedy reqIdx
  if isGreedy then pure output
  else do
    let (startIdx, numDraftTokens) ← batch.draftRange reqIdx
    verifyDrafts (randomJudge batch draws hasAcceptanceRate startIdx) batch.bonusTokenIds
      hasAcceptanceRate batch.maxSpecLen numDraftTokens reqIdx output

/-- The orders in which the programs of the kernels run. -/
structure KernelOrders (batchSize : Nat) where
  greedy : GridOrder batchSize
  random : GridOrder batchSize

/-- The launches of the kernels on a buffer of placeholders. -/
def launchKernels (batch : Batch F) (orders : KernelOrders batch.batchSize)
    (draws : Draws F batch.draftTokenIds.length) (hasAcceptanceRate : Bool) :
    Except KernelError (List Int) := do
  let output := List.replicate (batch.batchSize * (batch.maxSpecLen + 1)) placeholderTokenId
  if batch.samplingMetadata.allRandom then
    launch orders.random (rejectionRandomSampleKernel batch draws hasAcceptanceRate) output
  else do
    let output ← launch orders.greedy (rejectionGreedySampleKernel batch hasAcceptanceRate) output
    if batch.samplingMetadata.allGreedy then pure output
    else launch orders.random (rejectionRandomSampleKernel batch draws hasAcceptanceRate) output

/-- `output_token_ids[:, 1:] = value`. -/
def setSpeculative (maxSpecLen : Nat) (value : Int) (output : List Int) : List Int :=
  output.mapIdx fun i token => if i % (maxSpecLen + 1) = 0 then token else value

def filterWithAcceptanceRate (maxSpecLen : Nat) (output : List Int)
    (fixedAcceptanceRate : Option F) (acceptBatch : Bool) : Except SamplerError (List Int) :=
  match fixedAcceptanceRate with
  | none => pure output
  | some rate =>
      if 0 ≤ rate ∧ rate ≤ 1 then
        pure (if acceptBatch then output else setSpeculative maxSpecLen placeholderTokenId output)
      else .error .assertionError

/-- A call of `rejection_sample`. -/
structure Call (F : Type) [Zero F] [BEq F] where
  batch : Batch F
  orders : KernelOrders batch.batchSize
  draws : Draws F batch.draftTokenIds.length

/-- The kernel of another library that verifies single drafts of random requests. -/
abbrev FusionKernel (F : Type) [Zero F] [BEq F] : Type :=
  (batch : Batch F) → Draws F batch.draftTokenIds.length → List Int

def rejectionSample (mluRejectionSample : FusionKernel F) (fixedAcceptanceRate : Option F)
    (call : Call F) : Except SamplerError (List Int) := do
  let batch := call.batch
  if batch.useFusionKernel then do
    let output := mluRejectionSample batch call.draws
    -- `.view(batch_size, max_spec_len + 1)`
    if output.length ≠ batch.batchSize * (batch.maxSpecLen + 1) then .error .invalidShape
    else if fixedAcceptanceRate.isSome then
      filterWithAcceptanceRate batch.maxSpecLen (setSpeculative batch.maxSpecLen 0 output)
        fixedAcceptanceRate call.draws.acceptBatch
    else pure output
  else do
    let output ← (launchKernels batch call.orders call.draws
      fixedAcceptanceRate.isSome).mapError .kernel
    filterWithAcceptanceRate batch.maxSpecLen output fixedAcceptanceRate call.draws.acceptBatch

end VllmMlu.Sample
