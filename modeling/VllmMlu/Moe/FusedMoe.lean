import VllmMlu.Library.Rows
import VllmMlu.Library.Tiles
import VllmMlu.Moe.AlignBlockSize

/-! The fused experts: two products with the weights of each token's experts, tile by tile over
the tokens sorted by expert, and the sum over the experts of a token. -/
namespace VllmMlu.Moe
open VllmMlu.Library VllmMlu.Library.Kernel

inductive FusedError where
  | assertion
  | viewError
  | kernel (error : KernelError)
deriving DecidableEq, Repr

/-- The block sizes that `get_default_config` chooses. -/
structure MoeConfig where
  blockSizeM : Nat
  blockSizeN : Nat
  blockSizeK : Nat
  groupSizeM : Nat
  blockSizeM_pos : 0 < blockSizeM
  blockSizeN_pos : 0 < blockSizeN
  blockSizeK_pos : 0 < blockSizeK
  groupSizeM_pos : 0 < groupSizeM

/-- Stacked weights `(E, N, K)`; the last stride is one. -/
structure ExpertWeights (R : Type) where
  size0 : Nat
  size1 : Nat
  size2 : Nat
  stride0 : Nat
  stride1 : Nat
  data : List R

structure FusedMoeArgs (R : Type) where
  a : List R
  b : ExpertWeights R
  topkWeights : List R
  sortedTokenIds : List Nat
  expertIds : List Int
  numTokensPostPadded : List Nat
  n : Nat
  k : Nat
  em : Nat
  numValidTokens : Nat
  strideAm : Nat
  strideAk : Nat
  strideBe : Nat
  strideBk : Nat
  strideBn : Nat
  strideCm : Nat
  strideCn : Nat
  config : MoeConfig
  mulRoutedWeight : Bool
  topK : Nat

/-- The block of C that a program computes, in grouped order. -/
def tileOf (numPidM numPidN groupSizeM pid : Nat) : Nat × Nat :=
  let numPidInGroup := groupSizeM * numPidN
  let groupId := pid / numPidInGroup
  let firstPidM := groupId * groupSizeM
  let groupSizeM := min (numPidM - firstPidM) groupSizeM
  (firstPidM + pid % numPidInGroup % groupSizeM, pid % numPidInGroup / groupSizeM)

/-- The code outside: what stores zeros in the lanes of an output, and the gated activation of a
row. -/
structure FusedOps (R : Type) [Zero R] where
  writeZerosToOutput : Lanes → List R → Except KernelError (List R)
  active : List R → Nat → R
  writeZerosToOutput_eq : ∀ lanes buffer,
    writeZerosToOutput lanes buffer = lanes.store (fun _ _ => 0) buffer

namespace FusedMoeArgs

variable {R : Type} (args : FusedMoeArgs R)

/-- `sorted_token_ids_ptr + offs_token_id`. -/
def idLanes (pidM : Nat) : Lanes where
  rows := args.config.blockSizeM
  cols := 1
  ptr i _ := pidM * args.config.blockSizeM + i
  mask _ _ := true

def aLanes (offsToken : Nat → Nat) (turn : Nat) : Lanes where
  rows := args.config.blockSizeM
  cols := args.config.blockSizeK
  ptr i j := offsToken i / args.topK * args.strideAm + j * args.strideAk +
    turn * (args.config.blockSizeK * args.strideAk)
  mask i j := decide (offsToken i < args.numValidTokens) &&
    decide (j < args.k - turn * args.config.blockSizeK)

def bLanes (offExperts pidN turn : Nat) : Lanes where
  rows := args.config.blockSizeK
  cols := args.config.blockSizeN
  ptr i j := offExperts * args.strideBe + (i * args.strideBk +
    (pidN * args.config.blockSizeN + j) % args.n * args.strideBn) +
    turn * (args.config.blockSizeK * args.strideBk)
  mask i _ := decide (i < args.k - turn * args.config.blockSizeK)

def weightLanes (offsToken : Nat → Nat) : Lanes where
  rows := args.config.blockSizeM
  cols := 1
  ptr i _ := offsToken i
  mask i _ := decide (offsToken i < args.numValidTokens)

/-- `c_ptrs` and `c_mask`. -/
def cLanes (offsToken : Nat → Nat) (pidN : Nat) : Lanes where
  rows := args.config.blockSizeM
  cols := args.config.blockSizeN
  ptr i j := args.strideCm * offsToken i +
    args.strideCn * (pidN * args.config.blockSizeN + j)
  mask i j := decide (offsToken i < args.numValidTokens) &&
    decide (pidN * args.config.blockSizeN + j < args.n)

variable [CommSemiring R]

/-- A turn of the loop over `k`. -/
def accumulateTurn (offsToken : Nat → Nat) (offExperts pidN : Nat) (accumulator : Nat → Nat → R)
    (turn : Nat) : Except KernelError (Nat → Nat → R) := do
  let a ← (args.aLanes offsToken turn).load args.a fun _ _ => 0
  let b ← (args.bLanes offExperts pidN turn).load args.b.data fun _ _ => 0
  pure fun i j => accumulator i j + dot args.config.blockSizeK a b i j

/-- The tile of an expert, with the routed weights where they are multiplied in. -/
def accumulate (offsToken : Nat → Nat) (offExperts pidN : Nat) :
    Except KernelError (Nat → Nat → R) := do
  let accumulator ← (List.range' 0 (cdiv args.k args.config.blockSizeK)).foldlM
    (args.accumulateTurn offsToken offExperts pidN) fun _ _ => 0
  if args.mulRoutedWeight then
    let moeWeight ← (args.weightLanes offsToken).load args.topkWeights fun _ _ => 0
    pure fun i j => accumulator i j * moeWeight i 0
  else pure accumulator

/-- A program from its block of C on. An expert below −1 would point in front of the weights. -/
def computeBlock (ops : FusedOps R) (pidM pidN : Nat) (c : List R) : Except KernelError (List R) := do
  let numTokensPostPadded ← load args.numTokensPostPadded 0
  if numTokensPostPadded ≤ pidM * args.config.blockSizeM then pure c
  else
    let ids ← (args.idLanes pidM).load args.sortedTokenIds fun _ _ => 0
    let offsToken := fun i => ids i 0
    let offExperts ← load args.expertIds pidM
    if offExperts = -1 then ops.writeZerosToOutput (args.cLanes offsToken pidN) c
    else if offExperts < 0 then throw .outOfBounds
    else
      let accumulator ← args.accumulate offsToken offExperts.toNat pidN
      (args.cLanes offsToken pidN).store accumulator c

/-- One program, on the contents of `c_ptr`. -/
def fusedMoeKernel (ops : FusedOps R) (numPrograms0 pid0 pid1 : Nat) (c : List R) :
    Except KernelError (List R) :=
  let pid := pid1 * numPrograms0 + pid0
  let block := tileOf (cdiv args.em args.config.blockSizeM) (cdiv args.n args.config.blockSizeN)
    args.config.groupSizeM pid
  args.computeBlock ops block.1 block.2 c

end FusedMoeArgs

section Launch

variable {R : Type}

/-- `EM`, which small batches shorten. -/
def shortenedEm (aRows topK blockSizeM numSlots : Nat) : Nat :=
  if aRows < blockSizeM then min numSlots (aRows * topK * blockSizeM) else numSlots

/-- The arguments of a launch on a contiguous matrix `A` and an output whose rows have the size
of the weights' second dimension. -/
def fusedMoeArgs (a : List R) (aRows aCols : Nat) (b : ExpertWeights R) (topkWeights : List R)
    (aligned : AlignedTokens Int) (mulRoutedWeight : Bool) (topK : Nat) (config : MoeConfig) :
    FusedMoeArgs R where
  a := a
  b := b
  topkWeights := topkWeights
  sortedTokenIds := aligned.sortedTokenIds
  expertIds := aligned.expertIds
  numTokensPostPadded := aligned.numTokensPostPad
  n := b.size1
  k := b.size2
  em := shortenedEm aRows topK config.blockSizeM aligned.sortedTokenIds.length
  numValidTokens := aRows * topK
  strideAm := aCols
  strideAk := 1
  strideBe := b.stride0
  strideBk := 1
  strideBn := b.stride1
  strideCm := b.size1
  strideCn := 1
  config := config
  mulRoutedWeight := mulRoutedWeight
  topK := topK

def FusedMoeArgs.gridM (args : FusedMoeArgs R) : Nat := cdiv args.em args.config.blockSizeM

def FusedMoeArgs.gridN (args : FusedMoeArgs R) : Nat := cdiv args.n args.config.blockSizeN

def invokeFusedMoeKernel [CommSemiring R] (ops : FusedOps R) (order : LaunchOrder)
    (args : FusedMoeArgs R) (c : List R) : Except KernelError (List R) :=
  launchGrid (order (args.gridM * args.gridN * 1))
    (fun pid0 pid1 _ => args.fusedMoeKernel ops args.gridM pid0 pid1) c

end Launch

/-- The orders in which the programs of one chunk's launches run. -/
structure ChunkOrders where
  align : (numExperts : Nat) → GridOrders numExperts
  first : LaunchOrder
  second : LaunchOrder

/-- The sizes of the tokens, how they are routed, and the flags. -/
structure FusedCase where
  numTokens : Nat
  hidden : Nat
  topK : Nat
  topkIds : List Nat
  inplace : Bool
  applyRouterWeightOnInput : Bool
  globalNumExperts : Int
  expertMap : Option (List Int)

/-- The arguments of `fused_experts_impl` for unquantised weights without bias. -/
structure FusedInputs (R : Type) extends FusedCase where
  hiddenStates : List R
  w1 : ExpertWeights R
  w2 : ExpertWeights R
  topkWeights : List R

/-- What else decides a run: the chunk size, whether in-place writing is switched off, the
configuration, what the uninitialised tensors hold, and the orders of the programs. -/
structure FusedRun (R : Type) where
  chunkSize : Nat
  chunkSize_pos : 0 < chunkSize
  disableInplace : Bool
  config : MoeConfig
  outInit : List R
  cache13Init : List R
  orders : Nat → ChunkOrders

/-- `out_hidden_states`, which is `hidden_states` itself in place, and the caches. -/
structure FusedState (R : Type) where
  hiddenStates : List R
  out : List R
  cache13 : List R
  cacheTokens : Nat

def FusedCase.numExperts (inputs : FusedCase) (size0 : Nat) : Nat :=
  if inputs.globalNumExperts = -1 then size0 else inputs.globalNumExperts.toNat

namespace FusedInputs

variable {R : Type} (inputs : FusedInputs R) (run : FusedRun R)

def isInplace : Bool := inputs.inplace && !run.disableInplace

def numExperts : Nat := inputs.toFusedCase.numExperts inputs.w1.size0

def m : Nat := min inputs.numTokens run.chunkSize

def tokensInChunk (chunk : Nat) : Nat :=
  min ((chunk + 1) * run.chunkSize) inputs.numTokens - chunk * run.chunkSize

def currTopkIds (chunk : Nat) : List Nat :=
  Rows.slice (chunk * run.chunkSize * inputs.topK) (inputs.tokensInChunk run chunk * inputs.topK)
    inputs.topkIds

def alignChunk (chunk : Nat) : Except KernelError (AlignedTokens Int) :=
  moeAlignBlockSize ((run.orders chunk).align inputs.numExperts) (inputs.currTopkIds run chunk)
    run.config.blockSizeM inputs.expertMap false

/-- An operation on a view of the first entries of a buffer. -/
def onPrefix (size : Nat) (f : List R → Except KernelError (List R)) (buffer : List R) :
    Except KernelError (List R) := do
  let view ← f (buffer.take size)
  pure (view ++ buffer.drop size)

def firstArgs (currHiddenStates currTopkWeights : List R) (aligned : AlignedTokens Int)
    (tokensInChunk : Nat) : FusedMoeArgs R :=
  fusedMoeArgs currHiddenStates tokensInChunk inputs.hidden inputs.w1 currTopkWeights aligned
    inputs.applyRouterWeightOnInput inputs.topK run.config

/-- The second launch has one row for each choice of a token. -/
def secondArgs (cache2 currTopkWeights : List R) (aligned : AlignedTokens Int)
    (cacheTokens : Nat) : FusedMoeArgs R :=
  fusedMoeArgs cache2 (cacheTokens * inputs.topK) (inputs.w1.size1 / 2) inputs.w2 currTopkWeights
    aligned (!inputs.applyRouterWeightOnInput) 1 run.config

/-- `out_hidden_states[begin:end]` gets new rows. -/
def writeOut (start : Nat) (rows : List R) (state : FusedState R) : FusedState R :=
  let out := state.out.take start ++ rows ++ state.out.drop (start + rows.length)
  { state with
    out := out
    hiddenStates := if inputs.isInplace run then out else state.hiddenStates }

variable [CommSemiring R]

/-- An entry of `intermediate_cache3`. -/
def cache3At (cache13 : List R) (t k c : Nat) : R :=
  cache13.getD ((t * inputs.topK + k) * inputs.w2.size1 + c) 0

/-- The last step of a chunk, by the number of experts of a token. -/
def reduce (start tokensInChunk : Nat) (state : FusedState R) : FusedState R :=
  if inputs.topK = 2 then
    inputs.writeOut run (start * inputs.hidden) ((List.range (tokensInChunk * inputs.w2.size1)).map
      fun p => inputs.cache3At state.cache13 (p / inputs.w2.size1) 0 (p % inputs.w2.size1) +
        inputs.cache3At state.cache13 (p / inputs.w2.size1) 1 (p % inputs.w2.size1)) state
  else if 2 < inputs.topK then
    inputs.writeOut run (start * inputs.hidden) ((List.range (tokensInChunk * inputs.w2.size1)).map
      fun p => ∑ k ∈ Finset.range inputs.topK,
        inputs.cache3At state.cache13 (p / inputs.w2.size1) k (p % inputs.w2.size1)) state
  else state

/-- `intermediate_cache2`: the activated rows of the first cache. -/
def intermediateCache2 (ops : FusedOps R) (rows : Nat) (cache13 : List R) : List R :=
  let cols := inputs.w1.size1 / 2
  (List.range (rows * cols)).map fun p =>
    ops.active (Rows.chunk inputs.w1.size1 (p / cols) cache13) (p % cols)

/-- The two launches of a chunk, with the activation between them. -/
def runKernels (ops : FusedOps R) (orders : ChunkOrders) (currHiddenStates currTopkWeights : List R)
    (aligned : AlignedTokens Int) (tokensInChunk cacheTokens : Nat) (cache13 : List R) :
    Except KernelError (List R) := do
  let rows := cacheTokens * inputs.topK
  let cache13 ← onPrefix (rows * inputs.w1.size1) (invokeFusedMoeKernel ops orders.first
    (inputs.firstArgs run currHiddenStates currTopkWeights aligned tokensInChunk)) cache13
  let cache2 := inputs.intermediateCache2 ops rows cache13
  onPrefix (rows * inputs.w2.size1) (invokeFusedMoeKernel ops orders.second
    (inputs.secondArgs run cache2 currTopkWeights aligned cacheTokens)) cache13

/-- One turn of the loop over the chunks, for a chunk with tokens. -/
def runChunk (ops : FusedOps R) (chunk : Nat) (state : FusedState R) :
    Except FusedError (FusedState R) := do
  let start := chunk * run.chunkSize
  let tokensInChunk := inputs.tokensInChunk run chunk
  let currHiddenStates := Rows.slice (start * inputs.hidden) (tokensInChunk * inputs.hidden)
    state.hiddenStates
  let cacheTokens :=
    if tokensInChunk < run.chunkSize ∧ 0 < chunk then tokensInChunk else state.cacheTokens
  let currTopkWeights :=
    Rows.slice (start * inputs.topK) (tokensInChunk * inputs.topK) inputs.topkWeights
  let aligned ← (inputs.alignChunk run chunk).mapError .kernel
  -- `view(-1, N)` is ambiguous for rows without entries
  if inputs.w1.size1 = 0 then throw .viewError
  else
    let cache13 ← (inputs.runKernels run ops (run.orders chunk) currHiddenStates currTopkWeights
      aligned tokensInChunk cacheTokens state.cache13).mapError .kernel
    pure (inputs.reduce run start tokensInChunk
      { state with cache13 := cache13, cacheTokens := cacheTokens })

/-- The loop over the chunks, which an empty chunk ends. -/
def runChunks (ops : FusedOps R) : List Nat → FusedState R → Except FusedError (FusedState R)
  | [], state => pure state
  | chunk :: rest, state =>
      if inputs.tokensInChunk run chunk = 0 then pure state
      else do
        let state ← inputs.runChunk run ops chunk state
        runChunks ops rest state

def fusedExpertsImpl (ops : FusedOps R) : Except FusedError (List R) :=
  if inputs.hidden ≠ inputs.w1.size2 then throw .assertion
  else if inputs.topkWeights.length ≠ inputs.topkIds.length then throw .assertion
  else do
    let out := if inputs.isInplace run then inputs.hiddenStates else run.outInit
    let state ← inputs.runChunks run ops (List.range (inputs.numTokens / run.chunkSize + 1))
      ⟨inputs.hiddenStates, out, run.cache13Init, inputs.m run⟩
    pure state.out

end FusedInputs

end VllmMlu.Moe
