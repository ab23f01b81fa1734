import VllmMlu.Library.Buckets
import VllmMlu.Library.Kernel

/-! The four kernels that sort the token indices of a mixture-of-experts layer by expert, with
the tokens of each expert padded to whole blocks. -/
namespace VllmMlu.Moe
open VllmMlu.Library VllmMlu.Library.Kernel

def cdiv (dividend divisor : Nat) : Nat := (dividend + divisor - 1) / divisor

def roundUp (value multiple : Nat) : Nat := cdiv value multiple * multiple

section Rounding

variable {value multiple : Nat}

theorem le_roundUp (h : 0 < multiple) : value ≤ roundUp value multiple := by
  have hdiv := Nat.div_add_mod (value + multiple - 1) multiple
  have hmod := Nat.mod_lt (value + multiple - 1) h
  rw [roundUp, cdiv, Nat.mul_comm]
  omega

theorem roundUp_le (h : 0 < multiple) : roundUp value multiple ≤ value + (multiple - 1) := by
  have hle := Nat.div_mul_le_self (value + multiple - 1) multiple
  rw [roundUp, cdiv]
  omega

theorem dvd_roundUp (value multiple : Nat) : multiple ∣ roundUp value multiple :=
  Nat.dvd_mul_left _ _

theorem lt_cdiv {index : Nat} (h : 0 < multiple) (hlt : index * multiple < value) :
    index < cdiv value multiple := by
  rw [cdiv, Nat.lt_iff_add_one_le, Nat.le_div_iff_mul_le h, Nat.add_one_mul]
  omega

theorem cdiv_mul (value : Nat) (h : 0 < multiple) : cdiv (value * multiple) multiple = value := by
  rw [cdiv, Nat.add_sub_assoc h, Nat.add_comm, Nat.add_mul_div_right _ _ h,
    Nat.div_eq_of_lt (by omega), Nat.zero_add]

end Rounding

/-- Each program counts the experts of its own tokens in a row of its own. -/
def moeAlignBlockSizeStage1 (topkIds : List Nat) (numExperts numel tokensPerThread pid : Nat)
    (tokensCnts : List Nat) : Except KernelError (List Nat) :=
  let startIdx := pid * tokensPerThread
  let offC := (pid + 1) * numExperts
  (List.range' 0 tokensPerThread).foldlM (fun tokensCnts i =>
    if startIdx + i < numel then do
      let idx ← load topkIds (startIdx + i)
      let tokenCnt ← load tokensCnts (offC + idx)
      store tokensCnts (offC + idx) (tokenCnt + 1)
    else pure tokensCnts) tokensCnts

/-- A turn of the loop of stage 2, on the counts and `last_cnt`. -/
def stage2Turn (numExperts pid : Nat) (state : List Nat × Nat) (i : Nat) :
    Except KernelError (List Nat × Nat) := do
  let tokenCnt ← load state.1 (i * numExperts + pid)
  let lastCnt := state.2 + tokenCnt
  let tokensCnts ← store state.1 (i * numExperts + pid) lastCnt
  pure (tokensCnts, lastCnt)

/-- Each program sums up the column of its expert. -/
def moeAlignBlockSizeStage2 (numExperts pid : Nat) (tokensCnts : List Nat) :
    Except KernelError (List Nat) := do
  let (tokensCnts, _) ← (List.range' 1 numExperts).foldlM (stage2Turn numExperts pid)
    (tokensCnts, 0)
  pure tokensCnts

/-- A turn of the loop of stage 3, on `cumsum` and `last_cumsum`. -/
def stage3Turn (numExperts blockSize : Nat) (tokensCnts : List Nat) (state : List Nat × Nat)
    (i : Nat) : Except KernelError (List Nat × Nat) := do
  let offCnt := numExperts * numExperts
  let tokenCnt ← load tokensCnts (offCnt + i - 1)
  let lastCumsum := state.2 + cdiv tokenCnt blockSize * blockSize
  let cumsum ← store state.1 i lastCumsum
  pure (cumsum, lastCumsum)

/-- One program: where the blocks of each expert end. -/
def moeAlignBlockSizeStage3 (numExperts blockSize : Nat) (tokensCnts : List Nat)
    (totalTokensPostPad cumsum : List Nat) : Except KernelError (List Nat × List Nat) := do
  let (cumsum, lastCumsum) ← (List.range' 1 numExperts).foldlM
    (stage3Turn numExperts blockSize tokensCnts) (cumsum, 0)
  let totalTokensPostPad ← store totalTokensPostPad 0 lastCumsum
  pure (totalTokensPostPad, cumsum)

/-- The buffers that the last stage writes. -/
structure Placement where
  sortedTokenIds : List Nat
  expertIds : List Nat
  tokensCnts : List Nat

/-- A turn of the second loop of stage 4: the place of one token. -/
def stage4Turn (topkIds cumsum : List Nat) (numExperts pid : Nat) (buffers : Placement) (i : Nat) :
    Except KernelError Placement := do
  let offT := pid * numExperts
  let expertId ← load topkIds i
  let tokenCnt ← load buffers.tokensCnts (offT + expertId)
  let expertStart ← load cumsum expertId
  let rankPostPad := tokenCnt + expertStart
  let sortedTokenIds ← store buffers.sortedTokenIds rankPostPad i
  let tokensCnts ← store buffers.tokensCnts (offT + expertId) (tokenCnt + 1)
  pure { buffers with sortedTokenIds := sortedTokenIds, tokensCnts := tokensCnts }

/-- Each program labels the blocks of its expert and places its own tokens. -/
def moeAlignBlockSizeStage4 (topkIds cumsum : List Nat)
    (numExperts blockSize numel tokensPerThread pid : Nat) (buffers : Placement) :
    Except KernelError Placement := do
  let startIdx ← load cumsum pid
  let endIdx ← load cumsum (pid + 1)
  let expertIds ← (List.range' startIdx (cdiv (endIdx - startIdx) blockSize) blockSize).foldlM
    (fun expertIds i => store expertIds (i / blockSize) pid) buffers.expertIds
  let startIdx := pid * tokensPerThread
  (List.range' startIdx (min (startIdx + tokensPerThread) numel - startIdx)).foldlM
    (stage4Turn topkIds cumsum numExperts pid) { buffers with expertIds := expertIds }

/-- The orders in which the programs of the stages run. -/
structure GridOrders (numExperts : Nat) where
  stage1 : GridOrder numExperts
  stage2 : GridOrder numExperts
  stage4 : GridOrder numExperts

/-- The results: `sorted_token_ids`, `expert_ids` and `num_tokens_post_pad`. -/
structure AlignedTokens (Id : Type) where
  sortedTokenIds : List Nat
  expertIds : List Id
  numTokensPostPad : List Nat

def moeAlignBlockSizeTriton {numExperts : Nat} (orders : GridOrders numExperts)
    (topkIds : List Nat) (blockSize : Nat) (sortedTokenIds expertIds numTokensPostPad : List Nat) :
    Except KernelError (AlignedTokens Nat) := do
  let numel := topkIds.length
  let tokensCnts := List.replicate ((numExperts + 1) * numExperts) 0
  let cumsum := List.replicate (numExperts + 1) 0
  let tokensPerThread := cdiv numel numExperts
  let sortedTokenIds := List.replicate sortedTokenIds.length numel
  let expertIds := List.replicate expertIds.length 0
  let tokensCnts ← launch orders.stage1
    (moeAlignBlockSizeStage1 topkIds numExperts numel tokensPerThread) tokensCnts
  let tokensCnts ← launch orders.stage2 (moeAlignBlockSizeStage2 numExperts) tokensCnts
  let (numTokensPostPad, cumsum) ←
    moeAlignBlockSizeStage3 numExperts blockSize tokensCnts numTokensPostPad cumsum
  let buffers ← launch orders.stage4
    (moeAlignBlockSizeStage4 topkIds cumsum numExperts blockSize numel tokensPerThread)
    ⟨sortedTokenIds, expertIds, tokensCnts⟩
  pure ⟨buffers.sortedTokenIds, buffers.expertIds, numTokensPostPad⟩

/-- `expert_map[expert_ids]`. -/
def mapExperts (expertMap : Option (List Int)) (expertIds : List Nat) :
    Except KernelError (List Int) :=
  match expertMap with
  | none => pure (expertIds.map Int.ofNat)
  | some expertMap => expertIds.mapM (load expertMap)

def moeAlignBlockSize {numExperts : Nat} (orders : GridOrders numExperts) (topkIds : List Nat)
    (blockSize : Nat) (expertMap : Option (List Int)) (padSortedIds : Bool) :
    Except KernelError (AlignedTokens Int) := do
  let maxNumTokensPadded := topkIds.length + numExperts * (blockSize - 1)
  let maxNumTokensPadded :=
    if padSortedIds then roundUp maxNumTokensPadded blockSize else maxNumTokensPadded
  let sortedIds := List.replicate maxNumTokensPadded topkIds.length
  let maxNumMBlocks := cdiv maxNumTokensPadded blockSize
  let expertIds := List.replicate maxNumMBlocks 0
  let aligned ← moeAlignBlockSizeTriton orders topkIds blockSize sortedIds expertIds [0]
  let expertIds ← mapExperts expertMap aligned.expertIds
  pure ⟨aligned.sortedTokenIds, expertIds, aligned.numTokensPostPad⟩

end VllmMlu.Moe
