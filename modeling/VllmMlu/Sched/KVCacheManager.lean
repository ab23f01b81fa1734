import VllmMlu.Sched.Host
import VllmMlu.Library.Machine

/-! `KVCacheManager_MluHijack.allocate_slots`. -/
namespace VllmMlu.Sched
open VllmMlu.Library

variable {σ : Type}

/-- The arguments of `allocate_slots`, with the defaults of its signature. -/
structure SlotRequest where
  numNewTokens : Int
  numNewComputedTokens : Int := 0
  newComputedBlocks : Option KVCacheBlocks := none
  numLookaheadTokens : Int := 0
  delayCacheBlocks : Bool := false
  numEncoderTokens : Int := 0
  fixedWindowTokens : Int := 0

/-- `num_tokens_need_slot`. -/
def SlotRequest.numTokensNeedSlot (cfg : Config) (request : Request) (slots : SlotRequest) : Int :=
  min (request.numComputedTokens + slots.numNewComputedTokens + slots.numNewTokens +
    slots.numLookaheadTokens + slots.fixedWindowTokens) cfg.maxModelLen

/-- `None` stands for a request that does not fit the free blocks. -/
def allocateSlots (cfg : Config) (host : Host σ) (st : σ) (request : Request)
    (slots : SlotRequest) : Except Error (σ × Option KVCacheBlocks) :=
  if slots.numNewTokens = 0 then .error .valueError
  else
    let newComputedBlockList := slots.newComputedBlocks.getD host.emptyKVCacheBlocks
    -- Blocks outside the attention window go back even when the request does not fit.
    let st := host.removeSkippedBlocks st request.requestId request.numComputedTokens
    let numComputedTokens := request.numComputedTokens + slots.numNewComputedTokens
    let numTokensNeedSlot := slots.numTokensNeedSlot cfg request
    let numBlocksToAllocate := host.getNumBlocksToAllocate st request.requestId
      numTokensNeedSlot newComputedBlockList slots.numEncoderTokens
    if host.getNumFreeBlocks st < numBlocksToAllocate then .ok (st, none)
    else if !cfg.enableCaching && !newComputedBlockList.isEmpty then .error (.assertionError .noComputedBlocks)
    else
      let st := if cfg.enableCaching then host.touch st newComputedBlockList else st
      let st :=
        if newComputedBlockList = host.emptyKVCacheBlocks then st
        else host.saveNewComputedBlocks st request.requestId newComputedBlockList
      let (st, newBlocks) := host.allocateNewBlocks st request.requestId numTokensNeedSlot
        slots.numEncoderTokens
      if !cfg.enableCaching || slots.delayCacheBlocks then .ok (st, some newBlocks)
      else
        let numTokensToCache := min (numComputedTokens + slots.numNewTokens) request.numTokens
        .ok (host.cacheBlocks st request numTokensToCache, some newBlocks)

/-- An allocation that succeeds leaves the request with blocks for every slot it
asked for, up to `max_model_len`; one that fails changes no other request. -/
theorem allocateSlots_keeps {cfg : Config} {host : Host σ} {blockSize : Nat}
    (owns : host.OwnsBlocks blockSize) {st st' : σ} {request : Request} {slots : SlotRequest}
    {blocks : Option KVCacheBlocks}
    (hok : allocateSlots cfg host st request slots = .ok (st', blocks)) :
    host.Keeps request.requestId st st' := by
  intro other hne
  unfold allocateSlots at hok
  dsimp only at hok
  split at hok
  · cases hok
  split at hok
  · cases hok
    exact owns.removeSkipped_keeps _ _ _ other hne
  split at hok
  · cases hok
  have hsave : ∀ base : σ, host.numBlocks base other = host.numBlocks st other →
      host.numBlocks (if slots.newComputedBlocks.getD host.emptyKVCacheBlocks =
        host.emptyKVCacheBlocks then base else host.saveNewComputedBlocks base
          request.requestId (slots.newComputedBlocks.getD host.emptyKVCacheBlocks)) other =
        host.numBlocks st other := by
    intro base hbase
    split
    · exact hbase
    · rw [owns.saveComputed_keeps _ _ _ other hne, hbase]
  have htouch : host.numBlocks (if cfg.enableCaching = true then
      host.touch (host.removeSkippedBlocks st request.requestId request.numComputedTokens)
        (slots.newComputedBlocks.getD host.emptyKVCacheBlocks)
      else host.removeSkippedBlocks st request.requestId request.numComputedTokens) other =
        host.numBlocks st other := by
    split
    · rw [owns.touch_keeps, owns.removeSkipped_keeps _ _ _ other hne]
    · rw [owns.removeSkipped_keeps _ _ _ other hne]
  split at hok
  · cases hok
    rw [owns.allocate_keeps _ _ _ _ other hne, hsave _ htouch]
  · cases hok
    rw [owns.cacheBlocks_keeps, owns.allocate_keeps _ _ _ _ other hne, hsave _ htouch]

theorem allocateSlots_owned {cfg : Config} {host : Host σ} {blockSize : Nat}
    (owns : host.OwnsBlocks blockSize) {st st' : σ} {request : Request} {slots : SlotRequest}
    {blocks : KVCacheBlocks}
    (hok : allocateSlots cfg host st request slots = .ok (st', some blocks)) :
    Host.blocksFor blockSize (slots.numTokensNeedSlot cfg request) ≤
      host.numBlocks st' request.requestId := by
  unfold allocateSlots at hok
  dsimp only at hok
  split at hok
  · cases hok
  split at hok
  · cases hok
  split at hok
  · cases hok
  split at hok
  · cases hok
    rw [owns.allocate_owned]
    exact le_max_right _ _
  · cases hok
    rw [owns.cacheBlocks_keeps, owns.allocate_owned]
    exact le_max_right _ _

theorem allocateSlots_ne_zero {cfg : Config} {host : Host σ} {st : σ} {request : Request}
    {slots : SlotRequest} {result : σ × Option KVCacheBlocks}
    (hok : allocateSlots cfg host st request slots = .ok result) : slots.numNewTokens ≠ 0 := by
  intro hzero
  rw [allocateSlots, if_pos hzero] at hok
  cases hok

end VllmMlu.Sched
