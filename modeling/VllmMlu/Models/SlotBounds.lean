import VllmMlu.Models.WindowSlots
import VllmMlu.Sched.PoolHost

/-! The columns of the block table that `update_forward_args` reads against the blocks that
`allocate_slots` has given the request, at block size one. -/
namespace VllmMlu.Models
open VllmMlu.Library VllmMlu.Worker

section Columns

variable {windowSize seqLen queryLen blocks : Nat} {inferMode : MLUInferMode}

/-- The columns of the window are among those of the tokens themselves, and of the groups
those of ratio 4 behind a window of 128 reach farthest. -/
theorem prefill_columns_lt_iff (hmode : inferMode.isPrefillOnly = true)
    (hquery : queryLen = seqLen) (hseq : seqLen ≤ blocks) :
    (∀ column ∈ columnsUsed windowSize inferMode seqLen queryLen, column < blocks) ↔
      seqLen < 4 ∨ 128 + seqLen / 4 ≤ blocks := by
  simp only [columnsUsed, hmode, if_true, hquery, List.mem_append, List.mem_range, List.mem_flatMap,
    List.mem_map]
  constructor
  · intro hall
    by_cases hshort : seqLen < 4
    · exact .inl hshort
    · have := hall (128 + (seqLen / 4 - 1))
        (.inr ⟨(128, 4), by decide, seqLen / 4 - 1, Nat.sub_lt (by omega) Nat.one_pos, rfl⟩)
      omega
  · rintro hreach column (hwindow | ⟨pair, hpair, group, hgroup, rfl⟩)
    · omega
    · fin_cases hpair <;> simp only at hgroup ⊢ <;> omega

theorem decode_columns_lt_iff (hmode : inferMode.isPrefillOnly = false) (hpos : 0 < seqLen)
    (hseq : seqLen ≤ blocks) :
    (∀ column ∈ columnsUsed windowSize inferMode seqLen queryLen, column < blocks) ↔
      128 + (seqLen - queryLen) / 4 < blocks := by
  have hwindow := Nat.mod_le (seqLen - 1) windowSize
  simp only [columnsUsed, hmode, Bool.false_eq_true, if_false, List.mem_cons, List.mem_map]
  constructor
  · intro hall
    exact hall _ (.inr ⟨(128, 4), by decide, rfl⟩)
  · rintro hreach column (rfl | ⟨pair, hpair, rfl⟩)
    · omega
    · fin_cases hpair <;> simp only <;> omega

end Columns

section Reads

open Rows

/-- A row of the block table whose slots are their own columns. -/
def columnRow (width : Nat) : List Int := (List.range width).map Int.ofNat

theorem getD_columnRow {width column : Nat} (h : column < width) :
    (columnRow width).getD column 0 = column := by
  rw [columnRow, List.getD_eq_getElem _ _ (by simpa using h)]
  simp

theorem mem_slice_columnRow {start count width column : Nat} (h : count ≤ width - start) :
    (column : Int) ∈ slice start count (columnRow width) ↔
      start ≤ column ∧ column < start + count := by
  rw [slice_eq_map (by simpa [columnRow] using h), List.mem_map]
  constructor
  · rintro ⟨i, hi, heq⟩
    rw [List.mem_range] at hi
    rw [getD_columnRow (by omega)] at heq
    omega
  · rintro ⟨hfirst, hlast⟩
    refine ⟨column - start, List.mem_range.mpr (by omega), ?_⟩
    rw [getD_columnRow (by omega)]
    omega

theorem mem_windowSlots_columnRow {windowSize num width column : Nat} (hpos : 0 < windowSize)
    (hwidth : min num windowSize ≤ width) :
    (column : Int) ∈ windowSlots windowSize num (columnRow width) ↔
      column < min num windowSize := by
  have hlength : (columnRow width).length = width := by simp [columnRow]
  by_cases hshort : num < windowSize
  · rw [windowSlots_short hshort (by omega), mem_slice_columnRow (by omega)]
    omega
  · have hlt := Nat.mod_lt num hpos
    have hnone : ¬(column : Int) ∈ List.replicate (num - windowSize) (-1) := by
      intro hmem
      have := List.eq_of_mem_replicate hmem
      omega
    rw [windowSlots_long hpos (by omega) (by omega), List.mem_append, List.mem_append,
      mem_slice_columnRow (by omega), mem_slice_columnRow (by omega)]
    simp only [hnone, false_or]
    omega

/-- The slots that `update_forward_args` gives a request are those at the columns used, and
each of these columns is read. -/
theorem mem_columnsUsed_iff {cfg : DeepseekV4Config} (hpos : 0 < cfg.windowSize)
    (hratios : cfg.compressRatios.toFinset = {0, 4, 128}) {inferMode : MLUInferMode}
    {seqLen queryLen width : Nat} (hquery : 0 < queryLen) (hle : queryLen ≤ seqLen)
    (hmode : inferMode.isPrefillOnly = true → queryLen = seqLen)
    (hwide : ∀ column ∈ columnsUsed cfg.windowSize inferMode seqLen queryLen, column < width) :
    ∃ window mapping, updateForwardArgs cfg
        (packed inferMode [seqLen] [queryLen] [columnRow width]) = .ok (some window, mapping) ∧
      ∀ column : Nat, column ∈ columnsUsed cfg.windowSize inferMode seqLen queryLen ↔
        (column : Int) ∈ window ∨ ∃ pair ∈ compressorPairs, ∃ slots,
          mapping.get? pair = some slots ∧ (column : Int) ∈ slots := by
  have hlength : (columnRow width).length = width := by simp [columnRow]
  cases hprefill : inferMode.isPrefillOnly with
  | true =>
      have hsame := hmode hprefill
      rw [hsame] at hwide ⊢
      have hitems : ∀ item ∈ [()], ∀ column ∈ columnsUsed cfg.windowSize inferMode seqLen seqLen,
          column < (columnRow width).length := by
        intro _ _
        rwa [hlength]
      obtain ⟨mapping, hreturns, hget⟩ := updateForwardArgs_prefill hpos hratios hprefill hitems
      refine ⟨_, mapping, hreturns, ?_⟩
      intro column
      have hwindow : min seqLen cfg.windowSize ≤ width := by
        have hcolumn := hwide (min seqLen cfg.windowSize - 1)
        simp only [columnsUsed, hprefill, if_true, List.mem_append, List.mem_range] at hcolumn
        have := hcolumn (.inl (by omega))
        omega
      have hgroups : ∀ pair ∈ compressorPairs, ((∃ slots, mapping.get? pair = some slots ∧
          (column : Int) ∈ slots) ↔ pair.1 ≤ column ∧ column < pair.1 + seqLen / pair.2) := by
        intro pair hpair
        have hle := groups_le_of_columns hprefill hitems hpair () (by simp)
        rw [hlength] at hle
        rw [hget pair hpair]
        simp only [Option.some.injEq, exists_eq_left', List.flatMap_singleton]
        exact mem_slice_columnRow hle
      rw [List.flatMap_singleton, mem_windowSlots_columnRow hpos hwindow]
      simp only [columnsUsed, hprefill, if_true, List.mem_append, List.mem_range, List.mem_flatMap,
        List.mem_map]
      apply or_congr Iff.rfl
      apply exists_congr
      intro pair
      apply and_congr_right
      intro hpair
      rw [hgroups pair hpair]
      constructor
      · rintro ⟨group, hgroup, rfl⟩
        omega
      · rintro ⟨hfirst, hlast⟩
        exact ⟨column - pair.1, by omega, by omega⟩
  | false =>
      have hpositive : ∀ item ∈ [()], 0 < seqLen := by
        intro _ _
        omega
      have hitems : ∀ item ∈ [()],
          ∀ column ∈ columnsUsed cfg.windowSize inferMode seqLen queryLen,
            column < (columnRow width).length := by
        intro _ _
        rwa [hlength]
      obtain ⟨mapping, hreturns, hget⟩ := updateForwardArgs_decode hpos hratios hprefill hpositive
        (fun _ _ => hle) hitems
      refine ⟨_, mapping, hreturns, ?_⟩
      intro column
      simp only [columnsUsed, hprefill, Bool.false_eq_true, if_false, List.mem_cons, List.mem_map]
        at hwide
      rw [columnsUsed, if_neg (by simp [hprefill]), List.mem_cons, List.mem_map]
      have hslot : ∀ other < width, (column = other ↔
          (column : Int) ∈ [()].map fun _ => (columnRow width).getD other 0) := by
        intro other hother
        rw [List.map_singleton, List.mem_singleton, getD_columnRow hother]
        omega
      apply or_congr (hslot _ (hwide _ (.inl rfl)))
      apply exists_congr
      intro pair
      apply and_congr_right
      intro hpair
      rw [hget pair hpair]
      simp only [Option.some.injEq, exists_eq_left']
      rw [eq_comm]
      exact hslot _ (hwide _ (.inr ⟨pair, hpair, rfl⟩))

end Reads

open VllmMlu.Sched

variable {σ : Type}

/-- The blocks of the request just before `allocate_new_blocks` tops them up. -/
def heldBlocks (cfg : Config) (host : Host σ) (st : σ) (request : Request)
    (slots : SlotRequest) : Nat :=
  let newComputedBlockList := slots.newComputedBlocks.getD host.emptyKVCacheBlocks
  let st := host.removeSkippedBlocks st request.requestId request.numComputedTokens
  let st := if cfg.enableCaching then host.touch st newComputedBlockList else st
  let st :=
    if newComputedBlockList = host.emptyKVCacheBlocks then st
    else host.saveNewComputedBlocks st request.requestId newComputedBlockList
  host.numBlocks st request.requestId

theorem numBlocks_allocateSlots {cfg : Config} {host : Host σ} (owns : host.OwnsBlocks 1)
    {st st' : σ} {request : Request} {slots : SlotRequest} {blocks : KVCacheBlocks}
    (hok : allocateSlots cfg host st request slots = .ok (st', some blocks)) :
    host.numBlocks st' request.requestId =
      max (heldBlocks cfg host st request slots) (slots.numTokensNeedSlot cfg request).toNat := by
  have hone : ∀ num : Int, Host.blocksFor 1 num = num.toNat := by
    intro num
    simp [Host.blocksFor]
  unfold allocateSlots at hok
  dsimp only at hok
  split at hok
  · cases hok
  split at hok
  · cases hok
  split at hok
  · cases hok
  split at hok
  · cases hok
    rw [owns.allocate_owned, hone]
    rfl
  · cases hok
    rw [owns.cacheBlocks_keeps, owns.allocate_owned, hone]
    rfl

/-- The blocks a request has after an allocation that returns some. -/
def blocksGiven (cfg : Config) (rules : Rules) (request : Request) (slots : SlotRequest)
    (held : Nat) : Nat :=
  max held (min (request.numComputedTokens + slots.numNewComputedTokens + slots.numNewTokens +
    slots.numLookaheadTokens + rules.fixedWindowTokens) cfg.maxModelLen).toNat

/-- With the arguments of either scheduler, a step of up to `max_model_len` tokens stays
inside its blocks exactly if the groups of ratio 4 do, behind their fixed offset 128. -/
theorem columns_inside_iff {cfg : Config} {host : Host σ} (owns : host.OwnsBlocks 1)
    {st st' : σ} {request : Request} {slots : SlotRequest} {blocks : KVCacheBlocks}
    (hok : allocateSlots cfg host st request slots = .ok (st', some blocks))
    (hlookahead : 0 ≤ slots.numLookaheadTokens) {seqLen queryLen : Nat}
    (hseq : seqLen = request.numComputedTokens + slots.numNewComputedTokens + slots.numNewTokens)
    (hquery : 0 < queryLen) (hle : queryLen ≤ seqLen) (hmax : seqLen ≤ cfg.maxModelLen)
    {inferMode : MLUInferMode} (hmode : inferMode.isPrefillOnly = true → queryLen = seqLen) :
    ∀ rules ∈ [chunkedRules cfg, unchunkRules cfg],
      slots.fixedWindowTokens = rules.fixedWindowTokens →
        ((∀ column ∈ columnsUsed cfg.windowSize inferMode seqLen queryLen,
            column < host.numBlocks st' request.requestId) ↔
          if inferMode.isPrefillOnly then
            seqLen < 4 ∨ 128 + seqLen / 4 ≤
              blocksGiven cfg rules request slots (heldBlocks cfg host st request slots)
          else 128 + (seqLen - queryLen) / 4 <
            blocksGiven cfg rules request slots (heldBlocks cfg host st request slots)) := by
  intro rules _ hfixed
  have hgiven : host.numBlocks st' request.requestId =
      blocksGiven cfg rules request slots (heldBlocks cfg host st request slots) := by
    rw [numBlocks_allocateSlots owns hok, blocksGiven, SlotRequest.numTokensNeedSlot, hfixed]
  have hblocks : seqLen ≤
      blocksGiven cfg rules request slots (heldBlocks cfg host st request slots) := by
    unfold blocksGiven
    omega
  rw [hgiven]
  cases hprefill : inferMode.isPrefillOnly with
  | true =>
      rw [if_pos rfl]
      exact prefill_columns_lt_iff hprefill (hmode hprefill) hblocks
  | false =>
      rw [if_neg Bool.false_ne_true]
      exact decode_columns_lt_iff hprefill (by omega) hblocks

/-- Where `max_model_len` is at least 171 and the window at least 128, the unchunk scheduler
keeps every step inside. -/
theorem unchunk_columns_inside {cfg : Config} {host : Host σ} (owns : host.OwnsBlocks 1)
    {st st' : σ} {request : Request} {slots : SlotRequest} {blocks : KVCacheBlocks}
    (hok : allocateSlots cfg host st request slots = .ok (st', some blocks))
    (hlookahead : 0 ≤ slots.numLookaheadTokens) {seqLen queryLen : Nat}
    (hseq : seqLen = request.numComputedTokens + slots.numNewComputedTokens + slots.numNewTokens)
    (hquery : 0 < queryLen) (hle : queryLen ≤ seqLen) (hmax : seqLen ≤ cfg.maxModelLen)
    {inferMode : MLUInferMode} (hmode : inferMode.isPrefillOnly = true → queryLen = seqLen)
    (hfixed : slots.fixedWindowTokens = (unchunkRules cfg).fixedWindowTokens)
    (hlong : 171 ≤ cfg.maxModelLen) (hwindow : 128 ≤ cfg.windowSize) :
    ∀ column ∈ columnsUsed cfg.windowSize inferMode seqLen queryLen,
      column < host.numBlocks st' request.requestId := by
  have hiff := columns_inside_iff owns hok hlookahead hseq hquery hle hmax hmode
    (unchunkRules cfg) (by simp) hfixed
  have hkept : (unchunkRules cfg).fixedWindowTokens = cfg.windowSize := rfl
  apply hiff.mpr
  unfold blocksGiven
  rw [hkept]
  split
  · omega
  · omega

/-- A ring of 128 at block size one. -/
def ringModel (maxModelLen : Nat) : Config :=
  { maxNumScheduledTokens := 4096, maxNumRunningReqs := 4, maxModelLen := maxModelLen,
    blockSize := 1, windowSize := 128 }

/-- The first decode step of a prompt of five tokens under the chunked scheduler, and one
under the unchunk scheduler with a `max_model_len` of 100. -/
theorem decode_columns_outside :
    (∃ st' blocks, allocateSlots (ringModel 4096) (Pool.host (ringModel 4096))
        { numFreeBlocks := 8192, owned := fun _ => 5 }
        { requestId := 0, promptTokenIds := [1, 2, 3, 4, 5], maxTokens := 4,
          outputTokenIds := [6], numComputedTokens := 5 }
        { numNewTokens := 1,
          fixedWindowTokens := (chunkedRules (ringModel 4096)).fixedWindowTokens } =
          .ok (st', some blocks) ∧
      ¬∀ column ∈ columnsUsed 128 .decodeOnly 6 1,
        column < (Pool.host (ringModel 4096)).numBlocks st' 0) ∧
    ∃ st' blocks, allocateSlots (ringModel 100) (Pool.host (ringModel 100))
        { numFreeBlocks := 8192, owned := fun _ => 100 }
        { requestId := 0, promptTokenIds := [1, 2, 3, 4, 5], maxTokens := 4,
          outputTokenIds := [6], numComputedTokens := 5 }
        { numNewTokens := 1,
          fixedWindowTokens := (unchunkRules (ringModel 100)).fixedWindowTokens } =
          .ok (st', some blocks) ∧
      ¬∀ column ∈ columnsUsed 128 .decodeOnly 6 1,
        column < (Pool.host (ringModel 100)).numBlocks st' 0 := by
  exact ⟨⟨_, _, rfl, by decide⟩, ⟨_, _, rfl, by decide⟩⟩

def longPrompt : Request :=
  { requestId := 0, promptTokenIds := (List.replicate 200 1), maxTokens := 4 }

def longPromptSlots : SlotRequest :=
  { numNewTokens := 200, fixedWindowTokens := (chunkedRules (ringModel 4096)).fixedWindowTokens }

theorem columns_inside_iff_long :
    ∃ st' blocks, allocateSlots (ringModel 4096) (Pool.host (ringModel 4096))
        { numFreeBlocks := 8192 } longPrompt longPromptSlots = .ok (st', some blocks) ∧
      ∀ column ∈ columnsUsed 128 .prefillOnly 200 200,
        column < (Pool.host (ringModel 4096)).numBlocks st' 0 := by
  have hreturns : ∃ st' blocks, allocateSlots (ringModel 4096) (Pool.host (ringModel 4096))
      { numFreeBlocks := 8192 } longPrompt longPromptSlots = .ok (st', some blocks) :=
    ⟨_, _, rfl⟩
  obtain ⟨st', blocks, hok⟩ := hreturns
  refine ⟨st', blocks, hok, ?_⟩
  have hseq : ((200 : Nat) : Int) = longPrompt.numComputedTokens +
      longPromptSlots.numNewComputedTokens + longPromptSlots.numNewTokens := rfl
  apply (columns_inside_iff (Pool.host_ownsBlocks (ringModel 4096)) hok le_rfl hseq
    (by decide) (Nat.le_refl 200) (by decide) (fun _ => rfl)
    (chunkedRules (ringModel 4096)) (by simp) rfl).mpr
  decide

end VllmMlu.Models
