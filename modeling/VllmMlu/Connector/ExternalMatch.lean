import VllmMlu.Connector.Agreement

/-! How many tokens the shared storage connector reports to the scheduler, beside those of the
local prefix cache. -/
namespace VllmMlu.Connector
open Library

variable {blockSize : Nat}

/-- `num_computed_tokens` of a request that `schedule()` takes from the waiting queue. -/
def waitingComputedTokens (blockSize : Nat) (storage : Storage) (request : Request)
    (numNewLocalComputedTokens : Nat) : Int :=
  let (extTokens, _) :=
    getNumNewMatchedTokens blockSize storage request numNewLocalComputedTokens
  numNewLocalComputedTokens + extTokens

/-- The external tokens come on top of the local ones and leave a token of the prompt. -/
structure MatchInRange (blockSize : Nat) (storage : Storage) (request : Request)
    (numComputedTokens : Nat) : Prop where
  nonneg : 0 ≤ (getNumNewMatchedTokens blockSize storage request numComputedTokens).1
  lt : (getNumNewMatchedTokens blockSize storage request numComputedTokens).1 <
    request.promptTokenIds.length - numComputedTokens
  keepsLocal : (numComputedTokens : Int) ≤
    waitingComputedTokens blockSize storage request numComputedTokens
  leavesToken : waitingComputedTokens blockSize storage request numComputedTokens <
    request.promptTokenIds.length

/-- The length of the looked-up prefix is negative for a prompt of one token. -/
theorem le_alignToBlockSize_pred_iff (hblock : 0 < blockSize) {numTokens count : Nat} :
    (count : Int) ≤ alignToBlockSize (numTokens - 1) blockSize ↔
      2 ≤ numTokens ∧ count ≤ alignedTokens blockSize (numTokens - 1) := by
  rcases Nat.lt_or_ge 1 numTokens with hlong | hshort
  · have hcast : ((numTokens : Int) - 1) = ((numTokens - 1 : Nat) : Int) := by omega
    rw [hcast, alignToBlockSize_natCast (by omega), Int.ofNat_le]
    exact (and_iff_right hlong).symm
  · have hneg := alignToBlockSize_le hblock (show (numTokens : Int) - 1 ≤ 0 by omega)
    constructor
    · intro h
      omega
    · intro ⟨htwo, _⟩
      omega

theorem matchInRange_iff_of_found {storage : Storage} {request : Request} {numComputedTokens : Nat}
    (hfound : foundMatchForPrompt blockSize storage request.promptTokenIds request.mmHashes = true)
    (hblock : 0 < blockSize) :
    MatchInRange blockSize storage request numComputedTokens ↔
      2 ≤ request.promptTokenIds.length ∧
        numComputedTokens ≤ alignedTokens blockSize (request.promptTokenIds.length - 1) := by
  have hmatch : getNumNewMatchedTokens blockSize storage request numComputedTokens =
      (alignToBlockSize (request.promptTokenIds.length - 1) blockSize - numComputedTokens,
        false) := if_pos hfound
  rw [← le_alignToBlockSize_pred_iff hblock]
  constructor
  · intro h
    have hnonneg := h.nonneg
    rw [hmatch] at hnonneg
    simp only at hnonneg
    omega
  · intro hle
    obtain ⟨hlong, -⟩ := (le_alignToBlockSize_pred_iff hblock).mp hle
    have hend : alignToBlockSize (request.promptTokenIds.length - 1) blockSize <
        request.promptTokenIds.length := by
      have hcast : ((request.promptTokenIds.length : Int) - 1) =
          ((request.promptTokenIds.length - 1 : Nat) : Int) := by omega
      have haligned := @alignedTokens_le blockSize (request.promptTokenIds.length - 1)
      rw [hcast, alignToBlockSize_natCast (by omega)]
      omega
    constructor <;> simp only [waitingComputedTokens, hmatch] <;> omega

theorem matchInRange_iff_of_not_found {storage : Storage} {request : Request}
    {numComputedTokens : Nat}
    (hmissing : foundMatchForPrompt blockSize storage request.promptTokenIds request.mmHashes =
      false) :
    MatchInRange blockSize storage request numComputedTokens ↔
      numComputedTokens < request.promptTokenIds.length := by
  have hmatch : getNumNewMatchedTokens blockSize storage request numComputedTokens =
      (0, false) := by
    rw [getNumNewMatchedTokens, hmissing]
    rfl
  constructor
  · intro h
    have hlt := h.lt
    rw [hmatch] at hlt
    simp only at hlt
    omega
  · intro hlt
    constructor <;> simp only [waitingComputedTokens, hmatch] <;> omega

/-- The report is in range exactly if a match goes with a prompt of two tokens or more and no
more local tokens than the whole blocks before its last token; without a match, if the local
tokens leave a token of the prompt. -/
theorem match_in_range_iff (hblock : 0 < blockSize) (storage : Storage) (request : Request)
    (numComputedTokens : Nat) :
    MatchInRange blockSize storage request numComputedTokens ↔
      if foundMatchForPrompt blockSize storage request.promptTokenIds request.mmHashes then
        2 ≤ request.promptTokenIds.length ∧
          numComputedTokens ≤ (request.promptTokenIds.length - 2) / blockSize * blockSize
      else numComputedTokens < request.promptTokenIds.length := by
  split
  · rename_i hfound
    exact matchInRange_iff_of_found hfound hblock
  · rename_i hmissing
    exact matchInRange_iff_of_not_found (Bool.eq_false_iff.mpr hmissing)

open Samples in
theorem match_in_range_iff_three : MatchInRange 2 .empty (request 0 3) 2 :=
  (match_in_range_iff (by decide) .empty (request 0 3) 2).mpr (by decide)

open Samples in
/-- The prompt of one token is stored under the name of the empty prefix; the next such prompt
finds it, and is told that two tokens less than none are computed. -/
theorem one_token_prompt_below_zero : ∃ state,
    (connector 2).Run Event.Allowed .empty state ∧
    getNumNewMatchedTokens 2 state.storage (request 1 1) 0 = (-2, false) ∧
    waitingComputedTokens 2 state.storage (request 1 1) 0 = -2 ∧
    ¬MatchInRange 2 state.storage (request 1 1) 0 := by
  obtain ⟨state, run, htest⟩ := Machine.exists_of_leadsTo (connector 2) Event.Allowed .empty
    [.schedule ⟨[newReq 0 1 [0]], []⟩, .execute]
    (fun state => decide (getNumNewMatchedTokens 2 state.storage (request 1 1) 0 = (-2, false)))
    (by decide +kernel)
  have hmatch := of_decide_eq_true htest
  refine ⟨state, run, hmatch, ?_, ?_⟩
  · simp [waitingComputedTokens, hmatch]
  · intro h
    have hnonneg := h.nonneg
    rw [Nat.cast_zero, hmatch] at hnonneg
    cases hnonneg

end VllmMlu.Connector
