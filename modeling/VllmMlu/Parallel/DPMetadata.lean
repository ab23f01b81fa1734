import Mathlib

/-! The token distribution of one step over the data parallel ranks. -/
namespace VllmMlu.Parallel

structure MLUDPMetadata where
  /-- The tokens of the own rank, and how many tokens the ranks before it hold. -/
  tokenNum : Nat
  tokenNumOffset : Nat
  layerUseReduceScatter : Bool
  /-- `-1` where nothing is padded. -/
  prefillPadToTokenNum : Int
  /-- One entry per data parallel rank. -/
  tokenSplitList : List Nat
  /-- One entry per card. -/
  attnTokenSplitListReduceScatter : Option (List Nat)
  /-- One entry per rank of a tensor parallel group. -/
  moeTokenSplitListReduceScatter : Option (List Nat)
  dpIsPrefill : List Bool
  seqLens : Option (List Nat)
  batchSizes : Option (List Nat)
  embTokenSplitList : Option (List Nat)
  logitsBatchSplitList : Option (List Nat)
  denseAttnTokenSplitList : Option (List Nat)
deriving Repr, DecidableEq

/-- The arguments of `make_oot` that it only stores. -/
structure SplitLists where
  seqLens : Option (List Nat) := none
  batchSizes : Option (List Nat) := none
  embQueryLens : Option (List Nat) := none
  logitsBatchSizes : Option (List Nat) := none
  denseAttnTokenSplitList : Option (List Nat) := none
deriving Repr, DecidableEq

def attnCanUseReduceScatter (tensorParallelSize : Nat) (tokenSplitList : List Nat) : Bool :=
  tokenSplitList.all fun num => num != 0 && num % tensorParallelSize == 0

def allSplitTokenNumEqual (tokenSplitList : List Nat) : Bool :=
  tokenSplitList.all fun num => some num == tokenSplitList.head?

def layerCanUseReduceScatter (tensorParallelSize : Nat) (tokenSplitList : List Nat) : Bool :=
  attnCanUseReduceScatter tensorParallelSize tokenSplitList &&
    allSplitTokenNumEqual tokenSplitList

/-- Round up to a multiple of the tensor parallel size. -/
def padToMultiple (tensorParallelSize tokenNum : Nat) : Nat :=
  (tokenNum + tensorParallelSize - 1) / tensorParallelSize * tensorParallelSize

/-- What `make_oot` returns where neither of its branches applies. -/
def MLUDPMetadata.plain (dataParallelRank tokenNum : Nat) (dpTokenNums : List Nat)
    (dpIsPrefill : List Bool) (lists : SplitLists) : MLUDPMetadata where
  tokenNum
  tokenNumOffset := (dpTokenNums.take dataParallelRank).sum
  layerUseReduceScatter := false
  prefillPadToTokenNum := -1
  tokenSplitList := dpTokenNums
  attnTokenSplitListReduceScatter := none
  moeTokenSplitListReduceScatter := none
  dpIsPrefill
  seqLens := lists.seqLens
  batchSizes := lists.batchSizes
  embTokenSplitList := lists.embQueryLens
  logitsBatchSplitList := lists.logitsBatchSizes
  denseAttnTokenSplitList := lists.denseAttnTokenSplitList

/-- `none` where the own rank has no entry (`IndexError`). -/
def MLUDPMetadata.makeOot (dataParallelRank dataParallelSize tensorParallelSize : Nat)
    (dpTokenNums : List Nat) (dpIsPrefill : List Bool) (prefillDispatchUseRSAG : Bool)
    (lists : SplitLists := {}) : Option MLUDPMetadata := do
  let tokenNum ← dpTokenNums[dataParallelRank]?
  let first ← dpTokenNums.head?
  let tpWorldSize := dataParallelSize * tensorParallelSize
  let base := MLUDPMetadata.plain dataParallelRank tokenNum dpTokenNums dpIsPrefill lists
  if layerCanUseReduceScatter tensorParallelSize dpTokenNums then
    let attnSplit := List.replicate tpWorldSize (first / tensorParallelSize)
    return { base with
      layerUseReduceScatter := true
      attnTokenSplitListReduceScatter := some attnSplit
      moeTokenSplitListReduceScatter := some (attnSplit.take tensorParallelSize) }
  else if prefillDispatchUseRSAG && dpIsPrefill.all id then
    let dpGroupMaxTokenNums ← dpTokenNums.max?
    let pad := padToMultiple tensorParallelSize dpGroupMaxTokenNums
    return { base with
      prefillPadToTokenNum := pad
      attnTokenSplitListReduceScatter :=
        some (List.replicate tpWorldSize (pad / tensorParallelSize)) }
  else
    return base

/-- Whether the own rank's entry exists is all that decides whether there is metadata. -/
theorem MLUDPMetadata.makeOot_isSome (rank dpSize tpSize : Nat) (dpTokenNums : List Nat)
    (dpIsPrefill : List Bool) (useRSAG : Bool) (lists : SplitLists) :
    (makeOot rank dpSize tpSize dpTokenNums dpIsPrefill useRSAG lists).isSome =
      decide (rank < dpTokenNums.length) := by
  unfold makeOot
  by_cases h : rank < dpTokenNums.length
  · cases dpTokenNums with
    | nil => simp at h
    | cons first rest =>
        rw [List.getElem?_eq_getElem h]
        simp only [Option.bind_eq_bind, Option.bind_some, List.head?_cons, decide_eq_true h]
        split
        · rfl
        · split
          · rw [List.max?_cons']
            rfl
          · rfl
  · rw [List.getElem?_eq_none (by omega)]
    simpa using h

theorem layerCanUseReduceScatter_eq_true {tpSize : Nat} {tokens : List Nat} :
    layerCanUseReduceScatter tpSize tokens = true ↔
      (∀ num ∈ tokens, num ≠ 0 ∧ tpSize ∣ num) ∧ ∀ num ∈ tokens, some num = tokens.head? := by
  simp [layerCanUseReduceScatter, attnCanUseReduceScatter, allSplitTokenNumEqual,
    Nat.dvd_iff_mod_eq_zero]

theorem le_padToMultiple {tpSize : Nat} (hpos : 0 < tpSize) (tokenNum : Nat) :
    tokenNum ≤ padToMultiple tpSize tokenNum := by
  unfold padToMultiple
  have hdiv := Nat.div_add_mod (tokenNum + tpSize - 1) tpSize
  have hmod := Nat.mod_lt (tokenNum + tpSize - 1) hpos
  rw [Nat.mul_comm]
  omega

theorem dvd_padToMultiple (tpSize tokenNum : Nat) : tpSize ∣ padToMultiple tpSize tokenNum :=
  Nat.dvd_mul_left _ _

section Branches

variable {rank dpSize tpSize tokenNum : Nat} {dpTokenNums : List Nat} {dpIsPrefill : List Bool}
  {useRSAG : Bool} {lists : SplitLists}

theorem MLUDPMetadata.makeOot_layer {first : Nat} (hown : dpTokenNums[rank]? = some tokenNum)
    (hfirst : dpTokenNums.head? = some first)
    (hlayer : layerCanUseReduceScatter tpSize dpTokenNums = true) :
    makeOot rank dpSize tpSize dpTokenNums dpIsPrefill useRSAG lists =
      some { MLUDPMetadata.plain rank tokenNum dpTokenNums dpIsPrefill lists with
        layerUseReduceScatter := true
        attnTokenSplitListReduceScatter :=
          some (List.replicate (dpSize * tpSize) (first / tpSize))
        moeTokenSplitListReduceScatter :=
          some ((List.replicate (dpSize * tpSize) (first / tpSize)).take tpSize) } := by
  simp only [makeOot, hown, hfirst, hlayer, Option.bind_eq_bind, Option.bind_some, if_true]
  rfl

theorem MLUDPMetadata.makeOot_padded {most : Nat} (hown : dpTokenNums[rank]? = some tokenNum)
    (hmost : dpTokenNums.max? = some most)
    (hlayer : layerCanUseReduceScatter tpSize dpTokenNums = false)
    (hpad : (useRSAG && dpIsPrefill.all id) = true) :
    makeOot rank dpSize tpSize dpTokenNums dpIsPrefill useRSAG lists =
      some { MLUDPMetadata.plain rank tokenNum dpTokenNums dpIsPrefill lists with
        prefillPadToTokenNum := padToMultiple tpSize most
        attnTokenSplitListReduceScatter :=
          some (List.replicate (dpSize * tpSize) (padToMultiple tpSize most / tpSize)) } := by
  cases dpTokenNums with
  | nil => cases hmost
  | cons first rest =>
      simp only [makeOot, hown, hmost, hlayer, hpad, List.head?_cons, Option.bind_eq_bind,
        Option.bind_some, if_true, Bool.false_eq_true, if_false]
      rfl

theorem MLUDPMetadata.makeOot_plain (hown : dpTokenNums[rank]? = some tokenNum)
    (hlayer : layerCanUseReduceScatter tpSize dpTokenNums = false)
    (hpad : (useRSAG && dpIsPrefill.all id) = false) :
    makeOot rank dpSize tpSize dpTokenNums dpIsPrefill useRSAG lists =
      some (MLUDPMetadata.plain rank tokenNum dpTokenNums dpIsPrefill lists) := by
  cases dpTokenNums with
  | nil => cases hown
  | cons first rest =>
      simp only [makeOot, hown, hlayer, hpad, List.head?_cons, Option.bind_eq_bind,
        Option.bind_some, Bool.false_eq_true, if_false]
      rfl

/-- The branches differ in what concerns the reduce-scatter and in nothing else. -/
theorem MLUDPMetadata.makeOot_eq_plain {params : MLUDPMetadata}
    (h : makeOot rank dpSize tpSize dpTokenNums dpIsPrefill useRSAG lists = some params) :
    ∃ own layer pad attn moe, dpTokenNums[rank]? = some own ∧
      params = { MLUDPMetadata.plain rank own dpTokenNums dpIsPrefill lists with
        layerUseReduceScatter := layer
        prefillPadToTokenNum := pad
        attnTokenSplitListReduceScatter := attn
        moeTokenSplitListReduceScatter := moe } := by
  unfold makeOot at h
  cases hown : dpTokenNums[rank]? with
  | none => simp [hown] at h
  | some own =>
      cases hfirst : dpTokenNums.head? with
      | none => simp [hown, hfirst] at h
      | some first =>
          simp only [hown, hfirst, Option.bind_eq_bind, Option.bind_some] at h
          split at h
          · cases h
            exact ⟨own, _, _, _, _, rfl, rfl⟩
          · split at h
            · cases hmost : dpTokenNums.max? with
              | none => simp [hmost] at h
              | some most =>
                  simp only [hmost, Option.bind_some] at h
                  cases h
                  exact ⟨own, _, _, _, _, rfl, rfl⟩
            · cases h
              exact ⟨own, _, _, _, _, rfl, rfl⟩

/-- Every branch keeps what the ranks reported. -/
theorem MLUDPMetadata.makeOot_eq_some {params : MLUDPMetadata}
    (h : makeOot rank dpSize tpSize dpTokenNums dpIsPrefill useRSAG lists = some params) :
    dpTokenNums[rank]? = some params.tokenNum ∧ params.tokenSplitList = dpTokenNums ∧
      params.dpIsPrefill = dpIsPrefill ∧ params.seqLens = lists.seqLens ∧
      params.batchSizes = lists.batchSizes := by
  obtain ⟨own, layer, pad, attn, moe, hown, rfl⟩ := makeOot_eq_plain h
  exact ⟨hown, rfl, rfl, rfl, rfl⟩

end Branches

end VllmMlu.Parallel
