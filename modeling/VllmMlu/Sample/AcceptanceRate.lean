import VllmMlu.Sample.RejectionRows

/-! The rows of the rejection sampler under a fixed acceptance rate: how many tokens a request
gets, and where a row has a hole. -/
namespace VllmMlu.Sample
open VllmMlu.Library VllmMlu.Library.Cuts VllmMlu.Library.Kernel VllmMlu.Library.Rows
  VllmMlu.Library.Speculation

/-- A row of as many tokens, without a placeholder among them. -/
def HasTokens (maxSpecLen count : Nat) (row : List Int) : Prop :=
  ∃ tokens : List Nat, tokens.length = count ∧ row = paddedRow maxSpecLen tokens

/-- The first token is kept and the others are replaced. -/
theorem setSpeculative_holds {output : List Int} {batchSize maxSpecLen : Nat}
    {entry : Nat → Nat → Int} (value : Int)
    (hholds : Holds output batchSize (maxSpecLen + 1) entry) :
    Holds (setSpeculative maxSpecLen value output) batchSize (maxSpecLen + 1) fun row col =>
      if col = 0 then entry row 0 else value := by
  refine ⟨by rw [setSpeculative, List.length_mapIdx, hholds.length], fun row hrow col hcol => ?_⟩
  rw [setSpeculative, List.getElem?_mapIdx, hholds.get row hrow col hcol, Option.map_some,
    Nat.mul_comm row, Nat.mul_add_mod, Nat.mod_eq_of_lt hcol]
  split
  case isTrue hzero => rw [hzero]
  case isFalse => rfl

section Rows

variable {v : Verdict Nat} {maxSpecLen : Nat}

theorem rowEntry_zero (v : Verdict Nat) (hasAcceptanceRate : Bool) (old : Nat → Int) :
    ∃ token : Nat, rowEntry v hasAcceptanceRate old 0 = Int.ofNat token := by
  rw [rowEntry]
  split
  case isTrue => exact ⟨_, rfl⟩
  case isFalse =>
    have hlt : 0 < v.emitted.length := by
      rw [v.length_emitted]
      omega
    exact ⟨_, by rw [List.getElem?_eq_getElem hlt, Option.elim_some]⟩

/-- A row that only the first token is left of. -/
theorem hasTokens_one {entry : Nat → Int} (hfirst : ∃ token : Nat, entry 0 = Int.ofNat token) :
    HasTokens maxSpecLen 1 ((List.range (maxSpecLen + 1)).map fun col =>
      if col = 0 then entry 0 else placeholderTokenId) := by
  obtain ⟨token, hfirst⟩ := hfirst
  refine ⟨[token], rfl, map_range_eq_paddedRow (by simp) fun col _ => ?_⟩
  cases col with
  | zero => rw [if_pos rfl, hfirst]; rfl
  | succ col => rw [if_neg (Nat.succ_ne_zero col)]; rfl

/-- With the bonus token in its place in any case, a row has no hole where no draft but the last
is rejected. -/
theorem hasTokens_iff (hfit : v.drafts.length ≤ maxSpecLen) :
    HasTokens maxSpecLen (v.drafts.length + 1)
        ((List.range (maxSpecLen + 1)).map (rowEntry v true fun _ => placeholderTokenId)) ↔
      v.drafts.length ≤ v.accepted + 1 := by
  have hle := v.accepted_le
  constructor
  · rintro ⟨tokens, hlength, hrow⟩
    by_contra hhole
    have hcol : v.accepted + 1 < maxSpecLen + 1 := by omega
    have hget := congrArg (·[v.accepted + 1]?) hrow
    simp only [paddedRow_getElem? hcol, List.getElem?_map, List.getElem?_range hcol,
      Option.map_some] at hget
    rw [rowEntry, if_neg (by omega), List.getElem?_eq_none (by rw [v.length_emitted]),
      Option.elim_none, List.getElem?_eq_getElem (by omega), Option.elim_some] at hget
    have hplaceholder : Int.negSucc 0 = Int.ofNat _ := Option.some.inj hget
    cases hplaceholder
  · intro hlast
    have hlength : (v.emitted.take v.drafts.length).length = v.drafts.length := by
      rw [List.length_take, v.length_emitted]
      omega
    refine ⟨v.emitted.take v.drafts.length ++ [v.bonus], by
      rw [List.length_append, hlength, List.length_singleton], map_range_eq_paddedRow (by
        rw [List.length_append, hlength, List.length_singleton]; omega) fun col _ => ?_⟩
    rw [rowEntry_bonus (.inl rfl), List.getElem?_append, hlength]
    rcases Nat.lt_trichotomy col v.drafts.length with hlt | rfl | hgt
    · rw [if_neg (Nat.ne_of_lt hlt), if_pos hlt, if_pos hlt, List.getElem?_take_of_lt hlt]
    · rw [if_pos rfl, if_neg (Nat.lt_irrefl _), Nat.sub_self]
      rfl
    · rw [if_neg (Nat.ne_of_gt hgt), if_neg (Nat.lt_asymm hgt), if_neg (Nat.lt_asymm hgt),
        List.getElem?_eq_none (by rw [List.length_singleton]; omega), Option.elim_none]

end Rows

namespace Batch

variable {F : Type} [Zero F] [One F] [Div F] [LT F] [DecidableLT F] [LE F] [DecidableLE F] [BEq F]

/-- Every draft of a greedy request but its last one is the token of the target. -/
def GreedyDraftsMatch (batch : Batch F) : Prop :=
  ∀ reqIdx < batch.batchSize, batch.greedy reqIdx = true →
    ∀ pos, pos + 1 < (batch.drafts reqIdx).length →
      (batch.drafts reqIdx)[pos]? =
        some (batch.targetArgmax.getD (batch.startIdx reqIdx + pos) 0)

variable {batch : Batch F} {draws : Draws F batch.draftTokenIds.length}

theorem verdict_drafts {hasAcceptanceRate : Bool} {reqIdx : Nat} :
    (batch.verdict draws hasAcceptanceRate reqIdx).drafts = batch.drafts reqIdx := by
  rw [verdict]
  split <;> rfl

/-- The drafts of a random request are all accepted, those of a greedy one where they match. -/
theorem le_accepted_add_one_iff {reqIdx : Nat} :
    (batch.drafts reqIdx).length ≤ (batch.verdict draws true reqIdx).accepted + 1 ↔
      (batch.greedy reqIdx = true → ∀ pos, pos + 1 < (batch.drafts reqIdx).length →
        (batch.drafts reqIdx)[pos]? =
          some (batch.targetArgmax.getD (batch.startIdx reqIdx + pos) 0)) := by
  have hiff := @Verdict.le_accepted_iff _ (batch.verdict draws true reqIdx)
    ((batch.drafts reqIdx).length - 1) (by rw [verdict_drafts]; omega)
  rw [← Nat.sub_le_iff_le_add, hiff]
  cases hgreedy : batch.greedy reqIdx with
  | true =>
      simp only [verdict, hgreedy, ↓reduceIte, greedyVerdict, decide_eq_true_eq, true_imp_iff,
        Nat.lt_sub_iff_add_lt]
  | false => simp [verdict, hgreedy, randomVerdict]

theorem length_drafts_of_fusion {F : Type} [Zero F] [BEq F] {batch : Batch F}
    (hfusion : batch.useFusionKernel = true) {reqIdx : Nat} (hreq : reqIdx < batch.batchSize) :
    batch.maxSpecLen = 1 ∧ (batch.drafts reqIdx).length = 1 := by
  simp only [useFusionKernel, Bool.and_eq_true, beq_iff_eq, Bool.not_eq_true',
    List.contains_eq_mem, decide_eq_false_iff_not] at hfusion
  obtain ⟨⟨-, hmax⟩, hnonzero⟩ := hfusion
  have hle := length_drafts_le hreq
  have hmem : batch.numDraftTokens.getD reqIdx 0 ∈ batch.numDraftTokens := by
    rw [List.getD_eq_getElem _ _ hreq]
    exact List.getElem_mem _
  have hne : batch.numDraftTokens.getD reqIdx 0 ≠ 0 := fun hzero => hnonzero (hzero ▸ hmem)
  have hlength := length_drafts hreq
  omega

end Batch

variable {F : Type} [Zero F] [One F] [Div F] [LT F] [DecidableLT F] [LE F] [DecidableLE F] [BEq F]

/-- The kernel of the other library fills its buffer, and the first entry of a row is a token. -/
def FirstTokens (mluRejectionSample : FusionKernel F) : Prop :=
  ∀ batch draws, batch.useFusionKernel = true →
    (mluRejectionSample batch draws).length = batch.batchSize * (batch.maxSpecLen + 1) ∧
    ∀ row < batch.batchSize, ∃ token : Nat,
      (mluRejectionSample batch draws)[row * (batch.maxSpecLen + 1)]? = some (Int.ofNat token)

/-- An accepted batch gives each request a token for each of its drafts and one more, a rejected
one a single token. -/
def RowsCounted (call : Call F) (output : List Int) : Prop :=
  ∀ reqIdx < call.batch.batchSize,
    HasTokens call.batch.maxSpecLen
      (if call.draws.acceptBatch then (call.batch.drafts reqIdx).length + 1 else 1)
      (chunk (call.batch.maxSpecLen + 1) reqIdx output)

/-- A rejected batch, from whatever the kernels left in it. -/
theorem rowsCounted_of_rejected {F : Type} [Zero F] [BEq F] {call : Call F}
    (hreject : call.draws.acceptBatch = false) {output : List Int} {entry : Nat → Nat → Int}
    (hholds : Holds output call.batch.batchSize (call.batch.maxSpecLen + 1) entry)
    (hfirst : ∀ row < call.batch.batchSize, ∃ token : Nat, entry row 0 = Int.ofNat token) :
    RowsCounted call (setSpeculative call.batch.maxSpecLen placeholderTokenId output) := by
  intro reqIdx hreq
  rw [hreject, (setSpeculative_holds placeholderTokenId hholds).chunk_eq hreq]
  exact hasTokens_one (hfirst reqIdx hreq)

theorem filter_eq {F : Type} [Zero F] [One F] [LE F] [DecidableLE F] {maxSpecLen : Nat} {rate : F}
    (hlow : 0 ≤ rate) (hhigh : rate ≤ 1) (output : List Int) (acceptBatch : Bool) :
    filterWithAcceptanceRate maxSpecLen output (some rate) acceptBatch =
      .ok (if acceptBatch then output
        else setSpeculative maxSpecLen placeholderTokenId output) := by
  rw [filterWithAcceptanceRate]
  exact if_pos ⟨hlow, hhigh⟩

/-- A call on the kernels of this repository. -/
theorem kernels_counted_iff {mluRejectionSample : FusionKernel F} {rate : F} (hlow : 0 ≤ rate)
    (hhigh : rate ≤ 1) {call : Call F} (hfusion : call.batch.useFusionKernel = false) :
    ∃ output, rejectionSample mluRejectionSample (some rate) call = .ok output ∧
      (RowsCounted call output ↔
        (call.draws.acceptBatch = true → call.batch.GreedyDraftsMatch)) := by
  obtain ⟨output, houtput, hrows⟩ := @Batch.launchKernels_rows _ _ _ _ _ _ _ _ _ call.batch
    call.draws true call.orders
  refine ⟨_, by
    rw [rejectionSample]
    simp only [hfusion, Bool.false_eq_true, ↓reduceIte, Option.isSome_some, houtput]
    exact filter_eq hlow hhigh output _, ?_⟩
  cases haccept : call.draws.acceptBatch with
  | false =>
      simp only [Bool.false_eq_true, ↓reduceIte, false_imp_iff, iff_true]
      exact rowsCounted_of_rejected haccept hrows fun row _ => rowEntry_zero _ _ _
  | true =>
      simp only [↓reduceIte, true_imp_iff, RowsCounted, haccept, Batch.GreedyDraftsMatch]
      refine forall₂_congr fun reqIdx hreq => ?_
      have hiff := @hasTokens_iff (call.batch.verdict call.draws true reqIdx)
        call.batch.maxSpecLen (Batch.length_verdict_drafts_le hreq)
      rw [Batch.verdict_drafts] at hiff
      rw [hrows.chunk_eq hreq, hiff, Batch.le_accepted_add_one_iff]

/-- A call on the kernel of the other library. -/
theorem fusion_counted {mluRejectionSample : FusionKernel F}
    (hfirst : FirstTokens mluRejectionSample) {rate : F} (hlow : 0 ≤ rate) (hhigh : rate ≤ 1)
    {call : Call F} (hfusion : call.batch.useFusionKernel = true) :
    ∃ output, rejectionSample mluRejectionSample (some rate) call = .ok output ∧
      RowsCounted call output ∧ call.batch.GreedyDraftsMatch := by
  obtain ⟨hlength, htokens⟩ := hfirst call.batch call.draws hfusion
  have hholds := setSpeculative_holds 0 (Holds.of_length hlength 0)
  refine ⟨_, by
    rw [rejectionSample]
    simp only [hfusion, ↓reduceIte, Option.isSome_some, ne_eq, hlength, not_true_eq_false]
    exact filter_eq hlow hhigh _ _, ?_, ?_⟩
  · have hentry : ∀ row < call.batch.batchSize, ∃ token : Nat,
        (mluRejectionSample call.batch call.draws).getD
          (row * (call.batch.maxSpecLen + 1) + 0) 0 = Int.ofNat token := by
      intro row hrow
      obtain ⟨token, htoken⟩ := htokens row hrow
      exact ⟨token, by rw [Nat.add_zero, List.getD_eq_getElem?_getD, htoken, Option.getD_some]⟩
    cases haccept : call.draws.acceptBatch with
    | false =>
        exact rowsCounted_of_rejected haccept hholds fun row hrow => by
          simpa using hentry row hrow
    | true =>
        intro reqIdx hreq
        obtain ⟨hmax, hlengthDrafts⟩ := Batch.length_drafts_of_fusion hfusion hreq
        obtain ⟨token, htoken⟩ := hentry reqIdx hreq
        rw [if_pos haccept, if_pos rfl, hholds.chunk_eq hreq, hlengthDrafts]
        refine ⟨[token, 0], rfl, map_range_eq_paddedRow (by simp [hmax]) fun col hcol => ?_⟩
        obtain rfl | rfl : col = 0 ∨ col = 1 := by omega
        · exact htoken
        · rfl
  · intro reqIdx hreq _ pos hpos
    have hone := (Batch.length_drafts_of_fusion hfusion hreq).2
    omega

/-- In any number of calls with a fixed acceptance rate, a call gives all its requests the right
number of tokens exactly where the batch is rejected or each draft of a greedy request but its
last one is the token of the target. -/
theorem fixed_rate_rows_iff {mluRejectionSample : FusionKernel F}
    (hfirst : FirstTokens mluRejectionSample) {rate : F} (hlow : 0 ≤ rate) (hhigh : rate ≤ 1)
    (calls : List (Call F)) :
    ∃ outputs, calls.mapM (rejectionSample mluRejectionSample (some rate)) = .ok outputs ∧
      List.Forall₂ (fun call output => RowsCounted call output ↔
        (call.draws.acceptBatch = true → call.batch.GreedyDraftsMatch)) calls outputs := by
  apply exists_mapM_ok
  intro call _
  cases hfusion : call.batch.useFusionKernel with
  | false => exact kernels_counted_iff hlow hhigh hfusion
  | true =>
      obtain ⟨output, houtput, hcounted, hmatch⟩ := fusion_counted hfirst hlow hhigh hfusion
      exact ⟨output, houtput, iff_of_true hcounted fun _ => hmatch⟩

/-- A kernel that stores what the random kernel would. -/
def verdictFusion : FusionKernel F := fun batch draws =>
  (List.range (batch.batchSize * (batch.maxSpecLen + 1))).map fun i =>
    rowEntry (batch.verdict draws false (i / (batch.maxSpecLen + 1))) false
      (fun _ => placeholderTokenId) (i % (batch.maxSpecLen + 1))

theorem verdictFusion_firstTokens : FirstTokens (@verdictFusion F _ _ _ _ _ _ _ _) := by
  intro batch draws _
  refine ⟨by rw [verdictFusion, List.length_map, List.length_range], fun row hrow => ?_⟩
  obtain ⟨token, htoken⟩ :=
    rowEntry_zero (batch.verdict draws false row) false fun _ => placeholderTokenId
  refine ⟨token, ?_⟩
  have hlt : row * (batch.maxSpecLen + 1) < batch.batchSize * (batch.maxSpecLen + 1) :=
    Holds.row_lt hrow (Nat.succ_pos batch.maxSpecLen)
  rw [verdictFusion, List.getElem?_map, List.getElem?_range hlt, Option.map_some,
    Nat.mul_div_cancel _ (Nat.succ_pos _), Nat.mul_mod_left, htoken]

/-- One greedy request with two drafts, the first of them not the token of the target. -/
def mismatchedBatch : Batch ℚ where
  numDraftTokens := [2]
  maxSpecLen := 2
  vocabSize := 2
  draftTokenIds := [0, 1]
  draftProbs := none
  targetProbs := [0, 1, 0, 1]
  bonusTokenIds := [1]
  samplingMetadata := ⟨[0], true, false, rfl, by decide, by decide⟩
  num_le := by decide
  length_draftTokenIds := rfl
  draft_lt := by decide
  length_draftProbs := by simp
  length_targetProbs := rfl
  length_bonusTokenIds := rfl

def mismatchedCall (acceptBatch : Bool) : Call ℚ where
  batch := mismatchedBatch
  orders := ⟨.ascending 1, .ascending 1⟩
  draws := ⟨[0, 0], [0, 0], acceptBatch, rfl, rfl⟩

/-- One random request with one draft, which the kernel of the other library verifies. -/
def fusedCall : Call ℚ where
  batch := {
    numDraftTokens := [1]
    maxSpecLen := 1
    vocabSize := 2
    draftTokenIds := [1]
    draftProbs := none
    targetProbs := [0, 1]
    bonusTokenIds := [1]
    samplingMetadata := ⟨[1], false, true, rfl, by decide, by decide⟩
    num_le := by decide
    length_draftTokenIds := rfl
    draft_lt := by decide
    length_draftProbs := by simp
    length_targetProbs := rfl
    length_bonusTokenIds := rfl }
  orders := ⟨.ascending 1, .ascending 1⟩
  draws := ⟨[0], [0], true, rfl, rfl⟩

theorem fixed_rate_rows_iff_three_calls :
    ∃ outputs, [mismatchedCall true, mismatchedCall false, fusedCall].mapM
        (rejectionSample verdictFusion (some 1)) = .ok outputs ∧
      List.Forall₂ (fun call output => RowsCounted call output ↔
        (call.draws.acceptBatch = true → call.batch.GreedyDraftsMatch))
        [mismatchedCall true, mismatchedCall false, fusedCall] outputs :=
  fixed_rate_rows_iff verdictFusion_firstTokens (by decide) (by decide) _

/-- The bonus token after a hole. -/
theorem accepted_row_has_hole :
    rejectionSample verdictFusion (some 1) (mismatchedCall true) = .ok [1, -1, 1] ∧
      ¬ RowsCounted (mismatchedCall true) [1, -1, 1] := by
  refine ⟨by decide +kernel, fun hcounted => ?_⟩
  obtain ⟨tokens, hlength, hrow⟩ := hcounted 0 (by decide)
  have hcount : tokens.length = 3 := hlength
  have hget : some (-1 : Int) = some ((tokens[1]?).elim placeholderTokenId Int.ofNat) :=
    (congrArg (·[1]?) hrow).trans (paddedRow_getElem? (by decide))
  rw [List.getElem?_eq_getElem (by omega), Option.elim_some] at hget
  have hplaceholder : Int.negSucc 0 = Int.ofNat _ := Option.some.inj hget
  cases hplaceholder

end VllmMlu.Sample
