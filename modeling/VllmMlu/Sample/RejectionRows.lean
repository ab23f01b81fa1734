import VllmMlu.Library.Speculation
import VllmMlu.Sample.RejectionSampler

/-! The rows of the output of the rejection sampler: what each kernel stores for a request is the
verdict on its drafts. -/
namespace VllmMlu.Sample
open VllmMlu.Library VllmMlu.Library.Cuts VllmMlu.Library.Kernel VllmMlu.Library.Rows
  VllmMlu.Library.Speculation

/-- A row of tokens followed by placeholders. -/
def paddedRow (maxSpecLen : Nat) (tokens : List Nat) : List Int :=
  tokens.map Int.ofNat ++ List.replicate (maxSpecLen + 1 - tokens.length) placeholderTokenId

theorem paddedRow_getElem? {maxSpecLen : Nat} {tokens : List Nat} {col : Nat}
    (hcol : col < maxSpecLen + 1) :
    (paddedRow maxSpecLen tokens)[col]? =
      some ((tokens[col]?).elim placeholderTokenId Int.ofNat) := by
  rw [paddedRow, List.getElem?_append, List.length_map]
  split
  case isTrue hlt =>
    rw [List.getElem?_map, List.getElem?_eq_getElem hlt]
    rfl
  case isFalse hge =>
    rw [List.getElem?_replicate, if_pos (by omega), List.getElem?_eq_none (by omega)]
    rfl

theorem map_range_eq_paddedRow {maxSpecLen : Nat} {tokens : List Nat} {entry : Nat → Int}
    (hfit : tokens.length ≤ maxSpecLen + 1)
    (hentry : ∀ col < maxSpecLen + 1,
      entry col = (tokens[col]?).elim placeholderTokenId Int.ofNat) :
    (List.range (maxSpecLen + 1)).map entry = paddedRow maxSpecLen tokens := by
  apply List.ext_getElem?
  intro col
  by_cases hcol : col < maxSpecLen + 1
  · rw [paddedRow_getElem? hcol, List.getElem?_map, List.getElem?_range hcol, Option.map_some,
      hentry col hcol]
  · rw [List.getElem?_eq_none (by simpa using hcol), List.getElem?_eq_none]
    rw [paddedRow, List.length_append, List.length_map, List.length_replicate]
    omega

/-- What stands in the row of a request: the emitted tokens over what was there before, and the
bonus token in its place where it is stored in any case. -/
def rowEntry (v : Verdict Nat) (hasAcceptanceRate : Bool) (old : Nat → Int) (col : Nat) : Int :=
  if hasAcceptanceRate ∧ col = v.drafts.length then Int.ofNat v.bonus
  else (v.emitted[col]?).elim (old col) Int.ofNat

theorem elim_emitted_of_length_le {v : Verdict Nat} {col : Nat} (h : v.drafts.length < col)
    (old : Int) : (v.emitted[col]?).elim old Int.ofNat = old := by
  have hle := v.accepted_le
  rw [List.getElem?_eq_none (by rw [v.length_emitted]; omega), Option.elim_none]

/-- Without the bonus token only the positions of the drafts are written. -/
theorem rowEntry_rejected {v : Verdict Nat} (h : v.accepted < v.drafts.length)
    (old : Nat → Int) (col : Nat) :
    rowEntry v false old col =
      if col < v.drafts.length then (v.emitted[col]?).elim (old col) Int.ofNat else old col := by
  rw [rowEntry, if_neg fun hrate => by cases hrate.1]
  split
  case isTrue => rfl
  case isFalse hge =>
    rw [List.getElem?_eq_none (by rw [v.length_emitted]; omega), Option.elim_none]

theorem rowEntry_bonus {v : Verdict Nat} {hasAcceptanceRate : Bool}
    (h : hasAcceptanceRate = true ∨ v.accepted = v.drafts.length) (old : Nat → Int) (col : Nat) :
    rowEntry v hasAcceptanceRate old col =
      if col = v.drafts.length then Int.ofNat v.bonus
      else if col < v.drafts.length then (v.emitted[col]?).elim (old col) Int.ofNat
      else old col := by
  rw [rowEntry]
  by_cases hcol : col = v.drafts.length
  · subst hcol
    rw [if_pos rfl]
    split
    case isTrue => rfl
    case isFalse hrate =>
      have hall : v.accepted = v.drafts.length := h.resolve_left fun htrue => hrate ⟨htrue, rfl⟩
      rw [v.getElem?_emitted_bonus hall, Option.elim_some]
  · rw [if_neg fun hrate => hcol hrate.2, if_neg hcol]
    split
    case isTrue => rfl
    case isFalse hge => exact elim_emitted_of_length_le (by omega) _

section Verify

variable {v : Verdict Nat} {judge : Nat → Except KernelError (Nat × Bool)}
  {bonusTokenIds : List Nat} {hasAcceptanceRate : Bool} {maxSpecLen reqIdx batchSize : Nat}
  {output : List Int} {entry : Nat → Nat → Int}

/-- After some turns: the emitted tokens of these positions are stored, and the flag says whether
the first rejection is among them. -/
def Verifying (v : Verdict Nat) (batchSize maxSpecLen reqIdx : Nat) (entry : Nat → Nat → Int)
    (turn : Nat) (state : List Int × Bool) : Prop :=
  state.2 = decide (v.accepted < turn) ∧
    Holds state.1 batchSize (maxSpecLen + 1) fun row col =>
      if row = reqIdx ∧ col < turn then (v.emitted[col]?).elim (entry row col) Int.ofNat
      else entry row col

theorem verifyTurn_verifying
    (hjudge : ∀ pos draft, v.drafts[pos]? = some draft →
      judge pos = .ok (if v.accepts pos then draft else v.correction pos, !v.accepts pos))
    (hfit : v.drafts.length ≤ maxSpecLen) (hreq : reqIdx < batchSize) {turn : Nat}
    (hturn : turn < v.drafts.length) {state : List Int × Bool}
    (hinv : Verifying v batchSize maxSpecLen reqIdx entry turn state) :
    ∃ next, verifyTurn judge (reqIdx * (maxSpecLen + 1)) state turn = .ok next ∧
      Verifying v batchSize maxSpecLen reqIdx entry (turn + 1) next := by
  obtain ⟨hflag, hholds⟩ := hinv
  by_cases hrejected : v.accepted < turn
  · refine ⟨state, by rw [verifyTurn, hflag, decide_eq_true hrejected]; rfl, ?_, ?_⟩
    · rw [hflag, decide_eq_true hrejected, decide_eq_true (Nat.lt_succ_of_lt hrejected)]
    · refine hholds.congr fun row _ col _ => ?_
      by_cases hcol : row = reqIdx ∧ col = turn
      · obtain ⟨rfl, rfl⟩ := hcol
        rw [if_neg (by simp), if_pos (by simp), List.getElem?_eq_none (by simpa using hrejected)]
        rfl
      · have hiff : (row = reqIdx ∧ col < turn + 1) ↔ (row = reqIdx ∧ col < turn) := by omega
        simp only [hiff]
  · have hdraft : v.drafts[turn]? = some v.drafts[turn] := List.getElem?_eq_getElem hturn
    have hemitted := v.getElem?_emitted hdraft (Nat.not_lt.mp hrejected)
    obtain ⟨next, hnext, hrows⟩ := hholds.store hreq (show turn < maxSpecLen + 1 by omega)
      (Int.ofNat (if v.accepts turn then v.drafts[turn] else v.correction turn))
    refine ⟨(next, !v.accepts turn), ?_, ?_, hrows.congr fun row _ col _ => ?_⟩
    · rw [verifyTurn, hflag, decide_eq_false hrejected, if_neg Bool.false_ne_true,
        hjudge turn _ hdraft]
      change (store state.1 _ _ >>= _) = _
      rw [hnext]
      rfl
    · have hlt := v.lt_accepted_iff hturn (Nat.not_lt.mp hrejected)
      cases haccepts : v.accepts turn with
      | true =>
          rw [haccepts] at hlt
          simpa using hlt.mpr rfl
      | false =>
          rw [haccepts] at hlt
          have hnot : ¬ turn < v.accepted := fun hbefore => by cases hlt.mp hbefore
          simpa using hnot
    · by_cases hcol : row = reqIdx ∧ col = turn
      · obtain ⟨rfl, rfl⟩ := hcol
        simp only [and_self, Nat.lt_succ_self, ↓reduceIte, hemitted, Option.elim_some]
      · have hiff : (row = reqIdx ∧ col < turn + 1) ↔ (row = reqIdx ∧ col < turn) := by omega
        simp only [if_neg hcol, hiff]

theorem verifyDrafts_rows
    (hjudge : ∀ pos draft, v.drafts[pos]? = some draft →
      judge pos = .ok (if v.accepts pos then draft else v.correction pos, !v.accepts pos))
    (hbonus : bonusTokenIds[reqIdx]? = some v.bonus) (hfit : v.drafts.length ≤ maxSpecLen)
    (hreq : reqIdx < batchSize) (hholds : Holds output batchSize (maxSpecLen + 1) entry) :
    ∃ next, verifyDrafts judge bonusTokenIds hasAcceptanceRate maxSpecLen v.drafts.length reqIdx
        output = .ok next ∧
      Holds next batchSize (maxSpecLen + 1) fun row col =>
        if row = reqIdx then rowEntry v hasAcceptanceRate (entry reqIdx) col
        else entry row col := by
  have hstart : Verifying v batchSize maxSpecLen reqIdx entry 0 (output, false) :=
    ⟨by simp, hholds.congr fun row _ col _ => by simp⟩
  obtain ⟨⟨middle, rejected⟩, hmiddle, hflag, hrows⟩ := @loop_returns _ _
    (verifyTurn judge (reqIdx * (maxSpecLen + 1)))
    (Verifying v batchSize maxSpecLen reqIdx entry) v.drafts.length 1 0 _ hstart
    (fun turn hturn state hinv => by
      rw [Nat.one_mul, Nat.zero_add]
      exact verifyTurn_verifying hjudge hfit hreq hturn hinv)
  simp only at hflag hrows
  have hrest : verifyDrafts judge bonusTokenIds hasAcceptanceRate maxSpecLen v.drafts.length reqIdx
      output = if (if hasAcceptanceRate then false else rejected) then pure middle
        else load bonusTokenIds reqIdx >>= fun bonusTokenId => store middle
          (reqIdx * (maxSpecLen + 1) + v.drafts.length) (Int.ofNat bonusTokenId) := by
    simp only [verifyDrafts]
    rw [hmiddle]
    rfl
  by_cases hskip : hasAcceptanceRate = false ∧ v.accepted < v.drafts.length
  · obtain ⟨rfl, hshort⟩ := hskip
    rw [decide_eq_true hshort] at hflag
    refine ⟨middle, by rw [hrest, hflag]; rfl, hrows.congr fun row _ col _ => ?_⟩
    by_cases hrow : row = reqIdx
    · subst hrow
      simp only [true_and, ↓reduceIte, rowEntry_rejected hshort]
    · simp only [hrow, false_and, ↓reduceIte]
  · have hbonusIn : hasAcceptanceRate = true ∨ v.accepted = v.drafts.length := by
      have hle := v.accepted_le
      cases hasAcceptanceRate with
      | true => exact .inl rfl
      | false => exact .inr (by simp only [true_and, Nat.not_lt] at hskip; omega)
    have hkeep : (if hasAcceptanceRate then false else rejected) = false := by
      rcases hbonusIn with hrate | hall
      · rw [hrate, if_pos rfl]
      · rw [hflag, hall, decide_eq_false (Nat.lt_irrefl _), ite_self]
    obtain ⟨next, hnext, hbonusRows⟩ := hrows.store hreq
      (show v.drafts.length < maxSpecLen + 1 by omega) (Int.ofNat v.bonus)
    refine ⟨next, ?_, hbonusRows.congr fun row _ col _ => ?_⟩
    · rw [hrest, hkeep, load_eq_ok hbonus]
      exact hnext
    · by_cases hrow : row = reqIdx
      · subst hrow
        simp only [true_and, ↓reduceIte, rowEntry_bonus hbonusIn]
      · simp only [hrow, false_and, ↓reduceIte]

end Verify

namespace Batch

section Packed

variable {F : Type} [Zero F] [BEq F] (batch : Batch F)

def startIdx (reqIdx : Nat) : Nat := (batch.numDraftTokens.take reqIdx).sum

/-- The draft tokens of a request. -/
def drafts (reqIdx : Nat) : List Nat :=
  slice (batch.startIdx reqIdx) (batch.numDraftTokens.getD reqIdx 0) batch.draftTokenIds

/-- Whether a request is sampled greedily. -/
def greedy (reqIdx : Nat) : Bool :=
  (batch.samplingMetadata.temperature[reqIdx]?).any (· == 0)

variable {batch} {reqIdx : Nat}

theorem sum_take_add (hreq : reqIdx < batch.batchSize) :
    (batch.numDraftTokens.take (reqIdx + 1)).sum =
      batch.startIdx reqIdx + batch.numDraftTokens.getD reqIdx 0 := by
  rw [startIdx, List.take_add_one, List.sum_append, List.getD_eq_getElem _ _ hreq,
    List.getElem?_eq_getElem hreq]
  simp

theorem startIdx_add_le (hreq : reqIdx < batch.batchSize) :
    batch.startIdx reqIdx + batch.numDraftTokens.getD reqIdx 0 ≤ batch.draftTokenIds.length := by
  rw [← sum_take_add hreq, batch.length_draftTokenIds]
  exact (List.take_sublist _ _).sum_le_sum fun _ _ => Nat.zero_le _

theorem length_drafts (hreq : reqIdx < batch.batchSize) :
    (batch.drafts reqIdx).length = batch.numDraftTokens.getD reqIdx 0 := by
  have hle := startIdx_add_le hreq
  rw [drafts, length_slice]
  omega

theorem length_drafts_le (hreq : reqIdx < batch.batchSize) :
    (batch.drafts reqIdx).length ≤ batch.maxSpecLen := by
  rw [length_drafts hreq, List.getD_eq_getElem _ _ hreq]
  exact batch.num_le _ (List.getElem_mem _)

theorem drafts_getElem? {pos draft : Nat} (h : (batch.drafts reqIdx)[pos]? = some draft) :
    batch.draftTokenIds[batch.startIdx reqIdx + pos]? = some draft := by
  rw [drafts, slice, List.getElem?_take] at h
  split at h
  · rwa [List.getElem?_drop] at h
  · cases h

theorem draftRange_eq (hreq : reqIdx < batch.batchSize) :
    batch.draftRange reqIdx = .ok (batch.startIdx reqIdx, (batch.drafts reqIdx).length) := by
  have hend : load batch.cuNumDraftTokens reqIdx =
      .ok (batch.startIdx reqIdx + (batch.drafts reqIdx).length) := by
    apply load_eq_ok
    rw [cuNumDraftTokens, List.getElem?_tail, getElem?_startLocs hreq, sum_take_add hreq,
      length_drafts hreq]
  have hrest : (load batch.cuNumDraftTokens reqIdx >>= fun endIdx =>
      pure (batch.startIdx reqIdx, endIdx - batch.startIdx reqIdx)) =
      Except.ok (batch.startIdx reqIdx, (batch.drafts reqIdx).length) := by
    rw [hend]
    change Except.ok (_, batch.startIdx reqIdx + _ - batch.startIdx reqIdx) = _
    rw [Nat.add_sub_cancel_left]
  rw [draftRange]
  split
  case isTrue hzero =>
    subst hzero
    exact hrest
  case isFalse hne =>
    have hstart : load batch.cuNumDraftTokens (reqIdx - 1) = .ok (batch.startIdx reqIdx) := by
      apply load_eq_ok
      rw [cuNumDraftTokens, List.getElem?_tail, Nat.sub_add_cancel (Nat.pos_of_ne_zero hne),
        getElem?_startLocs (Nat.le_of_lt hreq), startIdx]
    rw [hstart]
    exact hrest

theorem bonus_getElem? (hreq : reqIdx < batch.batchSize) :
    batch.bonusTokenIds[reqIdx]? = some (batch.bonusTokenIds.getD reqIdx 0) := by
  have hlt : reqIdx < batch.bonusTokenIds.length := by
    rw [batch.length_bonusTokenIds]
    exact hreq
  rw [List.getD_eq_getElem _ _ hlt, List.getElem?_eq_getElem hlt]

end Packed

variable {F : Type} [Zero F] [One F] [Div F] [LT F] [DecidableLT F] [LE F] [DecidableLE F] [BEq F]
  (batch : Batch F)

/-- A greedy request accepts the drafts that are the target's own tokens. -/
def greedyVerdict (reqIdx : Nat) : Verdict Nat where
  drafts := batch.drafts reqIdx
  accepts pos := decide ((batch.drafts reqIdx)[pos]? =
    some (batch.targetArgmax.getD (batch.startIdx reqIdx + pos) 0))
  correction pos := batch.targetArgmax.getD (batch.startIdx reqIdx + pos) 0
  bonus := batch.bonusTokenIds.getD reqIdx 0

/-- Whether the draft at a place of the packed drafts is accepted at random. -/
def acceptsDraft (draws : Draws F batch.draftTokenIds.length) (i : Nat) : Bool :=
  let place := i * batch.vocabSize + batch.draftTokenIds.getD i 0
  let draftProb := batch.draftProbs.elim 1 fun draftProbs => draftProbs.getD place 0
  decide (0 < draftProb ∧ draws.uniformProbs.getD i 0 ≤ batch.targetProbs.getD place 0 / draftProb)

def randomVerdict (draws : Draws F batch.draftTokenIds.length) (hasAcceptanceRate : Bool)
    (reqIdx : Nat) : Verdict Nat where
  drafts := batch.drafts reqIdx
  accepts pos := batch.acceptsDraft draws (batch.startIdx reqIdx + pos) || hasAcceptanceRate
  correction pos := draws.recoveredTokenIds.getD (batch.startIdx reqIdx + pos) 0
  bonus := batch.bonusTokenIds.getD reqIdx 0

def verdict (draws : Draws F batch.draftTokenIds.length) (hasAcceptanceRate : Bool)
    (reqIdx : Nat) : Verdict Nat :=
  if batch.greedy reqIdx then batch.greedyVerdict reqIdx
  else batch.randomVerdict draws hasAcceptanceRate reqIdx

section Kernels

variable {batch} {draws : Draws F batch.draftTokenIds.length} {hasAcceptanceRate : Bool}
  {reqIdx : Nat}

theorem greedyJudge_eq {pos draft : Nat} (h : (batch.drafts reqIdx)[pos]? = some draft) :
    greedyJudge batch (batch.startIdx reqIdx) pos =
      .ok (if (batch.greedyVerdict reqIdx).accepts pos then draft
        else (batch.greedyVerdict reqIdx).correction pos,
        !(batch.greedyVerdict reqIdx).accepts pos) := by
  have hplace := drafts_getElem? h
  have hlt : batch.startIdx reqIdx + pos < batch.targetArgmax.length := by
    rw [targetArgmax, List.length_map, List.length_range]
    exact (List.getElem?_eq_some_iff.mp hplace).1
  rw [greedyJudge, load_eq_ok hplace]
  change (load batch.targetArgmax _ >>= _) = _
  rw [load_getD hlt 0]
  change Except.ok (_, draft != _) = _
  simp only [greedyVerdict, h, Option.some.injEq]
  generalize batch.targetArgmax.getD (batch.startIdx reqIdx + pos) 0 = target
  by_cases hsame : draft = target
  · simp [hsame]
  · simp [hsame, bne_iff_ne.mpr hsame]

theorem randomJudge_eq {pos draft : Nat} (h : (batch.drafts reqIdx)[pos]? = some draft) :
    randomJudge batch draws hasAcceptanceRate (batch.startIdx reqIdx) pos =
      .ok (if (batch.randomVerdict draws hasAcceptanceRate reqIdx).accepts pos then draft
        else (batch.randomVerdict draws hasAcceptanceRate reqIdx).correction pos,
        !(batch.randomVerdict draws hasAcceptanceRate reqIdx).accepts pos) := by
  have hdraft := drafts_getElem? h
  obtain ⟨hlt, hget⟩ := List.getElem?_eq_some_iff.mp hdraft
  have hvocab : draft < batch.vocabSize := batch.draft_lt _ (hget ▸ List.getElem_mem _)
  have hplace := @Holds.row_lt _ batch.vocabSize _ _ hlt hvocab
  have hgetD : batch.draftTokenIds.getD (batch.startIdx reqIdx + pos) 0 = draft := by
    rw [List.getD_eq_getElem _ _ hlt, hget]
  have hdraftProb : loadDraftProb batch
      ((batch.startIdx reqIdx + pos) * batch.vocabSize + draft) =
      .ok (batch.draftProbs.elim 1 fun draftProbs =>
        draftProbs.getD ((batch.startIdx reqIdx + pos) * batch.vocabSize + draft) 0) := by
    rw [loadDraftProb]
    cases hprobs : batch.draftProbs with
    | none => rfl
    | some draftProbs =>
        exact load_getD (by rw [batch.length_draftProbs _ (by rw [hprobs]; rfl)]; exact hplace) 0
  have htargetProb := load_getD (batch.length_targetProbs ▸ hplace) (0 : F)
  have huniform := load_getD (draws.length_uniformProbs ▸ hlt) (0 : F)
  have hrecovered := load_getD (draws.length_recoveredTokenIds ▸ hlt) 0
  have haccepts : (batch.randomVerdict draws hasAcceptanceRate reqIdx).accepts pos = true ↔
      (0 < batch.draftProbs.elim 1 (fun draftProbs =>
          draftProbs.getD ((batch.startIdx reqIdx + pos) * batch.vocabSize + draft) 0) ∧
        draws.uniformProbs.getD (batch.startIdx reqIdx + pos) 0 ≤
          batch.targetProbs.getD ((batch.startIdx reqIdx + pos) * batch.vocabSize + draft) 0 /
            batch.draftProbs.elim 1 fun draftProbs =>
              draftProbs.getD ((batch.startIdx reqIdx + pos) * batch.vocabSize + draft) 0) ∨
        hasAcceptanceRate = true := by
    simp only [randomVerdict, acceptsDraft, hgetD, Bool.or_eq_true, decide_eq_true_eq]
  rw [randomJudge, load_eq_ok hdraft]
  change (loadDraftProb batch _ >>= _) = _
  rw [hdraftProb]
  change (load batch.targetProbs _ >>= _) = _
  rw [htargetProb]
  change (load draws.uniformProbs _ >>= _) = _
  rw [huniform]
  change (if _ ∨ hasAcceptanceRate = true then _ else _) = _
  by_cases htaken : (batch.randomVerdict draws hasAcceptanceRate reqIdx).accepts pos = true
  · rw [if_pos (haccepts.mp htaken), htaken]
    rfl
  · rw [if_neg fun hin => htaken (haccepts.mpr hin), hrecovered, Bool.eq_false_iff.mpr htaken]
    rfl

theorem lt_length_temperature (hreq : reqIdx < batch.batchSize) :
    reqIdx < batch.samplingMetadata.temperature.length := by
  rw [batch.samplingMetadata.length_temperature]
  exact hreq

theorem greedy_eq_true (hall : batch.samplingMetadata.allGreedy = true)
    (hreq : reqIdx < batch.batchSize) : batch.greedy reqIdx = true := by
  have hlt := lt_length_temperature hreq
  rw [batch.samplingMetadata.allGreedy_eq, List.all_eq_true] at hall
  rw [greedy, List.getElem?_eq_getElem hlt, Option.any_some]
  exact hall _ (List.getElem_mem _)

theorem greedy_eq_false (hall : batch.samplingMetadata.allRandom = true)
    (hreq : reqIdx < batch.batchSize) : batch.greedy reqIdx = false := by
  have hlt := lt_length_temperature hreq
  rw [batch.samplingMetadata.allRandom_eq, List.all_eq_true] at hall
  rw [greedy, List.getElem?_eq_getElem hlt, Option.any_some]
  simpa using hall _ (List.getElem_mem hlt)

theorem isGreedy_getElem? (hreq : reqIdx < batch.batchSize) :
    (batch.samplingMetadata.temperature.map (· == 0))[reqIdx]? = some (batch.greedy reqIdx) := by
  have hlt := lt_length_temperature hreq
  rw [greedy, List.getElem?_map, List.getElem?_eq_getElem hlt]
  rfl

theorem greedyKernel_eq (hreq : reqIdx < batch.batchSize) (output : List Int) :
    rejectionGreedySampleKernel batch hasAcceptanceRate reqIdx output =
      if batch.greedy reqIdx then
        verifyDrafts (greedyJudge batch (batch.startIdx reqIdx)) batch.bonusTokenIds
          hasAcceptanceRate batch.maxSpecLen (batch.drafts reqIdx).length reqIdx output
      else .ok output := by
  rw [rejectionGreedySampleKernel, isGreedy]
  by_cases hall : batch.samplingMetadata.allGreedy = true
  · rw [if_pos hall, if_pos (greedy_eq_true hall hreq)]
    change (batch.draftRange reqIdx >>= _) = _
    rw [draftRange_eq hreq]
    rfl
  · rw [if_neg hall]
    change (load _ reqIdx >>= _) = _
    rw [load_eq_ok (isGreedy_getElem? hreq)]
    change (if batch.greedy reqIdx then _ else _) = _
    rw [draftRange_eq hreq]
    rfl

theorem randomKernel_eq (hmixed : batch.samplingMetadata.allGreedy = false)
    (hreq : reqIdx < batch.batchSize) (output : List Int) :
    rejectionRandomSampleKernel batch draws hasAcceptanceRate reqIdx output =
      if batch.greedy reqIdx then .ok output
      else verifyDrafts (randomJudge batch draws hasAcceptanceRate (batch.startIdx reqIdx))
        batch.bonusTokenIds hasAcceptanceRate batch.maxSpecLen (batch.drafts reqIdx).length
        reqIdx output := by
  rw [rejectionRandomSampleKernel, isGreedy, if_neg (by rw [hmixed]; exact Bool.false_ne_true)]
  change (load _ reqIdx >>= _) = _
  rw [load_eq_ok (isGreedy_getElem? hreq)]
  change (if batch.greedy reqIdx then _ else _) = _
  rw [draftRange_eq hreq]
  rfl

/-- The greedy kernel leaves the rows of the random requests as they are. -/
theorem greedyKernel_rows (hreq : reqIdx < batch.batchSize) {output : List Int}
    {entry : Nat → Nat → Int} (hholds : Holds output batch.batchSize (batch.maxSpecLen + 1) entry) :
    ∃ next, rejectionGreedySampleKernel batch hasAcceptanceRate reqIdx output = .ok next ∧
      Holds next batch.batchSize (batch.maxSpecLen + 1) fun row col =>
        if row = reqIdx ∧ batch.greedy reqIdx then
          rowEntry (batch.greedyVerdict reqIdx) hasAcceptanceRate (entry reqIdx) col
        else entry row col := by
  rw [greedyKernel_eq hreq]
  cases hgreedy : batch.greedy reqIdx with
  | false => exact ⟨output, rfl, hholds.congr fun row _ col _ => by simp⟩
  | true =>
      obtain ⟨next, hnext, hrows⟩ := @verifyDrafts_rows (batch.greedyVerdict reqIdx) _ _
        hasAcceptanceRate _ _ _ _ _ (fun pos draft h => greedyJudge_eq h) (bonus_getElem? hreq)
        (length_drafts_le hreq) hreq hholds
      exact ⟨next, hnext, hrows.congr fun row _ col _ => by simp⟩

/-- The random kernel leaves the rows of the greedy requests as they are. -/
theorem randomKernel_rows (hmixed : batch.samplingMetadata.allGreedy = false)
    (hreq : reqIdx < batch.batchSize) {output : List Int} {entry : Nat → Nat → Int}
    (hholds : Holds output batch.batchSize (batch.maxSpecLen + 1) entry) :
    ∃ next, rejectionRandomSampleKernel batch draws hasAcceptanceRate reqIdx output = .ok next ∧
      Holds next batch.batchSize (batch.maxSpecLen + 1) fun row col =>
        if row = reqIdx ∧ batch.greedy reqIdx = false then
          rowEntry (batch.randomVerdict draws hasAcceptanceRate reqIdx) hasAcceptanceRate
            (entry reqIdx) col
        else entry row col := by
  rw [randomKernel_eq hmixed hreq]
  cases hgreedy : batch.greedy reqIdx with
  | true => exact ⟨output, rfl, hholds.congr fun row _ col _ => by simp⟩
  | false =>
      obtain ⟨next, hnext, hrows⟩ :=
        @verifyDrafts_rows (batch.randomVerdict draws hasAcceptanceRate reqIdx) _ _
          hasAcceptanceRate _ _ _ _ _ (fun pos draft h => randomJudge_eq h) (bonus_getElem? hreq)
          (length_drafts_le hreq) hreq hholds
      exact ⟨next, hnext, hrows.congr fun row _ col _ => by simp⟩

theorem launchRandom_rows (order : GridOrder batch.batchSize)
    (hmixed : ∀ row < batch.batchSize, batch.samplingMetadata.allGreedy = false)
    {output : List Int} {entry : Nat → Nat → Int}
    (hholds : Holds output batch.batchSize (batch.maxSpecLen + 1) entry) :
    ∃ result, launch order (rejectionRandomSampleKernel batch draws hasAcceptanceRate) output =
        .ok result ∧
      Holds result batch.batchSize (batch.maxSpecLen + 1) fun row col =>
        if !batch.greedy row then
          rowEntry (batch.randomVerdict draws hasAcceptanceRate row) hasAcceptanceRate
            (entry row) col
        else entry row col :=
  @launch_rows _ _ _ _ order _ (fun row => !batch.greedy row)
    (fun row => rowEntry (batch.randomVerdict draws hasAcceptanceRate row) hasAcceptanceRate) _ _
    (fun pid hpid _ _ hstate => by simpa using randomKernel_rows (hmixed pid hpid) hpid hstate)
    hholds

theorem launchGreedy_rows (order : GridOrder batch.batchSize) {output : List Int}
    {entry : Nat → Nat → Int}
    (hholds : Holds output batch.batchSize (batch.maxSpecLen + 1) entry) :
    ∃ result, launch order (rejectionGreedySampleKernel batch hasAcceptanceRate) output =
        .ok result ∧
      Holds result batch.batchSize (batch.maxSpecLen + 1) fun row col =>
        if batch.greedy row then
          rowEntry (batch.greedyVerdict row) hasAcceptanceRate (entry row) col
        else entry row col :=
  @launch_rows _ _ _ _ order _ batch.greedy
    (fun row => rowEntry (batch.greedyVerdict row) hasAcceptanceRate) _ _
    (fun _ hpid _ _ hstate => greedyKernel_rows hpid hstate) hholds

/-- What the kernels leave in the rows, in any order of their programs. -/
theorem launchKernels_rows (orders : KernelOrders batch.batchSize) :
    ∃ output, launchKernels batch orders draws hasAcceptanceRate = .ok output ∧
      Holds output batch.batchSize (batch.maxSpecLen + 1) fun row =>
        rowEntry (batch.verdict draws hasAcceptanceRate row) hasAcceptanceRate
          fun _ => placeholderTokenId := by
  have hblank := Holds.replicate batch.batchSize (batch.maxSpecLen + 1) placeholderTokenId
  simp only [launchKernels]
  cases hall : batch.samplingMetadata.allRandom with
  | true =>
      obtain ⟨result, hresult, hrows⟩ := @launchRandom_rows _ _ _ _ _ _ _ _ _ batch draws
        hasAcceptanceRate orders.random (fun row hrow => by
          rw [Bool.eq_false_iff]
          intro hgreedy
          have htrue := greedy_eq_true hgreedy hrow
          rw [greedy_eq_false hall hrow] at htrue
          cases htrue) _ _ hblank
      refine ⟨result, hresult, hrows.congr fun row hrow col _ => ?_⟩
      simp only [verdict, greedy_eq_false hall hrow, Bool.not_false, Bool.false_eq_true,
        ↓reduceIte]
  | false =>
      obtain ⟨middle, hmiddle, hgreedyRows⟩ := @launchGreedy_rows _ _ _ _ _ _ _ _ _ batch
        hasAcceptanceRate orders.greedy _ _ hblank
      simp only [Bool.false_eq_true, ↓reduceIte, hmiddle]
      change ∃ output, (if batch.samplingMetadata.allGreedy = true then pure middle else _) =
        Except.ok output ∧ _
      cases hgreedy : batch.samplingMetadata.allGreedy with
      | true =>
          refine ⟨middle, rfl, hgreedyRows.congr fun row hrow col _ => ?_⟩
          simp only [verdict, greedy_eq_true hgreedy hrow, ↓reduceIte]
      | false =>
          obtain ⟨result, hresult, hrows⟩ := @launchRandom_rows _ _ _ _ _ _ _ _ _ batch draws
            hasAcceptanceRate orders.random (fun _ _ => hgreedy) _ _ hgreedyRows
          refine ⟨result, hresult, hrows.congr fun row hrow col _ => ?_⟩
          cases hrowGreedy : batch.greedy row <;> simp [verdict, hrowGreedy]

end Kernels

/-- The argmax tokens and the bonus token of a request are what a target model decodes greedily
after the drafts before them. -/
def FollowsTarget (next : List Nat → Nat) (context : List Nat) (reqIdx : Nat) : Prop :=
  (∀ pos < (batch.drafts reqIdx).length, batch.targetArgmax[batch.startIdx reqIdx + pos]? =
    some (next (context ++ (batch.drafts reqIdx).take pos))) ∧
  batch.bonusTokenIds[reqIdx]? = some (next (context ++ batch.drafts reqIdx))

/-- A program writes nothing but the row of its own request, and that only for a request of its
kind. -/
def WritesOnly (kind : Nat → Bool) (program : Nat → List Int → Except KernelError (List Int)) :
    Prop :=
  ∀ reqIdx < batch.batchSize, ∀ output next,
    output.length = batch.batchSize * (batch.maxSpecLen + 1) → program reqIdx output = .ok next →
    next.length = output.length ∧ ∀ row < batch.batchSize, ¬ (row = reqIdx ∧ kind row) →
      chunk (batch.maxSpecLen + 1) row next = chunk (batch.maxSpecLen + 1) row output

variable {batch}

theorem writesOnly_of_rows {kind : Nat → Bool}
    {program : Nat → List Int → Except KernelError (List Int)}
    {write : Nat → (Nat → Int) → Nat → Int}
    (hprogram : ∀ reqIdx < batch.batchSize, ∀ output entry,
      Holds output batch.batchSize (batch.maxSpecLen + 1) entry →
      ∃ next, program reqIdx output = .ok next ∧
        Holds next batch.batchSize (batch.maxSpecLen + 1) fun row col =>
          if row = reqIdx ∧ kind reqIdx then write reqIdx (entry reqIdx) col else entry row col) :
    batch.WritesOnly kind program := by
  intro reqIdx hreq output next hlength hnext
  have hholds := Holds.of_length hlength 0
  obtain ⟨next', hnext', hrows⟩ := hprogram reqIdx hreq output _ hholds
  rw [hnext] at hnext'
  cases hnext'
  refine ⟨by rw [hrows.length, hlength], fun row hrow hother => ?_⟩
  rw [hrows.chunk_eq hrow, hholds.chunk_eq hrow]
  refine List.map_congr_left fun col _ => if_neg ?_
  rintro ⟨rfl, hkind⟩
  exact hother ⟨rfl, hkind⟩

theorem greedyKernel_writesOnly (hasAcceptanceRate : Bool) :
    batch.WritesOnly batch.greedy (rejectionGreedySampleKernel batch hasAcceptanceRate) :=
  @writesOnly_of_rows _ _ _ _ _ _ _ _ _ batch _ _
    (fun row => rowEntry (batch.greedyVerdict row) hasAcceptanceRate)
    fun _ hreq _ _ hholds => greedyKernel_rows hreq hholds

theorem randomKernel_writesOnly (draws : Draws F batch.draftTokenIds.length)
    (hasAcceptanceRate : Bool) :
    batch.WritesOnly (fun row => !batch.greedy row)
      (rejectionRandomSampleKernel batch draws hasAcceptanceRate) := by
  cases hall : batch.samplingMetadata.allGreedy with
  | true =>
      intro reqIdx _ output next _ hnext
      rw [rejectionRandomSampleKernel, isGreedy, if_pos hall] at hnext
      cases hnext
  | false =>
      exact @writesOnly_of_rows _ _ _ _ _ _ _ _ _ batch _ _
        (fun row => rowEntry (batch.randomVerdict draws hasAcceptanceRate row) hasAcceptanceRate)
        fun _ hreq _ _ hholds => by simpa using randomKernel_rows hall hreq hholds

/-- A row that nothing but the emitted tokens are stored in. -/
theorem map_rowEntry {v : Verdict Nat} {maxSpecLen : Nat} (hfit : v.drafts.length ≤ maxSpecLen) :
    (List.range (maxSpecLen + 1)).map (rowEntry v false fun _ => placeholderTokenId) =
      paddedRow maxSpecLen v.emitted := by
  have hle := v.accepted_le
  refine map_range_eq_paddedRow (by rw [v.length_emitted]; omega) fun col _ => ?_
  rw [rowEntry, if_neg fun hrate => Bool.false_ne_true hrate.1]

theorem length_verdict_drafts_le {draws : Draws F batch.draftTokenIds.length}
    {hasAcceptanceRate : Bool} {reqIdx : Nat} (hreq : reqIdx < batch.batchSize) :
    (batch.verdict draws hasAcceptanceRate reqIdx).drafts.length ≤ batch.maxSpecLen := by
  rw [verdict]
  split <;> exact length_drafts_le hreq

/-- A greedy request emits what its target model decodes token by token. -/
theorem emitted_eq_decode {next : List Nat → Nat} {context : List Nat} {reqIdx : Nat}
    (hfollows : batch.FollowsTarget next context reqIdx) :
    (batch.greedyVerdict reqIdx).emitted =
      decode next context ((batch.greedyVerdict reqIdx).accepted + 1) := by
  have hcorrection : ∀ pos < (batch.drafts reqIdx).length,
      batch.targetArgmax.getD (batch.startIdx reqIdx + pos) 0 =
        next (context ++ (batch.drafts reqIdx).take pos) := by
    intro pos hpos
    rw [List.getD_eq_getElem?_getD, hfollows.1 pos hpos]
    rfl
  refine Speculation.emitted_eq_decode (fun _ _ => rfl) hcorrection ?_
  change batch.bonusTokenIds.getD reqIdx 0 = _
  rw [List.getD_eq_getElem?_getD, hfollows.2]
  rfl

end Batch

variable {F : Type} [Zero F] [One F] [Div F] [LT F] [DecidableLT F] [LE F] [DecidableLE F] [BEq F]

/-- Without an acceptance rate the kernels give each request its accepted drafts and one more
token, and a greedy request what its target model decodes token by token; each program writes
only the row of its request. -/
theorem rejection_rows (call : Call F) :
    (∃ output, launchKernels call.batch call.orders call.draws false = .ok output ∧
      (call.batch.useFusionKernel = false → ∀ mluRejectionSample,
        rejectionSample mluRejectionSample none call = .ok output) ∧
      ∀ reqIdx < call.batch.batchSize,
        chunk (call.batch.maxSpecLen + 1) reqIdx output =
          paddedRow call.batch.maxSpecLen (call.batch.verdict call.draws false reqIdx).emitted ∧
        (call.batch.greedy reqIdx = true → ∀ next context,
          call.batch.FollowsTarget next context reqIdx →
          (call.batch.verdict call.draws false reqIdx).emitted =
            decode next context
              ((call.batch.verdict call.draws false reqIdx).accepted + 1))) ∧
      call.batch.WritesOnly call.batch.greedy (rejectionGreedySampleKernel call.batch false) ∧
      call.batch.WritesOnly (fun row => !call.batch.greedy row)
        (rejectionRandomSampleKernel call.batch call.draws false) := by
  obtain ⟨output, houtput, hrows⟩ := @Batch.launchKernels_rows _ _ _ _ _ _ _ _ _ call.batch
    call.draws false call.orders
  refine ⟨⟨output, houtput, ?_, ?_⟩, Batch.greedyKernel_writesOnly false,
    Batch.randomKernel_writesOnly call.draws false⟩
  · intro hfusion mluRejectionSample
    rw [rejectionSample]
    simp only [hfusion, Bool.false_eq_true, ↓reduceIte, Option.isSome_none, houtput]
    rfl
  · intro reqIdx hreq
    refine ⟨?_, fun hgreedy next context hfollows => ?_⟩
    · rw [hrows.chunk_eq hreq, Batch.map_rowEntry (Batch.length_verdict_drafts_le hreq)]
    · rw [Batch.verdict, if_pos hgreedy]
      exact Batch.emitted_eq_decode hfollows

end VllmMlu.Sample
