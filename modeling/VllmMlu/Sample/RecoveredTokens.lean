import VllmMlu.Library.FirstMax
import VllmMlu.Moe.AlignBlockSize
import VllmMlu.Sample.RejectionRows

/-! The kernel that samples the recovered tokens: the vocabulary is scored block by block, and
without draft probabilities the target's row is changed for the time of the scoring. -/
namespace VllmMlu.Sample
open VllmMlu.Library VllmMlu.Library.Kernel VllmMlu.Library.FirstMax
open VllmMlu.Moe (cdiv le_roundUp roundUp)

variable {F : Type} [Field F] [LinearOrder F]

/-- The inputs of the kernel besides those of the batch: a row of exponential numbers for each
request, and the sizes of the blocks. -/
structure RecoveredInputs (F : Type) [Field F] [LinearOrder F] where
  batch : Batch F
  q : List F
  paddedVocabSize : Nat
  blockVocab : Nat
  length_q : q.length = batch.batchSize * batch.vocabSize
  q_pos : ∀ value ∈ q, 0 < value
  target_nonneg : ∀ prob ∈ batch.targetProbs, 0 ≤ prob
  vocabSize_le : batch.vocabSize ≤ paddedVocabSize
  blockVocab_pos : 0 < blockVocab

/-- The buffers that the kernel writes. -/
structure RecoveredBuffers (F : Type) where
  outputTokenIds : List Nat
  targetProbs : List F

namespace RecoveredInputs

variable (inputs : RecoveredInputs F)

/-- A lane of `score`. A masked lane has 0 over the negative infinity, which is 0. -/
def laneScore (targetProbs : List F) (rowStart qStart offset : Nat) : Except KernelError F :=
  if offset < inputs.batch.vocabSize then do
    let prob ← match inputs.batch.draftProbs with
      | none => load targetProbs (rowStart + offset)
      | some draftProbs => do
          let draftProb ← load draftProbs (rowStart + offset)
          let targetProb ← load targetProbs (rowStart + offset)
          pure (max (targetProb - draftProb) 0)
    let q ← load inputs.q (qStart + offset)
    pure (prob / q)
  else pure 0

/-- A turn of the loop over the blocks, on `max_score` and `max_index`. -/
def blockTurn (targetProbs : List F) (rowStart qStart : Nat) (state : Option F × Nat) (i : Nat) :
    Except KernelError (Option F × Nat) := do
  let offset := i * inputs.blockVocab
  let score ← (List.range' offset inputs.blockVocab).mapM
    (inputs.laneScore targetProbs rowStart qStart)
  let curMax := argmax score
  let curScore ← load score curMax
  let curIndex := offset + curMax
  pure (if state.1.all (· < curScore) then (some curScore, curIndex) else state)

/-- The loop over the blocks, and the store of its result. -/
def storeRecovered (targetProbs : List F) (reqIdx place : Nat) (outputTokenIds : List Nat) :
    Except KernelError (List Nat) := do
  let numBlocks := cdiv inputs.paddedVocabSize inputs.blockVocab
  let (_, maxIndex) ← (List.range' 0 numBlocks).foldlM
    (inputs.blockTurn targetProbs (place * inputs.batch.vocabSize)
      (reqIdx * inputs.batch.vocabSize)) (none, 0)
  store outputTokenIds place maxIndex

/-- The programs stand in a grid of the requests and the positions. -/
def sampleRecoveredTokensKernel (pid : Nat) (buffers : RecoveredBuffers F) :
    Except KernelError (RecoveredBuffers F) := do
  let reqIdx := pid / inputs.batch.maxSpecLen
  let pos := pid % inputs.batch.maxSpecLen
  let (startIdx, numDraftTokens) ← inputs.batch.draftRange reqIdx
  if numDraftTokens ≤ pos then pure buffers
  else match inputs.batch.draftProbs with
    | none => do
        let draftTokenId ← load inputs.batch.draftTokenIds (startIdx + pos)
        let draftPlace := (startIdx + pos) * inputs.batch.vocabSize + draftTokenId
        let origProb ← load buffers.targetProbs draftPlace
        let targetProbs ← store buffers.targetProbs draftPlace 0
        let outputTokenIds ←
          inputs.storeRecovered targetProbs reqIdx (startIdx + pos) buffers.outputTokenIds
        let targetProbs ← store targetProbs draftPlace origProb
        pure ⟨outputTokenIds, targetProbs⟩
    | some _ => do
        let outputTokenIds ←
          inputs.storeRecovered buffers.targetProbs reqIdx (startIdx + pos) buffers.outputTokenIds
        pure ⟨outputTokenIds, buffers.targetProbs⟩

/-- What the whole vocabulary scores at a packed position of a request: what the target exceeds
the draft by, or the target without the draft token itself, over `q`. -/
def score (reqIdx place token : Nat) : F :=
  let targetProb := inputs.batch.targetProbs.getD (place * inputs.batch.vocabSize + token) 0
  let prob := match inputs.batch.draftProbs with
    | none => if token = inputs.batch.draftTokenIds.getD place 0 then 0 else targetProb
    | some draftProbs =>
        max (targetProb - draftProbs.getD (place * inputs.batch.vocabSize + token) 0) 0
  prob / inputs.q.getD (reqIdx * inputs.batch.vocabSize + token) 0

/-- The score of a lane, masked lanes included. -/
def paddedScore (reqIdx place offset : Nat) : F :=
  if offset < inputs.batch.vocabSize then inputs.score reqIdx place offset else 0

/-- The target probabilities while a position is scored. -/
def scoredProbs (place : Nat) : List F :=
  match inputs.batch.draftProbs with
  | none => inputs.batch.targetProbs.set
      (place * inputs.batch.vocabSize + inputs.batch.draftTokenIds.getD place 0) 0
  | some _ => inputs.batch.targetProbs

section Scores

variable {inputs} {reqIdx place : Nat}

theorem load_targetProbs (hplace : place < inputs.batch.draftTokenIds.length) {token : Nat}
    (htoken : token < inputs.batch.vocabSize) :
    place * inputs.batch.vocabSize + token < inputs.batch.targetProbs.length := by
  rw [inputs.batch.length_targetProbs]
  exact Holds.row_lt hplace htoken

theorem length_scoredProbs : (inputs.scoredProbs place).length =
    inputs.batch.targetProbs.length := by
  rw [scoredProbs]
  split
  · exact List.length_set
  · rfl

theorem laneScore_eq (hreq : reqIdx < inputs.batch.batchSize)
    (hplace : place < inputs.batch.draftTokenIds.length) (offset : Nat) :
    inputs.laneScore (inputs.scoredProbs place) (place * inputs.batch.vocabSize)
      (reqIdx * inputs.batch.vocabSize) offset = .ok (inputs.paddedScore reqIdx place offset) := by
  rw [laneScore, paddedScore]
  by_cases hlane : offset < inputs.batch.vocabSize
  · have htarget := load_targetProbs hplace hlane
    have hq : reqIdx * inputs.batch.vocabSize + offset < inputs.q.length := by
      rw [inputs.length_q]
      exact Holds.row_lt hreq hlane
    rw [if_pos hlane, if_pos hlane, score]
    cases hprobs : inputs.batch.draftProbs with
    | none =>
        have hscored : (inputs.scoredProbs place).getD
            (place * inputs.batch.vocabSize + offset) 0 =
            if offset = inputs.batch.draftTokenIds.getD place 0 then 0
            else inputs.batch.targetProbs.getD (place * inputs.batch.vocabSize + offset) 0 := by
          simp only [scoredProbs, hprobs, List.getD_eq_getElem?_getD, List.getElem?_set,
            Nat.add_left_cancel_iff]
          split
          case isTrue hsame =>
            rw [if_pos hsame.symm, hsame, if_pos htarget, Option.getD_some]
          case isFalse hother => rw [if_neg fun hsame => hother hsame.symm]
        change (load _ _ >>= fun prob => load inputs.q _ >>= fun q => pure (prob / q)) = _
        rw [load_getD (by rwa [length_scoredProbs]) 0, hscored, load_getD hq 0]
        rfl
    | some draftProbs =>
        have hdraft : place * inputs.batch.vocabSize + offset < draftProbs.length := by
          rw [inputs.batch.length_draftProbs draftProbs (by rw [hprobs]; rfl)]
          exact Holds.row_lt hplace hlane
        have hscored : inputs.scoredProbs place = inputs.batch.targetProbs := by
          rw [scoredProbs, hprobs]
        change (load draftProbs _ >>= fun draftProb => load (inputs.scoredProbs place) _ >>= fun
          targetProb => load inputs.q _ >>= fun q => pure (max (targetProb - draftProb) 0 / q)) = _
        rw [hscored, load_getD hdraft 0, load_getD htarget 0, load_getD hq 0]
        rfl
  · rw [if_neg hlane, if_neg hlane]
    rfl

/-- After some blocks: the first of the largest scores so far. -/
def Scanned (inputs : RecoveredInputs F) (reqIdx place turn : Nat) (state : Option F × Nat) :
    Prop :=
  (turn = 0 ∧ state = (none, 0)) ∨
    (state.1 = some (inputs.paddedScore reqIdx place state.2) ∧
      IsFirstMax (inputs.paddedScore reqIdx place) (turn * inputs.blockVocab) state.2)

theorem blockTurn_scanned (hreq : reqIdx < inputs.batch.batchSize)
    (hplace : place < inputs.batch.draftTokenIds.length) {turn : Nat} {state : Option F × Nat}
    (hstate : inputs.Scanned reqIdx place turn state) :
    ∃ next, inputs.blockTurn (inputs.scoredProbs place) (place * inputs.batch.vocabSize)
        (reqIdx * inputs.batch.vocabSize) state turn = .ok next ∧
      inputs.Scanned reqIdx place (turn + 1) next := by
  let lanes := (List.range' (turn * inputs.blockVocab) inputs.blockVocab).map
    (inputs.paddedScore reqIdx place)
  have hlanes : (List.range' (turn * inputs.blockVocab) inputs.blockVocab).mapM
      (inputs.laneScore (inputs.scoredProbs place) (place * inputs.batch.vocabSize)
        (reqIdx * inputs.batch.vocabSize)) = .ok lanes := by
    rw [funext (laneScore_eq hreq hplace)]
    exact List.mapM_pure
  have hlength : lanes.length = inputs.blockVocab := by simp [lanes]
  have hlane : ∀ lane < inputs.blockVocab,
      lanes.getD lane 0 = inputs.paddedScore reqIdx place (turn * inputs.blockVocab + lane) := by
    intro lane hlt
    rw [List.getD_eq_getElem _ _ (by rwa [hlength])]
    simp [lanes]
  have hne : lanes ≠ [] := by
    rw [← List.length_pos_iff, hlength]
    exact inputs.blockVocab_pos
  have hblock : IsFirstMax (fun lane => inputs.paddedScore reqIdx place
      (turn * inputs.blockVocab + lane)) inputs.blockVocab (argmax lanes) := by
    have hmax := isFirstMax_findIdx hne 0
    rw [hlength] at hmax
    exact hmax.congr hlane
  have hload : load lanes (argmax lanes) =
      .ok (inputs.paddedScore reqIdx place (turn * inputs.blockVocab + argmax lanes)) := by
    rw [load_getD (by rw [hlength]; exact hblock.lt) 0, hlane _ hblock.lt]
  refine ⟨_, by
    rw [blockTurn, hlanes]
    change (load lanes (argmax lanes) >>= _) = _
    rw [hload]
    rfl, ?_⟩
  rw [Scanned, Nat.add_one_mul]
  rcases hstate with ⟨rfl, rfl⟩ | ⟨hscore, hfirst⟩
  · refine .inr ⟨rfl, ?_⟩
    simpa using hblock
  · have happend := hfirst.append hblock
    rw [hscore]
    simp only [Option.all_some, decide_eq_true_eq]
    split
    case isTrue hlarger =>
      rw [if_pos hlarger] at happend
      exact .inr ⟨rfl, happend⟩
    case isFalse hsmaller =>
      rw [if_neg hsmaller] at happend
      exact .inr ⟨hscore, happend⟩

theorem getD_nonneg {row : List F} (h : ∀ value ∈ row, 0 ≤ value) (i : Nat) :
    0 ≤ row.getD i 0 := by
  rw [List.getD_eq_getElem?_getD]
  cases hget : row[i]? with
  | none => exact le_refl 0
  | some value => exact h value (List.mem_of_getElem? hget)

theorem score_nonneg [IsStrictOrderedRing F] (token : Nat) :
    0 ≤ inputs.score reqIdx place token := by
  have hq := getD_nonneg (fun value hvalue => (inputs.q_pos value hvalue).le)
    (reqIdx * inputs.batch.vocabSize + token)
  have htarget := getD_nonneg inputs.target_nonneg (place * inputs.batch.vocabSize + token)
  rw [score]
  apply div_nonneg _ hq
  split
  · split
    · exact le_refl 0
    · exact htarget
  · exact le_max_right _ _

/-- The loop over the blocks finds the first of the largest scores of the vocabulary. -/
theorem storeRecovered_returns [IsStrictOrderedRing F] (hreq : reqIdx < inputs.batch.batchSize)
    (hplace : place < inputs.batch.draftTokenIds.length) {outputTokenIds : List Nat}
    (hlength : place < outputTokenIds.length) :
    ∃ token, inputs.storeRecovered (inputs.scoredProbs place) reqIdx place outputTokenIds =
        .ok (outputTokenIds.set place token) ∧
      IsFirstMax (inputs.score reqIdx place) inputs.batch.vocabSize token := by
  have hvocab : 0 < inputs.batch.vocabSize :=
    Nat.zero_lt_of_lt (inputs.batch.draft_lt _ (List.getElem_mem hplace))
  have hpadded : inputs.batch.vocabSize ≤
      cdiv inputs.paddedVocabSize inputs.blockVocab * inputs.blockVocab :=
    inputs.vocabSize_le.trans (le_roundUp inputs.blockVocab_pos)
  have hstart : inputs.Scanned reqIdx place 0 (none, 0) := .inl ⟨rfl, rfl⟩
  obtain ⟨⟨maxScore, maxIndex⟩, hloop, hscanned⟩ := @loop_returns _ _
    (inputs.blockTurn (inputs.scoredProbs place) (place * inputs.batch.vocabSize)
      (reqIdx * inputs.batch.vocabSize)) (inputs.Scanned reqIdx place)
    (cdiv inputs.paddedVocabSize inputs.blockVocab) 1 0 _ hstart
    (fun turn _ state hstate => by
      rw [Nat.one_mul, Nat.zero_add]
      exact blockTurn_scanned hreq hplace hstate)
  refine ⟨maxIndex, ?_, ?_⟩
  · rw [storeRecovered, hloop]
    exact store_eq_ok hlength maxIndex
  · rcases hscanned with ⟨hzero, -⟩ | ⟨-, hfirst⟩
    · rw [hzero] at hpadded
      omega
    · have hshort := hfirst.shorten hvocab hpadded fun other hother => by
        rw [paddedScore, paddedScore, if_neg (Nat.not_lt.mpr hother), if_pos hvocab]
        exact score_nonneg 0
      exact hshort.congr fun token htoken => by rw [paddedScore, if_pos htoken]

/-- A program of a position behind the drafts of its request does nothing. -/
theorem kernel_idle (hreq : reqIdx < inputs.batch.batchSize) {pos : Nat}
    (hpos : pos < inputs.batch.maxSpecLen)
    (hidle : (inputs.batch.drafts reqIdx).length ≤ pos) (buffers : RecoveredBuffers F) :
    inputs.sampleRecoveredTokensKernel (reqIdx * inputs.batch.maxSpecLen + pos) buffers =
      .ok buffers := by
  rw [sampleRecoveredTokensKernel]
  simp only [Nat.mul_comm reqIdx, Nat.mul_add_div (Nat.zero_lt_of_lt hpos),
    Nat.div_eq_of_lt hpos, Nat.add_zero, Nat.mul_add_mod, Nat.mod_eq_of_lt hpos,
    Batch.draftRange_eq hreq]
  change (if (inputs.batch.drafts reqIdx).length ≤ pos then _ else _) = _
  rw [if_pos hidle]
  rfl

/-- A program writes the token of its own position, and restores the target's row. -/
theorem kernel_returns [IsStrictOrderedRing F] (hreq : reqIdx < inputs.batch.batchSize) {pos : Nat}
    (hpos : pos < (inputs.batch.drafts reqIdx).length) {outputTokenIds : List Nat}
    (hlength : outputTokenIds.length = inputs.batch.draftTokenIds.length) :
    ∃ token, inputs.sampleRecoveredTokensKernel (reqIdx * inputs.batch.maxSpecLen + pos)
        ⟨outputTokenIds, inputs.batch.targetProbs⟩ =
        .ok ⟨outputTokenIds.set (inputs.batch.startIdx reqIdx + pos) token,
          inputs.batch.targetProbs⟩ ∧
      IsFirstMax (inputs.score reqIdx (inputs.batch.startIdx reqIdx + pos))
        inputs.batch.vocabSize token := by
  have hfit := hpos.trans_le (Batch.length_drafts_le hreq)
  have hend := Batch.startIdx_add_le hreq
  rw [← Batch.length_drafts hreq] at hend
  have hplace : inputs.batch.startIdx reqIdx + pos < inputs.batch.draftTokenIds.length := by omega
  obtain ⟨token, hstore, hfirst⟩ := storeRecovered_returns hreq hplace (hlength ▸ hplace)
  refine ⟨token, ?_, hfirst⟩
  rw [sampleRecoveredTokensKernel]
  simp only [Nat.mul_comm reqIdx, Nat.mul_add_div (Nat.zero_lt_of_lt hfit),
    Nat.div_eq_of_lt hfit, Nat.add_zero, Nat.mul_add_mod, Nat.mod_eq_of_lt hfit,
    Batch.draftRange_eq hreq]
  change (if (inputs.batch.drafts reqIdx).length ≤ pos then _ else _) = _
  rw [if_neg (Nat.not_le.mpr hpos)]
  split
  case h_1 hprobs =>
    have hvocab : inputs.batch.draftTokenIds.getD (inputs.batch.startIdx reqIdx + pos) 0 <
        inputs.batch.vocabSize := by
      rw [List.getD_eq_getElem _ _ hplace]
      exact inputs.batch.draft_lt _ (List.getElem_mem _)
    have hdraftPlace := load_targetProbs hplace hvocab
    simp only [scoredProbs, hprobs] at hstore
    rw [load_getD hplace 0]
    change (load inputs.batch.targetProbs _ >>= _) = _
    rw [load_getD hdraftPlace 0]
    change (store inputs.batch.targetProbs _ 0 >>= _) = _
    rw [store_eq_ok hdraftPlace]
    change (inputs.storeRecovered _ _ _ _ >>= _) = _
    rw [hstore]
    change (store _ _ _ >>= _) = _
    rw [store_eq_ok (by rwa [List.length_set]), List.set_set, List.getD_eq_getElem _ _ hdraftPlace,
      List.set_getElem_self]
    rfl
  case h_2 hprobs =>
    simp only [scoredProbs, hprobs] at hstore
    rw [hstore]
    rfl

/-- The positions of two requests do not meet in the packed drafts. -/
theorem packed_injective {batch : Batch F} {reqIdx other pos otherPos : Nat}
    (hreq : reqIdx < batch.batchSize) (hother : other < batch.batchSize)
    (hpos : pos < (batch.drafts reqIdx).length) (hotherPos : otherPos < (batch.drafts other).length)
    (heq : batch.startIdx reqIdx + pos = batch.startIdx other + otherPos) :
    reqIdx = other ∧ pos = otherPos := by
  have hafter : ∀ {first second : Nat}, first < batch.batchSize → first < second →
      batch.startIdx first + (batch.drafts first).length ≤ batch.startIdx second := by
    intro first second hfirst hlt
    rw [Batch.length_drafts hfirst, ← Batch.sum_take_add hfirst, Batch.startIdx]
    exact (List.take_prefix_take_left hlt).sublist.sum_le_sum fun _ _ => Nat.zero_le _
  rcases Nat.lt_trichotomy reqIdx other with hlt | rfl | hgt
  · have hle := hafter hreq hlt
    omega
  · omega
  · have hle := hafter hother hgt
    omega

end Scores

/-- After some programs: their positions hold their tokens, and the target's rows are as they
were. -/
structure Recovered (done : Finset Nat) (buffers : RecoveredBuffers F) : Prop where
  targetProbs : buffers.targetProbs = inputs.batch.targetProbs
  length : buffers.outputTokenIds.length = inputs.batch.draftTokenIds.length
  tokens : ∀ reqIdx < inputs.batch.batchSize, ∀ pos < (inputs.batch.drafts reqIdx).length,
    reqIdx * inputs.batch.maxSpecLen + pos ∈ done →
    ∃ token, buffers.outputTokenIds[inputs.batch.startIdx reqIdx + pos]? = some token ∧
      IsFirstMax (inputs.score reqIdx (inputs.batch.startIdx reqIdx + pos))
        inputs.batch.vocabSize token

variable {inputs}

theorem Recovered.run [IsStrictOrderedRing F] {done : Finset Nat} {buffers : RecoveredBuffers F}
    (h : inputs.Recovered done buffers) {pid : Nat}
    (hpid : pid < inputs.batch.batchSize * inputs.batch.maxSpecLen) :
    ∃ next, inputs.sampleRecoveredTokensKernel pid buffers = .ok next ∧
      inputs.Recovered (insert pid done) next := by
  have hmax : 0 < inputs.batch.maxSpecLen := by
    apply Nat.pos_of_ne_zero
    intro hzero
    simp [hzero] at hpid
  obtain ⟨reqIdx, pos, hreq, hpos, rfl⟩ : ∃ reqIdx pos, reqIdx < inputs.batch.batchSize ∧
      pos < inputs.batch.maxSpecLen ∧ pid = reqIdx * inputs.batch.maxSpecLen + pos :=
    ⟨pid / inputs.batch.maxSpecLen, pid % inputs.batch.maxSpecLen,
      Nat.div_lt_of_lt_mul (by rwa [Nat.mul_comm]), Nat.mod_lt _ hmax,
      (Nat.div_add_mod' pid _).symm⟩
  have hgrid : ∀ other < inputs.batch.batchSize, ∀ otherPos < (inputs.batch.drafts other).length,
      other * inputs.batch.maxSpecLen + otherPos = reqIdx * inputs.batch.maxSpecLen + pos →
      other = reqIdx ∧ otherPos = pos := by
    intro other hother otherPos hotherPos heq
    exact grid_injective (hotherPos.trans_le (Batch.length_drafts_le hother)) hpos heq
  by_cases hidle : (inputs.batch.drafts reqIdx).length ≤ pos
  · refine ⟨buffers, kernel_idle hreq hpos hidle buffers, h.targetProbs, h.length, ?_⟩
    intro other hother otherPos hotherPos hmem
    rcases Finset.mem_insert.mp hmem with heq | hmem
    · obtain ⟨rfl, rfl⟩ := hgrid other hother otherPos hotherPos heq
      omega
    · exact h.tokens other hother otherPos hotherPos hmem
  · obtain ⟨token, hkernel, hfirst⟩ := kernel_returns hreq (Nat.not_le.mp hidle) h.length
    obtain ⟨outputTokenIds, targetProbs⟩ := buffers
    have htarget := h.targetProbs
    have hlength := h.length
    simp only at htarget hlength
    subst htarget
    refine ⟨_, hkernel, rfl, by rw [List.length_set]; exact hlength, ?_⟩
    intro other hother otherPos hotherPos hmem
    by_cases hsame : other = reqIdx ∧ otherPos = pos
    · obtain ⟨rfl, rfl⟩ := hsame
      have hend := Batch.startIdx_add_le hreq
      rw [← Batch.length_drafts hreq] at hend
      have hin : inputs.batch.startIdx other + otherPos < outputTokenIds.length := by omega
      exact ⟨token, List.getElem?_set_self hin, hfirst⟩
    · have hdone : other * inputs.batch.maxSpecLen + otherPos ∈ done :=
        (Finset.mem_insert.mp hmem).resolve_left fun heq =>
          hsame (hgrid other hother otherPos hotherPos heq)
      obtain ⟨found, hfound, hbest⟩ := h.tokens other hother otherPos hotherPos hdone
      refine ⟨found, ?_, hbest⟩
      rw [List.getElem?_set_ne fun heq => hsame ?_]
      · exact hfound
      · exact packed_injective hother hreq hotherPos (Nat.not_le.mp hidle) heq.symm

/-- For any order of the programs: each packed position gets the first of the tokens with the
largest score of the whole vocabulary, the programs behind the drafts of their requests do
nothing, and the target's rows are restored. -/
theorem recovered_first_max [IsStrictOrderedRing F] (inputs : RecoveredInputs F)
    (order : GridOrder (inputs.batch.batchSize * inputs.batch.maxSpecLen))
    {outputTokenIds : List Nat}
    (hlength : outputTokenIds.length = inputs.batch.draftTokenIds.length) :
    (∃ buffers, launch order inputs.sampleRecoveredTokensKernel
        ⟨outputTokenIds, inputs.batch.targetProbs⟩ = .ok buffers ∧
      buffers.targetProbs = inputs.batch.targetProbs ∧
      ∀ reqIdx < inputs.batch.batchSize, ∀ pos < (inputs.batch.drafts reqIdx).length,
        ∃ token < inputs.batch.vocabSize,
          buffers.outputTokenIds[inputs.batch.startIdx reqIdx + pos]? = some token ∧
          IsFirstMax (inputs.score reqIdx (inputs.batch.startIdx reqIdx + pos))
            inputs.batch.vocabSize token) ∧
    ∀ reqIdx < inputs.batch.batchSize, ∀ pos < inputs.batch.maxSpecLen,
      (inputs.batch.drafts reqIdx).length ≤ pos → ∀ buffers,
        inputs.sampleRecoveredTokensKernel (reqIdx * inputs.batch.maxSpecLen + pos) buffers =
          .ok buffers := by
  have hstart : inputs.Recovered ∅ ⟨outputTokenIds, inputs.batch.targetProbs⟩ :=
    ⟨rfl, hlength, fun _ _ _ _ hmem => absurd hmem (Finset.notMem_empty _)⟩
  obtain ⟨buffers, hlaunch, hrecovered⟩ := @launch_returns _ _ _ order
    inputs.sampleRecoveredTokensKernel inputs.Recovered _ hstart
    (fun _ _ hpid _ _ h => h.run hpid)
  refine ⟨⟨buffers, hlaunch, hrecovered.targetProbs, fun reqIdx hreq pos hpos => ?_⟩,
    fun reqIdx hreq pos hpos hidle => kernel_idle hreq hpos hidle⟩
  have hfit := hpos.trans_le (Batch.length_drafts_le hreq)
  obtain ⟨token, htoken, hfirst⟩ := hrecovered.tokens reqIdx hreq pos hpos
    (Finset.mem_range.mpr (Holds.row_lt hreq hfit))
  exact ⟨token, hfirst.lt, htoken, hfirst⟩

/-- Two requests of which the second has no draft, without draft probabilities. -/
def twoRequests : RecoveredInputs ℚ where
  batch := {
    numDraftTokens := [2, 0]
    maxSpecLen := 2
    vocabSize := 3
    draftTokenIds := [0, 2]
    draftProbs := none
    targetProbs := [1, 1, 1, 0, 0, 1]
    bonusTokenIds := [1, 1]
    samplingMetadata := ⟨[1, 1], false, true, rfl, by decide, by decide⟩
    num_le := by decide
    length_draftTokenIds := rfl
    draft_lt := by decide
    length_draftProbs := by simp
    length_targetProbs := rfl
    length_bonusTokenIds := rfl }
  q := [1, 1, 1, 1, 1, 1]
  paddedVocabSize := 4
  blockVocab := 2
  length_q := rfl
  q_pos := by decide
  target_nonneg := by decide
  vocabSize_le := by decide
  blockVocab_pos := Nat.two_pos

theorem recovered_first_max_two :
    (∃ buffers, launch (.ascending 4) twoRequests.sampleRecoveredTokensKernel
        ⟨[7, 7], twoRequests.batch.targetProbs⟩ = .ok buffers ∧
      buffers.targetProbs = twoRequests.batch.targetProbs ∧
      ∀ reqIdx < twoRequests.batch.batchSize,
        ∀ pos < (twoRequests.batch.drafts reqIdx).length,
        ∃ token < twoRequests.batch.vocabSize,
          buffers.outputTokenIds[twoRequests.batch.startIdx reqIdx + pos]? = some token ∧
          IsFirstMax (twoRequests.score reqIdx (twoRequests.batch.startIdx reqIdx + pos))
            twoRequests.batch.vocabSize token) ∧
    ∀ reqIdx < twoRequests.batch.batchSize, ∀ pos < twoRequests.batch.maxSpecLen,
      (twoRequests.batch.drafts reqIdx).length ≤ pos → ∀ buffers,
        twoRequests.sampleRecoveredTokensKernel
          (reqIdx * twoRequests.batch.maxSpecLen + pos) buffers = .ok buffers :=
  recovered_first_max twoRequests (.ascending 4) rfl

end RecoveredInputs

end VllmMlu.Sample
