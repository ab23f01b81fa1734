import VllmMlu.Moe.ForwardExperts

/-! A layer with zero experts, which give a token back as it is. -/
namespace VllmMlu.Moe
open VllmMlu.Library VllmMlu.Library.Dispatch VllmMlu.Library.Rows

structure LongCatSparseMoeMlp (ε : Type) extends SparseMoeMlp ε where
  moeEpSize : Nat
  moeTpRank : Nat
  numZeroExperts : Nat
  zeroExpertSize : Nat
  startZeroExpertId : Nat

/-- The constructor; `none` where an assertion fails or the zero experts do not divide evenly. -/
def LongCatSparseMoeMlp.init {ε : Type} (numExperts numZeroExperts topK moeEpSize moeEpRank
    moeTpRank : Nat) (feedForward : Nat → ε) : Option (LongCatSparseMoeMlp ε) := do
  let mlp ← SparseMoeMlp.init numExperts topK moeEpSize moeEpRank feedForward
  if numZeroExperts % moeEpSize = 0 then
    some
      { mlp with
        moeEpSize, moeTpRank, numZeroExperts
        zeroExpertSize := numZeroExperts / moeEpSize
        startZeroExpertId := mlp.numTotalExperts + moeEpRank *
          ((numZeroExperts + moeEpSize - 1) / moeEpSize) }
  else none

/-- The operators of the other library. -/
structure MoeOps (R V : Type) where
  /-- `moe_gen_idx(expert_id, expert_num)`, for a tensor with `topK` columns. -/
  moeGenIdx (topK : Nat) (expertId : List Nat) (expertNum : Nat) : Option GatherIdx
  moeExpandInput (hidden : List V) (gatherIdx cusumTokenCount : List Nat)
    (startExpertId expertSize : Nat) : Option (List V)
  /-- `moe_combine_result`, for weights of `numTokens` rows and `topK` columns. -/
  moeCombineResult (numTokens topK : Nat) (rows : List V) (reduceWeight : List R)
    (gatherIds : List Nat) (residual : Option (List V)) (cusumTokenCount : List Nat)
    (startExpertId expertSize : Nat) : Option (List V)

/-- With one expert-parallel rank the layer holds all experts, and all zero experts. -/
theorem LongCatSparseMoeMlp.init_one_rank {V : Type}
    {numExperts numZeroExperts topK moeTpRank : Nat}
    {expert : Nat → V → V} {mlp : LongCatSparseMoeMlp (V → V)}
    (hinit : LongCatSparseMoeMlp.init numExperts numZeroExperts topK 1 0 moeTpRank expert =
      some mlp) :
    mlp.toSparseMoeMlp = rankLayer numExperts topK expert 0 numExperts ∧
      mlp.moeEpSize = 1 ∧ mlp.moeTpRank = moeTpRank ∧ mlp.zeroExpertSize = numZeroExperts ∧
      mlp.startZeroExpertId = numExperts := by
  have hshare : expertsOfRank numExperts 1 0 = numExperts := by
    simp [expertsOfRank, expertShare, Nat.mod_one]
  unfold LongCatSparseMoeMlp.init at hinit
  simp only [Option.bind_eq_bind, Option.bind_eq_some_iff] at hinit
  obtain ⟨base, hbase, hinit⟩ := hinit
  unfold SparseMoeMlp.init at hbase
  split at hbase
  · cases hbase
    split at hinit
    · cases hinit
      simp [rankLayer, hshare]
    · cases hinit
  · cases hbase

section Choices

variable {R V : Type} {total topK : Nat} (batch : RoutedTokens R V total topK)
  (order : SortOrder batch.topkIndices)

/-- Some token has chosen one of the first experts. -/
def RoutedTokens.ChoosesBelow (numExperts : Nat) : Prop :=
  ∃ token < batch.numTokens, ∃ k < topK, batch.expertId token k < numExperts

theorem getLast?_cusum : ((List.range (total + 1)).map
    (below order.key order.indices)).getLast? = some order.indices.length := by
  rw [List.range_succ, List.map_append, List.map_singleton, List.getLast?_concat,
    below_of_bounded (key_lt order batch.topkIndices_bounded)]

/-- Without such a choice no row is in front. -/
theorem filter_key_eq_nil_iff {numExperts : Nat} :
    (order.indices.filter fun choice => 0 ≤ order.key choice ∧ order.key choice < numExperts) =
      [] ↔ ¬batch.ChoosesBelow numExperts := by
  rw [List.filter_eq_nil_iff]
  constructor
  · rintro hnone ⟨token, htoken, k, hk, hlt⟩
    have hmem : token * topK + k ∈ order.indices := by
      rw [order.perm.mem_iff, List.mem_range, batch.length_topkIndices]
      exact batch.choice_lt htoken hk
    apply hnone _ hmem
    rw [batch.key_choice order htoken hk]
    simpa using hlt
  · intro hnone choice hmem
    have hchoice := List.mem_range.mp (order.perm.mem_iff.mp hmem)
    rw [batch.length_topkIndices] at hchoice
    have hmod := Nat.mod_lt choice (batch.topk_pos_of_lt hchoice)
    have hkey := batch.key_choice order (batch.token_lt hchoice) hmod
    rw [Nat.div_add_mod'] at hkey
    intro hlt
    rw [hkey, decide_eq_true_eq] at hlt
    exact hnone ⟨_, batch.token_lt hchoice, _, hmod, hlt.2⟩

end Choices

/-- Without any row for an expert there is nothing to concatenate. -/
theorem runExperts_none {V : Type} {mlp : SparseMoeMlp (V → V)} {rows : List V} {cusum counts : List Nat}
    (hcounts : ∀ count ∈ counts, count = 0) : mlp.runExperts rows cusum counts = none := by
  have hloop : ∀ (entries : List (Nat × Nat)) (outputs : List (List V)),
      (∀ entry ∈ entries, entry.1 = 0) →
      entries.foldlM (fun outputs entry =>
        if 0 < entry.1 then do
          let first ← cusum[entry.2]?
          let last ← cusum[entry.2 + 1]?
          let expert ← mlp.experts[entry.2]?
          some (outputs ++ [(slice first (last - first) rows).map expert])
        else some outputs) outputs = some outputs := by
    intro entries outputs hzero
    induction entries with
    | nil => rfl
    | cons entry rest ih =>
        have hhead := hzero entry List.mem_cons_self
        rw [List.foldlM_cons, if_neg (by omega)]
        exact ih fun other hmem => hzero other (List.mem_cons_of_mem _ hmem)
  rw [SparseMoeMlp.runExperts, hloop _ _ fun entry hmem =>
    hcounts _ (List.fst_mem_of_mem_zipIdx hmem)]
  rfl

section Front

variable {R V : Type}

/-- The loop over the experts, with the counts and the starts of all experts. -/
theorem runExperts_front {numExperts numZeroExperts topK : Nat} {expert : Nat → V → V}
    (batch : RoutedTokens R V (numExperts + numZeroExperts) topK)
    (order : SortOrder batch.topkIndices) (hchoice : batch.ChoosesBelow numExperts)
    (row : Nat → V) :
    (rankLayer numExperts topK expert 0 numExperts).runExperts
        ((order.indices.filter fun choice =>
          0 ≤ order.key choice ∧ order.key choice < numExperts).map row)
        ((slice 0 (numExperts + 1 - 0) ((List.range (numExperts + numZeroExperts + 1)).map
          (below order.key order.indices))).map (· - below order.key order.indices 0))
        (((List.range (numExperts + numZeroExperts)).map fun expert =>
          order.indices.countP fun choice => order.key choice = expert).take numExperts) =
      some ((order.indices.filter fun choice =>
        0 ≤ order.key choice ∧ order.key choice < numExperts).map fun choice =>
          expert (order.key choice) (row choice)) := by
  have hne : (order.indices.filter fun choice =>
      0 ≤ order.key choice ∧ order.key choice < numExperts) ≠ [] := fun hnil =>
    (filter_key_eq_nil_iff batch order).mp hnil hchoice
  have hrun := runExperts_eq order
    (@rankLayer_holdsRange V numExperts topK expert 0 numExperts (Nat.zero_le _) le_rfl) row hne
  have hcusum : slice 0 (numExperts + 1 - 0) ((List.range (numExperts + numZeroExperts + 1)).map
        (below order.key order.indices)) =
      slice 0 (numExperts + 1 - 0) ((List.range (numExperts + 1)).map
        (below order.key order.indices)) := by
    rw [slice_map_range _ (by omega), slice_map_range _ (by omega)]
  have hcounts : ((List.range (numExperts + numZeroExperts)).map fun expert =>
        order.indices.countP fun choice => order.key choice = expert).take numExperts =
      (List.range (numExperts - 0)).map fun expert =>
        order.indices.countP fun choice => order.key choice = 0 + expert := by
    rw [← List.map_take, List.take_range, Nat.min_eq_left (Nat.le_add_right _ _)]
    simp
  rw [hcusum, hcounts]
  refine hrun.trans (congrArg some ?_)
  apply List.map_congr_left
  intro choice hmem
  exact congrFun (rankLayer_expert (of_decide_eq_true (List.mem_filter.mp hmem).2)) (row choice)

end Front

section Forward

variable {R V : Type} [Semiring R] [AddCommMonoid V] [Module R V]

/-- The sum with the given residual. -/
def addResidual? (residual : Option (List V)) (out : List V) : Option (List V) :=
  match residual with
  | none => some out
  | some residual => add? residual out

/-- The operators do what the methods of the base class do. -/
structure MoeOps.LikeBase (ops : MoeOps R V) : Prop where
  genIdx : ∀ topK ids expertNum, (∀ id ∈ ids, id < expertNum) → ∃ order : SortOrder ids,
    ops.moeGenIdx topK ids expertNum =
      (rankLayer expertNum topK (fun _ => (id : V → V)) 0 expertNum).generateGatherIdx ids order
  expandInput : ∀ hidden gatherIdx cusum start size,
    ops.moeExpandInput hidden gatherIdx cusum start size = do
      let first ← cusum[start]?
      let last ← cusum[start + size]?
      SparseMoeMlp.expandInput hidden (slice first (last - first) gatherIdx)
  combineResult : ∀ expertNum numTokens topK rows weights gatherIds residual cusum start size,
    ops.moeCombineResult numTokens topK rows weights gatherIds residual cusum start size = do
      let out ← (rankLayer expertNum topK (fun _ => (id : V → V)) start
        (start + size)).combineMoe rows gatherIds cusum numTokens weights
      addResidual? residual out

/-- The operators, as the methods of the base class with a given sort. -/
def MoeOps.ofBase (order : ∀ ids, SortOrder ids) : MoeOps R V where
  moeGenIdx topK expertId expertNum :=
    (rankLayer expertNum topK (fun _ => (id : V → V)) 0 expertNum).generateGatherIdx expertId
      (order expertId)
  moeExpandInput hidden gatherIdx cusum start size := do
    let first ← cusum[start]?
    let last ← cusum[start + size]?
    SparseMoeMlp.expandInput hidden (slice first (last - first) gatherIdx)
  moeCombineResult numTokens topK rows weights gatherIds residual cusum start size := do
    let out ← (rankLayer 0 topK (fun _ => (id : V → V)) start (start + size)).combineMoe rows
      gatherIds cusum numTokens weights
    addResidual? residual out

theorem MoeOps.ofBase_likeBase (order : ∀ ids, SortOrder ids) :
    (MoeOps.ofBase order : MoeOps R V).LikeBase where
  genIdx _ ids _ _ := ⟨order ids, rfl⟩
  expandInput _ _ _ _ _ := rfl
  combineResult _ _ _ _ _ _ _ _ _ _ := rfl

/-- `expand_hidden_states[:count] = rows`. -/
def assignFirst? (hidden : List V) (count : Nat) (rows : List V) : Option (List V) :=
  if (hidden.take count).length = rows.length then some (rows ++ hidden.drop count) else none

def LongCatSparseMoeMlp.forwardExpertsNofusedLongcat (mlp : LongCatSparseMoeMlp (V → V))
    (ops : MoeOps R V) (hiddenStates : List V) (totalNumExperts : Nat) (topkIndices : List Nat)
    (topkWeights : List R) (residual : Option (List V)) : Option (List V) :=
  if mlp.moeEpSize ≠ 1 then none
  else do
    let idx ← ops.moeGenIdx mlp.topK topkIndices totalNumExperts
    let numTokensAll ← idx.cusumTokenCount.getLast?
    if numTokensAll = 0 then some (List.replicate hiddenStates.length 0)
    else do
      let expertSize := mlp.endExpertId - mlp.startExpertId
      let expandHiddenStates ← ops.moeExpandInput hiddenStates idx.expandGatherIdx
        idx.cusumTokenCount mlp.startExpertId expertSize
      let expandHiddenStatesZero ← ops.moeExpandInput hiddenStates idx.expandGatherIdx
        idx.cusumTokenCount mlp.startZeroExpertId mlp.zeroExpertSize
      let start ← idx.cusumTokenCount[mlp.startExpertId]?
      let expandCusumTokenCount :=
        (slice mlp.startExpertId (mlp.endExpertId + 1 - mlp.startExpertId)
          idx.cusumTokenCount).map (· - start)
      -- the branch of the loop for `expert_idx >= num_total_experts` is never taken
      let expandOutput ← mlp.runExperts expandHiddenStates expandCusumTokenCount
        (idx.expandTokenCount.take mlp.numTotalExperts)
      let numNormalTokens ← idx.cusumTokenCount[mlp.numTotalExperts]?
      let expandHiddenStates ← assignFirst? expandHiddenStates numNormalTokens expandOutput
      let finalHiddenStates ← ops.moeCombineResult hiddenStates.length mlp.topK
        expandHiddenStates topkWeights idx.scatterIdx residual idx.cusumTokenCount
        mlp.startExpertId expertSize
      if 1 < mlp.moeEpSize ∨ mlp.moeTpRank = 0 then
        ops.moeCombineResult hiddenStates.length mlp.topK expandHiddenStatesZero topkWeights
          idx.scatterIdx (some finalHiddenStates) idx.cusumTokenCount mlp.startZeroExpertId
          mlp.zeroExpertSize
      else some finalHiddenStates

/-- The mixture of a token: the experts, and the token itself for each zero expert. -/
def zeroExpertMixture (numExperts : Nat) (expert : Nat → V → V) {total topK : Nat}
    (batch : RoutedTokens R V total topK) (token : Nat) : V :=
  ∑ k ∈ Finset.range topK, batch.weight token k •
    if batch.expertId token k < numExperts then
      expert (batch.expertId token k) (batch.hidden token)
    else batch.hidden token

section Choices

variable {ops : MoeOps R V} {total topK : Nat} (batch : RoutedTokens R V total topK)
  (order : SortOrder batch.topkIndices)

/-- The rows of the choices that fall on a range of experts. -/
theorem moeExpandInput_range (hbase : ops.LikeBase) {start size : Nat}
    (hle : start + size ≤ total) :
    ops.moeExpandInput batch.hiddenStates (order.indices.map (· / topK))
        ((List.range (total + 1)).map (below order.key order.indices)) start size =
      some ((order.indices.filter fun choice =>
        start ≤ order.key choice ∧ order.key choice < start + size).map
          fun choice => batch.hidden (choice / topK)) := by
  rw [hbase.expandInput, List.getElem?_map, List.getElem?_range (by omega), List.getElem?_map,
    List.getElem?_range (by omega)]
  simp only [Option.map_some, Option.bind_eq_bind, Option.bind_some]
  rw [← map_slice, slice_below order.pairwise (by omega), SparseMoeMlp.expandInput,
    batch.gather_hiddenStates]

/-- The weighted results of the choices on a range of experts, on top of a residual. -/
theorem moeCombineResult_range (hbase : ops.LikeBase) {start size : Nat}
    (hle : start + size ≤ total) {inverse : List Nat}
    (hinverseLength : inverse.length = batch.topkIndices.length)
    (hinverse : ∀ place i : Nat, order.indices[place]? = some i → inverse[i]? = some place)
    (result : Nat → V) (residual : Option (Nat → V)) :
    ops.moeCombineResult batch.numTokens topK
        ((order.indices.filter fun choice =>
          start ≤ order.key choice ∧ order.key choice < start + size).map result)
        batch.topkValues inverse
        (residual.map fun residual => (List.range batch.numTokens).map residual)
        ((List.range (total + 1)).map (below order.key order.indices)) start size =
      some ((List.range batch.numTokens).map fun token =>
        (residual.map (· token)).getD 0 + ∑ k ∈ Finset.range topK, batch.weight token k •
          if start ≤ batch.expertId token k ∧ batch.expertId token k < start + size then
            result (token * topK + k)
          else 0) := by
  have hrange := @rankLayer_holdsRange V total topK (fun _ => id) start (start + size)
    (Nat.le_add_right _ _) hle
  have hcombine := combineMoe_eq order hrange batch.topkIndices_bounded
    batch.length_topkIndices hinverseLength hinverse result
    (fun choice => batch.weight (choice / topK) (choice % topK))
  have hsum : ∀ token < batch.numTokens,
      (∑ k ∈ Finset.range topK,
        batch.weight ((token * topK + k) / topK) ((token * topK + k) % topK) •
          if start ≤ order.key (token * topK + k) ∧
              order.key (token * topK + k) < start + size then
            result (token * topK + k)
          else 0) =
        ∑ k ∈ Finset.range topK, batch.weight token k •
          if start ≤ batch.expertId token k ∧ batch.expertId token k < start + size then
            result (token * topK + k)
          else 0 := by
    intro token htoken
    apply Finset.sum_congr rfl
    intro k hk
    have hk := Finset.mem_range.mp hk
    rw [batch.key_choice order htoken hk, RoutedTokens.choice_div hk, RoutedTokens.choice_mod hk]
  have hvalues : batch.topkValues = (List.range (batch.numTokens * topK)).map fun choice =>
    batch.weight (choice / topK) (choice % topK) := rfl
  rw [hbase.combineResult total]
  rw [hvalues]
  have hout : (rankLayer total topK (fun _ => (id : V → V)) start (start + size)).combineMoe
      ((order.indices.filter fun choice =>
        start ≤ order.key choice ∧ order.key choice < start + size).map result) inverse
      ((List.range (total + 1)).map (below order.key order.indices)) batch.numTokens
      ((List.range (batch.numTokens * topK)).map fun choice =>
        batch.weight (choice / topK) (choice % topK)) =
    some ((List.range batch.numTokens).map fun token => ∑ k ∈ Finset.range topK,
      batch.weight token k •
        if start ≤ batch.expertId token k ∧ batch.expertId token k < start + size then
          result (token * topK + k)
        else 0) := by
    refine hcombine.trans (congrArg some ?_)
    apply List.map_congr_left
    intro token htoken
    exact hsum token (List.mem_range.mp htoken)
  rw [hout]
  simp only [Option.bind_eq_bind, Option.bind_some]
  cases residual with
  | none => simp [addResidual?]
  | some residual =>
      rw [Option.map_some, addResidual?, add?_eq (by simp), List.zipWith_map, List.zipWith_self]
      rfl

/-- What the sort of all choices amounts to. -/
theorem moeGenIdx_eq (hbase : ops.LikeBase) :
    ∃ order : SortOrder batch.topkIndices, ∃ inverse : List Nat,
      inverse.length = batch.topkIndices.length ∧
      (∀ place i : Nat, order.indices[place]? = some i → inverse[i]? = some place) ∧
      ops.moeGenIdx topK batch.topkIndices total = some
        { expandGatherIdx := order.indices.map (· / topK)
          scatterIdx := inverse
          expandTokenCount := (List.range total).map fun expert =>
            order.indices.countP fun choice => order.key choice = expert
          cusumTokenCount := (List.range (total + 1)).map (below order.key order.indices) } := by
  obtain ⟨order, hgen⟩ := hbase.genIdx topK batch.topkIndices total batch.topkIndices_bounded
  obtain ⟨inverse, hlength, hinverse, hidx⟩ := generateGatherIdx_eq order
    (@rankLayer_holdsRange V total topK (fun _ => id) 0 total (Nat.zero_le _) le_rfl)
    batch.topkIndices_bounded
  have hall : (order.indices.filter fun choice =>
      0 ≤ order.key choice ∧ order.key choice < total) = order.indices :=
    List.filter_eq_self.mpr fun choice hmem => by
      simpa using key_lt order batch.topkIndices_bounded choice hmem
  refine ⟨order, inverse, hlength, hinverse, hgen.trans (hidx.trans ?_)⟩
  congr 2
  · exact congrArg (List.map (· / topK)) hall
  · simp [rankLayer]

end Choices

section Layer

variable {ops : MoeOps R V} {numExperts numZeroExperts topK : Nat} {expert : Nat → V → V}
  {mlp : LongCatSparseMoeMlp (V → V)}

/-- The experts' part and the zero experts' part of a token add up to its mixture. -/
theorem add_zeroExpertMixture (batch : RoutedTokens R V (numExperts + numZeroExperts) topK)
    (order : SortOrder batch.topkIndices) {token : Nat} (htoken : token < batch.numTokens) :
    (∑ k ∈ Finset.range topK, batch.weight token k •
        if 0 ≤ batch.expertId token k ∧ batch.expertId token k < numExperts then
          expert (order.key (token * topK + k)) (batch.hidden ((token * topK + k) / topK))
        else 0) +
      (∑ k ∈ Finset.range topK, batch.weight token k •
        if numExperts ≤ batch.expertId token k ∧
            batch.expertId token k < numExperts + numZeroExperts then
          batch.hidden ((token * topK + k) / topK)
        else 0) = zeroExpertMixture numExperts expert batch token := by
  rw [← Finset.sum_add_distrib]
  apply Finset.sum_congr rfl
  intro k hk
  have hk := Finset.mem_range.mp hk
  have hlt := batch.expertId_lt token htoken k hk
  rw [← smul_add, batch.key_choice order htoken hk, RoutedTokens.choice_div hk]
  congr 1
  by_cases hreal : batch.expertId token k < numExperts
  · rw [if_pos ⟨Nat.zero_le _, hreal⟩, if_neg (by omega), if_pos hreal, add_zero]
  · rw [if_neg (by omega), if_pos ⟨by omega, hlt⟩, if_neg hreal, zero_add]

/-- The whole method, for a batch with a choice of a real expert. -/
theorem forwardExpertsNofusedLongcat_eq (hbase : ops.LikeBase)
    (hinit : LongCatSparseMoeMlp.init numExperts numZeroExperts topK 1 0 0 expert = some mlp)
    (batch : RoutedTokens R V (numExperts + numZeroExperts) topK) (residual : Option (Nat → V))
    (hchoice : batch.ChoosesBelow numExperts) :
    mlp.forwardExpertsNofusedLongcat ops batch.hiddenStates (numExperts + numZeroExperts)
        batch.topkIndices batch.topkValues
        (residual.map fun residual => (List.range batch.numTokens).map residual) =
      some ((List.range batch.numTokens).map fun token =>
        (residual.map (· token)).getD 0 + zeroExpertMixture numExperts expert batch token) := by
  obtain ⟨order, inverse, hinverseLength, hinverse, hgen⟩ := moeGenIdx_eq batch hbase
  obtain ⟨hlayer, hsize, hrank, hzeroSize, hzeroStart⟩ :=
    LongCatSparseMoeMlp.init_one_rank hinit
  obtain ⟨base, epSize, tpRank, numZero, zeroSize, zeroStart⟩ := mlp
  dsimp only at hlayer hsize hrank hzeroSize hzeroStart
  subst base epSize tpRank zeroSize zeroStart
  have hlast := getLast?_cusum batch order
  have hsome : order.indices.length ≠ 0 := by
    intro hzero
    apply (filter_key_eq_nil_iff batch order).mp _ hchoice
    rw [List.eq_nil_of_length_eq_zero hzero]
    rfl
  have hexpand := @moeExpandInput_range R V _ _ _ ops _ topK batch order hbase 0 numExperts
    (by omega)
  have hexpandZero := @moeExpandInput_range R V _ _ _ ops _ topK batch order hbase numExperts
    numZeroExperts le_rfl
  have hcombine := @moeCombineResult_range R V _ _ _ ops _ topK batch order hbase 0 numExperts
    (by omega) inverse hinverseLength hinverse
    (fun choice => expert (order.key choice) (batch.hidden (choice / topK))) residual
  have hcombineZero := @moeCombineResult_range R V _ _ _ ops _ topK batch order hbase numExperts
    numZeroExperts le_rfl inverse hinverseLength hinverse
    (fun choice => batch.hidden (choice / topK))
  rw [Nat.zero_add] at hexpand hcombine
  have hrows : (order.indices.filter fun choice =>
      0 ≤ order.key choice ∧ order.key choice < numExperts).length =
      below order.key order.indices numExperts := by
    simp [below, List.countP_eq_length_filter]
  unfold LongCatSparseMoeMlp.forwardExpertsNofusedLongcat
  rw [if_neg (by simp)]
  simp only [rankLayer_topK, rankLayer_startExpertId, rankLayer_endExpertId,
    rankLayer_numTotalExperts, Option.bind_eq_bind]
  rw [hgen, Option.bind_some, hlast, Option.bind_some, if_neg hsome, Nat.sub_zero, hexpand,
    hexpandZero, List.getElem?_map, List.getElem?_range (by omega)]
  simp only [Option.map_some, Option.bind_some]
  rw [runExperts_front batch order hchoice, List.getElem?_map, List.getElem?_range (by omega)]
  simp only [Option.map_some, Option.bind_some]
  rw [assignFirst?, List.take_of_length_le (by simp [← hrows]),
    List.drop_of_length_le (by simp [← hrows]), if_pos (by simp), List.append_nil]
  simp only [Option.bind_some]
  rw [batch.length_hiddenStates, hcombine]
  simp only [Option.bind_some]
  rw [if_pos (by simp)]
  refine (hcombineZero (some _)).trans (congrArg some ?_)
  apply List.map_congr_left
  intro token htoken
  rw [Option.map_some, Option.getD_some, add_assoc,
    add_zeroExpertMixture batch order (List.mem_range.mp htoken)]

/-- Zero experts alone make `torch.cat` raise. -/
theorem forwardExpertsNofusedLongcat_none (hbase : ops.LikeBase)
    (hinit : LongCatSparseMoeMlp.init numExperts numZeroExperts topK 1 0 0 expert = some mlp)
    (batch : RoutedTokens R V (numExperts + numZeroExperts) topK) (residual : Option (List V))
    (hchoices : 0 < batch.numTokens * topK) (hzero : ¬batch.ChoosesBelow numExperts) :
    mlp.forwardExpertsNofusedLongcat ops batch.hiddenStates (numExperts + numZeroExperts)
      batch.topkIndices batch.topkValues residual = none := by
  obtain ⟨order, inverse, -, -, hgen⟩ := moeGenIdx_eq batch hbase
  obtain ⟨hlayer, hsize, -, -, -⟩ := LongCatSparseMoeMlp.init_one_rank hinit
  obtain ⟨base, epSize, tpRank, numZero, zeroSize, zeroStart⟩ := mlp
  dsimp only at hlayer hsize
  subst base epSize
  have hlast := getLast?_cusum batch order
  have hsome : order.indices.length ≠ 0 := by
    rw [order.perm.length_eq, List.length_range, batch.length_topkIndices]
    omega
  have hnone := (filter_key_eq_nil_iff batch order).mpr hzero
  have hcounts : ∀ count ∈ ((List.range (numExperts + numZeroExperts)).map fun expert =>
      order.indices.countP fun choice => order.key choice = expert).take numExperts,
      count = 0 := by
    intro count hmem
    rw [← List.map_take, List.take_range, Nat.min_eq_left (Nat.le_add_right _ _)] at hmem
    obtain ⟨expertId, hexpert, rfl⟩ := List.mem_map.mp hmem
    rw [List.countP_eq_zero]
    intro choice hchoice hkey
    rw [decide_eq_true_eq] at hkey
    apply List.filter_eq_nil_iff.mp hnone choice hchoice
    rw [decide_eq_true_eq, hkey]
    exact ⟨Nat.zero_le _, List.mem_range.mp hexpert⟩
  unfold LongCatSparseMoeMlp.forwardExpertsNofusedLongcat
  rw [if_neg (by simp)]
  simp only [rankLayer_topK, rankLayer_startExpertId, rankLayer_endExpertId,
    rankLayer_numTotalExperts, Option.bind_eq_bind]
  rw [hgen, Option.bind_some, hlast, Option.bind_some, if_neg hsome]
  simp only [runExperts_none hcounts, Option.bind_none, Option.bind_fun_none]

/-- Without choices the tokens are zero, whatever the residual. -/
theorem forwardExpertsNofusedLongcat_zero (hbase : ops.LikeBase)
    (hinit : LongCatSparseMoeMlp.init numExperts numZeroExperts topK 1 0 0 expert = some mlp)
    (batch : RoutedTokens R V (numExperts + numZeroExperts) topK) (residual : Option (List V))
    (htopk : topK = 0) :
    mlp.forwardExpertsNofusedLongcat ops batch.hiddenStates (numExperts + numZeroExperts)
        batch.topkIndices batch.topkValues residual =
      some ((List.range batch.numTokens).map fun _ => 0) := by
  obtain ⟨order, inverse, -, -, hgen⟩ := moeGenIdx_eq batch hbase
  obtain ⟨hlayer, hsize, -, -, -⟩ := LongCatSparseMoeMlp.init_one_rank hinit
  obtain ⟨base, epSize, tpRank, numZero, zeroSize, zeroStart⟩ := mlp
  dsimp only at hlayer hsize
  subst base epSize
  have hnone : order.indices.length = 0 := by
    rw [order.perm.length_eq, List.length_range, batch.length_topkIndices]
    exact Nat.mul_eq_zero.mpr (Or.inr htopk)
  unfold LongCatSparseMoeMlp.forwardExpertsNofusedLongcat
  rw [if_neg (by simp)]
  simp only [rankLayer_topK, Option.bind_eq_bind]
  rw [hgen, Option.bind_some, getLast?_cusum batch order, Option.bind_some, if_pos hnone,
    batch.length_hiddenStates, List.map_const', List.length_range]

/-- The method gives every token its residual and its mixture exactly when some choice of the batch
falls on a real expert, or there are no choices and no residual. -/
theorem zero_expert_mixture_iff (hbase : ops.LikeBase)
    (hinit : LongCatSparseMoeMlp.init numExperts numZeroExperts topK 1 0 0 expert = some mlp)
    (batch : RoutedTokens R V (numExperts + numZeroExperts) topK) (residual : Option (Nat → V))
    (htokens : 0 < batch.numTokens) :
    mlp.forwardExpertsNofusedLongcat ops batch.hiddenStates (numExperts + numZeroExperts)
        batch.topkIndices batch.topkValues
        (residual.map fun residual => (List.range batch.numTokens).map residual) =
      some ((List.range batch.numTokens).map fun token =>
        (residual.map (· token)).getD 0 + zeroExpertMixture numExperts expert batch token) ↔
    batch.ChoosesBelow numExperts ∨
      topK = 0 ∧ ∀ token < batch.numTokens, (residual.map (· token)).getD 0 = 0 := by
  by_cases hchoice : batch.ChoosesBelow numExperts
  · simp only [forwardExpertsNofusedLongcat_eq hbase hinit batch residual hchoice, hchoice, true_or]
  · rcases Nat.eq_zero_or_pos topK with htopk | hpos
    · rw [forwardExpertsNofusedLongcat_zero hbase hinit batch _ htopk]
      subst topK
      simp only [hchoice, zeroExpertMixture, Finset.range_zero, Finset.sum_empty, add_zero,
        false_or, true_and, Option.some.injEq, List.map_inj_left, List.mem_range,
        @eq_comm V 0]
    · rw [forwardExpertsNofusedLongcat_none hbase hinit batch _ (Nat.mul_pos htokens hpos) hchoice]
      simp [hchoice, Nat.ne_of_gt hpos]

end Layer

end Forward

namespace Samples

def ascending (ids : List Nat) : SortOrder ids where
  indices := (List.range ids.length).insertionSort fun i j => ids.getD i 0 ≤ ids.getD j 0
  perm := List.perm_insertionSort _ _
  sorted :=
    @List.pairwise_insertionSort Nat (fun i j => ids.getD i 0 ≤ ids.getD j 0) _
      ⟨fun _ _ => Nat.le_total _ _⟩ ⟨fun _ _ _ => Nat.le_trans⟩ _

/-- One expert and one zero expert. -/
def oneExpert : Option (LongCatSparseMoeMlp (Int → Int)) :=
  LongCatSparseMoeMlp.init 1 1 2 1 0 0 fun _ row => 10 * row

/-- Two tokens that choose the zero expert, and the first token a real expert as well. -/
def mixedTokens : RoutedTokens Int Int 2 2 where
  numTokens := 2
  hidden := fun token => token + 3
  expertId := fun token k => if token + k = 0 then 0 else 1
  weight := fun _ k => k + 1
  expertId_lt := by decide

/-- One token that chooses the zero expert twice. -/
def zeroTokens : RoutedTokens Int Int 2 2 where
  numTokens := 1
  hidden := fun _ => 3
  expertId := fun _ _ => 1
  weight := fun _ _ => 1
  expertId_lt := by decide

end Samples

open Samples in
theorem zero_expert_mixture_two_tokens : ∃ mlp, oneExpert = some mlp ∧
    mlp.forwardExpertsNofusedLongcat (MoeOps.ofBase ascending) mixedTokens.hiddenStates 2
        mixedTokens.topkIndices mixedTokens.topkValues (some [100, 200]) =
      some [136, 212] := by
  obtain ⟨mlp, hinit⟩ := Option.isSome_iff_exists.mp (by decide : oneExpert.isSome)
  have h := (zero_expert_mixture_iff (MoeOps.ofBase_likeBase ascending) hinit mixedTokens
    (some fun token => 100 * token + 100) (by decide)).mpr (.inl ⟨0, by decide, 0, by decide⟩)
  exact ⟨mlp, hinit, h⟩

/-- A batch of zero experts alone raises. -/
theorem zero_experts_alone_raise : ∃ mlp, Samples.oneExpert = some mlp ∧
    0 < Samples.zeroTokens.numTokens ∧
    mlp.forwardExpertsNofusedLongcat (MoeOps.ofBase Samples.ascending)
        Samples.zeroTokens.hiddenStates 2 Samples.zeroTokens.topkIndices
        Samples.zeroTokens.topkValues none =
      none := by
  obtain ⟨mlp, hinit⟩ := Option.isSome_iff_exists.mp (by decide : Samples.oneExpert.isSome)
  refine ⟨mlp, hinit, by decide, ?_⟩
  exact forwardExpertsNofusedLongcat_none (MoeOps.ofBase_likeBase Samples.ascending) hinit
    Samples.zeroTokens none (by decide) (by unfold RoutedTokens.ChoosesBelow; decide)

end VllmMlu.Moe
