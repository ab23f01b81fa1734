import VllmMlu.Library.Dispatch
import VllmMlu.Moe.SparseMoeMlp

/-! The experts of a rank, applied one by one to the tokens that are sorted by expert. -/
namespace VllmMlu.Moe
open VllmMlu.Library VllmMlu.Library.Dispatch VllmMlu.Library.Rows

/-- An order in which `sort` may put the flattened expert ids, equal ids in any order. -/
structure SortOrder (ids : List Nat) where
  indices : List Nat
  perm : indices.Perm (List.range ids.length)
  sorted : indices.Pairwise fun i j => ids.getD i 0 ≤ ids.getD j 0

structure GatherIdx where
  expandGatherIdx : List Nat
  scatterIdx : List Nat
  expandTokenCount : List Nat
  cusumTokenCount : List Nat

/-- `sorted_expert_id.unique(sorted=True, return_counts=True)`. -/
def uniqueCounts (sortedExpertId : List Nat) : List Nat × List Nat :=
  (sortedExpertId.dedup, sortedExpertId.dedup.map sortedExpertId.count)

/-- `torch.cat`, which raises for an empty list. -/
def cat? {α : Type} (parts : List (List α)) : Option (List α) :=
  if parts = [] then none else some parts.flatten

namespace SparseMoeMlp

variable {R V : Type}

def generateGatherIdx (mlp : SparseMoeMlp (V → V)) (topkIndices : List Nat)
    (order : SortOrder topkIndices) : Option GatherIdx := do
  let sortedExpertId := order.indices.map (topkIndices.getD · 0)
  let gatherIdx := order.indices.map (· / mlp.topK)
  let scatterIdx ← scatter? (List.replicate order.indices.length 0) order.indices
    (List.range order.indices.length)
  let (partialTokenIndex, partialTokenCount) := uniqueCounts sortedExpertId
  let tokenCount ← scatter? (List.replicate mlp.numTotalExperts 0) partialTokenIndex
    partialTokenCount
  let cusumTokenCount := Cuts.startLocs tokenCount
  let numTokensBeforeExpert ← cusumTokenCount[mlp.startExpertId]?
  let numTokensIncludingExpert ← cusumTokenCount[mlp.endExpertId]?
  some
    { expandGatherIdx := slice numTokensBeforeExpert
        (numTokensIncludingExpert - numTokensBeforeExpert) gatherIdx
      scatterIdx
      expandTokenCount := slice mlp.startExpertId (mlp.endExpertId - mlp.startExpertId) tokenCount
      cusumTokenCount }

def expandInput (hiddenStates : List V) (expandGatherIdx : List Nat) : Option (List V) :=
  gather? hiddenStates expandGatherIdx

/-- The loop over the experts of the rank, without those that get no token. -/
def runExperts (mlp : SparseMoeMlp (V → V)) (expandHiddenStates : List V)
    (expandCusumTokenCount expandTokenCount : List Nat) : Option (List V) := do
  let expandOutputList ← expandTokenCount.zipIdx.foldlM (fun outputs entry =>
    if 0 < entry.1 then do
      let first ← expandCusumTokenCount[entry.2]?
      let last ← expandCusumTokenCount[entry.2 + 1]?
      let expert ← mlp.experts[entry.2]?
      some (outputs ++ [(slice first (last - first) expandHiddenStates).map expert])
    else some outputs) []
  cat? expandOutputList

variable [Semiring R] [AddCommMonoid V] [Module R V]

def combineMoe (mlp : SparseMoeMlp (V → V)) (expandOutput : List V)
    (scatterIdx cusumTokenCount : List Nat) (numTokens : Nat) (topkValues : List R) :
    Option (List V) := do
  let numTokensBeforeExpert ← cusumTokenCount[mlp.startExpertId]?
  let numTokensIncludingExpert ← cusumTokenCount[mlp.endExpertId]?
  let numTokensAll ← cusumTokenCount.getLast?
  let unscattedOutput := List.replicate numTokensBeforeExpert 0 ++
    (expandOutput ++ List.replicate (numTokensAll - numTokensIncludingExpert) 0)
  let scatterOutput ← gather? unscattedOutput scatterIdx
  if scatterOutput.length = topkValues.length ∧
      topkValues.length = numTokens * mlp.topK then
    let weightedHiddenStates :=
      List.zipWith (fun hidden weight => weight • hidden) scatterOutput topkValues
    some ((List.range numTokens).map fun token =>
      (slice (token * mlp.topK) mlp.topK weightedHiddenStates).sum)
  else none

/-- The top-k choice of the experts is given. -/
def forwardExpertsNofused (mlp : SparseMoeMlp (V → V)) (hiddenStates : List V)
    (topkValues : List R) (topkIndices : List Nat) (order : SortOrder topkIndices) :
    Option (List V) := do
  let idx ← mlp.generateGatherIdx topkIndices order
  if idx.expandGatherIdx.length = 0 then some (List.replicate hiddenStates.length 0)
  else do
    let expandHiddenStates ← expandInput hiddenStates idx.expandGatherIdx
    let start ← idx.cusumTokenCount[mlp.startExpertId]?
    let expandCusumTokenCount :=
      (slice mlp.startExpertId (mlp.endExpertId + 1 - mlp.startExpertId)
        idx.cusumTokenCount).map (· - start)
    let expandOutput ← mlp.runExperts expandHiddenStates expandCusumTokenCount
      idx.expandTokenCount
    mlp.combineMoe expandOutput idx.scatterIdx idx.cusumTokenCount hiddenStates.length topkValues

end SparseMoeMlp

/-- A batch of tokens with their choices of experts, and the tensors that hold them. -/
structure RoutedTokens (R V : Type) (numExperts topK : Nat) where
  numTokens : Nat
  hidden : Nat → V
  expertId : Nat → Nat → Nat
  weight : Nat → Nat → R
  expertId_lt : ∀ token < numTokens, ∀ k < topK, expertId token k < numExperts

namespace RoutedTokens

variable {R V : Type} {numExperts topK : Nat}

/-- The flattened tensor of one entry for each choice. -/
def flat {α : Type} (batch : RoutedTokens R V numExperts topK) (entry : Nat → Nat → α) : List α :=
  (List.range (batch.numTokens * topK)).map fun j => entry (j / topK) (j % topK)

def hiddenStates (batch : RoutedTokens R V numExperts topK) : List V :=
  (List.range batch.numTokens).map batch.hidden

def topkIndices (batch : RoutedTokens R V numExperts topK) : List Nat := batch.flat batch.expertId

def topkValues (batch : RoutedTokens R V numExperts topK) : List R := batch.flat batch.weight

end RoutedTokens

/-- A rank that holds the experts of a range. -/
structure SparseMoeMlp.HoldsRange {ε : Type} (mlp : SparseMoeMlp ε) : Prop where
  start_le : mlp.startExpertId ≤ mlp.endExpertId
  end_le : mlp.endExpertId ≤ mlp.numTotalExperts
  experts : mlp.experts.length = mlp.endExpertId - mlp.startExpertId

/-- The layer of a rank that holds the experts of `[start, stop)`. -/
def rankLayer {V : Type} (numExperts topK : Nat) (expert : Nat → V → V)
    (start stop : Nat) : SparseMoeMlp (V → V) where
  numTotalExperts := numExperts
  topK := topK
  numExpertsPerRank := stop - start
  startExpertId := start
  endExpertId := stop
  experts := (List.range (stop - start)).map fun i => expert (start + i)

theorem rankLayer_holdsRange {V : Type} {numExperts topK : Nat} (expert : Nat → V → V)
    {start stop : Nat} (hle : start ≤ stop) (hstop : stop ≤ numExperts) :
    (rankLayer numExperts topK expert start stop).HoldsRange :=
  ⟨hle, hstop, by simp [rankLayer]⟩

section RankLayer

variable {V : Type} {numExperts topK : Nat} {expert : Nat → V → V} {start stop : Nat}

@[simp] theorem rankLayer_numTotalExperts :
    (rankLayer numExperts topK expert start stop).numTotalExperts = numExperts := rfl

@[simp] theorem rankLayer_topK : (rankLayer numExperts topK expert start stop).topK = topK := rfl

@[simp] theorem rankLayer_startExpertId :
    (rankLayer numExperts topK expert start stop).startExpertId = start := rfl

@[simp] theorem rankLayer_endExpertId :
    (rankLayer numExperts topK expert start stop).endExpertId = stop := rfl

theorem rankLayer_expert {expertId : Nat} (hlocal : start ≤ expertId ∧ expertId < stop) :
    (rankLayer numExperts topK expert start stop).experts.getD (expertId - start) id =
      expert expertId := by
  have hlt : expertId - start < stop - start := by omega
  rw [rankLayer, List.getD_eq_getElem?_getD, List.getElem?_map, List.getElem?_range hlt,
    Option.map_some, Option.getD_some, Nat.add_sub_cancel' hlocal.1]

end RankLayer

section GatherIdx

variable {V : Type} {mlp : SparseMoeMlp (V → V)} {ids : List Nat} (order : SortOrder ids)

/-- The expert of a choice. -/
def SortOrder.key (_ : SortOrder ids) (choice : Nat) : Nat := ids.getD choice 0

theorem SortOrder.pairwise : order.indices.Pairwise fun choice other =>
    order.key choice ≤ order.key other := order.sorted

theorem key_lt {bound : Nat} (hids : ∀ id ∈ ids, id < bound) :
    ∀ choice ∈ order.indices, order.key choice < bound := by
  intro choice hmem
  have hlt := List.mem_range.mp (order.perm.mem_iff.mp hmem)
  rw [SortOrder.key, List.getD_eq_getElem _ _ hlt]
  exact hids _ (List.getElem_mem hlt)

/-- How many choices fall on each expert. -/
theorem tokenCount_eq {numExperts : Nat} (hids : ∀ id ∈ ids, id < numExperts) :
    scatter? (List.replicate numExperts 0)
        (uniqueCounts (order.indices.map order.key)).1
        (uniqueCounts (order.indices.map order.key)).2 =
      some ((List.range numExperts).map fun expert =>
        order.indices.countP fun choice => order.key choice = expert) := by
  have hcount : ∀ expert, (order.indices.map order.key).count expert =
      order.indices.countP fun choice => order.key choice = expert := by
    intro expert
    rw [List.count_eq_countP, List.countP_map]
    rfl
  have hfst : ((uniqueCounts (order.indices.map order.key)).1.zip
      (uniqueCounts (order.indices.map order.key)).2).map Prod.fst =
      (order.indices.map order.key).dedup :=
    List.map_fst_zip (by simp [uniqueCounts])
  obtain ⟨out, hout, hlength, hentries, hrest⟩ := @foldlM_set Nat (List.replicate numExperts 0)
    _ (by rw [hfst]; exact List.nodup_dedup _) (fun entry hmem => by
      have hin := List.mem_map_of_mem (f := Prod.fst) hmem
      rw [hfst, List.mem_dedup] at hin
      obtain ⟨choice, hchoice, heq⟩ := List.mem_map.mp hin
      rw [List.length_replicate, ← heq]
      exact key_lt order hids choice hchoice)
  rw [scatter?, hout]
  congr 1
  rw [List.length_replicate] at hlength
  apply List.ext_getElem?
  intro expert
  rw [List.getElem?_map]
  rcases Nat.lt_or_ge expert numExperts with hlt | hge
  · rw [List.getElem?_range hlt, Option.map_some, ← hcount]
    by_cases hmem : expert ∈ (order.indices.map order.key).dedup
    · apply hentries (expert, _)
      obtain ⟨i, hi⟩ := List.mem_iff_getElem?.mp hmem
      apply List.mem_of_getElem? (i := i)
      rw [List.getElem?_zip_eq_some]
      exact ⟨hi, by rw [uniqueCounts, List.getElem?_map, hi]; rfl⟩
    · rw [hrest expert (by rwa [hfst]), List.getElem?_replicate, if_pos hlt,
        List.count_eq_zero.mpr fun hin => hmem (List.mem_dedup.mpr hin)]
  · rw [List.getElem?_eq_none (by omega), List.getElem?_eq_none (by simpa using hge)]
    rfl

theorem startLocs_counts (key : Nat → Nat) (items : List Nat) (numExperts : Nat) :
    Cuts.startLocs ((List.range numExperts).map fun expert =>
        items.countP fun choice => key choice = expert) =
      (List.range (numExperts + 1)).map (below key items) := by
  have hsum : ∀ count, ((List.range count).map fun expert =>
      items.countP fun choice => key choice = expert).sum = below key items count := by
    intro count
    induction count with
    | zero => exact (below_zero key items).symm
    | succ count ih =>
        rw [List.range_succ, List.map_append, List.sum_append, ih, below_succ]
        simp
  apply List.ext_getElem?
  intro expert
  rw [List.getElem?_map]
  rcases Nat.lt_or_ge expert (numExperts + 1) with hlt | hge
  · rw [Cuts.getElem?_startLocs (by simp; omega), ← List.map_take, List.take_range,
      Nat.min_eq_left (by omega), hsum, List.getElem?_range hlt]
    rfl
  · rw [List.getElem?_eq_none (by simp [Cuts.startLocs]; omega),
      List.getElem?_eq_none (by simpa using hge)]
    rfl

/-- What the sort and the counts amount to. -/
theorem generateGatherIdx_eq (hrange : mlp.HoldsRange)
    (hids : ∀ id ∈ ids, id < mlp.numTotalExperts) :
    ∃ inverse : List Nat, inverse.length = ids.length ∧
      (∀ place i : Nat, order.indices[place]? = some i → inverse[i]? = some place) ∧
      mlp.generateGatherIdx ids order = some
        { expandGatherIdx := (order.indices.filter fun choice =>
            mlp.startExpertId ≤ order.key choice ∧ order.key choice < mlp.endExpertId).map
              (· / mlp.topK)
          scatterIdx := inverse
          expandTokenCount := (List.range (mlp.endExpertId - mlp.startExpertId)).map fun expert =>
            order.indices.countP fun choice => order.key choice = mlp.startExpertId + expert
          cusumTokenCount := (List.range (mlp.numTotalExperts + 1)).map
            (below order.key order.indices) } := by
  obtain ⟨inverse, hscatter, hlength, hinverse⟩ := scatter_perm order.perm
  refine ⟨inverse, hlength, hinverse, ?_⟩
  have hstart := hrange.start_le
  have hend := hrange.end_le
  have hcounts := tokenCount_eq order hids
  have hkeys : order.indices.map (ids.getD · 0) = order.indices.map order.key := rfl
  unfold SparseMoeMlp.generateGatherIdx
  rw [hscatter, hkeys]
  simp only [Option.bind_eq_bind, Option.bind_some]
  rw [hcounts]
  simp only [Option.bind_some]
  rw [startLocs_counts, List.getElem?_map, List.getElem?_range (by omega), List.getElem?_map,
    List.getElem?_range (by omega)]
  simp only [Option.map_some, Option.bind_some]
  congr 2
  · rw [← map_slice, slice_below order.pairwise hstart]
  · rw [slice_map_range _ (by omega)]

/-- The loop appends the results of one group of rows after the other. -/
theorem runExperts_groups {expandHiddenStates : List V} {cusum : List Nat} {numGroups : Nat}
    (size : Nat → Nat) (group : Nat → List V) (expert : Nat → V → V)
    (hcusum : ∀ i < numGroups, ∃ first last, cusum[i]? = some first ∧ cusum[i + 1]? = some last ∧
      slice first (last - first) expandHiddenStates = group i)
    (hsize : ∀ i < numGroups, size i = (group i).length)
    (hexperts : ∀ i < numGroups, mlp.experts[i]? = some (expert i))
    (hne : ((List.range numGroups).flatMap fun i => (group i).map (expert i)) ≠ []) :
    mlp.runExperts expandHiddenStates cusum ((List.range numGroups).map size) =
      some ((List.range numGroups).flatMap fun i => (group i).map (expert i)) := by
  have hloop : ∀ count ≤ numGroups, ∃ outputs,
      ((List.range count).map size).zipIdx.foldlM (fun outputs entry =>
        if 0 < entry.1 then do
          let first ← cusum[entry.2]?
          let last ← cusum[entry.2 + 1]?
          let expert ← mlp.experts[entry.2]?
          some (outputs ++ [(slice first (last - first) expandHiddenStates).map expert])
        else some outputs) [] = some outputs ∧
      outputs.flatten = (List.range count).flatMap fun i => (group i).map (expert i) := by
    intro count
    induction count with
    | zero => exact fun _ => ⟨[], rfl, rfl⟩
    | succ count ih =>
        intro hle
        obtain ⟨outputs, houtputs, hflatten⟩ := ih (by omega)
        obtain ⟨first, last, hfirst, hlast, hslice⟩ := hcusum count (by omega)
        rw [List.range_succ, List.map_append, List.zipIdx_append, List.foldlM_append, houtputs]
        simp only [List.map_cons, List.map_nil, List.length_map, List.length_range,
          List.zipIdx_singleton, Nat.zero_add, Option.bind_eq_bind, Option.bind_some,
          List.foldlM_cons, List.foldlM_nil, List.flatMap_append, List.flatMap_singleton]
        rw [hfirst, hlast, hexperts count (by omega), hsize count (by omega)]
        split
        · refine ⟨outputs ++ [(group count).map (expert count)], ?_, ?_⟩
          · simp [hslice]
          · rw [List.flatten_append, hflatten]
            simp
        · rename_i hempty
          refine ⟨outputs, rfl, ?_⟩
          rw [List.eq_nil_of_length_eq_zero (Nat.eq_zero_of_not_pos hempty), hflatten]
          simp
  obtain ⟨outputs, houtputs, hflatten⟩ := hloop numGroups le_rfl
  rw [SparseMoeMlp.runExperts, houtputs]
  simp only [Option.bind_eq_bind, Option.bind_some]
  rw [cat?, if_neg, hflatten]
  rintro rfl
  exact hne hflatten.symm

/-- The rows of one expert among those of the rank. -/
theorem slice_group {first last expert : Nat} (hlt : first + expert < last) (row : Nat → V) :
    slice (below order.key order.indices (first + expert) - below order.key order.indices first)
        (below order.key order.indices (first + (expert + 1)) -
            below order.key order.indices first -
          (below order.key order.indices (first + expert) - below order.key order.indices first))
        ((order.indices.filter fun choice =>
          first ≤ order.key choice ∧ order.key choice < last).map row) =
      (order.indices.filter fun choice => order.key choice = first + expert).map row := by
  have hfirst := @below_mono _ order.key order.indices first (first + expert) (by omega)
  have hgroup := @below_mono _ order.key order.indices (first + expert) (first + (expert + 1))
    (by omega)
  have hlast := @below_mono _ order.key order.indices (first + (expert + 1)) last (by omega)
  rw [← map_slice, ← slice_below order.pairwise (by omega), slice_slice (by omega),
    Nat.add_sub_cancel' hfirst, Nat.sub_sub_sub_cancel_right hfirst,
    slice_below order.pairwise (by omega)]
  congr 1
  apply List.filter_congr
  intro choice _
  rw [decide_eq_decide]
  omega

/-- What the loop computes for the choices that fall on the experts of the rank. -/
theorem runExperts_eq (hrange : mlp.HoldsRange) (row : Nat → V)
    (hne : (order.indices.filter fun choice =>
      mlp.startExpertId ≤ order.key choice ∧ order.key choice < mlp.endExpertId) ≠ []) :
    mlp.runExperts
        ((order.indices.filter fun choice =>
          mlp.startExpertId ≤ order.key choice ∧ order.key choice < mlp.endExpertId).map row)
        ((slice mlp.startExpertId (mlp.endExpertId + 1 - mlp.startExpertId)
          ((List.range (mlp.numTotalExperts + 1)).map (below order.key order.indices))).map
            (· - below order.key order.indices mlp.startExpertId))
        ((List.range (mlp.endExpertId - mlp.startExpertId)).map fun expert =>
          order.indices.countP fun choice => order.key choice = mlp.startExpertId + expert) =
      some ((order.indices.filter fun choice =>
        mlp.startExpertId ≤ order.key choice ∧ order.key choice < mlp.endExpertId).map
          fun choice => (mlp.experts.getD (order.key choice - mlp.startExpertId) id)
            (row choice)) := by
  have hstart := hrange.start_le
  have hend := hrange.end_le
  have hlast : mlp.startExpertId + (mlp.endExpertId - mlp.startExpertId) = mlp.endExpertId := by
    omega
  have hgroups := flatMap_groups order.pairwise mlp.startExpertId
    (mlp.endExpertId - mlp.startExpertId)
    fun expert choice => (mlp.experts.getD (expert - mlp.startExpertId) id) (row choice)
  rw [hlast, List.range'_eq_map_range, List.flatMap_map] at hgroups
  have hmaps : ∀ expert, ((order.indices.filter fun choice =>
        order.key choice = mlp.startExpertId + expert).map fun choice =>
          (mlp.experts.getD (mlp.startExpertId + expert - mlp.startExpertId) id) (row choice)) =
      ((order.indices.filter fun choice =>
        order.key choice = mlp.startExpertId + expert).map row).map
          (mlp.experts.getD expert id) := by
    intro expert
    rw [Nat.add_sub_cancel_left, List.map_map]
    rfl
  simp only [hmaps] at hgroups
  rw [← hgroups]
  apply runExperts_groups
  · intro expert hexpert
    refine ⟨below order.key order.indices (mlp.startExpertId + expert) -
        below order.key order.indices mlp.startExpertId,
      below order.key order.indices (mlp.startExpertId + (expert + 1)) -
        below order.key order.indices mlp.startExpertId, ?_, ?_, slice_group order (by omega) row⟩
    · rw [slice_map_range _ (by omega), List.map_map, List.getElem?_map,
        List.getElem?_range (by omega)]
      rfl
    · rw [slice_map_range _ (by omega), List.map_map, List.getElem?_map,
        List.getElem?_range (by omega)]
      rfl
  · intro expert _
    rw [List.length_map, List.countP_eq_length_filter]
  · intro expert hexpert
    rw [← hrange.experts] at hexpert
    rw [List.getD_eq_getElem _ _ hexpert]
    exact List.getElem?_eq_getElem hexpert
  · rw [hgroups]
    intro hnil
    exact hne (List.map_eq_nil_iff.mp hnil)

end GatherIdx

section Combine

variable {R V : Type} [Semiring R] [AddCommMonoid V] [Module R V] {mlp : SparseMoeMlp (V → V)}
  {ids : List Nat} (order : SortOrder ids)

/-- The weighted results of the choices, summed up for each token. -/
theorem combineMoe_eq (hrange : mlp.HoldsRange) (hids : ∀ id ∈ ids, id < mlp.numTotalExperts)
    {numTokens : Nat} (hlength : ids.length = numTokens * mlp.topK) {inverse : List Nat}
    (hinverseLength : inverse.length = ids.length)
    (hinverse : ∀ place i : Nat, order.indices[place]? = some i → inverse[i]? = some place)
    (result : Nat → V) (weight : Nat → R) :
    mlp.combineMoe
        ((order.indices.filter fun choice =>
          mlp.startExpertId ≤ order.key choice ∧ order.key choice < mlp.endExpertId).map result)
        inverse ((List.range (mlp.numTotalExperts + 1)).map (below order.key order.indices))
        numTokens ((List.range (numTokens * mlp.topK)).map weight) =
      some ((List.range numTokens).map fun token => ∑ k ∈ Finset.range mlp.topK,
        weight (token * mlp.topK + k) •
          if mlp.startExpertId ≤ order.key (token * mlp.topK + k) ∧
              order.key (token * mlp.topK + k) < mlp.endExpertId then
            result (token * mlp.topK + k)
          else 0) := by
  have hstart := hrange.start_le
  have hend := hrange.end_le
  have hlast : ((List.range (mlp.numTotalExperts + 1)).map
      (below order.key order.indices)).getLast? = some order.indices.length := by
    rw [List.range_succ, List.map_append, List.map_singleton, List.getLast?_concat,
      below_of_bounded (key_lt order hids)]
  have hgather := gather_inverse order.perm hinverseLength hinverse fun choice =>
    if mlp.startExpertId ≤ order.key choice ∧ order.key choice < mlp.endExpertId then
      result choice
    else (0 : V)
  unfold SparseMoeMlp.combineMoe
  rw [List.getElem?_map, List.getElem?_range (by omega), List.getElem?_map,
    List.getElem?_range (by omega), hlast]
  simp only [Option.map_some, Option.bind_eq_bind, Option.bind_some]
  rw [pad_slice order.pairwise hstart, hgather]
  simp only [Option.bind_some, List.length_map, List.length_range]
  rw [if_pos ⟨hlength, trivial⟩, hlength]
  congr 1
  apply List.map_congr_left
  intro token htoken
  have htoken := List.mem_range.mp htoken
  have hfits : token * mlp.topK + mlp.topK ≤ numTokens * mlp.topK := by
    rw [← Nat.succ_mul]
    exact Nat.mul_le_mul_right _ htoken
  rw [List.zipWith_map, List.zipWith_self, slice_map_range _ hfits]
  exact (Multiset.sum_coe _).symm

end Combine

namespace RoutedTokens

variable {R V : Type} {numExperts topK : Nat} (batch : RoutedTokens R V numExperts topK)

theorem topk_pos_of_lt {choice : Nat} (hlt : choice < batch.numTokens * topK) : 0 < topK :=
  Nat.pos_of_ne_zero fun hzero => by simp [hzero] at hlt

theorem token_lt {choice : Nat} (hlt : choice < batch.numTokens * topK) :
    choice / topK < batch.numTokens :=
  Nat.div_lt_of_lt_mul (by rwa [Nat.mul_comm])

theorem topkIndices_bounded : ∀ id ∈ batch.topkIndices, id < numExperts := by
  intro id hmem
  obtain ⟨choice, hchoice, rfl⟩ := List.mem_map.mp hmem
  have hlt := List.mem_range.mp hchoice
  exact batch.expertId_lt _ (batch.token_lt hlt) _ (Nat.mod_lt _ (batch.topk_pos_of_lt hlt))

@[simp] theorem length_topkIndices : batch.topkIndices.length = batch.numTokens * topK := by
  simp [topkIndices, flat]

@[simp] theorem length_hiddenStates : batch.hiddenStates.length = batch.numTokens := by
  simp [hiddenStates]

theorem choice_div {token k : Nat} (hk : k < topK) : (token * topK + k) / topK = token := by
  rw [Nat.mul_comm, Nat.mul_add_div (Nat.zero_lt_of_lt hk), Nat.div_eq_of_lt hk, Nat.add_zero]

theorem choice_mod {token k : Nat} (hk : k < topK) : (token * topK + k) % topK = k := by
  rw [Nat.mul_comm, Nat.mul_add_mod, Nat.mod_eq_of_lt hk]

theorem choice_lt {token k : Nat} (htoken : token < batch.numTokens) (hk : k < topK) :
    token * topK + k < batch.numTokens * topK := by
  have hle := Nat.mul_le_mul_right topK htoken
  rw [Nat.succ_mul] at hle
  omega

theorem key_choice (order : SortOrder batch.topkIndices) {token k : Nat}
    (htoken : token < batch.numTokens) (hk : k < topK) :
    order.key (token * topK + k) = batch.expertId token k := by
  have hlt := batch.choice_lt htoken hk
  rw [SortOrder.key, List.getD_eq_getElem?_getD, topkIndices, flat, List.getElem?_map,
    List.getElem?_range hlt, Option.map_some, Option.getD_some, choice_div hk, choice_mod hk]

/-- The rows of some of the choices. -/
theorem gather_hiddenStates (order : SortOrder batch.topkIndices) (p : Nat → Bool) :
    gather? batch.hiddenStates ((order.indices.filter p).map (· / topK)) =
      some ((order.indices.filter p).map fun choice => batch.hidden (choice / topK)) := by
  rw [gather?, List.mapM_map]
  apply Cuts.mapM_eq_map
  intro choice hmem
  have hrange := order.perm.mem_iff.mp (List.mem_filter.mp hmem).1
  rw [List.mem_range, length_topkIndices] at hrange
  rw [Function.comp_apply, hiddenStates, List.getElem?_map,
    List.getElem?_range (batch.token_lt hrange)]
  rfl

end RoutedTokens

section Forward

variable {R V : Type} [Semiring R] [AddCommMonoid V] [Module R V]

/-- What the experts of a rank give to a token. -/
def SparseMoeMlp.localMixture (mlp : SparseMoeMlp (V → V))
    (batch : RoutedTokens R V mlp.numTotalExperts mlp.topK) (token : Nat) : V :=
  ∑ k ∈ Finset.range mlp.topK, batch.weight token k •
    if mlp.startExpertId ≤ batch.expertId token k ∧ batch.expertId token k < mlp.endExpertId then
      mlp.experts.getD (batch.expertId token k - mlp.startExpertId) id (batch.hidden token)
    else 0

/-- Every token gets the weighted results of those of its experts that the rank holds. -/
theorem forwardExpertsNofused_eq {mlp : SparseMoeMlp (V → V)} (hrange : mlp.HoldsRange)
    (batch : RoutedTokens R V mlp.numTotalExperts mlp.topK)
    (order : SortOrder batch.topkIndices) :
    mlp.forwardExpertsNofused batch.hiddenStates batch.topkValues batch.topkIndices order =
      some ((List.range batch.numTokens).map (mlp.localMixture batch)) := by
  have hids := batch.topkIndices_bounded
  obtain ⟨inverse, hinverseLength, hinverse, hidx⟩ := generateGatherIdx_eq order hrange hids
  have hstart := hrange.start_le
  have hend := hrange.end_le
  unfold SparseMoeMlp.forwardExpertsNofused
  rw [hidx]
  simp only [Option.bind_eq_bind, Option.bind_some, List.length_eq_zero_iff, List.map_eq_nil_iff]
  split
  · rename_i hnone
    rw [batch.length_hiddenStates]
    congr 1
    rw [eq_comm, List.eq_replicate_iff]
    refine ⟨by simp, ?_⟩
    intro row hrow
    obtain ⟨token, htoken, rfl⟩ := List.mem_map.mp hrow
    apply Finset.sum_eq_zero
    intro k hk
    have hk := Finset.mem_range.mp hk
    have htoken := List.mem_range.mp htoken
    have hmem : token * mlp.topK + k ∈ order.indices := by
      rw [order.perm.mem_iff, List.mem_range, batch.length_topkIndices]
      exact batch.choice_lt htoken hk
    have hout := List.filter_eq_nil_iff.mp hnone _ hmem
    rw [batch.key_choice order htoken hk, decide_eq_true_eq] at hout
    rw [if_neg hout, smul_zero]
  · rename_i hne
    rw [SparseMoeMlp.expandInput, batch.gather_hiddenStates, List.getElem?_map,
      List.getElem?_range (by omega)]
    simp only [Option.map_some, Option.bind_some]
    rw [runExperts_eq order hrange _ hne]
    simp only [Option.bind_some]
    rw [batch.length_hiddenStates]
    have hcombine := combineMoe_eq order hrange hids batch.length_topkIndices hinverseLength
      hinverse (fun choice => mlp.experts.getD (order.key choice - mlp.startExpertId) id
        (batch.hidden (choice / mlp.topK)))
      (fun choice => batch.weight (choice / mlp.topK) (choice % mlp.topK))
    rw [RoutedTokens.topkValues, RoutedTokens.flat, hcombine]
    congr 1
    apply List.map_congr_left
    intro token htoken
    apply Finset.sum_congr rfl
    intro k hk
    have hk := Finset.mem_range.mp hk
    rw [batch.key_choice order (List.mem_range.mp htoken) hk, RoutedTokens.choice_div hk,
      RoutedTokens.choice_mod hk]

theorem rankLayer_localMixture {numExperts topK : Nat} (expert : Nat → V → V) {start stop : Nat}
    (batch : RoutedTokens R V numExperts topK) (token : Nat) :
    (rankLayer numExperts topK expert start stop).localMixture batch token =
      ∑ k ∈ Finset.range topK,
        if start ≤ batch.expertId token k ∧ batch.expertId token k < stop then
          batch.weight token k • expert (batch.expertId token k) (batch.hidden token)
        else 0 := by
  change (∑ k ∈ Finset.range topK, batch.weight token k •
    if start ≤ batch.expertId token k ∧ batch.expertId token k < stop then
      (rankLayer numExperts topK expert start stop).experts.getD
        (batch.expertId token k - start) id (batch.hidden token)
    else 0) = _
  apply Finset.sum_congr rfl
  intro k _
  by_cases hlocal : start ≤ batch.expertId token k ∧ batch.expertId token k < stop
  · rw [if_pos hlocal, if_pos hlocal, rankLayer_expert hlocal]
  · rw [if_neg hlocal, if_neg hlocal, smul_zero]

/-- Ranks whose ranges partition the experts give the full mixture. -/
theorem sum_localMixture {numExperts topK : Nat} (expert : Nat → V → V) {ι : Type}
    (ranks : Finset ι) {start stop : ι → Nat}
    (hpart : ∀ expertId < numExperts, ∃! rank, rank ∈ ranks ∧ start rank ≤ expertId ∧
      expertId < stop rank)
    (batch : RoutedTokens R V numExperts topK) {token : Nat} (htoken : token < batch.numTokens) :
    ∑ rank ∈ ranks, (rankLayer numExperts topK expert (start rank) (stop rank)).localMixture
        batch token =
      ∑ k ∈ Finset.range topK,
        batch.weight token k • expert (batch.expertId token k) (batch.hidden token) := by
  simp only [rankLayer_localMixture]
  rw [Finset.sum_comm]
  apply Finset.sum_congr rfl
  intro k hk
  obtain ⟨own, ⟨hown, hlocal⟩, honly⟩ :=
    hpart _ (batch.expertId_lt token htoken k (Finset.mem_range.mp hk))
  rw [Finset.sum_eq_single_of_mem own hown, if_pos hlocal]
  intro other hother hne
  rw [if_neg fun hin => hne (honly other ⟨hother, hin⟩)]

/-- The result of a rank, and the sum of the results of ranks that partition the experts, whatever
the order of equal ids in their sorts. -/
theorem nofused_mixture {numExperts topK : Nat} (expert : Nat → V → V)
    (batch : RoutedTokens R V numExperts topK) {ι : Type} (ranks : Finset ι) (start stop : ι → Nat)
    (order : ι → SortOrder batch.topkIndices)
    (hranges : ∀ rank ∈ ranks, start rank ≤ stop rank ∧ stop rank ≤ numExperts) :
    ∃ outs : ι → Nat → V,
      (∀ rank ∈ ranks,
        (rankLayer numExperts topK expert (start rank) (stop rank)).forwardExpertsNofused
            batch.hiddenStates batch.topkValues batch.topkIndices (order rank) =
          some ((List.range batch.numTokens).map (outs rank))) ∧
      (∀ rank ∈ ranks, ∀ token < batch.numTokens, outs rank token =
        ∑ k ∈ Finset.range topK,
          if start rank ≤ batch.expertId token k ∧ batch.expertId token k < stop rank then
            batch.weight token k • expert (batch.expertId token k) (batch.hidden token)
          else 0) ∧
      ((∀ expertId < numExperts, ∃! rank, rank ∈ ranks ∧ start rank ≤ expertId ∧
          expertId < stop rank) →
        ∀ token < batch.numTokens, ∑ rank ∈ ranks, outs rank token =
          ∑ k ∈ Finset.range topK,
            batch.weight token k • expert (batch.expertId token k) (batch.hidden token)) := by
  refine ⟨fun rank =>
    (rankLayer numExperts topK expert (start rank) (stop rank)).localMixture batch, ?_, ?_, ?_⟩
  · intro rank hrank
    exact forwardExpertsNofused_eq
      (rankLayer_holdsRange expert (hranges rank hrank).1 (hranges rank hrank).2) batch (order rank)
  · exact fun rank _ token _ => rankLayer_localMixture expert batch token
  · exact fun hpart token htoken => sum_localMixture expert ranks hpart batch htoken

end Forward

namespace Samples

/-- Three tokens with two choices each of four experts; one token chooses an expert twice. -/
def threeTokens : RoutedTokens Int Int 4 2 where
  numTokens := 3
  hidden := fun token => token + 1
  expertId := fun token k => if token = 0 then 3 else token * k
  weight := fun _ k => k + 1
  expertId_lt := by decide

def threeTokensOrder : SortOrder threeTokens.topkIndices where
  indices := [2, 4, 3, 5, 1, 0]
  perm := by decide
  sorted := by decide

end Samples

open Samples in
theorem nofused_mixture_two_ranks : ∃ outs : Fin 2 → Nat → Int, ∀ token < threeTokens.numTokens,
    ∑ rank, outs rank token = ∑ k ∈ Finset.range 2, threeTokens.weight token k •
      ((threeTokens.expertId token k : Int) + 10 * threeTokens.hidden token) := by
  obtain ⟨outs, -, -, hsum⟩ := nofused_mixture (fun expert row => (expert : Int) + 10 * row)
    threeTokens (Finset.univ : Finset (Fin 2)) (fun rank => 2 * rank.val)
    (fun rank => 2 * rank.val + 2) (fun _ => threeTokensOrder) (by decide)
  refine ⟨outs, hsum ?_⟩
  intro expertId hlt
  refine ⟨⟨expertId / 2, by omega⟩, ⟨Finset.mem_univ _, by dsimp only; omega⟩, ?_⟩
  rintro ⟨other, hother⟩ ⟨-, hlow, hhigh⟩
  apply Fin.ext
  dsimp only at hlow hhigh ⊢
  omega

end VllmMlu.Moe
