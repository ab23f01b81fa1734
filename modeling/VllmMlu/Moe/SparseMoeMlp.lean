import VllmMlu.Library.Machine

/-! The experts that each expert-parallel rank builds and loads. -/
namespace VllmMlu.Moe
open VllmMlu.Library

/-- The fields of the layer that say which experts it holds. -/
structure SparseMoeMlp (ε : Type) where
  numTotalExperts : Nat
  topK : Nat
  numExpertsPerRank : Nat
  startExpertId : Nat
  endExpertId : Nat
  experts : List ε
deriving DecidableEq

/-- The share of a rank, rounded up. -/
def expertShare (numTotalExperts moeEpSize : Nat) : Nat :=
  (numTotalExperts + moeEpSize - 1) / moeEpSize

def expertsOfRank (numTotalExperts moeEpSize moeEpRank : Nat) : Nat :=
  if moeEpRank + 1 = moeEpSize ∧ numTotalExperts % moeEpSize ≠ 0 then
    numTotalExperts % moeEpSize
  else expertShare numTotalExperts moeEpSize

/-- The constructor, `feedForward idx` being the module it builds for `experts.{idx}`; `none` if
there are fewer experts than ranks. -/
def SparseMoeMlp.init {ε : Type} (numTotalExperts topK moeEpSize moeEpRank : Nat)
    (feedForward : Nat → ε) : Option (SparseMoeMlp ε) :=
  if moeEpSize ≤ numTotalExperts then
    let numExperts := expertsOfRank numTotalExperts moeEpSize moeEpRank
    let startExpertId := moeEpRank * expertShare numTotalExperts moeEpSize
    some
      { numTotalExperts, topK, startExpertId
        numExpertsPerRank := numExperts
        endExpertId := startExpertId + numExperts
        experts := (List.range numExperts).map feedForward }
  else none

inductive LoadError where
  | keyError
deriving DecidableEq

/-- `load_weights` on a checkpoint tensor of an expert: the module gets it, `params_dict` having
no entry for a module that was not built. -/
def loadExpert {τ : Type} (numTotalExperts moeEpSize moeEpRank : Nat)
    (modules : List (List τ)) (weight : Nat × τ) : Except LoadError (List (List τ)) :=
  let startExpertId := moeEpRank * expertShare numTotalExperts moeEpSize
  let expertId := weight.1
  if expertId < startExpertId ∨
      startExpertId + expertShare numTotalExperts moeEpSize ≤ expertId then .ok modules
  else
    let newExpertId := expertId - startExpertId
    if newExpertId < modules.length then
      .ok (modules.modify newExpertId (· ++ [weight.2]))
    else .error .keyError

def loadWeights {τ : Type} (numTotalExperts moeEpSize moeEpRank : Nat)
    (modules : List (List τ)) (weights : List (Nat × τ)) : Except LoadError (List (List τ)) :=
  weights.foldlM (loadExpert numTotalExperts moeEpSize moeEpRank) modules

/-- The ranges of the ranks partition the experts, and each rank builds and loads those of its
range. -/
structure ExpertsPartitioned {ε : Type} (numTotalExperts moeEpSize : Nat)
    (mlps : Nat → SparseMoeMlp ε) : Prop where
  nonempty : ∀ rank < moeEpSize, (mlps rank).startExpertId < (mlps rank).endExpertId
  disjoint : ∀ rank < moeEpSize, ∀ other < moeEpSize, rank ≠ other →
    Disjoint (Set.Ico (mlps rank).startExpertId (mlps rank).endExpertId)
      (Set.Ico (mlps other).startExpertId (mlps other).endExpertId)
  inside : ∀ rank < moeEpSize, (mlps rank).endExpertId ≤ numTotalExperts
  covered : ∀ expertId < numTotalExperts, ∃ rank < moeEpSize,
    expertId ∈ Set.Ico (mlps rank).startExpertId (mlps rank).endExpertId
  modules : ∀ rank < moeEpSize,
    (mlps rank).experts.length = (mlps rank).endExpertId - (mlps rank).startExpertId
  loads : ∀ rank < moeEpSize, ∀ (τ : Type) (weights : List (Nat × τ)),
    (∀ weight ∈ weights, weight.1 < numTotalExperts) →
    loadWeights numTotalExperts moeEpSize rank
        (List.replicate (mlps rank).experts.length []) weights =
      .ok ((List.range (mlps rank).experts.length).map fun module =>
        (weights.filter (·.1 = (mlps rank).startExpertId + module)).map Prod.snd)

section Loading

variable {τ : Type} {numTotalExperts moeEpSize moeEpRank count : Nat}

/-- The tensors of the experts from the start on. -/
def ownTensors (start count : Nat) (weights : List (Nat × τ)) : List (List τ) :=
  (List.range count).map fun module =>
    (weights.filter (·.1 = start + module)).map Prod.snd

theorem ownTensors_nil (start count : Nat) :
    ownTensors start count ([] : List (Nat × τ)) = List.replicate count [] := by
  apply List.ext_getElem
  · simp [ownTensors]
  · intro i hi hrange
    simp [ownTensors]

theorem ownTensors_append_other {start count : Nat} {weights : List (Nat × τ)} {weight : Nat × τ}
    (hother : weight.1 < start ∨ start + count ≤ weight.1) :
    ownTensors start count (weights ++ [weight]) = ownTensors start count weights := by
  apply List.map_congr_left
  intro module hmodule
  have hne : weight.1 ≠ start + module := by
    have hlt := List.mem_range.mp hmodule
    omega
  rw [List.filter_append, List.filter_cons_of_neg (by simpa using hne), List.filter_nil,
    List.append_nil]

theorem ownTensors_append_own {start count : Nat} {weights : List (Nat × τ)} {weight : Nat × τ}
    (hstart : start ≤ weight.1) :
    ownTensors start count (weights ++ [weight]) =
      (ownTensors start count weights).modify (weight.1 - start) (· ++ [weight.2]) := by
  apply List.ext_getElem
  · simp [ownTensors]
  · intro module hi hmodify
    rw [List.getElem_modify]
    simp only [ownTensors, List.getElem_map, List.getElem_range]
    by_cases heq : weight.1 - start = module
    · rw [if_pos heq, List.filter_append, List.filter_cons_of_pos (by simp; omega),
        List.map_append]
      rfl
    · rw [if_neg heq, List.filter_append, List.filter_cons_of_neg (by simp; omega),
        List.filter_nil, List.append_nil]

/-- A rank loads its experts if its modules end with its share or with the experts. -/
theorem loadWeights_eq (hends : count = expertShare numTotalExperts moeEpSize ∨
      moeEpRank * expertShare numTotalExperts moeEpSize + count = numTotalExperts)
    (hcount : count ≤ expertShare numTotalExperts moeEpSize)
    (weights : List (Nat × τ)) (hids : ∀ weight ∈ weights, weight.1 < numTotalExperts) :
    loadWeights numTotalExperts moeEpSize moeEpRank (List.replicate count []) weights =
      .ok (ownTensors (moeEpRank * expertShare numTotalExperts moeEpSize) count weights) := by
  induction weights using List.reverseRecOn with
  | nil =>
      rw [ownTensors_nil]
      rfl
  | append_singleton weights weight ih =>
      rw [loadWeights, List.foldlM_append]
      have hrest := ih fun other hmem => hids other (List.mem_append_left _ hmem)
      rw [loadWeights] at hrest
      rw [hrest]
      change [weight].foldlM (loadExpert numTotalExperts moeEpSize moeEpRank) _ = _
      rw [List.foldlM_cons]
      have hid := hids weight (by simp)
      unfold loadExpert
      dsimp only
      split
      · rename_i hskip
        rw [ownTensors_append_other (by omega)]
        rfl
      · rename_i hkept
        rw [not_or] at hkept
        rw [if_pos (by simp [ownTensors]; omega), ownTensors_append_own (by omega)]
        rfl

end Loading

section Ranges

variable {numTotalExperts topK moeEpSize moeEpRank : Nat}

theorem init_eq_some {ε : Type} {feedForward : Nat → ε} {mlp : SparseMoeMlp ε}
    (hinit : SparseMoeMlp.init numTotalExperts topK moeEpSize moeEpRank feedForward = some mlp) :
    moeEpSize ≤ numTotalExperts ∧
      mlp.startExpertId = moeEpRank * expertShare numTotalExperts moeEpSize ∧
      mlp.endExpertId = moeEpRank * expertShare numTotalExperts moeEpSize +
        expertsOfRank numTotalExperts moeEpSize moeEpRank ∧
      mlp.experts.length = expertsOfRank numTotalExperts moeEpSize moeEpRank := by
  unfold SparseMoeMlp.init at hinit
  split at hinit
  · rename_i hle
    cases hinit
    exact ⟨hle, rfl, rfl, by simp⟩
  · cases hinit

theorem expertShare_of_mod_eq_zero (hsize : 0 < moeEpSize)
    (hmod : numTotalExperts % moeEpSize = 0) :
    expertShare numTotalExperts moeEpSize = numTotalExperts / moeEpSize := by
  have hdiv := Nat.div_add_mod numTotalExperts moeEpSize
  have hsum : numTotalExperts + moeEpSize - 1 =
      moeEpSize * (numTotalExperts / moeEpSize) + (moeEpSize - 1) := by omega
  have hsmall : (moeEpSize - 1) / moeEpSize = 0 := Nat.div_eq_of_lt (by omega)
  rw [expertShare, hsum, Nat.mul_add_div hsize, hsmall, Nat.add_zero]

theorem expertShare_of_mod_ne_zero (hsize : 0 < moeEpSize)
    (hmod : numTotalExperts % moeEpSize ≠ 0) :
    expertShare numTotalExperts moeEpSize = numTotalExperts / moeEpSize + 1 := by
  have hdiv := Nat.div_add_mod numTotalExperts moeEpSize
  have hlt := Nat.mod_lt numTotalExperts hsize
  have hsum : numTotalExperts + moeEpSize - 1 =
      moeEpSize * (numTotalExperts / moeEpSize + 1) + (numTotalExperts % moeEpSize - 1) := by
    rw [Nat.mul_succ]
    omega
  have hsmall : (numTotalExperts % moeEpSize - 1) / moeEpSize = 0 := Nat.div_eq_of_lt (by omega)
  rw [expertShare, hsum, Nat.mul_add_div hsize, hsmall, Nat.add_zero]

/-- All ranks but the last have a full share. -/
theorem expertsOfRank_of_lt (hrank : moeEpRank + 1 < moeEpSize) :
    expertsOfRank numTotalExperts moeEpSize moeEpRank =
      expertShare numTotalExperts moeEpSize :=
  if_neg fun h => absurd h.1 (by omega)

theorem expertsOfRank_last (hlast : moeEpRank + 1 = moeEpSize) :
    expertsOfRank numTotalExperts moeEpSize moeEpRank =
      if numTotalExperts % moeEpSize = 0 then expertShare numTotalExperts moeEpSize
      else numTotalExperts % moeEpSize := by
  unfold expertsOfRank
  split
  · rename_i h
    rw [if_neg h.2]
  · rename_i h
    rw [if_pos (not_not.mp fun hmod => h ⟨hlast, hmod⟩)]

/-- Where the last range ends. -/
def lastEnd (numTotalExperts moeEpSize : Nat) : Nat :=
  (moeEpSize - 1) * expertShare numTotalExperts moeEpSize +
    expertsOfRank numTotalExperts moeEpSize (moeEpSize - 1)

/-- The remainder is right for the last rank only if it fills up the experts. -/
theorem lastEnd_eq_iff (hsize : 0 < moeEpSize) :
    lastEnd numTotalExperts moeEpSize = numTotalExperts ↔
      numTotalExperts % moeEpSize = 0 ∨ numTotalExperts / moeEpSize + 1 = moeEpSize := by
  have hdiv := Nat.div_add_mod numTotalExperts moeEpSize
  obtain ⟨others, rfl⟩ : ∃ others, moeEpSize = others + 1 := ⟨moeEpSize - 1, by omega⟩
  rw [lastEnd, Nat.add_sub_cancel, expertsOfRank_last rfl]
  rcases Nat.eq_zero_or_pos (numTotalExperts % (others + 1)) with hmod | hmod
  · rw [if_pos hmod, expertShare_of_mod_eq_zero hsize hmod, or_iff_left_of_imp fun _ => hmod]
    rw [hmod, Nat.add_zero, Nat.succ_mul] at hdiv
    exact iff_of_true hdiv hmod
  · rw [if_neg hmod.ne', expertShare_of_mod_ne_zero hsize hmod.ne', or_iff_right hmod.ne']
    rw [Nat.succ_mul] at hdiv
    rw [Nat.mul_succ]
    omega

theorem expertShare_pos (hsize : 0 < moeEpSize) (hle : moeEpSize ≤ numTotalExperts) :
    0 < expertShare numTotalExperts moeEpSize :=
  Nat.div_pos (by omega) hsize

theorem expertsOfRank_pos (hsize : 0 < moeEpSize) (hle : moeEpSize ≤ numTotalExperts) :
    0 < expertsOfRank numTotalExperts moeEpSize moeEpRank := by
  unfold expertsOfRank
  split
  · omega
  · exact expertShare_pos hsize hle

/-- A range ends where the next one starts, or is the last one. -/
theorem endOf_le (hrank : moeEpRank < moeEpSize) :
    moeEpRank * expertShare numTotalExperts moeEpSize +
        expertsOfRank numTotalExperts moeEpSize moeEpRank ≤
      lastEnd numTotalExperts moeEpSize := by
  rcases Nat.lt_or_ge (moeEpRank + 1) moeEpSize with hlt | hge
  · rw [expertsOfRank_of_lt hlt, ← Nat.succ_mul]
    exact Nat.le_add_right_of_le (Nat.mul_le_mul_right _ (by omega))
  · obtain rfl : moeEpRank = moeEpSize - 1 := by omega
    exact Nat.le_refl _

theorem expertsOfRank_le_share (hsize : 0 < moeEpSize)
    (hends : lastEnd numTotalExperts moeEpSize = numTotalExperts) :
    expertsOfRank numTotalExperts moeEpSize moeEpRank ≤
      expertShare numTotalExperts moeEpSize := by
  unfold expertsOfRank
  split
  · rename_i hlast
    rw [expertShare_of_mod_ne_zero hsize hlast.2]
    have hlt := Nat.mod_lt numTotalExperts hsize
    rcases (lastEnd_eq_iff hsize).mp hends with hmod | hdiv
    · exact absurd hmod hlast.2
    · omega
  · exact Nat.le_refl _

/-- The rank whose range an expert is in. -/
theorem exists_rank {expertId : Nat} (hsize : 0 < moeEpSize)
    (hlt : expertId < lastEnd numTotalExperts moeEpSize)
    (hshare : 0 < expertShare numTotalExperts moeEpSize) :
    ∃ rank < moeEpSize, rank * expertShare numTotalExperts moeEpSize ≤ expertId ∧
      expertId < rank * expertShare numTotalExperts moeEpSize +
        expertsOfRank numTotalExperts moeEpSize rank := by
  rcases Nat.lt_or_ge expertId ((moeEpSize - 1) * expertShare numTotalExperts moeEpSize) with
    hfull | hlast
  · have hrank : expertId / expertShare numTotalExperts moeEpSize < moeEpSize - 1 :=
      (Nat.div_lt_iff_lt_mul hshare).mpr hfull
    refine ⟨expertId / expertShare numTotalExperts moeEpSize, by omega,
      Nat.div_mul_le_self _ _, ?_⟩
    rw [expertsOfRank_of_lt (by omega)]
    exact Nat.lt_div_mul_add hshare
  · exact ⟨moeEpSize - 1, by omega, hlast, hlt⟩

end Ranges

/-- The ranks partition the experts exactly if these divide evenly, or fill up every share but
the last, and are so many that the remainder is what is left for the last rank. -/
theorem experts_partitioned_iff {ε : Type} {numTotalExperts topK moeEpSize : Nat}
    {feedForward : Nat → ε} {mlps : Nat → SparseMoeMlp ε} (hsize : 1 ≤ moeEpSize)
    (hinit : ∀ rank < moeEpSize,
      SparseMoeMlp.init numTotalExperts topK moeEpSize rank feedForward = some (mlps rank)) :
    ExpertsPartitioned numTotalExperts moeEpSize mlps ↔
      numTotalExperts % moeEpSize = 0 ∨ numTotalExperts / moeEpSize + 1 = moeEpSize := by
  have hle := (init_eq_some (hinit 0 hsize)).1
  have hstart : ∀ rank < moeEpSize,
      (mlps rank).startExpertId = rank * expertShare numTotalExperts moeEpSize :=
    fun rank hrank => (init_eq_some (hinit rank hrank)).2.1
  have hend : ∀ rank < moeEpSize, (mlps rank).endExpertId =
      rank * expertShare numTotalExperts moeEpSize +
        expertsOfRank numTotalExperts moeEpSize rank :=
    fun rank hrank => (init_eq_some (hinit rank hrank)).2.2.1
  have hexperts : ∀ rank < moeEpSize,
      (mlps rank).experts.length = expertsOfRank numTotalExperts moeEpSize rank :=
    fun rank hrank => (init_eq_some (hinit rank hrank)).2.2.2
  have hshare := expertShare_pos hsize hle
  rw [← lastEnd_eq_iff hsize]
  constructor
  · intro hpart
    have hinside := hpart.inside (moeEpSize - 1) (by omega)
    rw [hend _ (by omega)] at hinside
    obtain ⟨rank, hrank, hmem⟩ := hpart.covered (numTotalExperts - 1) (by omega)
    rw [hstart rank hrank, hend rank hrank, Set.mem_Ico] at hmem
    have hlast := @endOf_le numTotalExperts moeEpSize rank hrank
    exact Nat.le_antisymm hinside (by omega)
  · intro hends
    have hsizes : ∀ rank, expertsOfRank numTotalExperts moeEpSize rank ≤
        expertShare numTotalExperts moeEpSize := fun _ => expertsOfRank_le_share hsize hends
    refine ⟨?_, ?_, ?_, ?_, ?_, ?_⟩
    · intro rank hrank
      rw [hstart rank hrank, hend rank hrank]
      exact Nat.lt_add_of_pos_right (expertsOfRank_pos hsize hle)
    · intro rank hrank other hother hne
      rw [hstart rank hrank, hend rank hrank, hstart other hother, hend other hother,
        Set.disjoint_left]
      intro expertId hmem hother
      rcases Nat.lt_or_gt_of_ne hne with hlt | hlt
      · have hnext := Nat.mul_le_mul_right (expertShare numTotalExperts moeEpSize) hlt
        rw [Nat.succ_mul] at hnext
        have hfull := hsizes rank
        exact absurd (hmem.2.trans_le (by omega)) (Nat.not_lt.mpr hother.1)
      · have hnext := Nat.mul_le_mul_right (expertShare numTotalExperts moeEpSize) hlt
        rw [Nat.succ_mul] at hnext
        have hfull := hsizes other
        exact absurd (hother.2.trans_le (by omega)) (Nat.not_lt.mpr hmem.1)
    · intro rank hrank
      rw [hend rank hrank]
      exact (endOf_le hrank).trans_eq hends
    · intro expertId hlt
      obtain ⟨rank, hrank, hlow, hhigh⟩ := exists_rank hsize (hends.symm ▸ hlt) hshare
      refine ⟨rank, hrank, ?_⟩
      rw [hstart rank hrank, hend rank hrank]
      exact ⟨hlow, hhigh⟩
    · intro rank hrank
      rw [hstart rank hrank, hend rank hrank, hexperts rank hrank]
      omega
    · intro rank hrank τ weights hids
      rw [hexperts rank hrank, hstart rank hrank]
      apply loadWeights_eq _ (hsizes rank) weights hids
      rcases Nat.lt_or_ge (rank + 1) moeEpSize with hlt | hge
      · exact .inl (expertsOfRank_of_lt hlt)
      · right
        obtain rfl : rank = moeEpSize - 1 := by omega
        exact hends

namespace Samples

/-- The layer of one of four ranks, with its experts numbered. -/
def ofFourRanks (numTotalExperts rank : Nat) : SparseMoeMlp Nat :=
  (SparseMoeMlp.init numTotalExperts 2 4 rank id).getD ⟨0, 0, 0, 0, 0, []⟩

end Samples

open Samples in
theorem fifteen_experts_four_ranks : ExpertsPartitioned 15 4 (ofFourRanks 15) := by
  have hinit : ∀ rank < 4, SparseMoeMlp.init 15 2 4 rank id = some (ofFourRanks 15 rank) := by
    decide
  exact (experts_partitioned_iff (by decide) hinit).mpr (by decide)

open Samples in
/-- Of ten experts on four ranks, the last rank has the experts 9 and 10. -/
theorem ten_experts_four_ranks :
    (∀ rank < 4, SparseMoeMlp.init 10 2 4 rank id = some (ofFourRanks 10 rank)) ∧
      (ofFourRanks 10 3).startExpertId = 9 ∧ (ofFourRanks 10 3).endExpertId = 11 ∧
      ¬ExpertsPartitioned 10 4 (ofFourRanks 10) :=
  ⟨by decide, rfl, rfl, fun hpart => absurd (hpart.inside 3 (by decide)) (by decide)⟩

end VllmMlu.Moe
