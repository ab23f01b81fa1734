import Mathlib.Data.Finset.Max
import Mathlib.Data.List.GetD
import Mathlib.Order.Defs.LinearOrder
import Mathlib.Tactic.Common

/-! The first of the largest entries, and how it is found block by block. -/
namespace VllmMlu.Library.FirstMax

variable {F : Type} [LinearOrder F]

/-- The smallest index with the largest score. -/
structure IsFirstMax (score : Nat → F) (count index : Nat) : Prop where
  lt : index < count
  ge : ∀ other < count, score other ≤ score index
  first : ∀ other < index, score other < score index

theorem IsFirstMax.congr {score other : Nat → F} {count index : Nat}
    (h : IsFirstMax score count index) (heq : ∀ i < count, score i = other i) :
    IsFirstMax other count index := by
  refine ⟨h.lt, fun i hi => ?_, fun i hi => ?_⟩
  · rw [← heq i hi, ← heq index h.lt]
    exact h.ge i hi
  · rw [← heq i (hi.trans h.lt), ← heq index h.lt]
    exact h.first i hi

/-- A block behind others wins only where it has a larger score. -/
theorem IsFirstMax.append {score : Nat → F} {count size index lane : Nat}
    (h : IsFirstMax score count index)
    (hblock : IsFirstMax (fun lane => score (count + lane)) size lane) :
    IsFirstMax score (count + size)
      (if score index < score (count + lane) then count + lane else index) := by
  have hlast : ∀ other, count ≤ other → other < count + size →
      score other ≤ score (count + lane) := by
    intro other hle hlt
    have hge := hblock.ge (other - count) (by omega)
    rwa [Nat.add_sub_cancel' hle] at hge
  split
  case isTrue hlarger =>
    refine ⟨Nat.add_lt_add_left hblock.lt _, fun other hother => ?_, fun other hother => ?_⟩
    · by_cases hlt : other < count
      · exact le_of_lt (lt_of_le_of_lt (h.ge other hlt) hlarger)
      · exact hlast other (by omega) hother
    · by_cases hlt : other < count
      · exact lt_of_le_of_lt (h.ge other hlt) hlarger
      · have hfirst := hblock.first (other - count) (by omega)
        rwa [Nat.add_sub_cancel' (by omega)] at hfirst
  case isFalse hsmaller =>
    refine ⟨Nat.lt_add_right _ h.lt, fun other hother => ?_, h.first⟩
    by_cases hlt : other < count
    · exact h.ge other hlt
    · exact (hlast other (by omega) hother).trans (not_lt.mp hsmaller)

/-- Entries behind the end that no score is below never win. -/
theorem IsFirstMax.shorten {score : Nat → F} {count padded index : Nat}
    (h : IsFirstMax score padded index) (hpos : 0 < count) (hle : count ≤ padded)
    (hpadding : ∀ other, count ≤ other → score other ≤ score 0) :
    IsFirstMax score count index := by
  refine ⟨?_, fun other hother => h.ge other (Nat.lt_of_lt_of_le hother hle), h.first⟩
  apply Nat.not_le.mp
  intro hbehind
  exact absurd (h.first 0 (by omega)) (not_lt.mpr (hpadding index hbehind))

/-- The first entry of a row that none exceeds. -/
theorem isFirstMax_findIdx {row : List F} (hne : row ≠ []) (default : F) :
    IsFirstMax (fun i => row.getD i default) row.length
      (row.findIdx fun value => row.all fun other => !decide (value < other)) := by
  obtain ⟨top, hmem, htop⟩ := row.toFinset.exists_max_image id (by simpa using hne)
  have hlt : (row.findIdx fun value => row.all fun other => !decide (value < other)) <
      row.length := by
    apply List.findIdx_lt_length_of_exists
    refine ⟨top, by simpa using hmem, ?_⟩
    simpa using htop
  have hfound := @List.findIdx_getElem _ _ row hlt
  have hge : ∀ value ∈ row, value ≤
      row.getD (row.findIdx fun value => row.all fun other => !decide (value < other)) default := by
    intro value hvalue
    rw [List.getD_eq_getElem _ _ hlt]
    simpa using (List.all_eq_true.mp hfound) value hvalue
  refine ⟨hlt, fun other hother => ?_, fun other hother => ?_⟩
  · apply hge
    rw [List.getD_eq_getElem _ _ hother]
    exact List.getElem_mem _
  · have hnot := List.not_of_lt_findIdx hother
    rw [List.all_eq_false] at hnot
    obtain ⟨larger, hlarger, hexceeds⟩ := hnot
    rw [List.getD_eq_getElem _ _ (hother.trans hlt)]
    exact lt_of_lt_of_le (by simpa using hexceeds) (hge larger hlarger)

end VllmMlu.Library.FirstMax
