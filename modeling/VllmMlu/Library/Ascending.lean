import Mathlib

/-! Ascending lists of sizes: sorting, the last entry as the maximum, ranges with a step, and
rounding up to an entry. -/
namespace VllmMlu.Library.Ascending

variable {α : Type} [LinearOrder α]

/-- `sorted(xs)`. -/
def sorted (xs : List α) : List α := xs.insertionSort (· ≤ ·)

@[simp] theorem mem_sorted {xs : List α} {x : α} : x ∈ sorted xs ↔ x ∈ xs :=
  List.mem_insertionSort _

/-- Sorting is strict exactly without duplicates. -/
theorem sortedLT_sorted_iff {xs : List α} : (sorted xs).SortedLT ↔ xs.Nodup := by
  have hperm := List.perm_insertionSort (· ≤ ·) xs
  constructor
  · intro h
    exact hperm.nodup_iff.mp h.nodup
  · intro h
    exact List.sortedLE_insertionSort.sortedLT_of_nodup (hperm.nodup_iff.mpr h)

/-- `sorted(set(xs))` does not depend on the order of the set. -/
def sortedSet (xs : List α) : List α := sorted xs.dedup

theorem sortedLT_sortedSet (xs : List α) : (sortedSet xs).SortedLT :=
  sortedLT_sorted_iff.mpr xs.nodup_dedup

@[simp] theorem mem_sortedSet {xs : List α} {x : α} : x ∈ sortedSet xs ↔ x ∈ xs := by
  rw [sortedSet, mem_sorted, List.mem_dedup]

theorem le_getLast {xs : List α} {x last : α} (h : xs.SortedLT) (hlast : xs.getLast? = some last)
    (hx : x ∈ xs) : x ≤ last := by
  obtain ⟨front, rfl⟩ := List.getLast?_eq_some_iff.mp hlast
  have hpair := List.pairwise_append.mp h.pairwise
  rcases List.mem_append.mp hx with hfront | hend
  · exact (hpair.2.2 x hfront last (List.mem_singleton_self last)).le
  · exact (List.mem_singleton.mp hend).le

/-- Some entry is the least one that reaches `x`. -/
theorem exists_round_up {xs : List α} {x y : α} (hy : y ∈ xs) (h : x ≤ y) :
    ∃ least ∈ xs, x ≤ least ∧ ∀ other ∈ xs, x ≤ other → least ≤ other := by
  have hmem : y ∈ xs.toFinset.filter (x ≤ ·) := by simp [hy, h]
  have hleast := Finset.min'_mem _ ⟨y, hmem⟩
  rw [Finset.mem_filter, List.mem_toFinset] at hleast
  refine ⟨_, hleast.1, hleast.2, fun other hother hle => ?_⟩
  exact Finset.min'_le _ _ (by simp [hother, hle])

/-- `range(start, stop, step)` for a positive step. -/
def rangeStep (start stop : Int) (step : Nat) : List Int :=
  (List.range ((stop - start + step - 1) / step).toNat).map fun i : Nat => start + (i : Int) * step

theorem sortedLT_rangeStep (start stop : Int) {step : Nat} (h : 0 < step) :
    (rangeStep start stop step).SortedLT := by
  apply List.Pairwise.sortedLT
  rw [rangeStep, List.pairwise_map]
  apply List.pairwise_lt_range.imp
  intro i j hlt
  have hmul : (i : Int) * step < j * step :=
    Int.mul_lt_mul_of_pos_right (by omega) (by omega)
  omega

theorem mem_rangeStep_bounds {start stop x : Int} {step : Nat} (h : 0 < step)
    (hx : x ∈ rangeStep start stop step) : start ≤ x ∧ x < stop := by
  rw [rangeStep, List.mem_map] at hx
  obtain ⟨i, hi, rfl⟩ := hx
  rw [List.mem_range] at hi
  have hcount : (i : Int) + 1 ≤ (stop - start + step - 1) / step := by omega
  have hmul := (Int.le_ediv_iff_mul_le (by omega : (0 : Int) < step)).mp hcount
  rw [Int.add_mul, Int.one_mul] at hmul
  have hpos : (0 : Int) ≤ i * step := Int.mul_nonneg (by omega) (by omega)
  omega

theorem start_mem_rangeStep {start stop : Int} {step : Nat} (h : 0 < step) (hlt : start < stop) :
    start ∈ rangeStep start stop step := by
  rw [rangeStep, List.mem_map]
  refine ⟨0, ?_, by simp⟩
  have hcount : 1 ≤ (stop - start + step - 1) / step :=
    (Int.le_ediv_iff_mul_le (by omega)).mpr (by omega)
  rw [List.mem_range]
  omega

end VllmMlu.Library.Ascending
