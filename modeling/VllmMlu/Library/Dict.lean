import Mathlib

/-! Insertion-ordered dictionaries. The entries are kept in the order in which
their keys were first set, and no key occurs twice; the second fact is carried
by the structure. -/
namespace VllmMlu.Library

@[ext] structure Dict (κ ν : Type) where
  entries : List (κ × ν)
  nodup : (entries.map Prod.fst).Nodup

namespace Dict

variable {κ ν : Type}

def empty : Dict κ ν := ⟨[], List.nodup_nil⟩

def keys (dict : Dict κ ν) : List κ := dict.entries.map Prod.fst

def values (dict : Dict κ ν) : List ν := dict.entries.map Prod.snd

theorem keys_nodup (dict : Dict κ ν) : dict.keys.Nodup := dict.nodup

@[simp] theorem keys_empty : (empty : Dict κ ν).keys = [] := rfl

@[simp] theorem values_empty : (empty : Dict κ ν).values = [] := rfl

/-- The sum of the values, `sum(dict.values())`. -/
def total (dict : Dict κ Int) : Int := dict.values.sum

@[simp] theorem total_empty : (empty : Dict κ Int).total = 0 := rfl

variable [DecidableEq κ]

def find (key : κ) : List (κ × ν) → Option ν
  | [] => none
  | entry :: rest => if entry.1 = key then some entry.2 else find key rest

def get? (dict : Dict κ ν) (key : κ) : Option ν := find key dict.entries

@[simp] theorem get?_empty (key : κ) : (empty : Dict κ ν).get? key = none := rfl

def store (key : κ) (value : ν) : List (κ × ν) → List (κ × ν)
  | [] => [(key, value)]
  | entry :: rest =>
      if entry.1 = key then (key, value) :: rest else entry :: store key value rest

theorem mem_keys_store (key : κ) (value : ν) (entries : List (κ × ν)) (other : κ) :
    other ∈ (store key value entries).map Prod.fst ↔
      other = key ∨ other ∈ entries.map Prod.fst := by
  induction entries with
  | nil => simp [store]
  | cons entry rest ih =>
      unfold store
      split
      · rename_i heq
        simp [heq]
      · simp only [List.map_cons, List.mem_cons, ih]
        tauto

theorem nodup_store (key : κ) (value : ν) (entries : List (κ × ν))
    (hnodup : (entries.map Prod.fst).Nodup) :
    ((store key value entries).map Prod.fst).Nodup := by
  induction entries with
  | nil => simp [store]
  | cons entry rest ih =>
      unfold store
      rw [List.map_cons, List.nodup_cons] at hnodup
      split
      · rename_i heq
        simpa [← heq] using hnodup
      · rename_i hne
        rw [List.map_cons, List.nodup_cons, mem_keys_store]
        exact ⟨not_or.mpr ⟨hne, hnodup.1⟩, ih hnodup.2⟩

/-- `dict[key] = value`: a present key keeps its place, a new one goes last. -/
def set (dict : Dict κ ν) (key : κ) (value : ν) : Dict κ ν :=
  ⟨store key value dict.entries, nodup_store key value dict.entries dict.nodup⟩

/-- The values changed in place. -/
def mapValues (f : κ → ν → ν) (dict : Dict κ ν) : Dict κ ν :=
  ⟨dict.entries.map fun entry => (entry.1, f entry.1 entry.2), by
    rw [List.map_map]
    exact dict.nodup⟩

/-- `dict.pop(key, None)`. -/
def pop (dict : Dict κ ν) (key : κ) : Dict κ ν :=
  ⟨dict.entries.filter fun entry => entry.1 ≠ key,
    dict.nodup.sublist (List.filter_sublist.map Prod.fst)⟩

theorem find_eq_some_iff (key : κ) (value : ν) (entries : List (κ × ν))
    (hnodup : (entries.map Prod.fst).Nodup) :
    find key entries = some value ↔ (key, value) ∈ entries := by
  induction entries with
  | nil => simp [find]
  | cons entry rest ih =>
      rw [List.map_cons, List.nodup_cons] at hnodup
      obtain ⟨first, second⟩ := entry
      unfold find
      split
      · rename_i heq
        have hfresh : ∀ other, (key, other) ∉ rest := by
          intro other hmem
          exact hnodup.1 (by
            rw [heq]
            exact List.mem_map_of_mem (f := Prod.fst) hmem)
        simp only at heq
        simp [heq, hfresh, eq_comm]
      · rename_i hne
        have hne' : key ≠ first := fun heq => hne heq.symm
        rw [ih hnodup.2, List.mem_cons, Prod.mk.injEq]
        simp [hne']

theorem get?_eq_some_iff (dict : Dict κ ν) (key : κ) (value : ν) :
    dict.get? key = some value ↔ (key, value) ∈ dict.entries :=
  find_eq_some_iff key value dict.entries dict.nodup

theorem mem_keys_iff (dict : Dict κ ν) (key : κ) :
    key ∈ dict.keys ↔ ∃ value, dict.get? key = some value := by
  simp only [get?_eq_some_iff, keys, List.mem_map, Prod.exists, exists_and_right,
    exists_eq_right]

theorem get?_eq_none_iff (dict : Dict κ ν) (key : κ) :
    dict.get? key = none ↔ key ∉ dict.keys := by
  rw [mem_keys_iff, not_exists, Option.eq_none_iff_forall_ne_some]

theorem mem_keys_of_get? {dict : Dict κ ν} {key : κ} {value : ν}
    (h : dict.get? key = some value) : key ∈ dict.keys :=
  (mem_keys_iff dict key).mpr ⟨value, h⟩

@[simp] theorem mem_keys_set (dict : Dict κ ν) (key other : κ) (value : ν) :
    other ∈ (dict.set key value).keys ↔ other = key ∨ other ∈ dict.keys :=
  mem_keys_store key value dict.entries other

@[simp] theorem mem_keys_pop (dict : Dict κ ν) (key other : κ) :
    other ∈ (dict.pop key).keys ↔ other ∈ dict.keys ∧ other ≠ key := by
  simp only [keys, pop, List.mem_map, List.mem_filter, decide_eq_true_eq]
  constructor
  · rintro ⟨entry, ⟨hmem, hne⟩, rfl⟩
    exact ⟨⟨entry, hmem, rfl⟩, hne⟩
  · rintro ⟨⟨entry, hmem, rfl⟩, hne⟩
    exact ⟨entry, ⟨hmem, hne⟩, rfl⟩

theorem keys_pop (dict : Dict κ ν) (key : κ) :
    (dict.pop key).keys = dict.keys.filter fun other => other ≠ key := by
  simp only [keys, pop, List.filter_map]
  rfl

theorem find_store (key other : κ) (value : ν) (entries : List (κ × ν)) :
    find other (store key value entries) =
      if other = key then some value else find other entries := by
  induction entries with
  | nil => simp [store, find, eq_comm]
  | cons entry rest ih =>
      unfold store
      split
      · rename_i heq
        simp only [find, heq, eq_comm (a := key)]
        split <;> rfl
      · rename_i hne
        simp only [find, ih]
        split <;> simp_all

@[simp] theorem get?_set_self (dict : Dict κ ν) (key : κ) (value : ν) :
    (dict.set key value).get? key = some value := by
  simp [get?, set, find_store]

theorem get?_set (dict : Dict κ ν) (key other : κ) (value : ν) :
    (dict.set key value).get? other =
      if other = key then some value else dict.get? other :=
  find_store key other value dict.entries

theorem get?_set_of_ne (dict : Dict κ ν) {key other : κ} (value : ν)
    (hne : other ≠ key) : (dict.set key value).get? other = dict.get? other := by
  rw [get?_set, if_neg hne]

theorem find_filter_ne (key other : κ) (entries : List (κ × ν)) :
    find other (entries.filter fun entry => entry.1 ≠ key) =
      if other = key then none else find other entries := by
  induction entries with
  | nil => simp [find]
  | cons entry rest ih =>
      by_cases hkey : entry.1 = key
      · rw [List.filter_cons_of_neg (by simpa using hkey), ih]
        split
        · rfl
        · rename_i hne
          rw [find, if_neg (by rw [hkey]; exact Ne.symm hne)]
      · rw [List.filter_cons_of_pos (by simpa using hkey)]
        simp only [find, ih]
        split <;> simp_all

theorem get?_pop (dict : Dict κ ν) (key other : κ) :
    (dict.pop key).get? other = if other = key then none else dict.get? other :=
  find_filter_ne key other dict.entries

@[simp] theorem get?_pop_self (dict : Dict κ ν) (key : κ) :
    (dict.pop key).get? key = none := by
  rw [get?_pop, if_pos rfl]

theorem get?_pop_of_ne (dict : Dict κ ν) {key other : κ} (hne : other ≠ key) :
    (dict.pop key).get? other = dict.get? other := by
  rw [get?_pop, if_neg hne]

theorem get?_mapValues (f : κ → ν → ν) (dict : Dict κ ν) (key : κ) :
    (dict.mapValues f).get? key = (dict.get? key).map (f key) := by
  change find key (dict.entries.map fun entry => (entry.1, f entry.1 entry.2)) = _
  unfold get?
  induction dict.entries with
  | nil => rfl
  | cons entry rest ih =>
      simp only [List.map_cons, find]
      split
      · rename_i heq
        rw [heq]
        rfl
      · exact ih

theorem store_of_not_mem (key : κ) (value : ν) (entries : List (κ × ν))
    (hfresh : key ∉ entries.map Prod.fst) :
    store key value entries = entries ++ [(key, value)] := by
  induction entries with
  | nil => rfl
  | cons entry rest ih =>
      rw [List.map_cons, List.mem_cons, not_or] at hfresh
      rw [store, if_neg (Ne.symm hfresh.1), ih hfresh.2]
      rfl

theorem entries_set_of_not_mem (dict : Dict κ ν) (key : κ) (value : ν)
    (hfresh : key ∉ dict.keys) : (dict.set key value).entries = dict.entries ++ [(key, value)] :=
  store_of_not_mem key value dict.entries hfresh

theorem keys_set_of_not_mem (dict : Dict κ ν) (key : κ) (value : ν)
    (hfresh : key ∉ dict.keys) : (dict.set key value).keys = dict.keys ++ [key] := by
  simp only [keys, set, store_of_not_mem key value dict.entries hfresh,
    List.map_append, List.map_cons, List.map_nil]

theorem mem_values_iff (dict : Dict κ ν) (value : ν) :
    value ∈ dict.values ↔ ∃ key, dict.get? key = some value := by
  simp only [values, get?_eq_some_iff, List.mem_map, Prod.exists, exists_eq_right]

theorem total_set_of_not_mem (dict : Dict κ Int) (key : κ) (value : Int)
    (hfresh : key ∉ dict.keys) : (dict.set key value).total = dict.total + value := by
  simp [total, values, set, store_of_not_mem key value dict.entries hfresh]

theorem values_set_of_not_mem (dict : Dict κ ν) (key : κ) (value : ν)
    (hfresh : key ∉ dict.keys) : (dict.set key value).values = dict.values ++ [value] := by
  simp only [values, set, store_of_not_mem key value dict.entries hfresh,
    List.map_append, List.map_cons, List.map_nil]

theorem entries_perm_pop {dict : Dict κ ν} {key : κ} {value : ν}
    (hget : dict.get? key = some value) :
    dict.entries.Perm ((key, value) :: (dict.pop key).entries) := by
  rw [get?_eq_some_iff] at hget
  have hpop : ∀ entry, entry ∈ (dict.pop key).entries ↔ entry ∈ dict.entries ∧ entry.1 ≠ key := by
    intro entry
    simp [pop, List.mem_filter]
  rw [List.perm_ext_iff_of_nodup dict.nodup.of_map]
  · intro entry
    rw [List.mem_cons, hpop]
    constructor
    · intro hmem
      by_cases hkey : entry.1 = key
      · exact .inl (List.inj_on_of_nodup_map dict.nodup hmem hget hkey)
      · exact .inr ⟨hmem, hkey⟩
    · rintro (rfl | ⟨hmem, -⟩)
      · exact hget
      · exact hmem
  · rw [List.nodup_cons, hpop]
    exact ⟨fun h => h.2 rfl, (dict.pop key).nodup.of_map⟩

theorem values_perm_pop {dict : Dict κ ν} {key : κ} {value : ν}
    (hget : dict.get? key = some value) : dict.values.Perm (value :: (dict.pop key).values) :=
  (entries_perm_pop hget).map Prod.snd

theorem total_pop {dict : Dict κ Int} {key : κ} {value : Int}
    (hget : dict.get? key = some value) : (dict.pop key).total + value = dict.total := by
  rw [total, total, (values_perm_pop hget).sum_eq, List.sum_cons, add_comm]

end Dict

end VllmMlu.Library
