import VllmMlu.Library.Dict

/-! Dictionaries that are built from a list: a comprehension, the number of occurrences of each
key, and the values of each key. -/
namespace VllmMlu.Library

theorem map_idxOf_self {α : Type} [DecidableEq α] {items : List α} (hnodup : items.Nodup) :
    (items.map fun item => items.idxOf item) = List.range items.length := by
  apply List.ext_getElem
  · simp
  · intro i hi hrange
    simp [List.Nodup.idxOf_getElem hnodup]

namespace Dict

variable {κ ν : Type} [DecidableEq κ]

/-- `{key: value for key, value in entries}`. -/
def ofEntries (entries : List (κ × ν)) : Dict κ ν :=
  entries.foldl (fun dict entry => dict.set entry.1 entry.2) empty

/-- `dict[key] = dict.get(key, 0) + 1`. -/
def tally (dict : Dict κ Nat) (key : κ) : Dict κ Nat :=
  dict.set key ((dict.get? key).getD 0 + 1)

/-- `dict[key].append(value)` on a `defaultdict(list)`. -/
def push (dict : Dict κ (List ν)) (entry : κ × ν) : Dict κ (List ν) :=
  dict.set entry.1 ((dict.get? entry.1).getD [] ++ [entry.2])

theorem get?_foldl_set_of_not_mem {entries : List (κ × ν)} {key : κ} {dict : Dict κ ν}
    (hfresh : key ∉ entries.map Prod.fst) :
    (entries.foldl (fun dict entry => dict.set entry.1 entry.2) dict).get? key =
      dict.get? key := by
  induction entries generalizing dict with
  | nil => rfl
  | cons entry rest ih =>
      rw [List.map_cons, List.mem_cons, not_or] at hfresh
      rw [List.foldl_cons, ih hfresh.2, get?_set_of_ne _ _ hfresh.1]

theorem get?_ofEntries {entries : List (κ × ν)} (hnodup : (entries.map Prod.fst).Nodup)
    {key : κ} {value : ν} (hmem : (key, value) ∈ entries) :
    (ofEntries entries).get? key = some value := by
  obtain ⟨before, after, rfl⟩ := List.append_of_mem hmem
  rw [List.map_append, List.nodup_append] at hnodup
  have hfresh := (List.nodup_cons.mp hnodup.2.1).1
  rw [ofEntries, List.foldl_append, List.foldl_cons, get?_foldl_set_of_not_mem hfresh,
    get?_set_self]

theorem getD_foldl_tally (keys : List κ) (key : κ) (dict : Dict κ Nat) :
    ((keys.foldl tally dict).get? key).getD 0 = (dict.get? key).getD 0 + keys.count key := by
  induction keys generalizing dict with
  | nil => rfl
  | cons head rest ih =>
      rw [List.foldl_cons, ih, tally, get?_set, List.count_cons]
      by_cases heq : key = head
      · subst heq
        simp
        omega
      · simp [heq, Ne.symm heq]

theorem getD_foldl_push (entries : List (κ × ν)) (key : κ) (dict : Dict κ (List ν)) :
    ((entries.foldl push dict).get? key).getD [] =
      (dict.get? key).getD [] ++ (entries.filter (·.1 = key)).map Prod.snd := by
  induction entries generalizing dict with
  | nil => simp
  | cons entry rest ih =>
      rw [List.foldl_cons, ih, push, get?_set]
      by_cases heq : entry.1 = key
      · rw [if_pos heq.symm, List.filter_cons_of_pos (by simpa using heq), ← heq]
        simp
      · rw [if_neg (Ne.symm heq), List.filter_cons_of_neg (by simpa using heq)]

theorem mem_keys_foldl_push (entries : List (κ × ν)) (key : κ) (dict : Dict κ (List ν)) :
    key ∈ (entries.foldl push dict).keys ↔ key ∈ dict.keys ∨ key ∈ entries.map Prod.fst := by
  induction entries generalizing dict with
  | nil => simp
  | cons entry rest ih =>
      rw [List.foldl_cons, ih, push, mem_keys_set, List.map_cons, List.mem_cons]
      tauto

end Dict

end VllmMlu.Library
