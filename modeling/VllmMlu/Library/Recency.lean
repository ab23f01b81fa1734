import VllmMlu.Library.Dict

/-! Dictionaries kept in the order of use: `move_to_end` and `popitem(last=False)`, what is
known of the keys that were used last, and dictionaries that undo each other. -/
namespace VllmMlu.Library.Dict

variable {κ ν : Type} [DecidableEq κ]

/-- `dict.move_to_end(key)` of a key that is there. -/
def moveToEnd (dict : Dict κ ν) (key : κ) : Dict κ ν :=
  match dict.get? key with
  | none => dict
  | some value => (dict.pop key).set key value

/-- `dict.popitem(last=False)`: the entry that was set or moved first. -/
def popFirst (dict : Dict κ ν) : Option ((κ × ν) × Dict κ ν) :=
  dict.entries.head?.map fun entry => (entry, dict.pop entry.1)

@[simp] theorem get?_moveToEnd (dict : Dict κ ν) (key other : κ) :
    (dict.moveToEnd key).get? other = dict.get? other := by
  unfold moveToEnd
  split
  · rfl
  · rename_i value hvalue
    rw [get?_set]
    split
    · rename_i heq
      rw [heq, hvalue]
    · rename_i hne
      exact get?_pop_of_ne dict hne

@[simp] theorem mem_keys_moveToEnd (dict : Dict κ ν) (key other : κ) :
    other ∈ (dict.moveToEnd key).keys ↔ other ∈ dict.keys := by
  simp only [mem_keys_iff, get?_moveToEnd]

theorem values_moveToEnd_perm (dict : Dict κ ν) (key : κ) :
    (dict.moveToEnd key).values.Perm dict.values := by
  unfold moveToEnd
  split
  · exact .refl _
  · rename_i value hvalue
    rw [values_set_of_not_mem _ _ _ (by simp)]
    exact (List.perm_append_singleton _ _).trans (values_perm_pop hvalue).symm

theorem get?_of_popFirst {dict rest : Dict κ ν} {key : κ} {value : ν}
    (h : dict.popFirst = some ((key, value), rest)) :
    dict.get? key = some value ∧ rest = dict.pop key := by
  unfold popFirst at h
  obtain ⟨entry, hentry, heq⟩ := Option.map_eq_some_iff.mp h
  cases heq
  exact ⟨(get?_eq_some_iff _ _ _).mpr (List.mem_of_mem_head? hentry), rfl⟩

theorem entries_of_popFirst {dict rest : Dict κ ν} {entry : κ × ν}
    (h : dict.popFirst = some (entry, rest)) : dict.entries = entry :: rest.entries := by
  unfold popFirst at h
  obtain ⟨first, hfirst, heq⟩ := Option.map_eq_some_iff.mp h
  cases heq
  obtain ⟨others, hentries⟩ := List.head?_eq_some_iff.mp hfirst
  have hnodup := dict.nodup
  rw [hentries, List.map_cons, List.nodup_cons] at hnodup
  have hothers : others.filter (fun other => other.1 ≠ entry.1) = others := by
    rw [List.filter_eq_self]
    intro other hmem
    have hne : other.1 ≠ entry.1 := fun heq => hnodup.1 (heq ▸ List.mem_map_of_mem hmem)
    simpa using hne
  have hpop : (dict.pop entry.1).entries =
      dict.entries.filter fun other => other.1 ≠ entry.1 := rfl
  rw [hpop, hentries, List.filter_cons_of_neg (by simp), hothers]

theorem popFirst_eq_none {dict : Dict κ ν} (h : dict.popFirst = none) : dict.values = [] := by
  rw [popFirst, Option.map_eq_none_iff, List.head?_eq_none_iff] at h
  rw [values, h, List.map_nil]

theorem keys_moveToEnd (dict : Dict κ ν) {key : κ} (hmem : key ∈ dict.keys) :
    (dict.moveToEnd key).keys = dict.keys.filter (· ≠ key) ++ [key] := by
  obtain ⟨value, hvalue⟩ := (mem_keys_iff _ _).mp hmem
  unfold moveToEnd
  rw [hvalue]
  simp only
  rw [keys_set_of_not_mem _ _ _ (by simp), keys_pop]

/-- The keys used of late stand behind all others. -/
def Recent (dict : Dict κ ν) (used : Finset κ) : Prop :=
  ∃ stale recent, dict.keys = stale ++ recent ∧ ∀ key, key ∈ recent ↔ key ∈ used

namespace Recent

variable {dict : Dict κ ν} {used : Finset κ} {key : κ}

theorem none (dict : Dict κ ν) : dict.Recent ∅ :=
  ⟨dict.keys, [], by simp, by simp⟩

theorem mem_keys (hrecent : dict.Recent used) (hused : key ∈ used) : key ∈ dict.keys := by
  obtain ⟨stale, recent, hkeys, hmem⟩ := hrecent
  rw [hkeys]
  exact List.mem_append_right _ ((hmem key).mpr hused)

theorem moveToEnd (hrecent : dict.Recent used) (hkey : key ∈ dict.keys) :
    (dict.moveToEnd key).Recent (insert key used) := by
  obtain ⟨stale, recent, hkeys, hmem⟩ := hrecent
  refine ⟨stale.filter (· ≠ key), recent.filter (· ≠ key) ++ [key], ?_, fun other => ?_⟩
  · rw [keys_moveToEnd _ hkey, hkeys, List.filter_append, List.append_assoc]
  · simp only [List.mem_append, List.mem_filter, List.mem_singleton, Finset.mem_insert, hmem,
      decide_eq_true_eq]
    tauto

theorem set (hrecent : dict.Recent used) (hfresh : key ∉ dict.keys) (value : ν) :
    (dict.set key value).Recent (insert key used) := by
  obtain ⟨stale, recent, hkeys, hmem⟩ := hrecent
  refine ⟨stale, recent ++ [key], ?_, fun other => ?_⟩
  · rw [keys_set_of_not_mem _ _ _ hfresh, hkeys, List.append_assoc]
  · simp only [List.mem_append, List.mem_singleton, Finset.mem_insert, hmem]
    tauto

/-- With more keys than used ones, the one that is dropped is not among the used. -/
theorem popFirst (hrecent : dict.Recent used) (hroom : used.card < dict.keys.length) :
    ∃ key value, dict.popFirst = some ((key, value), dict.pop key) ∧ key ∉ used ∧
      (dict.pop key).Recent used := by
  obtain ⟨stale, recent, hkeys, hmem⟩ := hrecent
  have hnodup := dict.keys_nodup
  rw [hkeys, List.nodup_append'] at hnodup
  obtain ⟨-, hrecent, hdisjoint⟩ := hnodup
  have hcard : recent.length = used.card := by
    rw [← List.toFinset_card_of_nodup hrecent]
    congr 1
    ext other
    rw [List.mem_toFinset, hmem]
  cases hstale : stale with
  | nil =>
      rw [hkeys, hstale, List.nil_append] at hroom
      omega
  | cons key rest =>
      subst hstale
      cases hentries : dict.entries with
      | nil =>
          rw [keys, hentries] at hkeys
          simp at hkeys
      | cons entry entries =>
          have hfirst : entry.1 = key := by
            rw [keys, hentries, List.map_cons, List.cons_append, List.cons.injEq] at hkeys
            exact hkeys.1
          have hother : ∀ other ∈ rest ++ recent, other ≠ key := by
            have hall := dict.keys_nodup
            rw [hkeys, List.cons_append, List.nodup_cons] at hall
            exact fun other hin heq => hall.1 (heq ▸ hin)
          refine ⟨key, entry.2, ?_, fun hused => ?_, rest, recent, ?_, hmem⟩
          · rw [Dict.popFirst, hentries, ← hfirst]
            rfl
          · exact hdisjoint List.mem_cons_self ((hmem key).mpr hused)
          · rw [keys_pop, hkeys, List.cons_append, List.filter_cons_of_neg (by simp),
              List.filter_eq_self]
            simpa using hother

end Recent

/-- Looking up a value in `backward` gives the key that `forward` has it under. -/
def InverseOf [DecidableEq ν] (backward : Dict ν κ) (forward : Dict κ ν) : Prop :=
  ∀ key value, backward.get? value = some key ↔ forward.get? key = some value

namespace InverseOf

variable [DecidableEq ν] {backward : Dict ν κ} {forward : Dict κ ν} {key : κ} {value : ν}

theorem injective (hinverse : backward.InverseOf forward) {other : κ}
    (hkey : forward.get? key = some value) (hother : forward.get? other = some value) :
    key = other := by
  have hback := (hinverse key value).mpr hkey
  rw [(hinverse other value).mpr hother] at hback
  exact (Option.some.inj hback).symm

theorem pop (hinverse : backward.InverseOf forward) (hget : forward.get? key = some value) :
    (backward.pop value).InverseOf (forward.pop key) := by
  intro otherKey otherValue
  rw [get?_pop, get?_pop]
  have hpair := hinverse otherKey otherValue
  split
  · rename_i hvalue
    split
    · simp
    · rename_i hkey
      have hne : forward.get? otherKey ≠ some otherValue := fun hother =>
        hkey (hinverse.injective hother (hvalue ▸ hget))
      simpa using hne
  · rename_i hvalue
    split
    · rename_i hkey
      rw [hpair, hkey, hget]
      simpa using Ne.symm hvalue
    · exact hpair

theorem set (hinverse : backward.InverseOf forward) (hkey : key ∉ forward.keys)
    (hvalue : value ∉ forward.values) :
    (backward.set value key).InverseOf (forward.set key value) := by
  intro otherKey otherValue
  rw [get?_set, get?_set]
  have hpair := hinverse otherKey otherValue
  have hnone := (get?_eq_none_iff forward key).mpr hkey
  split
  · rename_i heqValue
    split
    · rename_i heqKey
      simp [heqKey, heqValue]
    · rename_i hneKey
      have hne : forward.get? otherKey ≠ some otherValue := fun hother =>
        hvalue ((mem_values_iff _ _).mpr ⟨otherKey, heqValue ▸ hother⟩)
      simpa [Ne.symm hneKey] using hne
  · rename_i hneValue
    split
    · rename_i heqKey
      rw [hpair, heqKey, hnone]
      simpa using Ne.symm hneValue
    · exact hpair

end InverseOf

end VllmMlu.Library.Dict
