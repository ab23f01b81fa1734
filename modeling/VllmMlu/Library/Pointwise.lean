import Mathlib

/-! Loops each turn of which changes a state at the key of its item alone. -/
namespace VllmMlu.Library

section Pointwise

variable {ε σ α κ ν : Type} {key : α → κ} {view : σ → κ → ν} {Inv : σ → Prop}

/-- When the keys of the items differ, each key is changed by its own item. -/
theorem foldl_pointwise {step : σ → α → σ} {Effect : α → ν → ν → Prop}
    (hstep : ∀ state item, Inv state → Inv (step state item) ∧
      Effect item (view state (key item)) (view (step state item) (key item)) ∧
      ∀ other, other ≠ key item → view (step state item) other = view state other)
    {items : List α} (hnodup : (items.map key).Nodup) {state : σ} (hinv : Inv state) :
    Inv (items.foldl step state) ∧
    (∀ item ∈ items, Effect item (view state (key item))
      (view (items.foldl step state) (key item))) ∧
    ∀ other, other ∉ items.map key → view (items.foldl step state) other = view state other := by
  induction items generalizing state with
  | nil => exact ⟨hinv, by simp, fun _ _ => rfl⟩
  | cons item rest ih =>
      obtain ⟨hfirst, hnodup⟩ := List.nodup_cons.mp hnodup
      obtain ⟨hinv, heffect, hothers⟩ := hstep state item hinv
      obtain ⟨hinv, hrest, hkept⟩ := ih hnodup hinv
      rw [List.foldl_cons]
      refine ⟨hinv, ?_, ?_⟩
      · intro other hmem
        rcases List.mem_cons.mp hmem with rfl | hmem
        · rw [hkept _ hfirst]
          exact heffect
        · have hne : key other ≠ key item := fun heq => hfirst (heq ▸ List.mem_map_of_mem hmem)
          have hother := hrest other hmem
          rwa [hothers _ hne] at hother
      · intro other hother
        rw [List.map_cons, List.mem_cons, not_or] at hother
        rw [hkept other hother.2, hothers other hother.1]

/-- The same for a loop that may raise, but does not where the items are ready. -/
theorem foldlM_pointwise {step : σ → α → Except ε σ} {Ready : α → ν → Prop}
    {Effect : α → ν → ν → Prop}
    (hstep : ∀ state item, Inv state → Ready item (view state (key item)) →
      ∃ next, step state item = .ok next ∧ Inv next ∧
        Effect item (view state (key item)) (view next (key item)) ∧
        ∀ other, other ≠ key item → view next other = view state other)
    {items : List α} (hnodup : (items.map key).Nodup) {state : σ} (hinv : Inv state)
    (hready : ∀ item ∈ items, Ready item (view state (key item))) :
    ∃ next, items.foldlM step state = .ok next ∧ Inv next ∧
      (∀ item ∈ items, Effect item (view state (key item)) (view next (key item))) ∧
      ∀ other, other ∉ items.map key → view next other = view state other := by
  induction items generalizing state with
  | nil => exact ⟨state, rfl, hinv, by simp, fun _ _ => rfl⟩
  | cons item rest ih =>
      obtain ⟨hfirst, hnodup⟩ := List.nodup_cons.mp hnodup
      obtain ⟨middle, hmiddle, hinv, heffect, hothers⟩ :=
        hstep state item hinv (hready item List.mem_cons_self)
      have hne : ∀ other ∈ rest, key other ≠ key item :=
        fun other hmem heq => hfirst (heq ▸ List.mem_map_of_mem hmem)
      obtain ⟨next, hnext, hinv, hrest, hkept⟩ := ih hnodup hinv fun other hmem => by
        rw [hothers _ (hne other hmem)]
        exact hready other (List.mem_cons_of_mem _ hmem)
      refine ⟨next, ?_, hinv, ?_, ?_⟩
      · rw [List.foldlM_cons, hmiddle]
        exact hnext
      · intro other hmem
        rcases List.mem_cons.mp hmem with rfl | hmem
        · rw [hkept _ hfirst]
          exact heffect
        · have hother := hrest other hmem
          rwa [hothers _ (hne other hmem)] at hother
      · intro other hother
        rw [List.map_cons, List.mem_cons, not_or] at hother
        rw [hkept other hother.2, hothers other hother.1]

end Pointwise

/-- The item of a key, where the keys differ. -/
theorem find?_key_eq {α κ : Type} [DecidableEq κ] {key : α → κ} {items : List α}
    (hnodup : (items.map key).Nodup) {item : α} (hmem : item ∈ items) :
    items.find? (fun other => decide (key other = key item)) = some item := by
  induction items with
  | nil => exact absurd hmem List.not_mem_nil
  | cons first rest ih =>
      obtain ⟨hfirst, hnodup⟩ := List.nodup_cons.mp hnodup
      rcases List.mem_cons.mp hmem with rfl | hrest
      · simp
      · have hne : key first ≠ key item := fun heq => hfirst (heq ▸ List.mem_map_of_mem hrest)
        rw [List.find?_cons_of_neg (by simpa using hne), ih hnodup hrest]

theorem find?_key_eq_none {α κ : Type} [DecidableEq κ] {key : α → κ} {items : List α} {value : κ}
    (hvalue : value ∉ items.map key) :
    items.find? (fun other => decide (key other = value)) = none := by
  rw [List.find?_eq_none]
  intro other hmem heq
  exact hvalue (of_decide_eq_true heq ▸ List.mem_map_of_mem hmem)

end VllmMlu.Library
