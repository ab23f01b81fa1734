import Mathlib

/-! Machines with fallible steps, their runs, and the rules by which an
invariant of one step becomes an invariant of every run. -/
namespace VllmMlu.Library

theorem bind_eq_ok {ε α β : Type} {first : Except ε α} {next : α → Except ε β} {result : β} :
    (first >>= next) = .ok result ↔ ∃ value, first = .ok value ∧ next value = .ok result := by
  cases first with
  | error err => simp [bind, Except.bind]
  | ok value => simp [bind, Except.bind]

theorem bind_eq_error {ε α β : Type} {first : Except ε α} {next : α → Except ε β} {err : ε} :
    (first >>= next) = .error err ↔
      first = .error err ∨ ∃ value, first = .ok value ∧ next value = .error err := by
  cases first with
  | error other => simp [bind, Except.bind]
  | ok value => simp [bind, Except.bind]

@[simp] theorem pure_eq_ok {ε α : Type} {value result : α} :
    (pure value : Except ε α) = .ok result ↔ value = result := by
  simp [pure, Except.pure]

@[simp] theorem throw_ne_ok {ε α : Type} {err : ε} {result : α} :
    (throw err : Except ε α) ≠ .ok result := by
  simp [throw, throwThe, MonadExceptOf.throw]

@[simp] theorem mapError_eq_ok {ε δ α : Type} {convert : ε → δ} {value : Except ε α} {result : α} :
    value.mapError convert = .ok result ↔ value = .ok result := by
  cases value with
  | error err => simp [Except.mapError]
  | ok value => simp [Except.mapError]

theorem mapError_eq_error {ε δ α : Type} {convert : ε → δ} {value : Except ε α} {err : δ} :
    value.mapError convert = .error err ↔ ∃ other, value = .error other ∧ convert other = err := by
  cases value with
  | error other => simp [Except.mapError]
  | ok value => simp [Except.mapError]

/-- What every iteration of a fallible loop preserves, the loop preserves. -/
theorem foldlM_invariant {ε α β : Type} {body : β → α → Except ε β} {Inv : β → Prop}
    {items : List α} {start result : β} (hstart : Inv start)
    (hbody : ∀ item ∈ items, ∀ state next, Inv state → body state item = .ok next → Inv next)
    (hok : items.foldlM body start = .ok result) : Inv result := by
  induction items generalizing start with
  | nil =>
      rw [List.foldlM_nil, pure_eq_ok] at hok
      exact hok ▸ hstart
  | cons item rest ih =>
      rw [List.foldlM_cons] at hok
      obtain ⟨next, hnext, hrest⟩ := bind_eq_ok.mp hok
      exact ih (hbody item List.mem_cons_self start next hstart hnext)
        (fun other hmem => hbody other (List.mem_cons_of_mem _ hmem)) hrest

/-- A loop invariant that speaks of the items still to come. -/
theorem foldlM_consumes {ε α β : Type} {body : β → α → Except ε β} {Inv : List α → β → Prop}
    {items : List α} {start result : β} (hstart : Inv items start)
    (hbody : ∀ item rest state next, Inv (item :: rest) state → body state item = .ok next →
      Inv rest next)
    (hok : items.foldlM body start = .ok result) : Inv [] result := by
  induction items generalizing start with
  | nil =>
      rw [List.foldlM_nil, pure_eq_ok] at hok
      exact hok ▸ hstart
  | cons item rest ih =>
      rw [List.foldlM_cons] at hok
      obtain ⟨next, hnext, hrest⟩ := bind_eq_ok.mp hok
      exact ih (hbody item rest start next hstart hnext) hrest

/-- An error that no iteration raises under the invariant is not raised by the loop. -/
theorem foldlM_ne_error {ε α β : Type} {body : β → α → Except ε β} {Inv : List α → β → Prop}
    {err : ε} {items : List α} {start : β} (hstart : Inv items start)
    (hbody : ∀ item rest state next, Inv (item :: rest) state → body state item = .ok next →
      Inv rest next)
    (herror : ∀ item rest state, Inv (item :: rest) state → body state item ≠ .error err) :
    items.foldlM body start ≠ .error err := by
  induction items generalizing start with
  | nil => exact fun heq => nomatch heq
  | cons item rest ih =>
      rw [List.foldlM_cons]
      cases hfirst : body start item with
      | error other =>
          intro heq
          cases heq
          exact herror item rest start hstart hfirst
      | ok next => exact ih (hbody item rest start next hstart hfirst)

/-- A loop whose every iteration returns under the invariant. -/
theorem foldlM_returns {ε α β : Type} {body : β → α → Except ε β} {Inv : List α → β → Prop}
    {items : List α} {start : β} (hstart : Inv items start)
    (hbody : ∀ item rest state, Inv (item :: rest) state →
      ∃ next, body state item = .ok next ∧ Inv rest next) :
    ∃ result, items.foldlM body start = .ok result ∧ Inv [] result := by
  induction items generalizing start with
  | nil => exact ⟨start, rfl, hstart⟩
  | cons item rest ih =>
      obtain ⟨next, hnext, hinv⟩ := hbody item rest start hstart
      obtain ⟨result, hresult, hlast⟩ := ih hinv
      refine ⟨result, ?_, hlast⟩
      rw [List.foldlM_cons, hnext]
      exact hresult

structure Machine (State Label Error : Type) where
  step : State → Label → Except Error State

namespace Machine

variable {State Label Error : Type}

/-- The states reached from `start` by steps that return and meet `allowed`. -/
inductive Run (machine : Machine State Label Error) (allowed : State → Label → Prop)
    (start : State) : State → Prop where
  | refl : Run machine allowed start start
  | step {state next : State} {label : Label} :
      Run machine allowed start state → allowed state label →
      machine.step state label = .ok next → Run machine allowed start next

theorem Run.invariant {machine : Machine State Label Error}
    {allowed : State → Label → Prop} {start : State} {Inv : State → Prop}
    (hstart : Inv start)
    (hstep : ∀ state label next, Inv state → allowed state label →
      machine.step state label = .ok next → Inv next)
    {state : State} (run : Run machine allowed start state) : Inv state := by
  induction run with
  | refl => exact hstart
  | step _ hallowed hnext ih => exact hstep _ _ _ ih hallowed hnext

/-- Take the steps of `labels` one after another, as far as they are allowed. -/
def perform (machine : Machine State Label Error) (allowed : State → Label → Prop)
    [∀ state label, Decidable (allowed state label)] : State → List Label → Option State
  | state, [] => some state
  | state, label :: labels =>
      if allowed state label then
        match machine.step state label with
        | .ok next => perform machine allowed next labels
        | .error _ => none
      else none

theorem Run.of_perform {machine : Machine State Label Error} {allowed : State → Label → Prop}
    [∀ state label, Decidable (allowed state label)] {start state final : State}
    {labels : List Label} (run : Run machine allowed start state)
    (hperform : machine.perform allowed state labels = some final) :
    Run machine allowed start final := by
  induction labels generalizing state with
  | nil =>
      cases hperform
      exact run
  | cons label labels ih =>
      unfold perform at hperform
      split at hperform
      · rename_i hallowed
        split at hperform
        · rename_i next hnext
          exact ih (run.step hallowed hnext) hperform
        · cases hperform
      · cases hperform

/-- Take the steps of `labels` and test the state they lead to. -/
def leadsTo (machine : Machine State Label Error) (allowed : State → Label → Prop)
    [∀ state label, Decidable (allowed state label)] (start : State) (labels : List Label)
    (test : State → Bool) : Bool :=
  (machine.perform allowed start labels).any test

theorem exists_of_leadsTo (machine : Machine State Label Error) (allowed : State → Label → Prop)
    [∀ state label, Decidable (allowed state label)] (start : State) (labels : List Label)
    (test : State → Bool) (hleads : machine.leadsTo allowed start labels test = true) :
    ∃ state, Run machine allowed start state ∧ test state = true := by
  unfold leadsTo at hleads
  cases hperform : machine.perform allowed start labels with
  | none =>
      rw [hperform] at hleads
      cases hleads
  | some state =>
      rw [hperform] at hleads
      exact ⟨state, Run.refl.of_perform hperform, hleads⟩

theorem Run.mono {machine : Machine State Label Error}
    {allowed weaker : State → Label → Prop} {start state : State}
    (hweaker : ∀ state label, allowed state label → weaker state label)
    (run : Run machine allowed start state) : Run machine weaker start state := by
  induction run with
  | refl => exact .refl
  | step _ hallowed hnext ih => exact .step ih (hweaker _ _ hallowed) hnext

end Machine

end VllmMlu.Library
