import Mathlib

/-! One program per rank, run in lock step. A rank stops at every collective
call until all ranks stand at the same one; `exchange` says what each of them
then receives. -/
namespace VllmMlu.Library

inductive Program (Call Data : Type) (Result : Type) where
  | done (value : Result)
  /-- An exception of the rank's own code. -/
  | abort
  | collective (call : Call) (input : Data) (next : Data → Program Call Data Result)

namespace Program

variable {Call Data Result Other : Type}

def bind : Program Call Data Result → (Result → Program Call Data Other) →
    Program Call Data Other
  | .done value, rest => rest value
  | .abort, _ => .abort
  | .collective call input next, rest =>
      .collective call input fun reply => (next reply).bind rest

instance : Monad (Program Call Data) where
  pure := .done
  bind := bind

def ofOption : Option Result → Program Call Data Result
  | some value => .done value
  | none => .abort

def value? : Program Call Data Result → Option Result
  | .done value => some value
  | _ => none

def waiting? : Program Call Data Result →
    Option (Call × Data × (Data → Program Call Data Result))
  | .collective call input next => some (call, input, next)
  | _ => none

@[simp] theorem pure_eq_done (value : Result) :
    (pure value : Program Call Data Result) = .done value := rfl

@[simp] theorem done_bind (value : Result) (rest : Result → Program Call Data Other) :
    (.done value : Program Call Data Result) >>= rest = rest value := rfl

@[simp] theorem abort_bind (rest : Result → Program Call Data Other) :
    (.abort : Program Call Data Result) >>= rest = .abort := rfl

@[simp] theorem collective_bind (call : Call) (input : Data)
    (next : Data → Program Call Data Result) (rest : Result → Program Call Data Other) :
    (.collective call input next) >>= rest =
      .collective call input fun reply => next reply >>= rest := rfl

theorem bind_assoc {Last : Type} (program : Program Call Data Result)
    (first : Result → Program Call Data Other) (second : Other → Program Call Data Last) :
    program >>= first >>= second = program >>= fun value => first value >>= second := by
  induction program with
  | done value => rfl
  | abort => rfl
  | collective call input next ih =>
      simp only [collective_bind]
      congr 1
      funext reply
      exact ih reply

theorem value?_eq_some {program : Program Call Data Result} {value : Result}
    (h : program.value? = some value) : program = .done value := by
  cases program with
  | done result => rw [Option.some.inj h]
  | abort => cases h
  | collective call input next => cases h

theorem waiting?_eq_some {program : Program Call Data Result} {call : Call} {input : Data}
    {next : Data → Program Call Data Result} (h : program.waiting? = some (call, input, next)) :
    program = .collective call input next := by
  cases program with
  | done result => cases h
  | abort => cases h
  | collective other first rest => cases h; rfl

/-- The program among calls and data of more kinds. -/
def embed {Call' Data' : Type} (call' : Call → Call') (inject : Data → Data')
    (project : Data' → Option Data) : Program Call Data Result → Program Call' Data' Result
  | .done value => .done value
  | .abort => .abort
  | .collective call input next =>
      .collective (call' call) (inject input) fun reply =>
        match project reply with
        | none => .abort
        | some reply => (next reply).embed call' inject project

variable {Rank : Type} [Fintype Rank] [DecidableEq Call]
  (exchange : Call → (Rank → Data) → Option (Rank → Data)) (lead : Rank)

/-- Structural in the program of the rank `lead`, the other ranks following it. -/
def runFrom : Program Call Data Result → (Rank → Program Call Data Result) →
    Option (Rank → Result)
  | .done _, ranks =>
      if h : ∀ rank, (ranks rank).value?.isSome then
        some fun rank => (ranks rank).value?.get (h rank)
      else
        none
  | .abort, _ => none
  | .collective call _ next, ranks =>
      if h : ∀ rank, (ranks rank).waiting?.isSome then
        if ∀ rank, ((ranks rank).waiting?.get (h rank)).1 = call then
          match exchange call fun rank => ((ranks rank).waiting?.get (h rank)).2.1 with
          | none => none
          | some replies =>
              runFrom (next (replies lead)) fun rank =>
                ((ranks rank).waiting?.get (h rank)).2.2 (replies rank)
        else
          none
      else
        none

/-- What the ranks return, or `none` where one of them raises, a collective
refuses its inputs, or the ranks do not stand at the same collective. -/
def run (ranks : Rank → Program Call Data Result) : Option (Rank → Result) :=
  runFrom exchange lead (ranks lead) ranks

@[simp] theorem run_done (values : Rank → Result) :
    run exchange lead (fun rank => .done (values rank)) = some values := by
  rw [run, runFrom, dif_pos (by intro rank; rfl)]
  rfl

@[simp] theorem run_collective (call : Call) (inputs : Rank → Data)
    (next : Rank → Data → Program Call Data Result) :
    run exchange lead (fun rank => .collective call (inputs rank) (next rank)) =
      (exchange call inputs).bind fun replies =>
        run exchange lead fun rank => next rank (replies rank) := by
  rw [run, runFrom, dif_pos (by intro rank; rfl), if_pos (by intro rank; rfl)]
  simp only [waiting?, Option.get_some]
  cases exchange call inputs with
  | none => rfl
  | some replies => rfl

@[simp] theorem run_abort :
    run exchange lead (fun _ => (.abort : Program Call Data Result)) = none := rfl

/-- A rank that raises stops all. -/
theorem run_eq_none_of_abort {ranks : Rank → Program Call Data Result} (rank : Rank)
    (h : ranks rank = .abort) : run exchange lead ranks = none := by
  have hvalue : ¬∀ rank, (ranks rank).value?.isSome := fun hall => by
    have := hall rank
    rw [h] at this
    cases this
  have hwaiting : ¬∀ rank, (ranks rank).waiting?.isSome := fun hall => by
    have := hall rank
    rw [h] at this
    cases this
  unfold run
  cases hlead : ranks lead with
  | done value => rw [runFrom, dif_neg hvalue]
  | abort => rw [runFrom]
  | collective call input next => rw [runFrom, dif_neg hwaiting]

theorem runFrom_done {value : Result} {ranks : Rank → Program Call Data Result}
    {values : Rank → Result} (h : runFrom exchange lead (.done value) ranks = some values) :
    ranks = fun rank => .done (values rank) := by
  rw [runFrom] at h
  split at h
  · cases h
    funext rank
    apply value?_eq_some
    simp
  · cases h

theorem runFrom_collective {call : Call} {input : Data} {next : Data → Program Call Data Result}
    {ranks : Rank → Program Call Data Result} {values : Rank → Result}
    (h : runFrom exchange lead (.collective call input next) ranks = some values) :
    ∃ (inputs replies : Rank → Data) (nexts : Rank → Data → Program Call Data Result),
      (ranks = fun rank => .collective call (inputs rank) (nexts rank)) ∧
      exchange call inputs = some replies ∧
      runFrom exchange lead (next (replies lead)) (fun rank => nexts rank (replies rank)) =
        some values := by
  rw [runFrom] at h
  split at h
  · rename_i hall
    split at h
    · rename_i hsame
      split at h
      · cases h
      · rename_i replies hreplies
        refine ⟨_, replies, _, ?_, hreplies, h⟩
        funext rank
        apply waiting?_eq_some
        rw [← hsame rank]
        simp
    · cases h
  · cases h

/-- A run of the first halves, then a run of the second halves on its results. -/
theorem run_bind {first : Rank → Program Call Data Result} {values : Rank → Result}
    (hfirst : run exchange lead first = some values)
    (rest : Rank → Result → Program Call Data Other) :
    run exchange lead (fun rank => first rank >>= rest rank) =
      run exchange lead fun rank => rest rank (values rank) := by
  unfold run at hfirst
  generalize hlead : first lead = program at hfirst
  induction program generalizing first with
  | abort => cases hfirst
  | done value =>
      rw [runFrom_done exchange lead hfirst]
      rfl
  | collective call input next ih =>
      obtain ⟨inputs, replies, nexts, rfl, hreplies, hrest⟩ :=
        runFrom_collective exchange lead hfirst
      cases hlead
      simp only [collective_bind, run_collective, hreplies, Option.bind_some]
      exact ih (replies lead) rfl hrest

/-- A run stays a run among calls and data of more kinds. -/
theorem run_embed {Call' Data' : Type} [DecidableEq Call']
    {exchange' : Call' → (Rank → Data') → Option (Rank → Data')} {call' : Call → Call'}
    {inject : Data → Data'} {project : Data' → Option Data}
    (hproject : ∀ data, project (inject data) = some data)
    (hexchange : ∀ call inputs replies, exchange call inputs = some replies →
      exchange' (call' call) (fun rank => inject (inputs rank)) =
        some fun rank => inject (replies rank))
    {ranks : Rank → Program Call Data Result} {values : Rank → Result}
    (hrun : run exchange lead ranks = some values) :
    run exchange' lead (fun rank => (ranks rank).embed call' inject project) = some values := by
  unfold run at hrun
  generalize hlead : ranks lead = program at hrun
  induction program generalizing ranks with
  | abort => cases hrun
  | done value =>
      rw [runFrom_done exchange lead hrun]
      exact run_done _ _ _
  | collective call input next ih =>
      obtain ⟨inputs, replies, nexts, rfl, hreplies, hrest⟩ :=
        runFrom_collective exchange lead hrun
      cases hlead
      simp only [embed, run_collective, hexchange call inputs replies hreplies, Option.bind_some,
        hproject]
      exact ih (replies lead) rfl hrest

end Program
end VllmMlu.Library
