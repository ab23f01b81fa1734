import Mathlib.Data.List.Basic
import Mathlib.Tactic.Common

/-! Speculative decoding of one request: drafts that are accepted up to the first rejection, and
one more token. -/
namespace VllmMlu.Library.Speculation

variable {α : Type}

/-- The drafts of a request, which of them are accepted, the token in the place of a rejected
draft, and the token after the last draft. -/
structure Verdict (α : Type) where
  drafts : List α
  accepts : Nat → Bool
  correction : Nat → α
  bonus : α

namespace Verdict

variable (v : Verdict α)

/-- The length of the longest accepted prefix of the drafts. -/
def accepted : Nat := (List.range v.drafts.length).findIdx fun pos => !v.accepts pos

/-- The token after the accepted prefix. -/
def last : α := if v.accepted < v.drafts.length then v.correction v.accepted else v.bonus

def emitted : List α := v.drafts.take v.accepted ++ [v.last]

theorem accepted_le : v.accepted ≤ v.drafts.length := by
  calc v.accepted ≤ (List.range v.drafts.length).length := List.findIdx_le_length
    _ = v.drafts.length := List.length_range

theorem length_acceptedDrafts : (v.drafts.take v.accepted).length = v.accepted := by
  rw [List.length_take, Nat.min_eq_left v.accepted_le]

@[simp] theorem length_emitted : v.emitted.length = v.accepted + 1 := by
  rw [emitted, List.length_append, length_acceptedDrafts, List.length_singleton]

variable {v}

theorem accepts_of_lt {pos : Nat} (h : pos < v.accepted) : v.accepts pos = true := by
  have hnot := List.not_of_lt_findIdx h
  simpa using hnot

theorem not_accepts_accepted (h : v.accepted < v.drafts.length) :
    v.accepts v.accepted = false := by
  have hfound := @List.findIdx_getElem _ (fun pos => !v.accepts pos)
    (List.range v.drafts.length) (by simpa [accepted] using h)
  simpa [accepted] using hfound

/-- The first drafts are all accepted where the accepted prefix reaches as far. -/
theorem le_accepted_iff {count : Nat} (h : count ≤ v.drafts.length) :
    count ≤ v.accepted ↔ ∀ pos < count, v.accepts pos = true := by
  constructor
  · intro hle pos hlt
    exact accepts_of_lt (by omega)
  · intro haccepts
    by_contra hlt
    have hfalse := not_accepts_accepted (v := v) (by omega)
    rw [haccepts _ (by omega)] at hfalse
    cases hfalse

theorem lt_accepted_iff {pos : Nat} (h : pos < v.drafts.length) (hle : pos ≤ v.accepted) :
    pos < v.accepted ↔ v.accepts pos = true := by
  refine ⟨accepts_of_lt, fun haccepts => Nat.lt_of_le_of_ne hle ?_⟩
  rintro rfl
  rw [not_accepts_accepted h] at haccepts
  cases haccepts

/-- What is emitted at a position that is reached: its draft or the correction. -/
theorem getElem?_emitted {pos : Nat} {draft : α} (hdraft : v.drafts[pos]? = some draft)
    (hle : pos ≤ v.accepted) :
    v.emitted[pos]? = some (if v.accepts pos then draft else v.correction pos) := by
  have hlt : pos < v.drafts.length := (List.getElem?_eq_some_iff.mp hdraft).1
  rw [emitted]
  rcases Nat.lt_or_eq_of_le hle with hbefore | rfl
  · rw [List.getElem?_append_left (by rwa [length_acceptedDrafts]), List.getElem?_take_of_lt hbefore,
      hdraft, if_pos (accepts_of_lt hbefore)]
  · rw [List.getElem?_append_right (Nat.le_of_eq v.length_acceptedDrafts),
      length_acceptedDrafts, Nat.sub_self, last, if_pos hlt, not_accepts_accepted hlt]
    rfl

theorem getElem?_emitted_bonus (h : v.accepted = v.drafts.length) :
    v.emitted[v.drafts.length]? = some v.bonus := by
  rw [← h, emitted, List.getElem?_append_right (Nat.le_of_eq v.length_acceptedDrafts),
    length_acceptedDrafts, Nat.sub_self, last, if_neg (by omega)]
  rfl

end Verdict

/-- Decoding one token at a time: each token is the next one of all before it. -/
def decode (next : List α → α) (context : List α) : Nat → List α
  | 0 => []
  | count + 1 =>
    let token := next context
    token :: decode next (context ++ [token]) count

theorem decode_succ (next : List α → α) (context : List α) (count : Nat) :
    decode next context (count + 1) =
      decode next context count ++ [next (context ++ decode next context count)] := by
  induction count generalizing context with
  | zero => simp [decode]
  | succ count ih =>
      rw [decode, ih, decode]
      simp

theorem decode_add (next : List α → α) (context : List α) (count more : Nat) :
    decode next context (count + more) =
      decode next context count ++ decode next (context ++ decode next context count) more := by
  induction more with
  | zero => simp [decode]
  | succ more ih =>
      rw [← Nat.add_assoc, decode_succ, decode_succ, ih, List.append_assoc, List.append_assoc]

/-- Drafts that are the tokens of the model one after the other. -/
theorem decode_eq_take {next : List α → α} {context drafts : List α} {count : Nat}
    (h : ∀ pos < count, drafts[pos]? = some (next (context ++ drafts.take pos))) :
    decode next context count = drafts.take count := by
  induction count with
  | zero => simp [decode]
  | succ count ih =>
      rw [decode_succ, ih fun pos hlt => h pos (by omega), List.take_add_one,
        h count (by omega), Option.toList_some]

/-- A verdict by the model itself emits what the model decodes. -/
theorem emitted_eq_decode [DecidableEq α] {v : Verdict α} {next : List α → α}
    {context : List α}
    (haccepts : ∀ pos < v.drafts.length,
      v.accepts pos = decide (v.drafts[pos]? = some (v.correction pos)))
    (hcorrection : ∀ pos < v.drafts.length,
      v.correction pos = next (context ++ v.drafts.take pos))
    (hbonus : v.bonus = next (context ++ v.drafts)) :
    v.emitted = decode next context (v.accepted + 1) := by
  have hprefix : decode next context v.accepted = v.drafts.take v.accepted := by
    apply decode_eq_take
    intro pos hlt
    have hpos : pos < v.drafts.length := Nat.lt_of_lt_of_le hlt v.accepted_le
    have hsame := haccepts pos hpos
    rw [Verdict.accepts_of_lt hlt] at hsame
    rw [of_decide_eq_true hsame.symm, hcorrection pos hpos]
  have hlast : v.last = next (context ++ v.drafts.take v.accepted) := by
    rw [Verdict.last]
    split
    case isTrue hlt => rw [hcorrection _ hlt]
    case isFalse hge => rw [hbonus, List.take_of_length_le (by omega)]
  rw [decode_succ, hprefix, Verdict.emitted, hlast]

end VllmMlu.Library.Speculation
