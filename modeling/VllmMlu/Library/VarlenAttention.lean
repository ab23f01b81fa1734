import VllmMlu.Library.Packed

/-! Causal attention over requests of various lengths, packed one behind another: what a token
has to attend to, and what a kernel makes of the start locations it is given. -/
namespace VllmMlu.Library.VarlenAttention
open Cuts Packed

/-- The token `q` attends to `k`: a token of its own request, not behind it. -/
def Causal (lens : List Nat) (q k : Nat) : Prop :=
  ∃ i len, lens[i]? = some len ∧ (lens.take i).sum ≤ k ∧ k ≤ q ∧ q < (lens.take i).sum + len

/-- The causal mask of a kernel, aligned at the bottom right: the last row of a sequence sees
all of its columns. -/
def Attends (cuSeqLensQ cuSeqLensKv : List Nat) (row col : Nat) : Prop :=
  ∃ i startQ stopQ startKv stopKv, cuSeqLensQ[i]? = some startQ ∧
    cuSeqLensQ[i + 1]? = some stopQ ∧ cuSeqLensKv[i]? = some startKv ∧
    cuSeqLensKv[i + 1]? = some stopKv ∧ (startQ ≤ row ∧ row < stopQ) ∧
    (startKv ≤ col ∧ col < stopKv) ∧
    col - startKv + (stopQ - startQ) ≤ row - startQ + (stopKv - startKv)

theorem Causal.lt {lens : List Nat} {q k : Nat} (h : Causal lens q k) : q < lens.sum := by
  obtain ⟨i, len, hi, -, -, hlt⟩ := h
  have hle := sum_take_add_le hi (List.getElem?_eq_some_iff.mp hi).1
  rw [List.take_length] at hle
  omega

theorem causal_self {lens : List Nat} {q : Nat} (h : q < lens.sum) : Causal lens q q := by
  obtain ⟨i, len, offset, hi, hlt, rfl⟩ := exists_part h
  exact ⟨i, len, hi, by omega, Nat.le_refl _, by omega⟩

theorem causal_one {len q k : Nat} : Causal [len] q k ↔ k ≤ q ∧ q < len := by
  constructor
  · rintro ⟨i, _, hi, -, hle, hlt⟩
    cases i with
    | zero =>
        cases hi
        simp only [List.take_zero, List.sum_nil, Nat.zero_add] at hlt
        exact ⟨hle, hlt⟩
    | succ i => cases hi
  · intro ⟨hle, hlt⟩
    exact ⟨0, len, rfl, Nat.zero_le _, hle, by simpa using hlt⟩

/-- Requests in front only shift the tokens. -/
theorem causal_append_left {front back : List Nat} {row k : Nat} :
    Causal (front ++ back) (front.sum + row) k ↔
      ∃ col, front.sum + col = k ∧ Causal back row col := by
  constructor
  · rintro ⟨i, len, hi, hstart, hle, hlt⟩
    rcases Nat.lt_or_ge i front.length with hfront | hback
    · rw [List.getElem?_append_left hfront] at hi
      have hend := sum_take_add_le hi hfront
      rw [List.take_append_of_le_length (by omega)] at hlt
      rw [List.take_length] at hend
      omega
    · obtain ⟨j, rfl⟩ := Nat.exists_eq_add_of_le hback
      rw [List.getElem?_append_right hback, Nat.add_sub_cancel_left] at hi
      rw [List.take_length_add_append, List.sum_append] at hstart hlt
      exact ⟨k - front.sum, by omega, j, len, hi, by omega, by omega, by omega⟩
  · rintro ⟨col, rfl, j, len, hj, hstart, hle, hlt⟩
    refine ⟨front.length + j, len, ?_, ?_, by omega, ?_⟩
    · rw [List.getElem?_append_right (by omega), Nat.add_sub_cancel_left, hj]
    · rw [List.take_length_add_append, List.sum_append]
      omega
    · rw [List.take_length_add_append, List.sum_append]
      omega

/-- Requests behind the token do not matter. -/
theorem causal_append_right {front back : List Nat} {q k : Nat} :
    q < front.sum ∧ Causal (front ++ back) q k ↔ Causal front q k := by
  constructor
  · rintro ⟨hq, i, len, hi, hstart, hle, hlt⟩
    rcases Nat.lt_or_ge i front.length with hfront | hback
    · rw [List.getElem?_append_left hfront] at hi
      rw [List.take_append_of_le_length (by omega)] at hstart hlt
      exact ⟨i, len, hi, hstart, hle, hlt⟩
    · obtain ⟨j, rfl⟩ := Nat.exists_eq_add_of_le hback
      rw [List.take_length_add_append, List.sum_append] at hstart
      omega
  · intro h
    refine ⟨h.lt, ?_⟩
    obtain ⟨i, len, hi, hstart, hle, hlt⟩ := h
    have hfront := (List.getElem?_eq_some_iff.mp hi).1
    refine ⟨i, len, ?_, ?_, hle, ?_⟩
    · rwa [List.getElem?_append_left hfront]
    · rwa [List.take_append_of_le_length (by omega)]
    · rwa [List.take_append_of_le_length (by omega)]

/-- A kernel that gets the same start locations for queries and keys. -/
theorem attends_startLocs {lens : List Nat} {row col : Nat} :
    Attends (startLocs lens) (startLocs lens) row col ↔ Causal lens row col := by
  constructor
  · rintro ⟨i, startQ, stopQ, startKv, stopKv, hstart, hstop, hstartKv, hstopKv, hrow, hcol, hle⟩
    have hi : i < lens.length := by
      have hlt := (List.getElem?_eq_some_iff.mp hstop).1
      rw [length_startLocs] at hlt
      omega
    rw [hstart] at hstartKv
    rw [hstop] at hstopKv
    cases hstartKv
    cases hstopKv
    rw [getElem?_startLocs (by omega), Option.some.injEq] at hstart hstop
    rw [List.sum_take_succ _ _ hi] at hstop
    exact ⟨i, lens[i], List.getElem?_eq_getElem hi, by omega, by omega, by omega⟩
  · rintro ⟨i, len, hlen, hstart, hle, hlt⟩
    obtain ⟨hi, rfl⟩ := List.getElem?_eq_some_iff.mp hlen
    have hstop : (startLocs lens)[i + 1]? = some ((lens.take i).sum + lens[i]) := by
      rw [getElem?_startLocs (by omega), List.sum_take_succ _ _ hi]
    exact ⟨i, _, _, _, _, getElem?_startLocs (by omega), hstop, getElem?_startLocs (by omega),
      hstop, ⟨by omega, hlt⟩, ⟨hstart, by omega⟩, by omega⟩

theorem Attends.row_lt {lens cuSeqLensKv : List Nat} {row col : Nat}
    (h : Attends (startLocs lens) cuSeqLensKv row col) : row < lens.sum := by
  obtain ⟨i, startQ, stopQ, _, _, -, hstop, -, -, hrow, -, -⟩ := h
  have hi : i + 1 ≤ lens.length := by
    have hlt := (List.getElem?_eq_some_iff.mp hstop).1
    rw [length_startLocs] at hlt
    omega
  rw [getElem?_startLocs hi, Option.some.injEq] at hstop
  have hle : (lens.take (i + 1)).sum ≤ (lens.take lens.length).sum :=
    List.monotone_sum_take lens hi
  rw [List.take_length] at hle
  omega

/-- A single sequence, of which the last `tokens` columns are rows as well. -/
theorem attends_one {context tokens row col : Nat} :
    Attends [0, tokens] [0, context + tokens] row col ↔ row < tokens ∧ col ≤ context + row := by
  constructor
  · rintro ⟨i, startQ, stopQ, startKv, stopKv, hstart, hstop, hstartKv, hstopKv, hrow, hcol, hle⟩
    cases i with
    | zero =>
        cases hstart
        cases hstop
        cases hstartKv
        cases hstopKv
        omega
    | succ i => simp at hstop
  · intro ⟨hrow, hcol⟩
    exact ⟨0, 0, tokens, 0, context + tokens, rfl, rfl, rfl, rfl, by omega, by omega, by omega⟩

end VllmMlu.Library.VarlenAttention
