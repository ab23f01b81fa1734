import Mathlib

/-! Bringing the entries that satisfy a predicate to the front of a list by swapping the
first ones that do not with the last ones that do. -/
namespace VllmMlu.Library.Swaps

variable {α : Type}

def swapAt (xs : List α) (i j : Nat) : List α :=
  match xs[i]?, xs[j]? with
  | some x, some y => (xs.set i y).set j x
  | _, _ => xs

theorem getElem?_swapAt {xs : List α} {i j : Nat} (hi : i < xs.length) (hj : j < xs.length)
    (k : Nat) :
    (swapAt xs i j)[k]? = if k = j then xs[i]? else if k = i then xs[j]? else xs[k]? := by
  unfold swapAt
  rw [List.getElem?_eq_getElem hi, List.getElem?_eq_getElem hj]
  simp only [List.getElem?_set, List.length_set]
  by_cases hkj : k = j
  · subst hkj
    simp [hj]
  · have hjk : j ≠ k := fun heq => hkj heq.symm
    by_cases hki : k = i
    · subst hki
      simp [hkj, hjk, hi]
    · have hik : i ≠ k := fun heq => hki heq.symm
      simp [hkj, hjk, hki, hik]

@[simp] theorem length_swapAt (xs : List α) (i j : Nat) : (swapAt xs i j).length = xs.length := by
  unfold swapAt
  split
  · simp
  · rfl

/-- Swap pair after pair, until the second place of a pair is before `bound`. -/
def swapUntil (bound : Nat) : List (Nat × Nat) → List α → List α
  | [], xs => xs
  | (i, j) :: rest, xs => if j < bound then xs else swapUntil bound rest (swapAt xs i j)

theorem length_swapUntil (bound : Nat) (pairs : List (Nat × Nat)) (xs : List α) :
    (swapUntil bound pairs xs).length = xs.length := by
  induction pairs generalizing xs with
  | nil => rfl
  | cons pair rest ih =>
      unfold swapUntil
      split
      · rfl
      · rw [ih, length_swapAt]

theorem swapUntil_stop {bound : Nat} {front back : List (Nat × Nat)} {xs : List α}
    (hfront : ∀ pair ∈ front, bound ≤ pair.2) (hback : ∀ pair ∈ back, pair.2 < bound) :
    swapUntil bound (front ++ back) xs =
      front.foldl (fun xs pair => swapAt xs pair.1 pair.2) xs := by
  induction front generalizing xs with
  | nil =>
      cases back with
      | nil => rfl
      | cons pair rest => exact if_pos (hback pair List.mem_cons_self)
  | cons pair rest ih =>
      have hfirst := hfront pair List.mem_cons_self
      rw [List.cons_append, swapUntil, if_neg (by omega), List.foldl_cons,
        ih fun other hmem => hfront other (List.mem_cons_of_mem _ hmem)]

/-- Swaps at places that are all different: each pair of places changes over. -/
theorem foldl_swapAt {pairs : List (Nat × Nat)} {xs : List α}
    (hnodup : (pairs.map Prod.fst ++ pairs.map Prod.snd).Nodup)
    (hlt : ∀ pair ∈ pairs, pair.1 < xs.length ∧ pair.2 < xs.length) :
    (∀ k, k ∉ pairs.map Prod.fst → k ∉ pairs.map Prod.snd →
      (pairs.foldl (fun xs pair => swapAt xs pair.1 pair.2) xs)[k]? = xs[k]?) ∧
    ∀ pair ∈ pairs,
      (pairs.foldl (fun xs pair => swapAt xs pair.1 pair.2) xs)[pair.1]? = xs[pair.2]? ∧
        (pairs.foldl (fun xs pair => swapAt xs pair.1 pair.2) xs)[pair.2]? = xs[pair.1]? := by
  induction pairs generalizing xs with
  | nil => simp
  | cons head rest ih =>
      obtain ⟨i, j⟩ := head
      obtain ⟨hi, hj⟩ := hlt (i, j) List.mem_cons_self
      simp only [List.map_cons, List.cons_append, List.nodup_cons, List.mem_append,
        List.mem_cons, not_or, List.nodup_middle] at hnodup
      obtain ⟨⟨hifst, hij, hisnd⟩, ⟨hjfst, hjsnd⟩, hrest⟩ := hnodup
      obtain ⟨hsame, hpairs⟩ := @ih (swapAt xs i j) hrest (by
        intro pair hmem
        rw [length_swapAt]
        exact hlt pair (List.mem_cons_of_mem _ hmem))
      have hget := getElem?_swapAt hi hj
      constructor
      · intro k hfst hsnd
        simp only [List.map_cons, List.mem_cons, not_or] at hfst hsnd
        rw [List.foldl_cons, hsame k hfst.2 hsnd.2, hget, if_neg hsnd.1, if_neg hfst.1]
      · intro pair hmem
        rw [List.foldl_cons]
        rcases List.mem_cons.mp hmem with rfl | hin
        · rw [hsame i hifst hisnd, hsame j hjfst hjsnd, hget, hget]
          simp [hij]
        · have hfst : pair.1 ∈ rest.map Prod.fst := List.mem_map_of_mem hin
          have hsnd : pair.2 ∈ rest.map Prod.snd := List.mem_map_of_mem hin
          obtain ⟨hone, hother⟩ := hpairs pair hin
          have hne : pair.1 ≠ i ∧ pair.1 ≠ j ∧ pair.2 ≠ i ∧ pair.2 ≠ j := by
            refine ⟨?_, ?_, ?_, ?_⟩ <;> rintro rfl
            · exact hifst hfst
            · exact hjfst hfst
            · exact hisnd hsnd
            · exact hjsnd hsnd
          rw [hone, hother, hget, hget, if_neg hne.2.2.2, if_neg hne.2.2.1, if_neg hne.2.1,
            if_neg hne.1]
          exact ⟨rfl, rfl⟩

/-- The places, counted from `start` on, of the entries that satisfy `p`. -/
def placesFrom (start : Nat) (p : α → Bool) (xs : List α) : List Nat :=
  ((xs.zipIdx start).filter fun entry => p entry.1).map Prod.snd

theorem placesFrom_append (start : Nat) (p : α → Bool) (front back : List α) :
    placesFrom start p (front ++ back) =
      placesFrom start p front ++ placesFrom (start + front.length) p back := by
  simp [placesFrom, List.zipIdx_append]

theorem placesFrom_cons (start : Nat) (p : α → Bool) (x : α) (rest : List α) :
    placesFrom start p (x :: rest) =
      if p x then start :: placesFrom (start + 1) p rest else placesFrom (start + 1) p rest := by
  unfold placesFrom
  rw [List.zipIdx_cons, List.filter_cons]
  split <;> rfl

theorem mem_placesFrom {start i : Nat} {p : α → Bool} {xs : List α} :
    i ∈ placesFrom start p xs ↔ start ≤ i ∧ ∃ x, xs[i - start]? = some x ∧ p x = true := by
  simp only [placesFrom, List.mem_map, List.mem_filter, Prod.exists, exists_eq_right,
    List.mem_zipIdx_iff_le_and_getElem?_sub]
  constructor
  · rintro ⟨x, ⟨hle, hget⟩, hp⟩
    exact ⟨hle, x, hget, hp⟩
  · rintro ⟨hle, x, hget, hp⟩
    exact ⟨x, ⟨hle, hget⟩, hp⟩

theorem nodup_placesFrom (start : Nat) (p : α → Bool) (xs : List α) :
    (placesFrom start p xs).Nodup := by
  have hsub : (placesFrom start p xs).Sublist ((xs.zipIdx start).map Prod.snd) :=
    List.filter_sublist.map _
  rw [List.zipIdx_map_snd] at hsub
  exact hsub.nodup List.nodup_range'

@[simp] theorem length_placesFrom (start : Nat) (p : α → Bool) (xs : List α) :
    (placesFrom start p xs).length = (xs.filter p).length := by
  have hmap : ((xs.zipIdx start).filter fun entry => p entry.1).map Prod.fst = xs.filter p := by
    have hfilter := List.filter_map (f := Prod.fst) (p := p) (l := xs.zipIdx start)
    rw [List.zipIdx_map_fst] at hfilter
    exact hfilter.symm
  rw [placesFrom, List.length_map, ← hmap, List.length_map]

/-- The last place is the one of the last entry that satisfies `p`. -/
theorem getLast?_placesFrom (p : α → Bool) (xs : List α) {i : Nat}
    (h : (placesFrom 0 p xs).getLast? = some i) : xs[i]? = (xs.filter p).getLast? := by
  induction xs using List.reverseRecOn with
  | nil => simp [placesFrom] at h
  | append_singleton front x ih =>
      rw [placesFrom_append, placesFrom_cons] at h
      rw [List.filter_append]
      cases hx : p x with
      | true =>
          simp [hx, placesFrom] at h
          subst h
          simp [hx]
      | false =>
          simp only [hx, Bool.false_eq_true, if_false, placesFrom, List.zipIdx_nil,
            List.filter_nil, List.map_nil, List.append_nil] at h
          have hlast := ih h
          have hmem : i ∈ placesFrom 0 p front := List.mem_of_getLast? h
          obtain ⟨_, y, hget, _⟩ := mem_placesFrom.mp hmem
          have hlt : i < front.length := by
            have := (List.getElem?_eq_some_iff.mp hget).1
            omega
          rw [List.getElem?_append_left hlt, hlast]
          simp [hx]

/-- Swap the first entries that do not satisfy `p` with the last ones that do, until the
latter are no longer behind the place where they would end. -/
def bringForward (p : α → Bool) (xs : List α) : List α :=
  let yes := placesFrom 0 p xs
  let no := placesFrom 0 (fun x => !p x) xs
  swapUntil yes.length (no.zip yes.reverse) xs

theorem length_filter_not (p : α → Bool) (xs : List α) :
    (xs.filter p).length + (xs.filter fun x => !p x).length = xs.length := by
  induction xs with
  | nil => rfl
  | cons x rest ih =>
      cases hx : p x with
      | true =>
          simp only [List.filter_cons, hx, if_true, Bool.not_true, Bool.false_eq_true, if_false,
            List.length_cons]
          omega
      | false =>
          simp only [List.filter_cons, hx, if_true, Bool.not_false, Bool.false_eq_true, if_false,
            List.length_cons]
          omega

/-- The pairs to be swapped: first those of the entries at the front that do not satisfy `p`
and the ones behind that do, of which there are equally many. -/
theorem pairs_split (p : α → Bool) (xs : List α) :
    let count := (xs.filter p).length
    let no := placesFrom 0 (fun x => !p x) (xs.take count)
    let yes := placesFrom count p (xs.drop count)
    no.length = yes.length ∧ ∃ back,
      (placesFrom 0 (fun x => !p x) xs).zip (placesFrom 0 p xs).reverse =
        no.zip yes.reverse ++ back ∧
      (∀ pair ∈ no.zip yes.reverse, count ≤ pair.2) ∧ ∀ pair ∈ back, pair.2 < count := by
  intro count no yes
  have hcount : count ≤ xs.length := List.length_filter_le p xs
  have htake : (xs.take count).length = count := by
    rw [List.length_take]
    omega
  have hsplit := length_filter_not p (xs.take count)
  have hall : ((xs.take count).filter p).length + ((xs.drop count).filter p).length = count := by
    rw [← List.length_append, ← List.filter_append, List.take_append_drop]
  have hlength : no.length = yes.length := by
    simp only [no, yes, length_placesFrom]
    omega
  have hyes : placesFrom 0 p xs = placesFrom 0 p (xs.take count) ++ yes := by
    conv_lhs => rw [← List.take_append_drop count xs]
    rw [placesFrom_append, htake, Nat.zero_add]
  have hno : placesFrom 0 (fun x => !p x) xs =
      no ++ placesFrom count (fun x => !p x) (xs.drop count) := by
    conv_lhs => rw [← List.take_append_drop count xs]
    rw [placesFrom_append, htake, Nat.zero_add]
  refine ⟨hlength, (placesFrom count (fun x => !p x) (xs.drop count)).zip
    (placesFrom 0 p (xs.take count)).reverse, ?_, ?_, ?_⟩
  · rw [hno, hyes, List.reverse_append, List.zip_append (by simp [hlength])]
  · rintro ⟨i, j⟩ hmem
    have hj := List.mem_reverse.mp (List.of_mem_zip hmem).2
    exact (mem_placesFrom.mp hj).1
  · rintro ⟨i, j⟩ hmem
    have hj := List.mem_reverse.mp (List.of_mem_zip hmem).2
    obtain ⟨_, x, hget, _⟩ := mem_placesFrom.mp hj
    have := (List.getElem?_eq_some_iff.mp hget).1
    omega

/-- The swaps that are made. -/
theorem bringForward_eq (p : α → Bool) (xs : List α) :
    let count := (xs.filter p).length
    let no := placesFrom 0 (fun x => !p x) (xs.take count)
    let yes := placesFrom count p (xs.drop count)
    no.length = yes.length ∧
      bringForward p xs =
        (no.zip yes.reverse).foldl (fun xs pair => swapAt xs pair.1 pair.2) xs := by
  intro count no yes
  obtain ⟨hlength, back, hpairs, hfront, hback⟩ := pairs_split p xs
  refine ⟨hlength, ?_⟩
  rw [bringForward, hpairs, length_placesFrom]
  exact swapUntil_stop hfront hback

theorem swapAt_perm (xs : List α) (i j : Nat) : (swapAt xs i j).Perm xs := by
  unfold swapAt
  split
  · rename_i x y hx hy
    obtain ⟨hi, rfl⟩ := List.getElem?_eq_some_iff.mp hx
    obtain ⟨hj, rfl⟩ := List.getElem?_eq_some_iff.mp hy
    exact List.set_set_perm hi hj
  · exact .refl _

theorem bringForward_perm (p : α → Bool) (xs : List α) : (bringForward p xs).Perm xs := by
  have hfold : ∀ (pairs : List (Nat × Nat)) (rows : List α),
      (pairs.foldl (fun rows pair => swapAt rows pair.1 pair.2) rows).Perm rows := by
    intro pairs
    induction pairs with
    | nil => exact fun rows => .refl _
    | cons pair rest ih => exact fun rows => (ih _).trans (swapAt_perm rows _ _)
  obtain ⟨-, hswaps⟩ := bringForward_eq p xs
  rw [hswaps]
  exact hfold _ xs

/-- Each of the swapped places has the entry of the other, and no other place changes. -/
theorem swaps_change (p : α → Bool) (xs : List α) :
    let count := (xs.filter p).length
    let no := placesFrom 0 (fun x => !p x) (xs.take count)
    let yes := placesFrom count p (xs.drop count)
    (∀ i, i ∉ no → i ∉ yes → (bringForward p xs)[i]? = xs[i]?) ∧
      ∀ pair ∈ no.zip yes.reverse,
        (bringForward p xs)[pair.1]? = xs[pair.2]? ∧
          (bringForward p xs)[pair.2]? = xs[pair.1]? := by
  intro count no yes
  obtain ⟨hlength, heq⟩ := bringForward_eq p xs
  have hno : ∀ i ∈ no, i < count ∧ i < xs.length := by
    intro i hi
    obtain ⟨_, x, hget, _⟩ := mem_placesFrom.mp hi
    have hlt := (List.getElem?_eq_some_iff.mp hget).1
    rw [List.length_take] at hlt
    omega
  have hyes : ∀ i ∈ yes, count ≤ i ∧ i < xs.length := by
    intro i hi
    obtain ⟨hle, x, hget, _⟩ := mem_placesFrom.mp hi
    have hlt := (List.getElem?_eq_some_iff.mp hget).1
    rw [List.length_drop] at hlt
    omega
  have hfst : (no.zip yes.reverse).map Prod.fst = no :=
    List.map_fst_zip (by rw [List.length_reverse]; exact hlength.le)
  have hsnd : (no.zip yes.reverse).map Prod.snd = yes.reverse :=
    List.map_snd_zip (by rw [List.length_reverse]; exact hlength.ge)
  have hnodup : ((no.zip yes.reverse).map Prod.fst ++ (no.zip yes.reverse).map Prod.snd).Nodup := by
    rw [hfst, hsnd, List.nodup_append]
    refine ⟨nodup_placesFrom _ _ _, List.nodup_reverse.mpr (nodup_placesFrom _ _ _), ?_⟩
    rintro i hi j hj rfl
    have := hno i hi
    have := hyes i (List.mem_reverse.mp hj)
    omega
  have hlt : ∀ pair ∈ no.zip yes.reverse, pair.1 < xs.length ∧ pair.2 < xs.length := by
    rintro ⟨i, j⟩ hmem
    exact ⟨(hno i (List.of_mem_zip hmem).1).2,
      (hyes j (List.mem_reverse.mp (List.of_mem_zip hmem).2)).2⟩
  obtain ⟨hsame, hpairs⟩ := foldl_swapAt hnodup hlt
  rw [hfst, hsnd] at hsame
  rw [heq]
  exact ⟨fun i hi hj => hsame i hi (fun hmem => hj (List.mem_reverse.mp hmem)), hpairs⟩

theorem mem_front_places {p : α → Bool} {xs : List α} {count i : Nat} :
    i ∈ placesFrom 0 p (xs.take count) ↔ i < count ∧ ∃ x, xs[i]? = some x ∧ p x = true := by
  rw [mem_placesFrom, Nat.sub_zero, List.getElem?_take]
  by_cases hi : i < count
  · simp [hi]
  · simp [hi]

theorem mem_back_places {p : α → Bool} {xs : List α} {count i : Nat} :
    i ∈ placesFrom count p (xs.drop count) ↔ count ≤ i ∧ ∃ x, xs[i]? = some x ∧ p x = true := by
  rw [mem_placesFrom, List.getElem?_drop]
  apply and_congr_right
  intro hi
  rw [Nat.add_sub_cancel' hi]

/-- Afterwards the entries that satisfy `p` are those at the front. -/
theorem bringForward_front (p : α → Bool) (xs : List α) {i : Nat} {x : α}
    (h : (bringForward p xs)[i]? = some x) : i < (xs.filter p).length ↔ p x = true := by
  obtain ⟨hlength, -⟩ := bringForward_eq p xs
  obtain ⟨hsame, hpairs⟩ := swaps_change p xs
  by_cases hno : i ∈ placesFrom 0 (fun x => !p x) (xs.take (xs.filter p).length)
  · have hzip : i ∈ ((placesFrom 0 (fun x => !p x) (xs.take (xs.filter p).length)).zip
        (placesFrom (xs.filter p).length p (xs.drop (xs.filter p).length)).reverse).map
          Prod.fst := by
      rwa [List.map_fst_zip (by rw [List.length_reverse]; exact hlength.le)]
    obtain ⟨⟨_, j⟩, hpair, rfl⟩ := List.mem_map.mp hzip
    obtain ⟨_, y, hget, hy⟩ :=
      mem_back_places.mp (List.mem_reverse.mp (List.of_mem_zip hpair).2)
    rw [(hpairs _ hpair).1, hget] at h
    cases h
    exact iff_of_true (mem_front_places.mp hno).1 hy
  by_cases hyes : i ∈ placesFrom (xs.filter p).length p (xs.drop (xs.filter p).length)
  · have hzip : i ∈ ((placesFrom 0 (fun x => !p x) (xs.take (xs.filter p).length)).zip
        (placesFrom (xs.filter p).length p (xs.drop (xs.filter p).length)).reverse).map
          Prod.snd := by
      rwa [List.map_snd_zip (by rw [List.length_reverse]; exact hlength.ge), List.mem_reverse]
    obtain ⟨⟨j, _⟩, hpair, rfl⟩ := List.mem_map.mp hzip
    obtain ⟨_, y, hget, hy⟩ := mem_front_places.mp (List.of_mem_zip hpair).1
    rw [(hpairs _ hpair).2, hget] at h
    cases h
    have hle := (mem_back_places.mp hyes).1
    exact iff_of_false (by simp only; omega) (by simpa using hy)
  · rw [hsame i hno hyes] at h
    rw [mem_front_places] at hno
    rw [mem_back_places] at hyes
    constructor
    · intro hi
      by_contra hx
      exact hno ⟨hi, x, h, by simpa using hx⟩
    · intro hx
      by_contra hi
      exact hyes ⟨by omega, x, h, hx⟩

/-- The entry behind the front is the last one up to its place that does not satisfy `p`. -/
theorem bringForward_next (p : α → Bool) (xs : List α) :
    (bringForward p xs)[(xs.filter p).length]? =
      ((xs.take ((xs.filter p).length + 1)).filter fun x => !p x).getLast? := by
  obtain ⟨hlength, -⟩ := bringForward_eq p xs
  obtain ⟨hsame, hpairs⟩ := swaps_change p xs
  set count := (xs.filter p).length with hcount
  have hnone : count ∉ placesFrom 0 (fun x => !p x) (xs.take count) := by
    rw [mem_front_places]
    omega
  cases hnext : xs[count]? with
  | none =>
      have hend : xs.length ≤ count := List.getElem?_eq_none_iff.mp hnext
      have hall := length_filter_not p xs
      have hback : count ∉ placesFrom count p (xs.drop count) := by
        rw [mem_back_places, hnext]
        simp
      rw [hsame count hnone hback, hnext, List.take_of_length_le (by omega)]
      have hempty : (xs.filter fun x => !p x) = [] := by
        apply List.length_eq_zero_iff.mp
        omega
      rw [hempty]
      rfl
  | some x =>
      obtain ⟨hlt, hx⟩ := List.getElem?_eq_some_iff.mp hnext
      rw [List.take_add_one, hnext, List.filter_append]
      cases hpx : p x with
      | false =>
          have hback : count ∉ placesFrom count p (xs.drop count) := by
            rw [mem_back_places, hnext]
            simp [hpx]
          rw [hsame count hnone hback, hnext]
          simp [hpx]
      | true =>
          -- The entry at this place goes to the front, and the last one there comes back for it.
          have hdrop : xs.drop count = x :: xs.drop (count + 1) := by
            rw [List.drop_eq_getElem_cons hlt, hx]
          have hyes : placesFrom count p (xs.drop count) =
              count :: placesFrom (count + 1) p (xs.drop (count + 1)) := by
            rw [hdrop, placesFrom_cons, if_pos hpx]
          have hne : placesFrom 0 (fun x => !p x) (xs.take count) ≠ [] := by
            intro hempty
            rw [hempty, hyes] at hlength
            simp at hlength
          obtain ⟨front, last, hno⟩ : ∃ front last,
              placesFrom 0 (fun x => !p x) (xs.take count) = front ++ [last] :=
            ⟨_, _, (List.dropLast_append_getLast hne).symm⟩
          have hpair : (last, count) ∈ (placesFrom 0 (fun x => !p x) (xs.take count)).zip
              (placesFrom count p (xs.drop count)).reverse := by
            rw [hno, hyes, List.reverse_cons, List.zip_append]
            · simp
            · rw [hno, hyes] at hlength
              simpa using hlength
          have hlast : (placesFrom 0 (fun x => !p x) (xs.take count)).getLast? = some last := by
            rw [hno]
            simp
          have hget := getLast?_placesFrom _ _ hlast
          have hfront : last < count := by
            have hmem : last ∈ placesFrom 0 (fun x => !p x) (xs.take count) := by
              rw [hno]
              simp
            exact (mem_front_places.mp hmem).1
          rw [List.getElem?_take_of_lt hfront] at hget
          rw [(hpairs _ hpair).2, hget]
          simp [hpx]

theorem length_bringForward (p : α → Bool) (xs : List α) :
    (bringForward p xs).length = xs.length := length_swapUntil _ _ xs

end VllmMlu.Library.Swaps
