import VllmMlu.Library.Cuts

/-! Elements sorted by a key: the ranges of keys are slices at the numbers of smaller keys, and a
scatter undoes the sort. -/
namespace VllmMlu.Library.Dispatch

open Rows

variable {α β : Type} {key : α → Nat} {items : List α}

/-- How many elements have a smaller key. -/
def below (key : α → Nat) (items : List α) (bound : Nat) : Nat :=
  items.countP fun item => key item < bound

theorem below_zero (key : α → Nat) (items : List α) : below key items 0 = 0 :=
  List.countP_eq_zero.mpr fun item _ => by simp

theorem below_mono {first last : Nat} (hle : first ≤ last) :
    below key items first ≤ below key items last :=
  List.countP_mono_left fun item _ hlt => by
    rw [decide_eq_true_eq] at hlt ⊢
    omega

theorem below_of_bounded {bound : Nat} (h : ∀ item ∈ items, key item < bound) :
    below key items bound = items.length :=
  List.countP_eq_length.mpr fun item hmem => decide_eq_true (h item hmem)

theorem below_succ (key : α → Nat) (items : List α) (bound : Nat) :
    below key items (bound + 1) =
      below key items bound + items.countP fun item => key item = bound := by
  induction items with
  | nil => rfl
  | cons item rest ih =>
      simp only [below, List.countP_cons, decide_eq_true_eq] at ih ⊢
      rw [ih]
      split <;> split <;> split <;> omega

/-- Smaller keys come first. -/
theorem take_below (hsorted : items.Pairwise fun item other => key item ≤ key other)
    (bound : Nat) :
    items.take (below key items bound) = items.filter fun item => key item < bound := by
  induction items with
  | nil => rfl
  | cons item rest ih =>
      rw [List.pairwise_cons] at hsorted
      by_cases hlt : key item < bound
      · rw [below, List.countP_cons_of_pos (by simpa using hlt), List.take_succ_cons,
          List.filter_cons_of_pos (by simpa using hlt)]
        exact congrArg (item :: ·) (ih hsorted.2)
      · have hnone : ∀ other ∈ item :: rest, ¬key other < bound := by
          intro other hmem
          rcases List.mem_cons.mp hmem with rfl | hmem
          · exact hlt
          · exact fun hother => hlt ((hsorted.1 other hmem).trans_lt hother)
        rw [below, List.countP_eq_zero.mpr fun other hmem => by simpa using hnone other hmem,
          List.take_zero, List.filter_eq_nil_iff.mpr fun other hmem => by
            simpa using hnone other hmem]

theorem drop_below (hsorted : items.Pairwise fun item other => key item ≤ key other)
    (bound : Nat) :
    items.drop (below key items bound) = items.filter fun item => bound ≤ key item := by
  induction items with
  | nil => rfl
  | cons item rest ih =>
      rw [List.pairwise_cons] at hsorted
      by_cases hlt : key item < bound
      · rw [below, List.countP_cons_of_pos (by simpa using hlt), List.drop_succ_cons,
          List.filter_cons_of_neg (by simpa using hlt)]
        exact ih hsorted.2
      · have hall : ∀ other ∈ item :: rest, bound ≤ key other := by
          intro other hmem
          rcases List.mem_cons.mp hmem with rfl | hmem
          · exact Nat.not_lt.mp hlt
          · exact (Nat.not_lt.mp hlt).trans (hsorted.1 other hmem)
        rw [below, List.countP_eq_zero.mpr fun other hmem => by simpa using hall other hmem,
          List.drop_zero, List.filter_eq_self.mpr fun other hmem => by simpa using hall other hmem]

/-- The elements with keys in a range stand side by side. -/
theorem slice_below (hsorted : items.Pairwise fun item other => key item ≤ key other)
    {first last : Nat} (hle : first ≤ last) :
    slice (below key items first) (below key items last - below key items first) items =
      items.filter fun item => first ≤ key item ∧ key item < last := by
  have htake := take_below hsorted last
  have hdrop := drop_below (hsorted.sublist (List.filter_sublist (p := fun item => key item < last)))
    first
  have hbelow : below key (items.filter fun item => key item < last) first =
      below key items first := by
    rw [below, List.countP_filter]
    apply List.countP_congr
    intro item hmem
    simp only [Bool.and_eq_true, decide_eq_true_eq]
    omega
  rw [slice, ← List.drop_take, htake, ← hbelow, hdrop, List.filter_filter]
  apply List.filter_congr
  intro item hmem
  simp

/-- Group after group gives the elements with keys in a range. -/
theorem flatMap_groups (hsorted : items.Pairwise fun item other => key item ≤ key other)
    (first count : Nat) (f : Nat → α → β) :
    ((List.range' first count).flatMap fun group =>
        (items.filter fun item => key item = group).map (f group)) =
      (items.filter fun item => first ≤ key item ∧ key item < first + count).map
        fun item => f (key item) item := by
  induction count with
  | zero =>
      have hnone : (items.filter fun item => first ≤ key item ∧ key item < first + 0) = [] :=
        List.filter_eq_nil_iff.mpr fun item _ => by simp
      rw [hnone]
      rfl
  | succ count ih =>
      have hinner := hsorted.sublist (List.filter_sublist
        (p := fun item => first ≤ key item ∧ key item < first + (count + 1)))
      rw [List.range'_concat, List.flatMap_append, ih,
        ← List.take_append_drop (below key _ (first + count))
          (items.filter fun item => first ≤ key item ∧ key item < first + (count + 1)),
        take_below hinner, drop_below hinner, List.map_append, List.filter_filter,
        List.filter_filter]
      have hfront : (items.filter fun item => decide (key item < first + count) &&
            decide (first ≤ key item ∧ key item < first + (count + 1))) =
          items.filter fun item => first ≤ key item ∧ key item < first + count := by
        apply List.filter_congr
        intro item _
        rw [← Bool.decide_and, decide_eq_decide]
        omega
      have hback : (items.filter fun item => decide (first + count ≤ key item) &&
            decide (first ≤ key item ∧ key item < first + (count + 1))) =
          items.filter fun item => key item = first + count := by
        apply List.filter_congr
        intro item _
        rw [← Bool.decide_and, decide_eq_decide]
        omega
      rw [hfront, hback, List.flatMap_singleton, Nat.one_mul]
      congr 1
      apply List.map_congr_left
      intro item hmem
      rw [of_decide_eq_true (List.mem_filter.mp hmem).2]

/-- A part of the results, padded on both sides, is a result for every element. -/
theorem pad_slice (hsorted : items.Pairwise fun item other => key item ≤ key other)
    {first last : Nat} (hle : first ≤ last) (f : α → β) (other : β) :
    List.replicate (below key items first) other ++
        ((items.filter fun item => first ≤ key item ∧ key item < last).map f ++
          List.replicate (items.length - below key items last) other) =
      items.map fun item => if first ≤ key item ∧ key item < last then f item else other := by
  have hmono := @below_mono α key items first last hle
  have hlength : below key items last ≤ items.length := List.countP_le_length
  have hsplit : items = items.take (below key items first) ++
      (slice (below key items first) (below key items last - below key items first) items ++
        items.drop (below key items last)) := by
    have hdrop : items.drop (below key items last) =
        (items.drop (below key items first)).drop
          (below key items last - below key items first) := by
      rw [List.drop_drop]
      congr 1
      omega
    rw [slice, hdrop, List.take_append_drop, List.take_append_drop]
  conv_rhs => rw [hsplit, List.map_append, List.map_append, slice_below hsorted hle]
  congr 1
  · rw [eq_comm, List.eq_replicate_iff]
    refine ⟨by simp; omega, ?_⟩
    intro value hvalue
    obtain ⟨item, hmem, rfl⟩ := List.mem_map.mp hvalue
    rw [take_below hsorted] at hmem
    have hlt := of_decide_eq_true (List.mem_filter.mp hmem).2
    rw [if_neg (by omega)]
  · congr 1
    · apply List.map_congr_left
      intro item hmem
      rw [if_pos (of_decide_eq_true (List.mem_filter.mp hmem).2)]
    · rw [eq_comm, List.eq_replicate_iff]
      refine ⟨by simp, ?_⟩
      intro value hvalue
      obtain ⟨item, hmem, rfl⟩ := List.mem_map.mp hvalue
      rw [drop_below hsorted] at hmem
      have hge := of_decide_eq_true (List.mem_filter.mp hmem).2
      rw [if_neg (by omega)]

/-- `rows[idx]` for a tensor of indices. -/
def gather? (rows : List α) (idx : List Nat) : Option (List α) := idx.mapM (rows[·]?)

/-- `xs.scatter(0, index, src)`. -/
def scatter? (xs : List α) (index : List Nat) (src : List α) : Option (List α) :=
  (index.zip src).foldlM (fun xs entry =>
    if entry.1 < xs.length then some (xs.set entry.1 entry.2) else none) xs

theorem foldlM_set {xs : List α} {entries : List (Nat × α)}
    (hnodup : (entries.map Prod.fst).Nodup) (hbound : ∀ entry ∈ entries, entry.1 < xs.length) :
    ∃ out, entries.foldlM (fun xs entry =>
        if entry.1 < xs.length then some (xs.set entry.1 entry.2) else none) xs = some out ∧
      out.length = xs.length ∧ (∀ entry ∈ entries, out[entry.1]? = some entry.2) ∧
      ∀ i, i ∉ entries.map Prod.fst → out[i]? = xs[i]? := by
  induction entries generalizing xs with
  | nil => exact ⟨xs, rfl, rfl, by simp, fun _ _ => rfl⟩
  | cons entry rest ih =>
      rw [List.map_cons, List.nodup_cons] at hnodup
      have hhead := hbound entry List.mem_cons_self
      obtain ⟨out, hout, hlength, hentries, hrest⟩ := @ih (xs.set entry.1 entry.2) hnodup.2
        fun other hmem => by
          rw [List.length_set]
          exact hbound other (List.mem_cons_of_mem _ hmem)
      rw [List.length_set] at hlength
      refine ⟨out, ?_, hlength, ?_, ?_⟩
      · rw [List.foldlM_cons, if_pos hhead]
        exact hout
      · intro other hmem
        rcases List.mem_cons.mp hmem with rfl | hmem
        · rw [hrest _ hnodup.1, List.getElem?_set_self hhead]
        · exact hentries other hmem
      · intro i hfresh
        rw [List.map_cons, List.mem_cons, not_or] at hfresh
        rw [hrest i hfresh.2, List.getElem?_set_ne (Ne.symm hfresh.1)]

/-- A permutation of places, scattered into the places, is its inverse. -/
theorem scatter_perm {order : List Nat} {count : Nat} (hperm : order.Perm (List.range count)) :
    ∃ inverse, scatter? (List.replicate order.length 0) order (List.range order.length) =
        some inverse ∧ inverse.length = count ∧
      ∀ place i : Nat, order[place]? = some i → inverse[i]? = some place := by
  have hlength : order.length = count := by rw [hperm.length_eq, List.length_range]
  have hfst : (order.zip (List.range order.length)).map Prod.fst = order :=
    List.map_fst_zip (by simp)
  obtain ⟨out, hout, houtLength, hentries, -⟩ := @foldlM_set Nat
    (List.replicate order.length 0) (order.zip (List.range order.length))
    (by rw [hfst]; exact hperm.nodup_iff.mpr List.nodup_range)
    (fun entry hmem => by
      have hin := List.mem_map_of_mem (f := Prod.fst) hmem
      rw [hfst] at hin
      rw [List.length_replicate, hlength]
      exact List.mem_range.mp (hperm.mem_iff.mp hin))
  refine ⟨out, hout, by rw [houtLength, List.length_replicate, hlength], ?_⟩
  intro place i hplace
  apply hentries (i, place)
  apply List.mem_of_getElem? (i := place)
  obtain ⟨hlt, -⟩ := List.getElem?_eq_some_iff.mp hplace
  rw [List.getElem?_zip_eq_some]
  exact ⟨hplace, by rw [List.getElem?_range hlt]⟩

/-- Gathering sorted results through the inverse puts them back in place. -/
theorem gather_inverse {order inverse : List Nat} {count : Nat}
    (hperm : order.Perm (List.range count)) (hlength : inverse.length = count)
    (hinverse : ∀ place i : Nat, order[place]? = some i → inverse[i]? = some place) (f : Nat → α) :
    gather? (order.map f) inverse = some ((List.range count).map f) := by
  have hplaces : inverse = (List.range count).map fun i => inverse.getD i 0 := by
    apply List.ext_getElem
    · simp [hlength]
    · intro i hi hrange
      simp [hi]
  rw [gather?, hplaces, List.mapM_map]
  apply Cuts.mapM_eq_map
  intro i hi
  obtain ⟨place, hplace⟩ := List.mem_iff_getElem?.mp (hperm.mem_iff.mpr hi)
  have hget : inverse.getD i 0 = place := by
    rw [List.getD_eq_getElem?_getD, hinverse place i hplace]
    rfl
  rw [Function.comp_apply, hget, List.getElem?_map, hplace]
  rfl

end VllmMlu.Library.Dispatch
