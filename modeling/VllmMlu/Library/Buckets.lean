import Mathlib

/-! Keys sorted into buckets of given widths: where each bucket starts, and the place of each
key behind the equal ones before it. -/
namespace VllmMlu.Library.Buckets

/-- How often a key occurs before an index. -/
def seen (keys : List Nat) (i : Nat) (key : Nat) : Nat := (keys.take i).count key

/-- An element that stands at one index only occurs once. -/
theorem count_eq_one {xs : List Nat} {p x : Nat} (hp : xs[p]? = some x)
    (honly : ∀ q, xs[q]? = some x → q = p) : xs.count x = 1 := by
  obtain ⟨hlt, hx⟩ := List.getElem?_eq_some_iff.mp hp
  have hsplit : xs = xs.take p ++ x :: xs.drop (p + 1) := by
    rw [← hx, ← List.drop_eq_getElem_cons hlt, List.take_append_drop]
  have hfront : x ∉ xs.take p := by
    intro hmem
    obtain ⟨q, hq⟩ := List.mem_iff_getElem?.mp hmem
    rw [List.getElem?_take] at hq
    split at hq
    · have := honly q hq
      omega
    · cases hq
  have hback : x ∉ xs.drop (p + 1) := by
    intro hmem
    obtain ⟨q, hq⟩ := List.mem_iff_getElem?.mp hmem
    rw [List.getElem?_drop] at hq
    have := honly _ hq
    omega
  rw [hsplit, List.count_append, List.count_cons_self, List.count_eq_zero_of_not_mem hfront,
    List.count_eq_zero_of_not_mem hback]

/-- Where the bucket of a key starts. -/
def offset (width : Nat → Nat) : Nat → Nat
  | 0 => 0
  | key + 1 => offset width key + width key

/-- The place of the key at an index. -/
def place (keys : List Nat) (width : Nat → Nat) (i : Nat) : Nat :=
  offset width (keys.getD i 0) + seen keys i (keys.getD i 0)

variable {keys : List Nat} {width : Nat → Nat}

@[simp] theorem seen_zero (keys : List Nat) (key : Nat) : seen keys 0 key = 0 := by
  simp [seen]

theorem seen_add (keys : List Nat) (i count key : Nat) :
    seen keys (i + count) key = seen keys i key + seen (keys.drop i) count key := by
  rw [seen, List.take_add, List.count_append]
  rfl

theorem seen_succ {i : Nat} {first : Nat} (h : keys[i]? = some first) (key : Nat) :
    seen keys (i + 1) key = seen keys i key + if first = key then 1 else 0 := by
  rw [seen, List.take_add_one, h, Option.toList_some, List.count_append, List.count_singleton]
  simp [seen]

theorem seen_of_length_le {i : Nat} (h : keys.length ≤ i) (key : Nat) :
    seen keys i key = keys.count key := by
  rw [seen, List.take_of_length_le h]

theorem seen_mono (keys : List Nat) {i j : Nat} (h : i ≤ j) (key : Nat) :
    seen keys i key ≤ seen keys j key := by
  obtain ⟨count, rfl⟩ := Nat.exists_eq_add_of_le h
  rw [seen_add]
  exact Nat.le_add_right _ _

theorem seen_lt_seen {i j : Nat} {key : Nat} (h : keys[i]? = some key) (hlt : i < j) :
    seen keys i key < seen keys j key := by
  have hsucc := seen_succ h key
  have hmono := seen_mono keys (show i + 1 ≤ j from hlt) key
  rw [if_pos rfl] at hsucc
  omega

theorem seen_lt_count {i : Nat} {key : Nat} (h : keys[i]? = some key) :
    seen keys i key < keys.count key := by
  have hlt := (List.getElem?_eq_some_iff.mp h).1
  rw [← seen_of_length_le (le_refl keys.length)]
  exact seen_lt_seen h hlt

theorem offset_mono (width : Nat → Nat) {key other : Nat} (h : key ≤ other) :
    offset width key ≤ offset width other := by
  induction other, h using Nat.le_induction with
  | base => exact le_refl _
  | succ other _ ih => exact ih.trans (Nat.le_add_right _ _)

theorem offset_eq_sum (width : Nat → Nat) (numKeys : Nat) :
    offset width numKeys = ((List.range numKeys).map width).sum := by
  induction numKeys with
  | zero => rfl
  | succ key ih => rw [offset, ih, List.range_succ, List.map_append, List.sum_append]; simp

theorem offset_dvd {size : Nat} (h : ∀ key, size ∣ width key) (key : Nat) :
    size ∣ offset width key := by
  induction key with
  | zero => exact dvd_zero _
  | succ key ih => exact dvd_add ih (h key)

/-- The bucket that a number below the end of all buckets falls into. -/
theorem exists_bucket {numKeys q : Nat} (h : q < offset width numKeys) :
    ∃ key < numKeys, offset width key ≤ q ∧ q < offset width (key + 1) := by
  induction numKeys with
  | zero => exact absurd h (Nat.not_lt_zero q)
  | succ last ih =>
      rcases Nat.lt_or_ge q (offset width last) with hlt | hge
      · obtain ⟨key, hkey, hbucket⟩ := ih hlt
        exact ⟨key, by omega, hbucket⟩
      · exact ⟨last, Nat.lt_succ_self _, hge, h⟩

theorem bucket_unique {key other q : Nat} (hle : offset width key ≤ q)
    (hlt : q < offset width (key + 1)) (hle' : offset width other ≤ q)
    (hlt' : q < offset width (other + 1)) : key = other := by
  rcases Nat.lt_trichotomy key other with h | h | h
  · have hmono := offset_mono width (show key + 1 ≤ other from h)
    omega
  · exact h
  · have hmono := offset_mono width (show other + 1 ≤ key from h)
    omega

theorem bucket_mono {key other q r : Nat} (hqr : q ≤ r) (hle : offset width key ≤ q)
    (hlt' : r < offset width (other + 1)) : key ≤ other := by
  by_contra hgt
  have hmono := offset_mono width (show other + 1 ≤ key by omega)
  omega

theorem place_eq {i : Nat} {key : Nat} (h : keys[i]? = some key) :
    place keys width i = offset width key + seen keys i key := by
  rw [place, List.getD_eq_getElem?_getD, h, Option.getD_some]

theorem place_mem {i : Nat} {key : Nat} (hwidth : ∀ key, keys.count key ≤ width key)
    (h : keys[i]? = some key) :
    offset width key ≤ place keys width i ∧ place keys width i < offset width (key + 1) := by
  have hseen := seen_lt_count h
  have hle := hwidth key
  rw [place_eq h, offset]
  omega

theorem place_lt_place {i j : Nat} {key : Nat} (hi : keys[i]? = some key)
    (hj : keys[j]? = some key) (hlt : i < j) : place keys width i < place keys width j := by
  have hseen := seen_lt_seen hi hlt
  rw [place_eq hi, place_eq hj]
  omega

/-- Two keys have different places. -/
theorem place_injective (hwidth : ∀ key, keys.count key ≤ width key) {i j : Nat}
    (hi : i < keys.length) (hj : j < keys.length)
    (heq : place keys width i = place keys width j) : i = j := by
  have hfirst := List.getElem?_eq_getElem hi
  have hsecond := List.getElem?_eq_getElem hj
  obtain ⟨hle, hlt⟩ := place_mem hwidth hfirst
  obtain ⟨hle', hlt'⟩ := place_mem hwidth hsecond
  have hkey : keys[i] = keys[j] := bucket_unique hle hlt (heq ▸ hle') (heq ▸ hlt')
  rw [← hkey] at hsecond
  rcases Nat.lt_trichotomy i j with h | h | h
  · exact absurd heq (Nat.ne_of_lt (place_lt_place hfirst hsecond h))
  · exact h
  · exact absurd heq.symm (Nat.ne_of_lt (place_lt_place hsecond hfirst h))

/-- As many places as there are keys, when every key has a bucket. -/
theorem offset_count (keys : List Nat) (numKeys : Nat) (h : ∀ key ∈ keys, key < numKeys) :
    offset keys.count numKeys = keys.length := by
  induction keys with
  | nil =>
      rw [offset_eq_sum]
      simp
  | cons first rest ih =>
      have hrest := ih fun key hmem => h key (List.mem_cons_of_mem _ hmem)
      have hstep : ∀ numKeys, offset (first :: rest).count numKeys =
          offset rest.count numKeys + if first < numKeys then 1 else 0 := by
        intro numKeys
        induction numKeys with
        | zero => rfl
        | succ key ih =>
            rw [offset, ih, offset, List.count_cons]
            simp only [beq_iff_eq]
            split_ifs <;> omega
      rw [hstep, hrest, if_pos (h first List.mem_cons_self), List.length_cons]

/-- Widening each bucket by less than `slack` adds less than `slack` for each. -/
theorem offset_le_offset {narrow : Nat → Nat} {slack : Nat}
    (h : ∀ key, width key ≤ narrow key + slack) (numKeys : Nat) :
    offset width numKeys ≤ offset narrow numKeys + numKeys * slack := by
  induction numKeys with
  | zero => simp [offset]
  | succ key ih =>
      have hkey := h key
      rw [offset, offset, Nat.succ_mul]
      omega

/-- Buckets of at most `size` places for each key. -/
theorem offset_le_mul {narrow : Nat → Nat} {size : Nat} (h : ∀ key, width key ≤ narrow key * size)
    (numKeys : Nat) : offset width numKeys ≤ offset narrow numKeys * size := by
  induction numKeys with
  | zero => simp [offset]
  | succ key ih =>
      rw [offset, offset, Nat.add_mul]
      exact Nat.add_le_add ih (h key)

end VllmMlu.Library.Buckets
