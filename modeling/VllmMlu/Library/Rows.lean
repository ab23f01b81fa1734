import Mathlib

/-! Tensors as lists of rows: padding, chunks, elementwise sums, and how they
compose. -/
namespace VllmMlu.Library.Rows

variable {α : Type}

/-- `rows[start:start + count]`. -/
def slice (start count : Nat) (rows : List α) : List α := (rows.drop start).take count

/-- The chunk number `index` of chunks of `size` rows. -/
def chunk (size index : Nat) (rows : List α) : List α := slice (index * size) size rows

theorem getElem?_slice (start : Nat) {count i : Nat} (hi : i < count) (rows : List α) :
    (slice start count rows)[i]? = rows[start + i]? := by
  rw [slice, List.getElem?_take_of_lt hi, List.getElem?_drop]

/-- Entries after some of them were written. -/
theorem getElem?_splice {dst src : List α} {start stop : Nat}
    (hstop : stop = start + src.length) (hle : stop ≤ dst.length) (i : Nat) :
    (dst.take start ++ src ++ dst.drop stop)[i]? =
      if start ≤ i ∧ i < stop then src[i - start]? else dst[i]? := by
  have htake : (dst.take start).length = start := by
    rw [List.length_take]
    omega
  split
  · rename_i hin
    rw [List.append_assoc, List.getElem?_append_right (by omega),
      List.getElem?_append_left (by omega), htake]
  · rename_i hout
    by_cases hbefore : i < start
    · rw [List.append_assoc, List.getElem?_append_left (by omega), List.getElem?_take,
        if_pos hbefore]
    · rw [List.getElem?_append_right (by rw [List.length_append]; omega), List.getElem?_drop]
      congr 1
      rw [List.length_append, htake]
      omega

theorem slice_append_of_le {front back : List α} {start count : Nat}
    (h : start + count ≤ front.length) :
    slice start count (front ++ back) = slice start count front := by
  unfold slice
  rw [List.drop_append_of_le_length (by omega),
    List.take_append_of_le_length (by rw [List.length_drop]; omega)]

theorem slice_append_of_ge {front back : List α} {start count : Nat}
    (h : front.length ≤ start) :
    slice start count (front ++ back) = slice (start - front.length) count back := by
  unfold slice
  rw [List.drop_append, List.drop_eq_nil_of_le h, List.nil_append]

@[simp] theorem length_slice (start count : Nat) (rows : List α) :
    (slice start count rows).length = min count (rows.length - start) := by
  simp [slice]

theorem slice_slice {outer inner start count : Nat} {rows : List α} (h : start + count ≤ inner) :
    slice start count (slice outer inner rows) = slice (outer + start) count rows := by
  unfold slice
  rw [List.drop_take, List.take_take, List.drop_drop, Nat.min_eq_left (by omega)]

theorem map_slice {β : Type} (f : α → β) (start count : Nat) (rows : List α) :
    (slice start count rows).map f = slice start count (rows.map f) := by
  rw [slice, slice, List.map_take, List.map_drop]

theorem slice_map_range (f : Nat → α) {start count total : Nat} (h : start + count ≤ total) :
    slice start count ((List.range total).map f) =
      (List.range count).map fun i => f (start + i) := by
  apply List.ext_getElem?
  intro i
  simp only [slice, List.getElem?_take, List.getElem?_drop, List.getElem?_map]
  split
  · rw [List.getElem?_range (by omega), List.getElem?_range (by omega)]
    rfl
  · rw [List.getElem?_eq_none (by simp; omega)]
    rfl

theorem zipWith_slice {β γ : Type} (f : α → β → γ) (start count : Nat) (left : List α)
    (right : List β) :
    List.zipWith f (slice start count left) (slice start count right) =
      slice start count (List.zipWith f left right) := by
  rw [slice, slice, slice, List.drop_zipWith, List.take_zipWith]

theorem length_chunk {size index count : Nat} {rows : List α} (hindex : index < count)
    (h : rows.length = count * size) : (chunk size index rows).length = size := by
  have hchunk : (index + 1) * size ≤ count * size := Nat.mul_le_mul_right _ hindex
  rw [Nat.succ_mul] at hchunk
  rw [chunk, length_slice, h]
  omega

/-- Chunks in order give the rows back. -/
theorem flatten_chunks {size count : Nat} {rows : List α} (h : rows.length = count * size) :
    ((List.finRange count).map fun index => chunk size index.val rows).flatten = rows := by
  induction count generalizing rows with
  | zero => simp_all
  | succ count ih =>
      have hrest : (rows.drop size).length = count * size := by
        rw [List.length_drop, h, Nat.succ_mul]
        omega
      have hshift : ∀ index : Fin count,
          chunk size index.succ.val rows = chunk size index.val (rows.drop size) := by
        intro index
        unfold chunk slice
        rw [List.drop_drop, Fin.val_succ, Nat.succ_mul, Nat.add_comm]
      rw [List.finRange_succ, List.map_cons, List.map_map, List.flatten_cons]
      have htail := ih hrest
      simp only [Function.comp_def, hshift, htail]
      simp [chunk, slice]

theorem slice_flatten {blocks : List (List α)} {size : Nat}
    (h : ∀ block ∈ blocks, block.length = size) {index : Nat} (hindex : index < blocks.length) :
    slice (index * size) size blocks.flatten = blocks[index] := by
  induction blocks generalizing index with
  | nil => simp at hindex
  | cons block rest ih =>
      have hblock := h block List.mem_cons_self
      cases index with
      | zero =>
          rw [List.flatten_cons, slice_append_of_le (by omega)]
          simp [slice, ← hblock]
      | succ index =>
          have hrest := ih (fun other hmem => h other (List.mem_cons_of_mem _ hmem))
            (by simpa using hindex)
          rw [List.flatten_cons, slice_append_of_ge (by rw [Nat.succ_mul]; omega), hblock,
            Nat.succ_mul, Nat.add_sub_cancel, hrest]
          rfl

section Sums

variable [AddCommMonoid α]

/-- `F.pad(rows, (0, 0, 0, count))`: rows of zeros below, or rows cut off. -/
def pad (rows : List α) (count : Int) : List α :=
  rows.take (rows.length + count).toNat ++ List.replicate count.toNat 0

theorem length_pad {rows : List α} {count : Int} (h : 0 ≤ count) :
    (pad rows count).length = rows.length + count.toNat := by
  simp [pad]
  omega

theorem take_pad {rows : List α} {count : Int} (h : 0 ≤ count) :
    (pad rows count).take rows.length = rows := by
  unfold pad
  rw [List.take_of_length_le (i := (rows.length + count).toNat) (by omega), List.take_left]

@[simp] theorem pad_zero (rows : List α) : pad rows 0 = rows := by
  simp [pad]

/-- `left + right`, which raises where the numbers of rows differ. -/
def add? (left right : List α) : Option (List α) :=
  if left.length = right.length then some (List.zipWith (· + ·) left right) else none

theorem add?_eq {left right : List α} (h : left.length = right.length) :
    add? left right = some (List.zipWith (· + ·) left right) := if_pos h

/-- The elementwise sum of tensors with the same number of rows. -/
def sum : List (List α) → List α
  | [] => []
  | first :: rest => rest.foldl (List.zipWith (· + ·)) first

theorem length_foldl_add {start : List α} {parts : List (List α)}
    (h : ∀ part ∈ parts, part.length = start.length) :
    (parts.foldl (List.zipWith (· + ·)) start).length = start.length := by
  induction parts generalizing start with
  | nil => rfl
  | cons part rest ih =>
      have hpart := h part List.mem_cons_self
      have hlength : (List.zipWith (· + ·) start part).length = start.length := by
        simp [hpart]
      rw [List.foldl_cons, ih, hlength]
      intro other hmem
      rw [h other (List.mem_cons_of_mem _ hmem), hlength]

theorem length_sum {parts : List (List α)} {size : Nat} (hne : parts ≠ [])
    (h : ∀ part ∈ parts, part.length = size) : (sum parts).length = size := by
  cases parts with
  | nil => exact absurd rfl hne
  | cons first rest =>
      have hfirst := h first List.mem_cons_self
      rw [sum, length_foldl_add, hfirst]
      intro part hmem
      rw [h part (List.mem_cons_of_mem _ hmem), hfirst]

theorem take_foldl_add (count : Nat) (start : List α) (parts : List (List α)) :
    (parts.foldl (List.zipWith (· + ·)) start).take count =
      (parts.map (List.take count)).foldl (List.zipWith (· + ·)) (start.take count) := by
  induction parts generalizing start with
  | nil => rfl
  | cons part rest ih => rw [List.foldl_cons, ih, List.take_zipWith, List.map_cons, List.foldl_cons]

theorem take_sum (count : Nat) (parts : List (List α)) :
    (sum parts).take count = sum (parts.map (List.take count)) := by
  cases parts with
  | nil => simp [sum]
  | cons first rest => exact take_foldl_add count first rest

/-- A tensor added to one summand is added to the sum. -/
theorem foldl_add_start (start extra : List α) (parts : List (List α)) :
    parts.foldl (List.zipWith (· + ·)) (List.zipWith (· + ·) start extra) =
      List.zipWith (· + ·) (parts.foldl (List.zipWith (· + ·)) start) extra := by
  induction parts generalizing start with
  | nil => rfl
  | cons part rest ih =>
      rw [List.foldl_cons, List.foldl_cons, ← ih]
      congr 1
      apply List.ext_getElem
      · simp only [List.length_zipWith]
        omega
      · intro index _ _
        simp only [List.getElem_zipWith]
        exact add_right_comm _ _ _

end Sums

end VllmMlu.Library.Rows
