import VllmMlu.Library.Cuts
import VllmMlu.Library.Machine

/-! Tensors filled slice by slice, and a cache whose rows are written to slots, where a
negative slot keeps its row out. -/
namespace VllmMlu.Library.Paged

open Rows

variable {α κ ι : Type}

/-- What an operation on tensors raises. -/
inductive TensorError where
  | shapeMismatch | indexOutOfRange | zeroDivision | assertion
  deriving DecidableEq

/-- `xs[i]`. -/
def index (xs : List α) (i : Nat) : Except TensorError α :=
  match xs[i]? with
  | some x => .ok x
  | none => .error .indexOutOfRange

theorem index_eq_ok {xs : List α} {i : Nat} {x : α} (h : xs[i]? = some x) : index xs i = .ok x := by
  rw [index, h]

/-- `dst[start:stop] = src`: a source of one row fills the whole slice. -/
def assign (dst : List α) (start stop : Nat) (src : List α) : Except TensorError (List α) :=
  let size := min stop dst.length - start
  let rest := dst.drop (start + size)
  if src.length = size then .ok (dst.take start ++ src ++ rest)
  else
    match src with
    | [value] => .ok (dst.take start ++ List.replicate size value ++ rest)
    | _ => .error .shapeMismatch

theorem assign_middle {front blank back src : List α} {start stop : Nat}
    (hstart : start = front.length) (hstop : stop = front.length + blank.length)
    (hsrc : src.length = blank.length) :
    assign (front ++ blank ++ back) start stop src = .ok (front ++ src ++ back) := by
  have hsize : min stop (front ++ blank ++ back).length - start = blank.length := by
    simp only [List.length_append]
    omega
  have hrest : (front ++ blank ++ back).drop (start + blank.length) = back := by
    rw [hstart, ← List.length_append, List.drop_left]
  have hfront : (front ++ blank ++ back).take start = front := by
    rw [hstart, List.append_assoc, List.take_left]
  simp only [assign, hsize, hrest, hfront]
  rw [if_pos hsrc]

/-- A loop that turns the blank part of each item into its segment fills the whole tensor. -/
theorem foldlM_fill {items : List ι} {body : List α → Nat → Except TensorError (List α)}
    {blank segment : ι → List α}
    (h : ∀ i item, items[i]? = some item → ∀ back,
      body ((items.take i).flatMap segment ++ blank item ++ back) i =
        .ok ((items.take i).flatMap segment ++ segment item ++ back)) :
    (List.range items.length).foldlM body (items.flatMap blank) =
      .ok (items.flatMap segment) := by
  have hprefix : ∀ count ≤ items.length, ∀ back,
      (List.range count).foldlM body ((items.take count).flatMap blank ++ back) =
        .ok ((items.take count).flatMap segment ++ back) := by
    intro count
    induction count with
    | zero =>
        intro _ back
        rfl
    | succ count ih =>
        intro hcount back
        have hitem : items[count]? = some items[count] := List.getElem?_eq_getElem hcount
        have hbody := h count _ hitem back
        have htake : items.take (count + 1) = items.take count ++ [items[count]] := by
          rw [List.take_add_one, hitem]
          rfl
        rw [htake, List.flatMap_append, List.flatMap_append, List.flatMap_singleton,
          List.flatMap_singleton, List.range_succ, List.foldlM_append, List.append_assoc,
          ih (by omega), ← List.append_assoc]
        change (List.foldlM body _ [count]) = _
        rw [List.foldlM_cons, hbody]
        rfl
  have hall := hprefix items.length le_rfl []
  rwa [List.append_nil, List.append_nil, List.take_length] at hall

theorem replicate_sum (value : α) (num : ι → Nat) (items : List ι) :
    List.replicate (items.map num).sum value =
      items.flatMap fun item => List.replicate (num item) value := by
  induction items with
  | nil => rfl
  | cons item rest ih =>
      rw [List.map_cons, List.sum_cons, List.replicate_add, ih, List.flatMap_cons]

theorem length_flatMap_take {segment : ι → List α} {num : ι → Nat} {items : List ι}
    (h : ∀ item ∈ items, (segment item).length = num item) (count : Nat) :
    ((items.take count).flatMap segment).length = ((items.map num).take count).sum := by
  rw [List.length_flatMap, ← List.map_take]
  congr 1
  apply List.map_congr_left
  intro item hmem
  exact h item (List.mem_of_mem_take hmem)

theorem zip_flatMap {β : Type} {left : ι → List α} {right : ι → List β} {items : List ι}
    (h : ∀ item ∈ items, (left item).length = (right item).length) :
    (items.flatMap left).zip (items.flatMap right) =
      items.flatMap fun item => (left item).zip (right item) := by
  induction items with
  | nil => rfl
  | cons item rest ih =>
      rw [List.flatMap_cons, List.flatMap_cons, List.flatMap_cons,
        List.zip_append (h item List.mem_cons_self),
        ih fun other hmem => h other (List.mem_cons_of_mem _ hmem)]

/-- One row of `reshape_paged_cache`. -/
def writeRow (cache : Int → Option κ) (row : κ × Int) : Int → Option κ :=
  if row.2 < 0 then cache else Function.update cache row.2 (some row.1)

def write (cache : Int → Option κ) (rows : List (κ × Int)) : Int → Option κ :=
  rows.foldl writeRow cache

theorem write_of_not_mem {cache : Int → Option κ} {rows : List (κ × Int)} {slot : Int}
    (h : ∀ row ∈ rows, row.2 ≠ slot) : write cache rows slot = cache slot := by
  induction rows generalizing cache with
  | nil => rfl
  | cons row rest ih =>
      have hrest := @ih (writeRow cache row) fun other hmem => h other (List.mem_cons_of_mem _ hmem)
      have hne : slot ≠ row.2 := fun heq => h row List.mem_cons_self heq.symm
      rw [write, List.foldl_cons]
      change write (writeRow cache row) rest slot = _
      rw [hrest, writeRow]
      split
      · rfl
      · rw [Function.update_of_ne hne]

/-- The slot of a row holds it afterwards when no other row has the slot. -/
theorem write_of_mem {cache : Int → Option κ} {rows : List (κ × Int)} {key : κ} {slot : Int}
    (hmem : (key, slot) ∈ rows) (hslot : 0 ≤ slot)
    (huniq : ∀ other, (other, slot) ∈ rows → other = key) :
    write cache rows slot = some key := by
  induction rows generalizing cache with
  | nil => cases hmem
  | cons row rest ih =>
      change write (writeRow cache row) rest slot = _
      by_cases hlater : (key, slot) ∈ rest
      · exact ih hlater fun other hother => huniq other (List.mem_cons_of_mem _ hother)
      · have hfirst : row = (key, slot) := by
          rcases List.mem_cons.mp hmem with heq | hrest
          · exact heq.symm
          · exact absurd hrest hlater
        have hothers : ∀ other ∈ rest, other.2 ≠ slot := by
          rintro ⟨other, otherSlot⟩ hother rfl
          rw [huniq other (List.mem_cons_of_mem _ hother)] at hother
          exact hlater hother
        rw [write_of_not_mem hothers, hfirst, writeRow, if_neg (not_lt.mpr hslot)]
        simp

section Tables

variable {ρ : Type} {tables : ρ → List Int} {cell : κ → ρ × Nat} {rows : List (κ × Int)}
  {cache : Int → Option κ}

/-- No slot stands twice in the block tables. -/
structure Distinct (tables : ρ → List Int) : Prop where
  nonneg : ∀ owner, ∀ slot ∈ tables owner, 0 ≤ slot
  apart : ∀ (owner : ρ) (column : Nat) (other : ρ) (otherColumn : Nat) (slot : Int),
    (tables owner)[column]? = some slot → (tables other)[otherColumn]? = some slot →
      (owner, column) = (other, otherColumn)

/-- Each row that has a slot has the one of its cell in the block tables. -/
def Lands (tables : ρ → List Int) (cell : κ → ρ × Nat) (rows : List (κ × Int)) : Prop :=
  ∀ key slot, (key, slot) ∈ rows → 0 ≤ slot →
    (tables (cell key).1)[(cell key).2]? = some slot

/-- The cache holds `key` at a column of a block table. -/
def Holds (tables : ρ → List Int) (cache : Int → Option κ) (place : ρ × Nat) (key : κ) : Prop :=
  ∃ slot, (tables place.1)[place.2]? = some slot ∧ cache slot = some key

theorem Holds.write_of_ne (distinct : Distinct tables) (lands : Lands tables cell rows)
    {place : ρ × Nat} {key : κ} (holds : Holds tables cache place key)
    (hne : ∀ other slot, (other, slot) ∈ rows → 0 ≤ slot → cell other ≠ place) :
    Holds tables (write cache rows) place key := by
  obtain ⟨slot, hslot, hcache⟩ := holds
  refine ⟨slot, hslot, ?_⟩
  rw [write_of_not_mem, hcache]
  rintro ⟨other, otherSlot⟩ hmem rfl
  have hnonneg := distinct.nonneg place.1 _ (List.mem_of_getElem? hslot)
  have hland := lands other otherSlot hmem hnonneg
  exact hne other otherSlot hmem hnonneg (distinct.apart _ _ _ _ _ hland hslot)

theorem Holds.of_write (distinct : Distinct tables) (lands : Lands tables cell rows)
    {key : κ} {slot : Int} (hmem : (key, slot) ∈ rows) (hnonneg : 0 ≤ slot)
    (huniq : ∀ other otherSlot, (other, otherSlot) ∈ rows → 0 ≤ otherSlot →
      cell other = cell key → other = key) :
    Holds tables (write cache rows) (cell key) key := by
  have hland := lands key slot hmem hnonneg
  refine ⟨slot, hland, write_of_mem hmem hnonneg ?_⟩
  intro other hother
  exact huniq other slot hother hnonneg
    (distinct.apart _ _ _ _ _ (lands other slot hother hnonneg) hland)

/-- Entries kept at the columns `column` of their owners' block tables, as long as they are
live: rows for the entries that come to be live keep them there. -/
theorem holds_of_write (column : Nat → Nat) (live : Nat → Nat → Prop) (old new : ρ → Nat)
    {cache : Int → Option (ρ × Nat)} {rows : List ((ρ × Nat) × Int)} (distinct : Distinct tables)
    (lands : Lands tables (fun key => (key.1, column key.2)) rows)
    (hcolumn : ∀ num left right, left < num → right < num → live num left → live num right →
      column left = column right → left = right)
    (hlive : ∀ owner entry, entry < old owner → live (new owner) entry → live (old owner) entry)
    (hfresh : ∀ owner entry slot, ((owner, entry), slot) ∈ rows → 0 ≤ slot →
      old owner ≤ entry ∧ entry < new owner ∧ live (new owner) entry)
    (hcovers : ∀ owner entry, old owner ≤ entry → entry < new owner → live (new owner) entry →
      ∃ slot, ((owner, entry), slot) ∈ rows ∧ 0 ≤ slot)
    (hold : ∀ owner entry, entry < old owner → live (old owner) entry →
      Holds tables cache (owner, column entry) (owner, entry))
    (owner : ρ) (entry : Nat) (hentry : entry < new owner) (halive : live (new owner) entry) :
    Holds tables (write cache rows) (owner, column entry) (owner, entry) := by
  by_cases hfirst : entry < old owner
  · apply (hold owner entry hfirst (hlive owner entry hfirst halive)).write_of_ne distinct lands
    rintro ⟨other, later⟩ slot hmem hnonneg heq
    obtain ⟨hother, hsame⟩ := Prod.mk.inj heq
    change other = owner at hother
    subst hother
    obtain ⟨hnew, hlt, hlater⟩ := hfresh other later slot hmem hnonneg
    have := hcolumn (new other) later entry hlt hentry hlater halive hsame
    omega
  · obtain ⟨slot, hmem, hnonneg⟩ := hcovers owner entry (not_lt.mp hfirst) hentry halive
    apply Holds.of_write distinct lands hmem hnonneg
    rintro ⟨other, later⟩ otherSlot hother hotherNonneg heq
    obtain ⟨howner, hsame⟩ := Prod.mk.inj heq
    change other = owner at howner
    subst howner
    obtain ⟨_, hlt, hlater⟩ := hfresh other later otherSlot hother hotherNonneg
    rw [hcolumn (new other) later entry hlt hentry hlater halive hsame]

end Tables

end VllmMlu.Library.Paged
