import VllmMlu.Library.Cuts

/-! Vectorised arithmetic on packed rows: each request's entries stand behind those of the
requests before it. -/
namespace VllmMlu.Library.Packed
open Cuts

variable {α β γ ι : Type}

/-- `np.repeat(values, counts)`. -/
def repeatEach (values : List α) (counts : List Nat) : List α :=
  (List.zipWith List.replicate counts values).flatten

/-- `values[1:] - values[:-1]`. -/
def diffs (values : List Nat) : List Nat := List.zipWith (· - ·) values.tail values

@[simp] theorem repeatEach_cons (value : α) (values : List α) (count : Nat) (counts : List Nat) :
    repeatEach (value :: values) (count :: counts) =
      List.replicate count value ++ repeatEach values counts := rfl

@[simp] theorem repeatEach_nil (values : List α) : repeatEach values [] = [] := by
  simp [repeatEach]

/-- The last of the running sums is not repeated. -/
theorem repeatEach_dropLast {values : List α} {counts : List Nat}
    (h : values.length = counts.length + 1) :
    repeatEach values.dropLast counts = repeatEach values counts := by
  induction counts generalizing values with
  | nil => simp
  | cons count rest ih =>
      match values, h with
      | [_], h => simp at h
      | first :: second :: others, h =>
          rw [List.dropLast_cons_of_ne_nil (by simp), repeatEach_cons, repeatEach_cons,
            ih (by simpa using h)]

theorem length_repeatEach {values : List α} {counts : List Nat}
    (h : counts.length ≤ values.length) : (repeatEach values counts).length = counts.sum := by
  induction counts generalizing values with
  | nil => simp
  | cons count rest ih =>
      match values, h with
      | value :: others, h =>
          rw [repeatEach_cons, List.length_append, List.length_replicate, ih (by simpa using h),
            List.sum_cons]

@[simp] theorem diffs_startLocs (nums : List Nat) : diffs (startLocs nums) = nums := by
  apply List.ext_getElem?
  intro i
  rw [diffs, List.getElem?_zipWith, List.getElem?_tail]
  by_cases hlt : i < nums.length
  · rw [getElem?_startLocs hlt, getElem?_startLocs (Nat.le_of_lt hlt), List.take_add_one,
      List.sum_append, List.getElem?_eq_getElem hlt]
    simp
  · have hend : (startLocs nums)[i + 1]? = none :=
      List.getElem?_eq_none (by simpa using hlt)
    have hnone : nums[i]? = none := List.getElem?_eq_none (Nat.not_lt.mp hlt)
    simp [hend, hnone]

/-- The counts behind running sums that leave the first 0 out. -/
theorem diffs_tail_startLocs (nums : List Nat) :
    (startLocs nums).tail.take 1 ++ diffs (startLocs nums).tail = nums := by
  have hcons : ∀ sums : List Nat, sums.take 1 ++ diffs sums = diffs (0 :: sums) := by
    intro sums
    cases sums <;> simp [diffs]
  rw [hcons, cons_tail_startLocs, diffs_startLocs]

theorem zipWith_replicate_range' (start other count : Nat) :
    List.zipWith (· + ·) (List.zipWith (· - ·) (List.range' start count)
      (List.replicate count start)) (List.replicate count other) =
      List.range' other count := by
  apply List.ext_getElem
  · simp
  · intro i _ _
    simp
    omega

/-- Places in the packed rows, moved from the running sums to other starts. -/
theorem moveStarts_from (start : Nat) {others counts : List Nat}
    (h : counts.length ≤ others.length) :
    List.zipWith (· + ·)
        (List.zipWith (· - ·) (List.range' start counts.sum)
          (repeatEach (counts.scanl (· + ·) start) counts))
        (repeatEach others counts) =
      (List.zipWith List.range' others counts).flatten := by
  induction counts generalizing start others with
  | nil => simp
  | cons count rest ih =>
      match others, h with
      | other :: remaining, h =>
          rw [List.sum_cons, List.scanl_cons, repeatEach_cons, repeatEach_cons,
            ← List.range'_append_1, List.zipWith_append (by simp), List.zipWith_append (by simp),
            zipWith_replicate_range', ih (start + count) (by simpa using h)]
          rfl

theorem moveStarts {others counts : List Nat} (h : counts.length ≤ others.length) :
    List.zipWith (· + ·)
        (List.zipWith (· - ·) (List.range counts.sum) (repeatEach (startLocs counts) counts))
        (repeatEach others counts) =
      (List.zipWith List.range' others counts).flatten := by
  rw [List.range_eq_range', startLocs]
  exact moveStarts_from 0 h

/-- Parts of the requests' own ranges stay inside the packed rows. -/
theorem lt_of_mem_parts {start place : Nat} {lens counts : List Nat}
    (h : List.Forall₂ (· ≤ ·) counts lens)
    (hmem : place ∈ (List.zipWith List.range' (lens.scanl (· + ·) start) counts).flatten) :
    place < start + lens.sum := by
  induction h generalizing start with
  | nil => simp at hmem
  | @cons count len rest others hle _ ih =>
      rw [List.scanl_cons, List.zipWith_cons_cons, List.flatten_cons, List.mem_append] at hmem
      rw [List.sum_cons]
      rcases hmem with hhere | hlater
      · rw [List.mem_range'_1] at hhere
        omega
      · have hlt := ih hlater
        omega

/-- An entry of one of the rows that stand one after another. -/
theorem getElem?_flatten {rows : List (List α)} {i place : Nat} {row : List α}
    (hrow : rows[i]? = some row) (h : place < row.length) :
    rows.flatten[((rows.map List.length).take i).sum + place]? = row[place]? := by
  obtain ⟨hi, rfl⟩ := List.getElem?_eq_some_iff.mp hrow
  rw [← List.getElem?_drop, List.drop_sum_flatten, List.drop_eq_getElem_cons hi,
    List.flatten_cons, List.getElem?_append_left h]

/-- Every place of the packed rows belongs to one of the rows. -/
theorem exists_part {lens : List Nat} {place : Nat} (h : place < lens.sum) :
    ∃ (i len offset : Nat), lens[i]? = some len ∧ offset < len ∧
      place = (lens.take i).sum + offset := by
  induction lens generalizing place with
  | nil => simp at h
  | cons len rest ih =>
      rw [List.sum_cons] at h
      by_cases hhere : place < len
      · exact ⟨0, len, place, rfl, hhere, by simp⟩
      · obtain ⟨i, other, offset, hi, hoffset, hplace⟩ := @ih (place - len) (by omega)
        refine ⟨i + 1, other, offset, hi, hoffset, ?_⟩
        rw [List.take_succ_cons, List.sum_cons]
        omega

/-- The rows before a later row hold all of an earlier one. -/
theorem sum_take_add_le {lens : List Nat} {i j len : Nat} (h : lens[i]? = some len) (hlt : i < j) :
    (lens.take i).sum + len ≤ (lens.take j).sum := by
  obtain ⟨hi, rfl⟩ := List.getElem?_eq_some_iff.mp h
  rw [← List.sum_take_succ _ _ hi]
  exact List.monotone_sum_take lens hlt

/-- A place belongs to one row only. -/
theorem part_unique {lens : List Nat} {i j len other place : Nat} (hi : lens[i]? = some len)
    (hj : lens[j]? = some other) (hstart : (lens.take i).sum ≤ place)
    (hstop : place < (lens.take i).sum + len) (hstart' : (lens.take j).sum ≤ place)
    (hstop' : place < (lens.take j).sum + other) : i = j := by
  rcases Nat.lt_trichotomy i j with hlt | heq | hlt
  · have hle := sum_take_add_le hi hlt
    omega
  · exact heq
  · have hle := sum_take_add_le hj hlt
    omega

theorem mapM_range' (front row : List α) {count : Nat} (h : count ≤ row.length) :
    (List.range' front.length count).mapM (fun i => (front ++ row)[i]?) =
      some (row.take count) := by
  have hread : (List.range (row.take count).length).mapM
      ((fun i => (front ++ row)[i]?) ∘ (front.length + ·)) = some (row.take count) := by
    apply mapM_range_eq
    intro i x hx
    rw [List.getElem?_take] at hx
    rw [Function.comp_apply, List.getElem?_append_right (Nat.le_add_right _ _),
      Nat.add_sub_cancel_left]
    split at hx
    · exact hx
    · cases hx
  rw [List.length_take, Nat.min_eq_left h] at hread
  rw [List.range'_eq_map_range, List.mapM_map]
  exact hread

/-- The front parts of the rows, picked out of the packed rows. -/
theorem mapM_parts_from (front : List α) {rows : List (List α)} {counts : List Nat}
    (h : List.Forall₂ (· ≤ ·) counts (rows.map List.length)) :
    (List.zipWith List.range' ((rows.map List.length).scanl (· + ·) front.length)
        counts).flatten.mapM (fun i => (front ++ rows.flatten)[i]?) =
      some (List.zipWith List.take counts rows).flatten := by
  induction rows generalizing front counts with
  | nil =>
      cases h
      rfl
  | cons row rest ih =>
      cases h with
      | @cons count _ others _ hle hrest =>
          have hhere := mapM_range' front (row ++ rest.flatten)
            (hle.trans (by simp [List.length_append]))
          have hlater := ih (front ++ row) hrest
          rw [List.length_append, List.append_assoc] at hlater
          rw [List.map_cons, List.scanl_cons, List.zipWith_cons_cons, List.flatten_cons,
            List.flatten_cons, List.mapM_append, hhere, hlater,
            List.take_append_of_le_length hle]
          rfl

theorem mapM_parts {rows : List (List α)} {counts : List Nat}
    (h : List.Forall₂ (· ≤ ·) counts (rows.map List.length)) :
    (List.zipWith List.range' (startLocs (rows.map List.length)) counts).flatten.mapM
        (fun i => rows.flatten[i]?) =
      some (List.zipWith List.take counts rows).flatten :=
  mapM_parts_from [] h

/-! ### Arrays that are put together from a part for each item -/

theorem repeatEach_map (f : ι → α) (num : ι → Nat) (items : List ι) :
    repeatEach (items.map f) (items.map num) =
      items.flatMap fun item => List.replicate (num item) (f item) := by
  induction items with
  | nil => simp
  | cons item rest ih => simp [ih]

theorem map_repeatEach (f : α → β) (values : List α) (counts : List Nat) :
    (repeatEach values counts).map f = repeatEach (values.map f) counts := by
  induction counts generalizing values with
  | nil => simp [repeatEach]
  | cons count rest ih =>
      cases values with
      | nil => rfl
      | cons value others => simp [ih]

theorem map_getD_range (values : List α) (default : α) :
    (List.range values.length).map (fun i => values.getD i default) = values := by
  apply List.ext_getElem
  · simp
  · intro i _ hi
    simp [hi]

theorem zipWith_flatMap {f : α → β → γ} {left : ι → List α} {right : ι → List β}
    {items : List ι} (h : ∀ item ∈ items, (left item).length = (right item).length) :
    List.zipWith f (items.flatMap left) (items.flatMap right) =
      items.flatMap fun item => List.zipWith f (left item) (right item) := by
  induction items with
  | nil => rfl
  | cons item rest ih =>
      rw [List.flatMap_cons, List.flatMap_cons, List.flatMap_cons,
        List.zipWith_append (h item List.mem_cons_self),
        ih fun other hmem => h other (List.mem_cons_of_mem _ hmem)]

theorem mapM_flatMap_ok {ε : Type} {f : α → Except ε β} {part : ι → List α}
    {result : ι → List β} {items : List ι}
    (h : ∀ item ∈ items, (part item).mapM f = .ok (result item)) :
    (items.flatMap part).mapM f = .ok (items.flatMap result) := by
  induction items with
  | nil => rfl
  | cons item rest ih =>
      rw [List.flatMap_cons, List.flatMap_cons, List.mapM_append, h item List.mem_cons_self,
        ih fun other hmem => h other (List.mem_cons_of_mem _ hmem)]
      rfl

theorem flatMap_fst_zipIdx (part : ι → List α) (items : List ι) :
    (items.zipIdx.flatMap fun entry => part entry.1) = items.flatMap part := by
  rw [← List.flatMap_map, List.zipIdx_map_fst]

/-- The last `count` places before each stop. -/
def ends (stops counts : List Nat) : List Nat :=
  (List.zipWith (fun stop count => List.range' (stop - count) count) stops counts).flatten

theorem scanl_eq_cons_tail (start : Nat) (nums : List Nat) :
    nums.scanl (· + ·) start = start :: (nums.scanl (· + ·) start).tail := by
  cases nums <;> simp

/-- The last place of each row. -/
theorem map_ends_one (start : Nat) {nums : List Nat} (hpos : ∀ num ∈ nums, 0 < num) :
    (ends (nums.scanl (· + ·) start).tail (nums.map fun _ => 1)).map Int.ofNat =
      (nums.scanl (· + ·) start).tail.map fun (stop : Nat) => (stop : Int) - 1 := by
  induction nums generalizing start with
  | nil => rfl
  | cons num rest ih =>
      have hnum := hpos num List.mem_cons_self
      have hrest := ih (start + num) fun other hmem => hpos other (List.mem_cons_of_mem _ hmem)
      rw [ends] at hrest
      rw [List.scanl_cons, List.tail_cons, scanl_eq_cons_tail, List.map_cons, ends,
        List.zipWith_cons_cons, List.flatten_cons, List.map_append, hrest]
      simp
      omega

/-- The last parts of the rows, picked out of the packed rows. -/
theorem mapM_ends_from (front : List α) {rows : List (List α)} {counts : List Nat}
    (h : List.Forall₂ (· ≤ ·) counts (rows.map List.length)) :
    (ends ((rows.map List.length).scanl (· + ·) front.length).tail counts).mapM
        (fun i => (front ++ rows.flatten)[i]?) =
      some (List.zipWith (fun count row => row.drop (row.length - count)) counts rows).flatten := by
  induction rows generalizing front counts with
  | nil =>
      cases h
      rfl
  | cons row rest ih =>
      cases h with
      | @cons count _ others _ hle hrest =>
          have hlater := ih (front ++ row) hrest
          have hfits : count ≤ (row.drop (row.length - count) ++ rest.flatten).length := by
            rw [List.length_append, List.length_drop]
            omega
          have hhere := mapM_range' (front ++ row.take (row.length - count)) _ hfits
          rw [List.length_append, List.append_assoc] at hlater
          rw [List.append_assoc, ← List.append_assoc (row.take _), List.take_append_drop,
            List.length_append, List.length_take, Nat.min_eq_left (Nat.sub_le _ _),
            List.take_append_of_le_length (by simp; omega),
            List.take_of_length_le (by simp; omega)] at hhere
          rw [ends] at hlater
          rw [ends, List.map_cons, List.scanl_cons, List.tail_cons, scanl_eq_cons_tail,
            List.zipWith_cons_cons, List.zipWith_cons_cons, List.flatten_cons, List.flatten_cons,
            List.mapM_append, Nat.add_sub_assoc hle, hhere, hlater]
          rfl

theorem mapM_ends {rows : List (List α)} {counts : List Nat}
    (h : List.Forall₂ (· ≤ ·) counts (rows.map List.length)) :
    (ends (startLocs (rows.map List.length)).tail counts).mapM (fun i => rows.flatten[i]?) =
      some (List.zipWith (fun count row => row.drop (row.length - count)) counts rows).flatten :=
  mapM_ends_from [] h

end VllmMlu.Library.Packed
