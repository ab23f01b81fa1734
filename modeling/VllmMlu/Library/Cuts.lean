import VllmMlu.Library.Rows

/-! Cutting a list into consecutive parts of given sizes, at running sums of the sizes. -/
namespace VllmMlu.Library.Cuts

open Rows

variable {α β : Type}

/-- `[0] + list(itertools.accumulate(nums))`. -/
def startLocs (nums : List Nat) : List Nat := nums.scanl (· + ·) 0

theorem mapM_eq_map {f : α → Option β} {g : α → β} {xs : List α}
    (h : ∀ x ∈ xs, f x = some (g x)) : xs.mapM f = some (xs.map g) := by
  induction xs with
  | nil => rfl
  | cons x rest ih =>
      rw [List.mapM_cons, h x List.mem_cons_self,
        ih fun other hmem => h other (List.mem_cons_of_mem _ hmem)]
      rfl

theorem mapM_ok_eq_map {ε : Type} {f : α → Except ε β} {g : α → β} {xs : List α}
    (h : ∀ x ∈ xs, f x = .ok (g x)) : xs.mapM f = .ok (xs.map g) := by
  induction xs with
  | nil => rfl
  | cons x rest ih =>
      rw [List.mapM_cons, h x List.mem_cons_self,
        ih fun other hmem => h other (List.mem_cons_of_mem _ hmem)]
      rfl

/-- Every entry has a result, and every result says `R` of its entry. -/
theorem exists_mapM {f : α → Option β} {R : α → β → Prop} {xs : List α}
    (h : ∀ x ∈ xs, ∃ y, f x = some y ∧ R x y) :
    ∃ ys, xs.mapM f = some ys ∧ List.Forall₂ R xs ys := by
  induction xs with
  | nil => exact ⟨[], rfl, .nil⟩
  | cons x rest ih =>
      obtain ⟨y, hy, hrel⟩ := h x List.mem_cons_self
      obtain ⟨ys, hys, hrest⟩ := ih fun other hmem => h other (List.mem_cons_of_mem _ hmem)
      refine ⟨y :: ys, ?_, .cons hrel hrest⟩
      rw [List.mapM_cons, hy, hys]
      rfl

theorem exists_mapM_ok {ε : Type} {f : α → Except ε β} {R : α → β → Prop} {xs : List α}
    (h : ∀ x ∈ xs, ∃ y, f x = .ok y ∧ R x y) :
    ∃ ys, xs.mapM f = .ok ys ∧ List.Forall₂ R xs ys := by
  induction xs with
  | nil => exact ⟨[], rfl, .nil⟩
  | cons x rest ih =>
      obtain ⟨y, hy, hrel⟩ := h x List.mem_cons_self
      obtain ⟨ys, hys, hrest⟩ := ih fun other hmem => h other (List.mem_cons_of_mem _ hmem)
      refine ⟨y :: ys, ?_, .cons hrel hrest⟩
      rw [List.mapM_cons, hy, hys]
      rfl

theorem mem_of_mapM_ok {ε : Type} {f : α → Except ε β} {xs : List α} {ys : List β}
    (h : xs.mapM f = .ok ys) (y : β) : y ∈ ys ↔ ∃ x ∈ xs, f x = .ok y := by
  induction xs generalizing ys with
  | nil =>
      cases h
      simp
  | cons x rest ih =>
      rw [List.mapM_cons] at h
      cases hx : f x with
      | error err =>
          rw [hx] at h
          cases h
      | ok first =>
          cases hrest : rest.mapM f with
          | error err =>
              rw [hx, hrest] at h
              cases h
          | ok others =>
              rw [hx, hrest] at h
              cases h
              simp [ih hrest, hx, eq_comm]

theorem map_eq_map_of_forall₂ {γ : Type} {f : α → γ} {g : β → γ} {xs : List α} {ys : List β}
    (h : List.Forall₂ (fun x y => g y = f x) xs ys) : ys.map g = xs.map f := by
  induction h with
  | nil => rfl
  | cons heq _ ih => rw [List.map_cons, List.map_cons, heq, ih]

/-- A result for every index of a list, in the order of the list. -/
theorem exists_mapM_range {f : Nat → Option β} {R : β → α → Prop} {xs : List α}
    (h : ∀ i x, xs[i]? = some x → ∃ y, f i = some y ∧ R y x) :
    ∃ ys, (List.range xs.length).mapM f = some ys ∧ List.Forall₂ R ys xs := by
  induction xs generalizing f with
  | nil => exact ⟨[], rfl, .nil⟩
  | cons x rest ih =>
      obtain ⟨y, hy, hrel⟩ := h 0 x rfl
      obtain ⟨ys, hys, hrest⟩ := @ih (f ∘ Nat.succ) fun i other hother => h (i + 1) other hother
      refine ⟨y :: ys, ?_, .cons hrel hrest⟩
      rw [List.length_cons, List.range_succ_eq_map, List.mapM_cons, hy, List.mapM_map, hys]
      rfl

/-- Reading a list index by index. -/
theorem mapM_range_eq {f : Nat → Option α} {xs : List α}
    (h : ∀ i x, xs[i]? = some x → f i = some x) : (List.range xs.length).mapM f = some xs := by
  obtain ⟨ys, hys, hrel⟩ := exists_mapM_range fun i x hx => ⟨x, h i x hx, rfl⟩
  rw [List.forall₂_eq_eq_eq] at hrel
  rwa [hrel] at hys

theorem getElem?_splitLengths (nums : List Nat) (xs : List α) (i : Nat) :
    (nums.splitLengths xs)[i]? = nums[i]?.map fun num => slice (nums.take i).sum num xs := by
  induction nums generalizing xs i with
  | nil => simp
  | cons num rest ih =>
      cases i with
      | zero => simp [slice]
      | succ i => simp [ih, slice, List.drop_drop]

/-- Parts read one after another from where the ones before end. -/
theorem mapM_slices (nums : List Nat) (xs : List α) :
    ((List.range nums.length).mapM fun i => do
      let num ← nums[i]?
      return slice (nums.take i).sum num xs) = some (nums.splitLengths xs) := by
  rw [← List.length_splitLengths xs nums]
  apply mapM_range_eq
  intro i part hpart
  rw [getElem?_splitLengths] at hpart
  obtain ⟨num, hnum, rfl⟩ := Option.map_eq_some_iff.mp hpart
  rw [hnum]
  rfl

theorem scanl_add_start (start : Nat) (nums : List Nat) :
    nums.scanl (· + ·) start = (startLocs nums).map (start + ·) := by
  induction nums generalizing start with
  | nil => simp [startLocs]
  | cons num rest ih =>
      have hcons : startLocs (num :: rest) = 0 :: (startLocs rest).map (0 + num + ·) := by
        rw [startLocs, List.scanl_cons, ih]
      rw [List.scanl_cons, ih, hcons]
      simp [Function.comp_def, Nat.add_assoc]

@[simp] theorem startLocs_nil : startLocs [] = [0] := rfl

theorem startLocs_cons (num : Nat) (rest : List Nat) :
    startLocs (num :: rest) = 0 :: (startLocs rest).map (num + ·) := by
  rw [startLocs, List.scanl_cons, scanl_add_start]
  simp

@[simp] theorem length_startLocs (nums : List Nat) : (startLocs nums).length = nums.length + 1 := by
  simp [startLocs]

theorem startLocs_ne_nil (nums : List Nat) : startLocs nums ≠ [] := by
  simp [startLocs]

@[simp] theorem getLast?_startLocs (nums : List Nat) :
    (startLocs nums).getLast? = some nums.sum := by
  induction nums with
  | nil => rfl
  | cons num rest ih =>
      rw [startLocs_cons, List.getLast?_cons, List.getLast?_map, ih]
      simp

theorem getElem?_startLocs {nums : List Nat} {i : Nat} (h : i ≤ nums.length) :
    (startLocs nums)[i]? = some (nums.take i).sum := by
  induction nums generalizing i with
  | nil => simp_all
  | cons num rest ih =>
      rw [startLocs_cons]
      cases i with
      | zero => simp
      | succ i => simp [ih (by simpa using h)]

theorem take_one_startLocs (nums : List Nat) : (startLocs nums).take 1 = [0] := by
  cases nums with
  | nil => rfl
  | cons num rest => simp [startLocs_cons]

theorem cons_tail_startLocs (nums : List Nat) : 0 :: (startLocs nums).tail = startLocs nums := by
  cases nums with
  | nil => rfl
  | cons num rest => simp [startLocs_cons]

theorem pairwise_startLocs (nums : List Nat) : (startLocs nums).Pairwise (· ≤ ·) := by
  induction nums with
  | nil => simp
  | cons num rest ih =>
      rw [startLocs_cons, List.pairwise_cons, List.pairwise_map]
      exact ⟨fun _ _ => Nat.zero_le _, ih.imp fun hle => Nat.add_le_add_left hle num⟩

theorem startLocs_isPrefix (front back : List Nat) :
    startLocs front <+: startLocs (front ++ back) := by
  induction front with
  | nil => exact ⟨(startLocs back).tail, cons_tail_startLocs back⟩
  | cons num rest ih =>
      rw [List.cons_append, startLocs_cons, startLocs_cons, List.prefix_cons_inj]
      exact ih.map _

/-- Slices at the running sums of their sizes. -/
theorem zipWith_slice_startLocs (nums : List Nat) (xs : List α) :
    List.zipWith (fun offset num => slice offset num xs) (startLocs nums).dropLast nums =
      nums.splitLengths xs := by
  induction nums generalizing xs with
  | nil => simp
  | cons num rest ih =>
      have hshift : ∀ offset count,
          slice (num + offset) count xs = slice offset count (xs.drop num) := by
        intro offset count
        simp [slice, List.drop_drop]
      rw [startLocs_cons, List.dropLast_cons_of_ne_nil (by simp [startLocs_ne_nil]),
        List.zipWith_cons_cons, ← List.map_dropLast, List.zipWith_map_left]
      simp only [hshift, ih]
      simp [slice]

/-- The locations of the part between two of them, counted from its own start. -/
theorem slice_startLocs (front back : List Nat) {num : Nat} (h : num ≤ back.length) :
    (slice front.length (num + 1) (startLocs (front ++ back))).map (· - front.sum) =
      startLocs (back.take num) := by
  induction front with
  | nil =>
      simp only [List.length_nil, List.sum_nil, List.nil_append, Nat.sub_zero, List.map_id']
      induction num generalizing back with
      | zero => cases back <;> simp [slice, startLocs_cons]
      | succ num ih =>
          cases back with
          | nil => simp at h
          | cons head rest =>
              have htail := ih rest (by simpa using h)
              simp only [slice, List.drop_zero] at htail
              simp [slice, startLocs_cons, ← htail]
  | cons head rest ih =>
      rw [List.cons_append, startLocs_cons, List.length_cons, List.sum_cons, ← ih]
      simp only [slice, List.drop_succ_cons, ← List.map_drop, ← List.map_take, List.map_map]
      apply List.map_congr_left
      intro loc _
      simp only [Function.comp_apply]
      omega

theorem splitLengths_append {nums : List Nat} {front : List α} (back : List α)
    (h : nums.sum ≤ front.length) :
    nums.splitLengths (front ++ back) = nums.splitLengths front := by
  induction nums generalizing front with
  | nil => rfl
  | cons num rest ih =>
      rw [List.sum_cons] at h
      rw [List.splitLengths_cons, List.splitLengths_cons,
        List.take_append_of_le_length (by omega), List.drop_append_of_le_length (by omega),
        ih (by rw [List.length_drop]; omega)]

/-- Slices within one of several lists that stand one after another. -/
theorem zipWith_slice_flatten {blocks : List (List α)} {i : Nat} {block : List α}
    {nums : List Nat} (hblock : blocks[i]? = some block) (h : nums.sum ≤ block.length) :
    List.zipWith (fun offset num =>
        slice (((blocks.map List.length).take i).sum + offset) num blocks.flatten)
      (startLocs nums).dropLast nums = nums.splitLengths block := by
  obtain ⟨hi, rfl⟩ := List.getElem?_eq_some_iff.mp hblock
  have hshift : ∀ offset num,
      slice (((blocks.map List.length).take i).sum + offset) num blocks.flatten =
        slice offset num (blocks[i] ++ (blocks.drop (i + 1)).flatten) := by
    intro offset num
    rw [slice, ← List.drop_drop, List.drop_sum_flatten, List.drop_eq_getElem_cons hi,
      List.flatten_cons, slice]
  simp only [hshift]
  rw [zipWith_slice_startLocs, splitLengths_append _ h]

theorem getElem?_of_forall₂ {R : α → β → Prop} {xs : List α} {ys : List β}
    (h : List.Forall₂ R xs ys) {i : Nat} {x : α} (hx : xs[i]? = some x) :
    ∃ y, ys[i]? = some y ∧ R x y := by
  obtain ⟨hi, rfl⟩ := List.getElem?_eq_some_iff.mp hx
  have hi' : i < ys.length := h.length_eq ▸ hi
  exact ⟨ys[i], List.getElem?_eq_getElem hi', h.get hi hi'⟩

theorem mem_of_forall₂ {f : α → Option β} {xs : List α} {ys : List β}
    (h : List.Forall₂ (fun x y => f x = some y) xs ys) (y : β) :
    y ∈ ys ↔ ∃ x ∈ xs, f x = some y := by
  induction h with
  | nil => simp
  | cons heq _ ih => simp [ih, heq, eq_comm]

/-- One column of a table. -/
theorem exists_column {f : α → List β} {xs : List α} {i : Nat}
    (h : ∀ x ∈ xs, i < (f x).length) :
    ∃ column, xs.mapM (fun x => (f x)[i]?) = some column ∧
      ∀ (k : Nat) (x : α), xs[k]? = some x → column[k]? = (f x)[i]? := by
  obtain ⟨column, hcolumn, hrel⟩ := exists_mapM fun x (hmem : x ∈ xs) =>
    (⟨(f x).get ⟨i, h x hmem⟩, List.getElem?_eq_getElem _, List.getElem?_eq_getElem _⟩ :
      ∃ y, (f x)[i]? = some y ∧ (f x)[i]? = some y)
  refine ⟨column, hcolumn, fun k x hx => ?_⟩
  obtain ⟨y, hy, hentry⟩ := getElem?_of_forall₂ hrel hx
  rw [hy, hentry]

/-- An interval, cut into chunks of one size; the chunks behind its end are empty. -/
theorem flatten_intervals (total size count : Nat) :
    ((List.range count).map fun i =>
        List.range' (i * size) (min total (i * size + size) - i * size)).flatten =
      List.range (min total (count * size)) := by
  induction count with
  | zero => simp
  | succ count ih =>
      rw [List.range_succ, List.map_append, List.flatten_append, ih, List.map_singleton,
        List.flatten_singleton, Nat.succ_mul]
      by_cases h : count * size ≤ total
      · rw [Nat.min_eq_right h, List.range_eq_range', List.range_eq_range']
        have happend := @List.range'_append_1 0 (count * size)
          (min total (count * size + size) - count * size)
        rw [Nat.zero_add] at happend
        rw [happend]
        congr 1
        omega
      · have hshort : min total (count * size + size) - count * size = 0 := by omega
        rw [hshort, List.range'_zero, List.append_nil]
        congr 1
        omega

/-- Only the entries that satisfy `p` add to a sum, each at most `bound`. -/
theorem sum_map_le_countP_mul {p : α → Bool} {f : α → Nat} {bound : Nat} {xs : List α}
    (hzero : ∀ x ∈ xs, p x = false → f x = 0) (hbound : ∀ x ∈ xs, f x ≤ bound) :
    (xs.map f).sum ≤ xs.countP p * bound := by
  induction xs with
  | nil => simp
  | cons x rest ih =>
      have hrest := ih (fun y hy => hzero y (List.mem_cons_of_mem _ hy))
        fun y hy => hbound y (List.mem_cons_of_mem _ hy)
      have hx := hbound x List.mem_cons_self
      rw [List.map_cons, List.sum_cons, List.countP_cons]
      cases hp : p x with
      | false =>
          rw [hzero x List.mem_cons_self hp]
          simpa using hrest
      | true =>
          rw [if_pos rfl, Nat.succ_mul]
          omega

theorem flatten_map_replicate (f : β → Nat) (value : α) (xs : List β) :
    (xs.map fun x => List.replicate (f x) value).flatten =
      List.replicate (xs.map f).sum value := by
  induction xs with
  | nil => rfl
  | cons x rest ih =>
      rw [List.map_cons, List.flatten_cons, ih, List.map_cons, List.sum_cons,
        List.replicate_append_replicate]

/-- Positive entries that add up to the whole sum are all of them. -/
theorem forall_of_sum_filter_eq {p : α → Bool} {f : α → Nat} {xs : List α}
    (hpos : ∀ x ∈ xs, 0 < f x) (h : ((xs.filter p).map f).sum = (xs.map f).sum) :
    ∀ x ∈ xs, p x = true := by
  induction xs with
  | nil => nofun
  | cons x rest ih =>
      have hrest : ((rest.filter p).map f).sum ≤ (rest.map f).sum :=
        (List.filter_sublist.map f).sum_le_sum fun _ _ => Nat.zero_le _
      have hx := hpos x List.mem_cons_self
      rw [List.filter_cons] at h
      cases hp : p x with
      | false =>
          rw [hp, if_neg Bool.false_ne_true, List.map_cons, List.sum_cons] at h
          omega
      | true =>
          rw [hp, if_pos rfl, List.map_cons, List.map_cons, List.sum_cons, List.sum_cons] at h
          intro y hy
          rcases List.mem_cons.mp hy with rfl | hy
          · exact hp
          · exact ih (fun z hz => hpos z (List.mem_cons_of_mem _ hz)) (by omega) y hy

theorem exists_max? {xs : List Nat} (h : xs ≠ []) :
    ∃ most, xs.max? = some most ∧ most ∈ xs ∧ ∀ x ∈ xs, x ≤ most := by
  cases hmax : xs.max? with
  | none => exact absurd (List.max?_eq_none_iff.mp hmax) h
  | some most => exact ⟨most, rfl, List.max?_eq_some_iff.mp hmax⟩

theorem le_max?_getD {xs : List Nat} {x : Nat} (h : x ∈ xs) : x ≤ xs.max?.getD 0 := by
  obtain ⟨most, hmost, -, hle⟩ := exists_max? (List.ne_nil_of_mem h)
  rw [hmost]
  exact hle x h

end VllmMlu.Library.Cuts
