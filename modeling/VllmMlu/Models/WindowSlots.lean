import VllmMlu.Models.DeepseekV4

/-! The slots that `update_forward_args` gives to the requests of a packed batch, request
by request. -/
namespace VllmMlu.Models
open VllmMlu.Library Rows Paged Cuts
open VllmMlu.Worker

theorem slice_eq_map {row : List Int} {start count : Nat} (h : count ≤ row.length - start) :
    slice start count row = (List.range count).map fun i => row.getD (start + i) 0 := by
  apply List.ext_getElem
  · simp [h]
  · intro i hi _
    have hlt : i < count := by
      rw [length_slice] at hi
      omega
    simp only [slice, List.getElem_take, List.getElem_drop, List.getElem_map, List.getElem_range]
    rw [List.getD_eq_getElem _ _ (by omega)]

/-- The slots of a prefill of `num` tokens: none for the tokens before its last window. -/
def windowSlots (windowSize num : Nat) (row : List Int) : List Int :=
  (List.range num).map fun p =>
    if p + windowSize < num then -1 else row.getD (p % windowSize) 0

@[simp] theorem length_windowSlots (windowSize num : Nat) (row : List Int) :
    (windowSlots windowSize num row).length = num := by
  simp [windowSlots]

theorem windowSlots_short {windowSize num : Nat} {row : List Int} (h : num < windowSize)
    (hrow : num ≤ row.length) : windowSlots windowSize num row = slice 0 num row := by
  apply List.ext_getElem
  · simp [hrow]
  · intro p hp _
    have hlt : p < num := by simpa using hp
    simp only [windowSlots, slice, List.getElem_map, List.getElem_range, List.drop_zero,
      List.getElem_take]
    rw [if_neg (by omega), Nat.mod_eq_of_lt (by omega),
      List.getD_eq_getElem _ _ (by omega)]

/-- The columns of the last window in the order of the tokens: the tail of the ring, then
its head. -/
theorem mod_of_tail {windowSize num k : Nat} (hle : windowSize ≤ num)
    (hk : k < windowSize - num % windowSize) :
    (num - windowSize + k) % windowSize = num % windowSize + k := by
  have hmod : (num - windowSize) % windowSize = num % windowSize := (Nat.mod_eq_sub_mod hle).symm
  rw [Nat.add_mod, hmod, Nat.add_mod_mod, Nat.mod_eq_of_lt (by omega)]

theorem mod_of_head {windowSize num k : Nat} (hpos : 0 < windowSize) (hle : windowSize ≤ num)
    (hk : k < num % windowSize) :
    (num - windowSize + (windowSize - num % windowSize) + k) % windowSize = k := by
  have hlt := Nat.mod_lt num hpos
  have hdiv := Nat.mod_add_div num windowSize
  have heq : num - windowSize + (windowSize - num % windowSize) + k =
      k + windowSize * (num / windowSize) := by omega
  rw [heq, Nat.add_mul_mod_self_left, Nat.mod_eq_of_lt (by omega)]

theorem windowSlots_long {windowSize num : Nat} {row : List Int} (hpos : 0 < windowSize)
    (hle : windowSize ≤ num) (hrow : windowSize ≤ row.length) :
    windowSlots windowSize num row = List.replicate (num - windowSize) (-1) ++
      slice (num % windowSize) (windowSize - num % windowSize) row ++
        slice 0 (num % windowSize) row := by
  have hlt := Nat.mod_lt num hpos
  have hnum : num = num - windowSize + (windowSize - num % windowSize) + num % windowSize := by
    omega
  have hsplit : List.range num = List.range (num - windowSize) ++
      (List.range (windowSize - num % windowSize)).map (num - windowSize + ·) ++
        (List.range (num % windowSize)).map
          (num - windowSize + (windowSize - num % windowSize) + ·) := by
    rw [← List.range_add, ← List.range_add, ← hnum]
  rw [windowSlots, hsplit, List.map_append, List.map_append, List.map_map, List.map_map]
  congr 1
  · congr 1
    · apply List.ext_getElem
      · simp
      · intro p hp _
        have hold : p + windowSize < num := by
          simp only [List.length_map, List.length_range] at hp
          omega
        simp [hold]
    · apply List.ext_getElem
      · simp
        omega
      · intro k hk _
        have htail : k < windowSize - num % windowSize := by simpa using hk
        simp only [List.getElem_map, List.getElem_range, Function.comp_apply, slice,
          List.getElem_take, List.getElem_drop]
        rw [if_neg (by omega), mod_of_tail hle htail, List.getD_eq_getElem _ _ (by omega)]
  · apply List.ext_getElem
    · simp
      omega
    · intro k hk _
      have hhead : k < num % windowSize := by simpa using hk
      simp only [List.getElem_map, List.getElem_range, Function.comp_apply, slice,
        List.getElem_take, List.drop_zero]
      rw [if_neg (by omega), mod_of_head hpos hle hhead, List.getD_eq_getElem _ _ (by omega)]

/-- The metadata of a batch whose requests have their query rows one after another. -/
def packed (inferMode : MLUInferMode) (seqLens queryLens : List Nat) (tables : List (List Int)) :
    CommonMetadata where
  inferMode := inferMode
  queryStartLoc := startLocs queryLens
  seqLens := seqLens
  blockTableTensor := some tables

@[simp] theorem queryLens_packed (inferMode : MLUInferMode) (seqLens queryLens : List Nat)
    (tables : List (List Int)) :
    (packed inferMode seqLens queryLens tables).queryLens = queryLens := by
  apply List.ext_getElem?
  intro i
  by_cases hi : i < queryLens.length
  · have hstart := getElem?_startLocs hi.le
    have hstop : (startLocs queryLens)[i + 1]? = some (queryLens.take (i + 1)).sum :=
      getElem?_startLocs hi
    rw [CommonMetadata.queryLens, List.getElem?_zipWith, List.getElem?_tail]
    simp only [packed, hstart, hstop, List.sum_take_succ _ _ hi, List.getElem?_eq_getElem hi]
    simp
  · rw [List.getElem?_eq_none (by simpa [CommonMetadata.queryLens, packed] using hi),
      List.getElem?_eq_none (by omega)]

section Packed

variable {ι : Type} {items : List ι} {num : ι → Nat} {row : ι → List Int}
  {inferMode : MLUInferMode}

theorem prefillWindowRow_eq {windowSize i : Nat} {item : ι} {front back : List Int}
    (hpos : 0 < windowSize) (hitem : items[i]? = some item)
    (hrow : min (num item) windowSize ≤ (row item).length)
    (hfront : front.length = ((items.map num).take i).sum) :
    prefillWindowRow windowSize
        (packed inferMode (items.map num) (items.map num) (items.map row)) (items.map row)
        (front ++ List.replicate (num item) (-1) ++ back) i =
      .ok (front ++ windowSlots windowSize (num item) (row item) ++ back) := by
  have hnum : (items.map num)[i]? = some (num item) := by rw [List.getElem?_map, hitem]; rfl
  have htable : (items.map row)[i]? = some (row item) := by rw [List.getElem?_map, hitem]; rfl
  obtain ⟨hi, hget⟩ := List.getElem?_eq_some_iff.mp hnum
  have hstart := getElem?_startLocs hi.le
  have hstop : (startLocs (items.map num))[i + 1]? = some ((items.map num).take (i + 1)).sum :=
    getElem?_startLocs hi
  rw [List.sum_take_succ _ _ hi, hget] at hstop
  rw [prefillWindowRow]
  simp only [packed, index_eq_ok hnum, index_eq_ok htable, index_eq_ok hstart, index_eq_ok hstop]
  change (if num item < windowSize then _ else _) = _
  split
  · rename_i hshort
    rw [windowSlots_short hshort (by omega)]
    apply assign_middle hfront.symm
    · rw [List.length_replicate, hfront]
    · rw [length_slice, List.length_replicate]
      omega
  · rename_i hlong
    have hlt := Nat.mod_lt (num item) hpos
    have hblank : List.replicate (num item) (-1 : Int) =
        List.replicate (num item - windowSize) (-1) ++
          List.replicate (windowSize - num item % windowSize) (-1) ++
            List.replicate (num item % windowSize) (-1) := by
      rw [← List.replicate_add, ← List.replicate_add]
      congr 1
      omega
    have htail : assign (front ++ List.replicate (num item) (-1) ++ back)
        (((items.map num).take i).sum + num item - windowSize)
        (((items.map num).take i).sum + num item - windowSize + (windowSize - num item % windowSize))
        (slice (num item % windowSize) (windowSize - num item % windowSize) (row item)) =
          .ok (front ++ List.replicate (num item - windowSize) (-1) ++
            slice (num item % windowSize) (windowSize - num item % windowSize) (row item) ++
              (List.replicate (num item % windowSize) (-1) ++ back)) := by
      rw [hblank]
      simp only [← List.append_assoc]
      rw [List.append_assoc _ (List.replicate (num item % windowSize) (-1 : Int)) back,
        List.append_assoc _ (List.replicate (num item % windowSize) (-1 : Int)) back]
      apply assign_middle
      · simp only [List.length_append, List.length_replicate, hfront]
        omega
      · simp only [List.length_append, List.length_replicate, hfront]
        omega
      · rw [length_slice, List.length_replicate]
        omega
    have hhead : assign (front ++ List.replicate (num item - windowSize) (-1) ++
            slice (num item % windowSize) (windowSize - num item % windowSize) (row item) ++
              (List.replicate (num item % windowSize) (-1) ++ back))
        (((items.map num).take i).sum + num item - windowSize +
          (windowSize - num item % windowSize))
        (((items.map num).take i).sum + num item - windowSize + windowSize)
        (slice 0 (num item % windowSize) (row item)) =
          .ok (front ++ windowSlots windowSize (num item) (row item) ++ back) := by
      rw [windowSlots_long hpos (by omega) (by omega)]
      simp only [← List.append_assoc]
      apply assign_middle
      · simp only [List.length_append, List.length_replicate, length_slice, hfront]
        omega
      · simp only [List.length_append, List.length_replicate, length_slice, hfront]
        omega
      · rw [length_slice, List.length_replicate]
        omega
    rw [if_neg hpos.ne', htail]
    exact hhead

/-- A prefill gives each request the slots of its own prefill, in the order of the batch. -/
theorem prefillWindowSlots_eq {windowSize : Nat} (hpos : 0 < windowSize)
    (hrow : ∀ item ∈ items, min (num item) windowSize ≤ (row item).length) :
    prefillWindowSlots windowSize
        (packed inferMode (items.map num) (items.map num) (items.map row)) (items.map row) =
      .ok (items.flatMap fun item => windowSlots windowSize (num item) (row item)) := by
  have hlast : (startLocs (items.map num))[(startLocs (items.map num)).length - 1]? =
      some (items.map num).sum := by
    rw [length_startLocs, Nat.add_sub_cancel, getElem?_startLocs le_rfl, List.take_length]
  rw [prefillWindowSlots]
  simp only [packed, index_eq_ok hlast, List.length_map]
  change (List.range items.length).foldlM _ (List.replicate (items.map num).sum (-1)) = _
  rw [replicate_sum]
  apply foldlM_fill
  intro i item hitem back
  exact prefillWindowRow_eq hpos hitem (hrow item (List.mem_of_getElem? hitem))
    (length_flatMap_take (fun item _ => length_windowSlots windowSize (num item) (row item)) i)

/-- The groups of a prefill stand one after another from the column `windowOffset` on. -/
theorem prefillCompressorSlots_eq {windowOffset compressRatio : Nat}
    (hrow : ∀ item ∈ items, num item / compressRatio ≤ (row item).length - windowOffset) :
    prefillCompressorSlots
        (packed inferMode (items.map num) (items.map num) (items.map row)) (items.map row)
        windowOffset compressRatio =
      .ok (items.flatMap fun item =>
        slice windowOffset (num item / compressRatio) (row item)) := by
  have hlens : ∀ item ∈ items,
      (slice windowOffset (num item / compressRatio) (row item)).length =
        num item / compressRatio := by
    intro item hmem
    rw [length_slice, Nat.min_eq_left (hrow item hmem)]
  have hmap : (items.map num).map (· / compressRatio) =
      items.map fun item => num item / compressRatio := by
    rw [List.map_map]
    rfl
  simp only [prefillCompressorSlots, queryLens_packed, List.length_map, hmap]
  rw [replicate_sum]
  apply foldlM_fill
  intro i item hitem back
  have hmem := List.mem_of_getElem? hitem
  have hi : i < (items.map fun item => num item / compressRatio).length := by
    rw [List.length_map]
    exact (List.getElem?_eq_some_iff.mp hitem).1
  have hnum : (items.map fun item => num item / compressRatio)[i]? =
      some (num item / compressRatio) := by
    rw [List.getElem?_map, hitem]
    rfl
  have htable : (items.map row)[i]? = some (row item) := by rw [List.getElem?_map, hitem]; rfl
  have hstart := getElem?_startLocs hi.le
  have hstop := getElem?_startLocs (i := i + 1) hi
  have hfront := length_flatMap_take hlens i
  rw [List.sum_take_succ _ _ hi, (List.getElem?_eq_some_iff.mp hnum).2] at hstop
  simp only [index_eq_ok hnum, index_eq_ok htable, index_eq_ok hstart, index_eq_ok hstop]
  apply assign_middle hfront.symm
  · rw [List.length_replicate, hfront]
  · rw [hlens item hmem, List.length_replicate]

theorem gather_eq {column : ι → Nat}
    (h : ∀ item ∈ items, column item < (row item).length) :
    gather (items.map row) (items.map fun item => (column item : Int)) =
      .ok (items.map fun item => (row item).getD (column item) 0) := by
  rw [gather, if_pos (by simp)]
  induction items with
  | nil => rfl
  | cons item rest ih =>
      have hitem := h item List.mem_cons_self
      have hrest := ih fun other hmem => h other (List.mem_cons_of_mem _ hmem)
      have hfirst : index (row item) (column item) = .ok ((row item).getD (column item) 0) := by
        rw [List.getD_eq_getElem _ _ hitem]
        exact index_eq_ok (List.getElem?_eq_getElem hitem)
      simp only [List.map_cons, List.zip_cons_cons, List.mapM_cons, hrest]
      rw [if_neg (by omega), Int.toNat_natCast, hfirst]
      rfl

variable {seqLen : ι → Nat}

theorem decodeWindowSlots_eq {windowSize : Nat} (hpos : 0 < windowSize)
    (hseq : ∀ item ∈ items, 0 < seqLen item)
    (hrow : ∀ item ∈ items, (seqLen item - 1) % windowSize < (row item).length) :
    decodeWindowSlots windowSize
        (packed inferMode (items.map seqLen) (items.map num) (items.map row)) (items.map row) =
      .ok (items.map fun item => (row item).getD ((seqLen item - 1) % windowSize) 0) := by
  rw [decodeWindowSlots, if_neg hpos.ne', ← gather_eq hrow]
  simp only [packed, List.map_map]
  congr 1
  apply List.map_congr_left
  intro item hmem
  have hone : 1 ≤ seqLen item := hseq item hmem
  push_cast [Nat.cast_sub hone]
  rfl

theorem decodeCompressorSlots_eq {windowOffset compressRatio : Nat}
    (hle : ∀ item ∈ items, num item ≤ seqLen item)
    (hrow : ∀ item ∈ items,
      windowOffset + (seqLen item - num item) / compressRatio < (row item).length) :
    decodeCompressorSlots
        (packed inferMode (items.map seqLen) (items.map num) (items.map row)) (items.map row)
        windowOffset compressRatio =
      .ok (items.map fun item =>
        (row item).getD (windowOffset + (seqLen item - num item) / compressRatio) 0) := by
  rw [decodeCompressorSlots, queryLens_packed, if_pos (by simp [packed]), ← gather_eq hrow]
  simp only [packed, List.zipWith_map_left, List.zipWith_map_right, List.zipWith_self]
  congr 1
  apply List.map_congr_left
  intro item hmem
  push_cast [Nat.cast_sub (hle item hmem)]
  rfl

/-- The mapping of each pair is kept under that pair. -/
theorem foldlM_pairs {slotsOf : Nat → Nat → Except TensorError (List Int)}
    {slots : Nat × Nat → List Int}
    (h : ∀ pair ∈ compressorPairs, slotsOf pair.1 pair.2 = .ok (slots pair)) :
    ∃ mapping : Dict (Nat × Nat) (List Int),
      compressorPairs.foldlM (fun mapping (windowOffset, compressRatio) => do
          let slots ← slotsOf windowOffset compressRatio
          return mapping.set (windowOffset, compressRatio) slots) Dict.empty = .ok mapping ∧
        ∀ pair ∈ compressorPairs, mapping.get? pair = some (slots pair) := by
  have hwide := h (128, 128) (by decide)
  have hnarrow := h (128, 4) (by decide)
  have hindexer := h (0, 4) (by decide)
  refine ⟨((Dict.empty.set (128, 128) (slots (128, 128))).set (128, 4) (slots (128, 4))).set
    (0, 4) (slots (0, 4)), ?_, ?_⟩
  · simp only [compressorPairs, List.foldlM_cons, List.foldlM_nil, hwide, hnarrow, hindexer]
    rfl
  · intro pair hpair
    fin_cases hpair <;> simp [Dict.get?_set]

section Mappings

variable {cfg : DeepseekV4Config}

theorem updateForwardArgs_eq {metadata : CommonMetadata} {blockTable : List (List Int)}
    {window : List Int} {slots : Nat × Nat → List Int}
    (htable : metadata.blockTableTensor = some blockTable)
    (hratios : cfg.compressRatios.toFinset = {0, 4, 128})
    (hwindow : (if metadata.inferMode.isPrefillOnly then
        prefillWindowSlots cfg.windowSize metadata blockTable
      else decodeWindowSlots cfg.windowSize metadata blockTable) = .ok window)
    (hslots : ∀ pair ∈ compressorPairs, (if metadata.inferMode.isPrefillOnly then
        prefillCompressorSlots metadata blockTable pair.1 pair.2
      else decodeCompressorSlots metadata blockTable pair.1 pair.2) = .ok (slots pair)) :
    ∃ mapping, updateForwardArgs cfg metadata = .ok (some window, mapping) ∧
      ∀ pair ∈ compressorPairs, mapping.get? pair = some (slots pair) := by
  cases hmode : metadata.inferMode.isPrefillOnly with
  | true =>
      simp only [hmode, if_true] at hwindow hslots
      obtain ⟨mapping, hmapping, hget⟩ := foldlM_pairs hslots
      refine ⟨mapping, ?_, hget⟩
      simp only [updateForwardArgs, htable, Option.bind_some, Option.map_some, hratios, hmode,
        if_true, hwindow, ne_eq, not_true_eq_false, if_false]
      exact congrArg (fun result => result >>= fun mapping => pure (some window, mapping))
        hmapping
  | false =>
      simp only [hmode, Bool.false_eq_true, if_false] at hwindow hslots
      obtain ⟨mapping, hmapping, hget⟩ := foldlM_pairs hslots
      refine ⟨mapping, ?_, hget⟩
      simp only [updateForwardArgs, htable, Option.bind_some, Option.map_some, hratios, hmode,
        Bool.false_eq_true, if_false, hwindow, ne_eq, not_true_eq_false]
      exact congrArg (fun result => result >>= fun mapping => pure (some window, mapping))
        hmapping

theorem groups_le_of_columns {windowSize : Nat} (hmode : inferMode.isPrefillOnly = true)
    (hwide : ∀ item ∈ items, ∀ column ∈ columnsUsed windowSize inferMode (num item) (num item),
      column < (row item).length) {pair : Nat × Nat} (hpair : pair ∈ compressorPairs)
    (item : ι) (hmem : item ∈ items) :
    num item / pair.2 ≤ (row item).length - pair.1 := by
  have hcolumn := hwide item hmem (pair.1 + (num item / pair.2 - 1))
  simp only [columnsUsed, hmode, if_true, List.mem_append, List.mem_range, List.mem_flatMap,
    List.mem_map] at hcolumn
  by_contra hlt
  have := hcolumn (.inr ⟨pair, hpair, _, by omega, rfl⟩)
  omega

theorem updateForwardArgs_prefill (hpos : 0 < cfg.windowSize)
    (hratios : cfg.compressRatios.toFinset = {0, 4, 128})
    (hmode : inferMode.isPrefillOnly = true)
    (hwide : ∀ item ∈ items, ∀ column ∈ columnsUsed cfg.windowSize inferMode (num item) (num item),
      column < (row item).length) :
    ∃ mapping, updateForwardArgs cfg
        (packed inferMode (items.map num) (items.map num) (items.map row)) =
          .ok (some (items.flatMap fun item =>
            windowSlots cfg.windowSize (num item) (row item)), mapping) ∧
      ∀ pair ∈ compressorPairs, mapping.get? pair =
        some (items.flatMap fun item => slice pair.1 (num item / pair.2) (row item)) := by
  have hwindow : ∀ item ∈ items, min (num item) cfg.windowSize ≤ (row item).length := by
    intro item hmem
    have hcolumn := hwide item hmem (row item).length
    simp only [columnsUsed, hmode, if_true, List.mem_append, List.mem_range] at hcolumn
    by_contra hlt
    have := hcolumn (.inl (by omega))
    omega
  apply updateForwardArgs_eq rfl hratios
  · change (if inferMode.isPrefillOnly = true then _ else _) = _
    rw [if_pos hmode]
    exact prefillWindowSlots_eq hpos hwindow
  · intro pair hpair
    change (if inferMode.isPrefillOnly = true then _ else _) = _
    rw [if_pos hmode]
    exact prefillCompressorSlots_eq (groups_le_of_columns hmode hwide hpair)

theorem updateForwardArgs_decode (hpos : 0 < cfg.windowSize)
    (hratios : cfg.compressRatios.toFinset = {0, 4, 128})
    (hmode : inferMode.isPrefillOnly = false) (hseq : ∀ item ∈ items, 0 < seqLen item)
    (hle : ∀ item ∈ items, num item ≤ seqLen item)
    (hwide : ∀ item ∈ items,
      ∀ column ∈ columnsUsed cfg.windowSize inferMode (seqLen item) (num item),
        column < (row item).length) :
    ∃ mapping, updateForwardArgs cfg
        (packed inferMode (items.map seqLen) (items.map num) (items.map row)) =
          .ok (some (items.map fun item =>
            (row item).getD ((seqLen item - 1) % cfg.windowSize) 0), mapping) ∧
      ∀ pair ∈ compressorPairs, mapping.get? pair = some (items.map fun item =>
        (row item).getD (pair.1 + (seqLen item - num item) / pair.2) 0) := by
  simp only [columnsUsed, hmode, Bool.false_eq_true, if_false, List.mem_cons, List.mem_map] at hwide
  apply updateForwardArgs_eq rfl hratios
  · change (if inferMode.isPrefillOnly = true then _ else _) = _
    rw [if_neg (by simp [hmode])]
    apply decodeWindowSlots_eq hpos hseq
    intro item hmem
    exact hwide item hmem _ (.inl rfl)
  · intro pair hpair
    change (if inferMode.isPrefillOnly = true then _ else _) = _
    rw [if_neg (by simp [hmode])]
    apply decodeCompressorSlots_eq hle
    intro item hmem
    exact hwide item hmem _ (.inr ⟨pair, hpair, rfl⟩)

end Mappings

end Packed

end VllmMlu.Models
