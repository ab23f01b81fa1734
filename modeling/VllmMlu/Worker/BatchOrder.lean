import VllmMlu.Library.Cycles
import VllmMlu.Sched.Request

/-! The two reorderings of the input batch: into decodes, extends and prefills along the cycles
of a map, and FlashMLA's own into decodes and prefills. -/
namespace VllmMlu.Worker
open VllmMlu.Library Swaps Cycles VllmMlu.Sched

/-- A row of the input batch. -/
structure BatchRow where
  reqId : ReqId
  numScheduledTokens : Nat
  numComputedTokens : Nat
  numPromptTokens : Nat
deriving DecidableEq, Repr

namespace BatchRow

variable (decodeThreshold : Int)

def isDecode (row : BatchRow) : Bool :=
  row.numScheduledTokens ≤ decodeThreshold ∧ row.numPromptTokens ≤ row.numComputedTokens

def isExtend (row : BatchRow) : Bool := !row.isDecode decodeThreshold && 0 < row.numComputedTokens

def isPrefill (row : BatchRow) : Bool := !row.isDecode decodeThreshold && row.numComputedTokens = 0

/-- `req_regions`: 0 for a decode, 1 for an extend, 2 for a prefill. -/
def region (row : BatchRow) : Nat :=
  if row.isPrefill decodeThreshold then 2 else if row.isExtend decodeThreshold then 1 else 0

end BatchRow

/-- `target_regions`. -/
def targetRegions (decodeThreshold : Int) (rows : List BatchRow) : List Nat :=
  let numDecodes := rows.countP (BatchRow.isDecode decodeThreshold)
  let numExtends := rows.countP (BatchRow.isExtend decodeThreshold)
  List.replicate numDecodes 0 ++ List.replicate numExtends 1 ++
    List.replicate (rows.length - (numDecodes + numExtends)) 2

/-- Whether the batch was modified, and its rows; `none` if a cycle takes more than `fuel`
turns. -/
def reorderBatchToSplitDecodesAndPrefills (fuel : Nat) (decodeThreshold : Int)
    (rows : List BatchRow) : Option (Bool × List BatchRow) :=
  let reqRegions := rows.map (BatchRow.region decodeThreshold)
  let origIndices := differing reqRegions (targetRegions decodeThreshold rows)
  if origIndices.isEmpty then some (false, rows)
  else
    let srcIndices := byKey reqRegions origIndices
    let srcDestMap := planOf srcIndices origIndices
    (followPlan fuel srcDestMap.keys srcDestMap rows).map fun state => (true, state.2)

namespace BatchRow

variable (decodeThreshold : Int) (row : BatchRow)

/-- The three kinds exclude each other. -/
theorem kinds : (row.isDecode decodeThreshold = true ∧ row.isExtend decodeThreshold = false ∧
      row.region decodeThreshold = 0) ∨
    (row.isDecode decodeThreshold = false ∧ row.isExtend decodeThreshold = true ∧
      row.region decodeThreshold = 1) ∨
    (row.isDecode decodeThreshold = false ∧ row.isExtend decodeThreshold = false ∧
      row.region decodeThreshold = 2) := by
  unfold region isExtend isPrefill
  cases row.isDecode decodeThreshold with
  | true => simp
  | false =>
      rcases Nat.eq_zero_or_pos row.numComputedTokens with hzero | hpos
      · simp [hzero]
      · simp [hpos, Nat.ne_of_gt hpos]

end BatchRow

theorem countP_kinds (decodeThreshold : Int) (rows : List BatchRow) :
    rows.countP (BatchRow.isDecode decodeThreshold) +
      rows.countP (BatchRow.isExtend decodeThreshold) ≤ rows.length := by
  induction rows with
  | nil => simp
  | cons row rest ih =>
      simp only [List.countP_cons, List.length_cons]
      rcases BatchRow.kinds decodeThreshold row with h | h | h <;> simp [h] <;> omega

/-- The regions are those of the rows in another order. -/
theorem regions_perm (decodeThreshold : Int) (rows : List BatchRow) :
    (rows.map (BatchRow.region decodeThreshold)).Perm (targetRegions decodeThreshold rows) := by
  rw [List.perm_iff_count]
  intro region
  simp only [targetRegions, List.count_append, List.count_replicate, beq_iff_eq]
  induction rows with
  | nil => simp
  | cons row rest ih =>
      have hcounts := countP_kinds decodeThreshold rest
      rw [List.map_cons, List.count_cons, ih]
      simp only [List.countP_cons, List.length_cons, beq_iff_eq]
      rcases BatchRow.kinds decodeThreshold row with h | h | h <;>
        simp only [h, Bool.false_eq_true, if_true, if_false] <;> split_ifs <;> omega

theorem targetRegions_sorted (decodeThreshold : Int) (rows : List BatchRow) :
    (targetRegions decodeThreshold rows).Pairwise (· ≤ ·) := by
  simp only [targetRegions, List.pairwise_append, List.pairwise_replicate, List.mem_append,
    List.mem_replicate]
  refine ⟨⟨.inr le_rfl, .inr le_rfl, ?_⟩, .inr le_rfl, ?_⟩
  · intro first hfirst second hsecond
    omega
  · intro first hfirst second hsecond
    omega

/-- The batch is split into decodes, extends and prefills in this order by exchanging rows, and
left alone if it is split already. -/
theorem reorder_splits (decodeThreshold : Int) (rows : List BatchRow) {fuel : Nat}
    (hfuel : rows.length ≤ fuel) :
    ∃ modified reordered,
      reorderBatchToSplitDecodesAndPrefills fuel decodeThreshold rows =
        some (modified, reordered) ∧
      reordered.Perm rows ∧
      (reordered.map (BatchRow.region decodeThreshold)).Pairwise (· ≤ ·) ∧
      (modified = false ↔ (rows.map (BatchRow.region decodeThreshold)).Pairwise (· ≤ ·)) ∧
      (modified = false → reordered = rows) := by
  have hperm := regions_perm decodeThreshold rows
  have htarget := targetRegions_sorted decodeThreshold rows
  unfold reorderBatchToSplitDecodesAndPrefills
  simp only
  split
  · rename_i hnone
    have hsame := eq_of_differing_nil hperm.length_eq (List.isEmpty_iff.mp hnone)
    exact ⟨false, rows, rfl, .refl _, hsame ▸ htarget, by simp [hsame, htarget], fun _ => rfl⟩
  · rename_i hsome
    obtain ⟨next, reordered, hplan, hreordered, hregions⟩ := followPlan_sorts hperm htarget hfuel
    refine ⟨true, reordered, by rw [hplan]; rfl, hreordered, hregions ▸ htarget, ?_, nofun⟩
    rw [Bool.true_eq_false, false_iff]
    intro hsorted
    have hsame := hperm.eq_of_pairwise' hsorted htarget
    rw [hsame] at hsome
    simp [differing] at hsome

namespace Samples

/-- A prefill, an extend and two decodes. -/
def mixedRows : List BatchRow :=
  [⟨0, 5, 0, 5⟩, ⟨1, 3, 2, 5⟩, ⟨2, 1, 5, 5⟩, ⟨3, 1, 7, 4⟩]

end Samples

theorem reorder_splits_mixed : ∃ modified reordered,
    reorderBatchToSplitDecodesAndPrefills 4 1 Samples.mixedRows = some (modified, reordered) ∧
      (reordered.map (BatchRow.region 1)).Pairwise (· ≤ ·) := by
  obtain ⟨modified, reordered, hok, -, hsorted, -⟩ :=
    reorder_splits 1 Samples.mixedRows (le_refl 4)
  exact ⟨modified, reordered, hok, hsorted⟩

example : (reorderBatchToSplitDecodesAndPrefills 4 1 Samples.mixedRows).map
    (fun result => (result.1, result.2.map BatchRow.reqId)) = some (true, [2, 3, 1, 0]) := by
  decide

/-! FlashMLA's reordering. -/

/-- The rows, and the swaps that have been made. -/
structure ReorderState where
  rows : List BatchRow
  numSwaps : Nat := 0
  modifiedBatch : Bool := false

/-- `for i in range(1, min(num_decodes, num_prefills) + 1)`, with its early stop. -/
def swapLoop (decodes prefills : List Nat) : List Nat → ReorderState → ReorderState
  | [], state => state
  | i :: rest, state =>
      let decodeIdx := decodes.getD (decodes.length - i) 0
      if decodeIdx < decodes.length then state
      else swapLoop decodes prefills rest {
        rows := swapAt state.rows (prefills.getD (i - 1) 0) decodeIdx
        numSwaps := state.numSwaps + 1
        modifiedBatch := true }

/-- FlashMLA's `reorder_batch`. -/
def flashReorderBatch (numSpeculativeTokens : Nat) (rows : List BatchRow) : ReorderState :=
  let decoderQueryLen : Int := 1 + numSpeculativeTokens
  let decodes := placesFrom 0 (BatchRow.isDecode decoderQueryLen) rows
  let prefills := placesFrom 0 (fun row => !row.isDecode decoderQueryLen) rows
  swapLoop decodes prefills (List.range' 1 (min decodes.length prefills.length)) { rows := rows }

/-- The turns of the loop swap the pairs of the two lists, up to the stop. -/
theorem swapLoop_eq {decodes prefills turns : List Nat} {front back : List (Nat × Nat)}
    (hpairs : turns.map (fun i => (prefills.getD (i - 1) 0,
      decodes.getD (decodes.length - i) 0)) = front ++ back)
    (hfront : ∀ pair ∈ front, decodes.length ≤ pair.2)
    (hback : ∀ pair ∈ back, pair.2 < decodes.length) (state : ReorderState) :
    swapLoop decodes prefills turns state = {
      rows := front.foldl (fun xs pair => swapAt xs pair.1 pair.2) state.rows
      numSwaps := state.numSwaps + front.length
      modifiedBatch := state.modifiedBatch || !front.isEmpty } := by
  induction turns generalizing front state with
  | nil =>
      obtain ⟨rfl, rfl⟩ := List.append_eq_nil_iff.mp hpairs.symm
      simp [swapLoop]
  | cons i rest ih =>
      cases front with
      | nil =>
          rw [List.nil_append] at hpairs
          rw [← hpairs, List.map_cons] at hback
          have hstop := hback _ List.mem_cons_self
          rw [swapLoop, if_pos hstop]
          simp
      | cons pair front =>
          rw [List.map_cons, List.cons_append, List.cons.injEq] at hpairs
          obtain ⟨rfl, hrest⟩ := hpairs
          have hgo := hfront _ List.mem_cons_self
          rw [swapLoop, if_neg (by simpa using hgo),
            ih hrest fun other hmem => hfront other (List.mem_cons_of_mem _ hmem)]
          simp [Nat.add_comm, Nat.add_left_comm]

/-- The pairs of the turns, in the order of the loop. -/
theorem turn_pairs (decodes prefills : List Nat) :
    (List.range' 1 (min decodes.length prefills.length)).map (fun i => (prefills.getD (i - 1) 0,
      decodes.getD (decodes.length - i) 0)) = prefills.zip decodes.reverse := by
  apply List.ext_getElem
  · simp [Nat.min_comm]
  · intro i hi hlt
    rw [List.length_zip, List.length_reverse] at hlt
    have hdecodes : decodes.length - (1 + i) < decodes.length := by omega
    have hprefills : i < prefills.length := by omega
    simp only [List.getElem_map, List.getElem_range', List.getElem_zip, List.getElem_reverse,
      Nat.one_mul, Nat.add_sub_cancel_left]
    simp only [List.getD_eq_getElem?_getD, List.getElem?_eq_getElem hprefills,
      List.getElem?_eq_getElem hdecodes, Option.getD_some, Nat.sub_sub]

/-- The loop brings the decodes forward by one swap for each prefill that is in their way. -/
theorem flashReorderBatch_eq (numSpeculativeTokens : Nat) (rows : List BatchRow) :
    let p := BatchRow.isDecode (1 + numSpeculativeTokens)
    let inTheWay := ((rows.take (rows.countP p)).filter fun row => !p row).length
    flashReorderBatch numSpeculativeTokens rows = {
      rows := bringForward p rows
      numSwaps := inTheWay
      modifiedBatch := decide (0 < inTheWay) } := by
  intro p inTheWay
  obtain ⟨hlength, back, hpairs, hfront, hback⟩ := pairs_split p rows
  obtain ⟨-, hrows⟩ := bringForward_eq p rows
  have hcount : (placesFrom 0 p rows).length = (rows.filter p).length := length_placesFrom 0 p rows
  have hloop := swapLoop_eq ((turn_pairs _ _).trans hpairs) (by rwa [hcount]) (by rwa [hcount])
    { rows := rows }
  have hzip : ((placesFrom 0 (fun row => !p row) (rows.take (rows.filter p).length)).zip
      (placesFrom (rows.filter p).length p (rows.drop (rows.filter p).length)).reverse).length =
        inTheWay := by
    rw [List.length_zip, List.length_reverse, ← hlength, Nat.min_self, length_placesFrom]
    simp only [inTheWay, List.countP_eq_length_filter]
  have hempty : ∀ pairs : List (Nat × Nat), (!pairs.isEmpty) = decide (0 < pairs.length) := by
    intro pairs
    cases pairs <;> simp
  rw [← hrows, hempty, hzip, Nat.zero_add, Bool.false_or] at hloop
  exact hloop

/-- Afterwards every decode is before every prefill, the rows are the same in another order,
there are no more swaps than prefills in the front, and the result tells whether there are any. -/
theorem flash_reorder_splits (numSpeculativeTokens : Nat) (rows : List BatchRow) :
    let p := BatchRow.isDecode (1 + numSpeculativeTokens)
    let state := flashReorderBatch numSpeculativeTokens rows
    (∀ (i j : Nat) (first second : BatchRow), state.rows[i]? = some first → state.rows[j]? = some second →
      p first = true → p second = false → i < j) ∧
    state.rows.Perm rows ∧
    state.numSwaps ≤ ((rows.take (rows.countP p)).filter fun row => !p row).length ∧
    (state.modifiedBatch = true ↔ 0 < state.numSwaps) := by
  intro p state
  rw [show state = _ from flashReorderBatch_eq numSpeculativeTokens rows]
  refine ⟨fun i j first second hi hj hfirst hsecond => ?_, bringForward_perm p rows, le_refl _, ?_⟩
  · have hfront := (bringForward_front p rows hi).mpr hfirst
    have hback := mt (bringForward_front p rows hj).mp (by simp [hsecond])
    omega
  · exact decide_eq_true_iff

end VllmMlu.Worker
