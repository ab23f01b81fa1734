import VllmMlu.Library.Machine
import VllmMlu.Library.Rows

/-! Kernels: programs that read and write buffers, where an access outside a buffer is an error,
and launches of one program for each point of a grid, in any order. -/
namespace VllmMlu.Library.Kernel

variable {α β ε : Type}

inductive KernelError where
  | outOfBounds
deriving DecidableEq, Repr

/-- `tl.load(buffer + i)`. -/
def load (buffer : List α) (i : Nat) : Except KernelError α :=
  match buffer[i]? with
  | some value => .ok value
  | none => .error .outOfBounds

/-- `tl.store(buffer + i, value)`. -/
def store (buffer : List α) (i : Nat) (value : α) : Except KernelError (List α) :=
  if i < buffer.length then .ok (buffer.set i value) else .error .outOfBounds

theorem load_eq_ok {buffer : List α} {i : Nat} {value : α} (h : buffer[i]? = some value) :
    load buffer i = .ok value := by
  rw [load, h]

theorem load_getD {buffer : List α} {i : Nat} (h : i < buffer.length) (default : α) :
    load buffer i = .ok (buffer.getD i default) := by
  rw [List.getD_eq_getElem _ _ h]
  exact load_eq_ok (List.getElem?_eq_getElem h)

theorem store_eq_ok {buffer : List α} {i : Nat} (h : i < buffer.length) (value : α) :
    store buffer i value = .ok (buffer.set i value) := by
  rw [store, if_pos h]

/-- A loop over `range(start, ..., step)` that keeps an invariant of the number of turns. -/
theorem loop_returns {body : β → Nat → Except ε β} {Inv : Nat → β → Prop} {count step : Nat}
    {start : Nat} {state : β} (hstart : Inv 0 state)
    (hbody : ∀ turn < count, ∀ state, Inv turn state →
      ∃ next, body state (start + step * turn) = .ok next ∧ Inv (turn + 1) next) :
    ∃ result, (List.range' start count step).foldlM body state = .ok result ∧
      Inv count result := by
  induction count with
  | zero => exact ⟨state, rfl, hstart⟩
  | succ count ih =>
      obtain ⟨middle, hmiddle, hinv⟩ := ih fun turn hlt => hbody turn (by omega)
      obtain ⟨result, hresult, hlast⟩ := hbody count (by omega) middle hinv
      refine ⟨result, ?_, hlast⟩
      rw [List.range'_concat, List.foldlM_append, hmiddle]
      change [start + step * count].foldlM body middle = _
      rw [List.foldlM_cons, hresult]
      rfl

/-- An order in which the programs of a grid run. -/
structure GridOrder (numPrograms : Nat) where
  pids : List Nat
  perm : pids.Perm (List.range numPrograms)

/-- The programs in ascending order. -/
def GridOrder.ascending (numPrograms : Nat) : GridOrder numPrograms :=
  ⟨List.range numPrograms, .refl _⟩

/-- `kernel[grid](...)`. -/
def launch {numPrograms : Nat} (order : GridOrder numPrograms) (program : Nat → β → Except ε β)
    (state : β) : Except ε β :=
  order.pids.foldlM (fun state pid => program pid state) state

/-- An invariant of the set of programs that have run, whatever their order. -/
theorem launch_returns {numPrograms : Nat} (order : GridOrder numPrograms)
    {program : Nat → β → Except ε β} {Inv : Finset Nat → β → Prop} {state : β}
    (hstart : Inv ∅ state)
    (hprogram : ∀ done pid, pid < numPrograms → pid ∉ done → ∀ state, Inv done state →
      ∃ next, program pid state = .ok next ∧ Inv (insert pid done) next) :
    ∃ result, launch order program state = .ok result ∧ Inv (Finset.range numPrograms) result := by
  have hrun : ∀ (pids : List Nat) done state, pids.Nodup → (∀ pid ∈ pids, pid < numPrograms) →
      (∀ pid ∈ pids, pid ∉ done) → Inv done state →
      ∃ result, pids.foldlM (fun state pid => program pid state) state = .ok result ∧
        Inv (done ∪ pids.toFinset) result := by
    intro pids
    induction pids with
    | nil =>
        intro done state _ _ _ hinv
        exact ⟨state, rfl, by simpa using hinv⟩
    | cons pid rest ih =>
        intro done state hnodup hbound hfresh hinv
        rw [List.nodup_cons] at hnodup
        obtain ⟨next, hnext, hinv⟩ := hprogram done pid (hbound pid List.mem_cons_self)
          (hfresh pid List.mem_cons_self) state hinv
        obtain ⟨result, hresult, hlast⟩ := ih (insert pid done) next hnodup.2
          (fun other hmem => hbound other (List.mem_cons_of_mem _ hmem))
          (fun other hmem hin => by
            rcases Finset.mem_insert.mp hin with rfl | hin
            · exact hnodup.1 hmem
            · exact hfresh other (List.mem_cons_of_mem _ hmem) hin) hinv
        refine ⟨result, ?_, ?_⟩
        · rw [List.foldlM_cons, hnext]
          exact hresult
        · rwa [List.toFinset_cons, Finset.union_insert, ← Finset.insert_union]
  obtain ⟨result, hresult, hinv⟩ := hrun order.pids ∅ state
    (order.perm.nodup_iff.mpr List.nodup_range)
    (fun pid hmem => List.mem_range.mp (order.perm.mem_iff.mp hmem))
    (fun pid _ => Finset.notMem_empty pid) hstart
  refine ⟨result, hresult, ?_⟩
  rwa [Finset.empty_union, List.toFinset_eq_of_perm _ _ order.perm, List.toFinset_range] at hinv

section Grid

variable {width row col otherRow otherCol : Nat}

theorem grid_div (hcol : col < width) : (row * width + col) / width = row := by
  rw [Nat.mul_comm, Nat.mul_add_div (Nat.zero_lt_of_lt hcol), Nat.div_eq_of_lt hcol, Nat.add_zero]

theorem grid_mod (hcol : col < width) : (row * width + col) % width = col := by
  rw [Nat.mul_comm, Nat.mul_add_mod, Nat.mod_eq_of_lt hcol]

theorem grid_injective (hcol : col < width) (hother : otherCol < width)
    (heq : row * width + col = otherRow * width + otherCol) :
    row = otherRow ∧ col = otherCol := by
  constructor
  · rw [← @grid_div width row col hcol, heq, grid_div hother]
  · rw [← @grid_mod width row col hcol, heq, grid_mod hother]

end Grid

/-- The contents of a matrix that is stored row by row. -/
structure Holds (buffer : List α) (numRows numCols : Nat) (entry : Nat → Nat → α) : Prop where
  length : buffer.length = numRows * numCols
  get : ∀ row < numRows, ∀ col < numCols, buffer[row * numCols + col]? = some (entry row col)

namespace Holds

variable {buffer : List α} {numRows numCols : Nat} {entry : Nat → Nat → α}

theorem row_lt {row col : Nat} (hrow : row < numRows) (hcol : col < numCols) :
    row * numCols + col < numRows * numCols := by
  calc row * numCols + col < row * numCols + numCols := by omega
    _ = (row + 1) * numCols := by ring
    _ ≤ numRows * numCols := Nat.mul_le_mul_right _ hrow

theorem lt (hholds : Holds buffer numRows numCols entry) {row col : Nat} (hrow : row < numRows)
    (hcol : col < numCols) : row * numCols + col < buffer.length := by
  rw [hholds.length]
  exact row_lt hrow hcol

theorem replicate (numRows numCols : Nat) (value : α) :
    Holds (List.replicate (numRows * numCols) value) numRows numCols fun _ _ => value :=
  ⟨List.length_replicate, fun row hrow col hcol => by
    rw [List.getElem?_replicate, if_pos (row_lt hrow hcol)]⟩

theorem congr (hholds : Holds buffer numRows numCols entry) {other : Nat → Nat → α}
    (heq : ∀ row < numRows, ∀ col < numCols, entry row col = other row col) :
    Holds buffer numRows numCols other :=
  ⟨hholds.length, fun row hrow col hcol => by rw [hholds.get row hrow col hcol, heq row hrow col hcol]⟩

theorem load (hholds : Holds buffer numRows numCols entry) {row col : Nat} (hrow : row < numRows)
    (hcol : col < numCols) : Kernel.load buffer (row * numCols + col) = .ok (entry row col) :=
  load_eq_ok (hholds.get row hrow col hcol)

/-- A store changes one entry. -/
theorem store (hholds : Holds buffer numRows numCols entry) {row col : Nat} (hrow : row < numRows)
    (hcol : col < numCols) (value : α) :
    ∃ next, Kernel.store buffer (row * numCols + col) value = .ok next ∧
      Holds next numRows numCols fun otherRow otherCol =>
        if otherRow = row ∧ otherCol = col then value else entry otherRow otherCol := by
  refine ⟨_, store_eq_ok (hholds.lt hrow hcol) value, ?_, ?_⟩
  · rw [List.length_set, hholds.length]
  · intro otherRow hotherRow otherCol hotherCol
    rw [List.getElem?_set]
    split
    · rename_i heq
      have hsame := grid_injective hotherCol hcol heq.symm
      rw [if_pos (hholds.lt hrow hcol), if_pos hsame]
    · rename_i hne
      rw [if_neg fun hsame => hne (by rw [hsame.1, hsame.2]),
        hholds.get otherRow hotherRow otherCol hotherCol]

theorem of_length (hlength : buffer.length = numRows * numCols) (default : α) :
    Holds buffer numRows numCols fun row col => buffer.getD (row * numCols + col) default :=
  ⟨hlength, fun row hrow col hcol => by
    have hlt : row * numCols + col < buffer.length := hlength ▸ row_lt hrow hcol
    rw [List.getD_eq_getElem _ _ hlt, List.getElem?_eq_getElem hlt]⟩

theorem ofRange (numRows numCols : Nat) (entry : Nat → Nat → α) :
    Holds ((List.range (numRows * numCols)).map fun p => entry (p / numCols) (p % numCols))
      numRows numCols entry where
  length := by rw [List.length_map, List.length_range]
  get row hrow col hcol := by
    rw [List.getElem?_map, List.getElem?_range (row_lt hrow hcol), Option.map_some, grid_div hcol,
      grid_mod hcol]

/-- Some of the rows. -/
theorem slice (hholds : Holds buffer numRows numCols entry) {start count : Nat}
    (hfits : start + count ≤ numRows) :
    Holds (Rows.slice (start * numCols) (count * numCols) buffer) count numCols fun row col =>
      entry (start + row) col where
  length := by
    have hle := Nat.mul_le_mul_right numCols hfits
    rw [Nat.add_mul] at hle
    rw [Rows.length_slice, hholds.length]
    omega
  get row hrow col hcol := by
    rw [Rows.getElem?_slice _ (row_lt hrow hcol), ← Nat.add_assoc, ← Nat.add_mul,
      hholds.get _ (by omega) col hcol]

/-- Some of the rows are written. -/
theorem splice (hholds : Holds buffer numRows numCols entry) {start count : Nat} {rows : List α}
    {written : Nat → Nat → α} (hrows : Holds rows count numCols written)
    (hfits : start + count ≤ numRows) :
    Holds (buffer.take (start * numCols) ++ rows ++ buffer.drop (start * numCols + rows.length))
      numRows numCols fun row col =>
        if start ≤ row ∧ row < start + count then written (row - start) col else entry row col := by
  have hle := Nat.mul_le_mul_right numCols hfits
  rw [Nat.add_mul] at hle
  have hin : start * numCols + rows.length ≤ buffer.length := by
    rw [hrows.length, hholds.length]
    exact hle
  constructor
  · rw [List.length_append, List.length_append, List.length_take, List.length_drop,
      ← hholds.length]
    omega
  · intro row hrow col hcol
    rw [Rows.getElem?_splice rfl hin, hrows.length]
    by_cases hinside : start ≤ row ∧ row < start + count
    · have hplace : row * numCols + col = start * numCols + ((row - start) * numCols + col) := by
        rw [← Nat.add_assoc, ← Nat.add_mul, Nat.add_sub_of_le hinside.1]
      have hlt : (row - start) * numCols + col < count * numCols := row_lt (by omega) hcol
      rw [if_pos hinside, if_pos (by omega), hplace, Nat.add_sub_cancel_left,
        hrows.get _ (by omega) col hcol]
    · rw [if_neg hinside, if_neg, hholds.get row hrow col hcol]
      rintro ⟨hfirst, hlast⟩
      apply hinside
      rw [← Nat.add_mul, ← Nat.div_lt_iff_lt_mul (Nat.zero_lt_of_lt hcol), grid_div hcol] at hlast
      rw [← Nat.le_div_iff_mul_le (Nat.zero_lt_of_lt hcol), grid_div hcol] at hfirst
      exact ⟨hfirst, hlast⟩

/-- One row as a list. -/
theorem chunk_eq (hholds : Holds buffer numRows numCols entry) {row : Nat} (hrow : row < numRows) :
    Rows.chunk numCols row buffer = (List.range numCols).map (entry row) := by
  apply List.ext_getElem?
  intro col
  rw [Rows.chunk, Rows.slice, List.getElem?_take, List.getElem?_drop, List.getElem?_map]
  split
  case isTrue hcol => rw [hholds.get row hrow col hcol, List.getElem?_range hcol, Option.map_some]
  case isFalse hge => rw [List.getElem?_eq_none (by simpa using hge), Option.map_none]

end Holds

/-- Programs of which some write their own row, from what is there before, and the others
nothing. -/
theorem launch_rows {numRows numCols : Nat} (order : GridOrder numRows)
    {program : Nat → List α → Except ε (List α)} {writes : Nat → Bool}
    {write : Nat → (Nat → α) → Nat → α} {start : Nat → Nat → α} {buffer : List α}
    (hprogram : ∀ pid < numRows, ∀ state entry, Holds state numRows numCols entry →
      ∃ next, program pid state = .ok next ∧ Holds next numRows numCols fun row col =>
        if row = pid ∧ writes pid then write pid (entry pid) col else entry row col)
    (hholds : Holds buffer numRows numCols start) :
    ∃ result, launch order program buffer = .ok result ∧ Holds result numRows numCols
      fun row col => if writes row then write row (start row) col else start row col := by
  let Inv : Finset Nat → List α → Prop := fun done state => Holds state numRows numCols
    fun row col => if row ∈ done ∧ writes row then write row (start row) col else start row col
  have hstart : Inv ∅ buffer := hholds.congr fun row _ col _ => by simp
  obtain ⟨result, hresult, hinv⟩ := @launch_returns _ _ _ order program Inv _ hstart (by
    intro done pid hpid hfresh state hinv
    obtain ⟨next, hnext, hrows⟩ := hprogram pid hpid state _ hinv
    refine ⟨next, hnext, hrows.congr fun row _ col _ => ?_⟩
    by_cases hrow : row = pid
    · subst hrow
      simp only [hfresh, false_and, true_and, Finset.mem_insert_self, ↓reduceIte]
    · simp only [hrow, false_and, false_or, Finset.mem_insert, ↓reduceIte])
  exact ⟨result, hresult, hinv.congr fun row hrow col _ => by
    simp only [Finset.mem_range, hrow, true_and]⟩

end VllmMlu.Library.Kernel
