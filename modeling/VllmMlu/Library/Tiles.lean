import Mathlib.Algebra.BigOperators.Group.Finset.Basic
import Mathlib.Data.List.ProdSigma
import VllmMlu.Library.Kernel

/-! Tiles: masked accesses to a block of entries at once, products of tiles, and launches of
programs that add to a matrix. -/
namespace VllmMlu.Library.Kernel

variable {α ε : Type}

/-- A block of pointers with a mask. -/
structure Lanes where
  rows : Nat
  cols : Nat
  ptr : Nat → Nat → Nat
  mask : Nat → Nat → Bool

namespace Lanes

variable {lanes : Lanes}

/-- A lane of the block that is not masked out. -/
structure Active (lanes : Lanes) (i j : Nat) : Prop where
  row : i < lanes.rows
  col : j < lanes.cols
  mask : lanes.mask i j = true

def inBounds (lanes : Lanes) (buffer : List α) : Prop :=
  ∀ i < lanes.rows, ∀ j < lanes.cols, lanes.mask i j = true → lanes.ptr i j < buffer.length

instance (lanes : Lanes) (buffer : List α) : Decidable (lanes.inBounds buffer) :=
  inferInstanceAs (Decidable (∀ i < lanes.rows, ∀ j < lanes.cols, _ → _))

/-- `tl.load(ptr, mask=mask, other=other)`. -/
def load (lanes : Lanes) (buffer : List α) (other : Nat → Nat → α) :
    Except KernelError (Nat → Nat → α) :=
  if lanes.inBounds buffer then
    .ok fun i j => if lanes.mask i j then buffer.getD (lanes.ptr i j) (other i j) else other i j
  else .error .outOfBounds

def cells (lanes : Lanes) : List (Nat × Nat) :=
  List.range lanes.rows ×ˢ List.range lanes.cols

/-- A read and a write at one lane, unless it is masked out. -/
def touch (lanes : Lanes) (f : Nat → Nat → α → α) (buffer : List α) (cell : Nat × Nat) :
    Except KernelError (List α) :=
  if lanes.mask cell.1 cell.2 then do
    let old ← Kernel.load buffer (lanes.ptr cell.1 cell.2)
    Kernel.store buffer (lanes.ptr cell.1 cell.2) (f cell.1 cell.2 old)
  else pure buffer

def update (lanes : Lanes) (f : Nat → Nat → α → α) (buffer : List α) :
    Except KernelError (List α) :=
  lanes.cells.foldlM (lanes.touch f) buffer

/-- `tl.store(ptr, value, mask=mask)`. -/
def store (lanes : Lanes) (value : Nat → Nat → α) (buffer : List α) :
    Except KernelError (List α) :=
  lanes.update (fun i j _ => value i j) buffer

/-- `tl.atomic_add(ptr, value, mask=mask)`. -/
def atomicAdd [Add α] (lanes : Lanes) (value : Nat → Nat → α) (buffer : List α) :
    Except KernelError (List α) :=
  lanes.update (fun i j old => old + value i j) buffer

theorem mem_cells {cell : Nat × Nat} :
    cell ∈ lanes.cells ↔ cell.1 < lanes.rows ∧ cell.2 < lanes.cols := by
  rw [cells, List.mem_product, List.mem_range, List.mem_range]

theorem nodup_cells (lanes : Lanes) : lanes.cells.Nodup :=
  List.Nodup.product List.nodup_range List.nodup_range

/-- No two lanes write the same entry. -/
def Separate (lanes : Lanes) : Prop :=
  ∀ i j k l, lanes.Active i j → lanes.Active k l → lanes.ptr i j = lanes.ptr k l → i = k ∧ j = l

theorem touch_masked {f : Nat → Nat → α → α} {buffer : List α} {cell : Nat × Nat}
    (hmask : ¬lanes.mask cell.1 cell.2 = true) : lanes.touch f buffer cell = .ok buffer := by
  rw [touch, if_neg hmask]
  rfl

theorem touch_active {f : Nat → Nat → α → α} {buffer : List α} {cell : Nat × Nat} {old : α}
    (hmask : lanes.mask cell.1 cell.2 = true)
    (hold : buffer[lanes.ptr cell.1 cell.2]? = some old) :
    lanes.touch f buffer cell =
      .ok (buffer.set (lanes.ptr cell.1 cell.2) (f cell.1 cell.2 old)) := by
  rw [touch, if_pos hmask, load_eq_ok hold]
  exact store_eq_ok (List.getElem?_eq_some_iff.mp hold).1 _

/-- What some of the cells leave in a buffer. -/
structure Touched (lanes : Lanes) (f : Nat → Nat → α → α) (cells : List (Nat × Nat))
    (buffer next : List α) : Prop where
  length : next.length = buffer.length
  written : ∀ i j, (i, j) ∈ cells → lanes.mask i j = true →
    next[lanes.ptr i j]? = buffer[lanes.ptr i j]?.map (f i j)
  kept : ∀ p, (∀ i j, (i, j) ∈ cells → lanes.mask i j = true → lanes.ptr i j ≠ p) →
    next[p]? = buffer[p]?

/-- The induction is on the cells that are left; what the first one writes, the others keep. -/
theorem foldlM_touch {f : Nat → Nat → α → α} (hseparate : lanes.Separate) :
    ∀ {cells : List (Nat × Nat)} {buffer : List α}, cells.Nodup →
      (∀ cell ∈ cells, cell.1 < lanes.rows ∧ cell.2 < lanes.cols) → lanes.inBounds buffer →
      ∃ next, cells.foldlM (lanes.touch f) buffer = .ok next ∧
        lanes.Touched f cells buffer next
  | [], buffer, _, _, _ => ⟨buffer, rfl, rfl, by simp, by simp⟩
  | (i, j) :: rest, buffer, hnodup, hcells, hin => by
      rw [List.nodup_cons] at hnodup
      have hrest := fun other hmem => hcells other (List.mem_cons_of_mem (i, j) hmem)
      have hcell : i < lanes.rows ∧ j < lanes.cols := hcells (i, j) List.mem_cons_self
      rw [List.foldlM_cons]
      by_cases hmask : lanes.mask i j = true
      case neg =>
        obtain ⟨next, hnext, htouched⟩ := @foldlM_touch f hseparate _ _ hnodup.2 hrest hin
        refine ⟨next, ?_, htouched.length, fun k l hmem hactive => ?_, fun p hp => ?_⟩
        · rw [touch_masked hmask]
          exact hnext
        · rcases List.mem_cons.mp hmem with heq | hmem
          · cases heq
            exact absurd hactive hmask
          · exact htouched.written k l hmem hactive
        · exact htouched.kept p fun k l hmem => hp k l (List.mem_cons_of_mem _ hmem)
      case pos =>
        have hlt := hin i hcell.1 j hcell.2 hmask
        have hold := List.getElem?_eq_getElem hlt
        obtain ⟨next, hnext, htouched⟩ := @foldlM_touch f hseparate rest
          (buffer.set (lanes.ptr i j) (f i j buffer[lanes.ptr i j])) hnodup.2 hrest
          fun k hk l hl hactive => by
            rw [List.length_set]
            exact hin k hk l hl hactive
        have hother : ∀ k l, (k, l) ∈ rest → lanes.mask k l = true →
            lanes.ptr k l ≠ lanes.ptr i j := by
          intro k l hmem hactive heq
          obtain ⟨hk, hl⟩ := hrest (k, l) hmem
          have hsame := hseparate k l i j ⟨hk, hl, hactive⟩ ⟨hcell.1, hcell.2, hmask⟩ heq
          rw [hsame.1, hsame.2] at hmem
          exact hnodup.1 hmem
        refine ⟨next, ?_, ?_, fun k l hmem hactive => ?_, fun p hp => ?_⟩
        · rw [touch_active hmask hold]
          exact hnext
        · rw [htouched.length, List.length_set]
        · rcases List.mem_cons.mp hmem with heq | hmem
          · cases heq
            rw [htouched.kept _ hother, List.getElem?_set_self hlt, hold, Option.map_some]
          · rw [htouched.written k l hmem hactive,
              List.getElem?_set_ne (Ne.symm (hother k l hmem hactive))]
        · rw [htouched.kept p fun k l hmem => hp k l (List.mem_cons_of_mem _ hmem),
            List.getElem?_set_ne (hp i j List.mem_cons_self hmask)]

/-- A load whose active lanes find their values, in whatever order they are stored. -/
theorem load_returns {buffer : List α} {value : Nat → Nat → α}
    (hvalue : ∀ i j, lanes.Active i j → buffer[lanes.ptr i j]? = some (value i j))
    (other : Nat → Nat → α) :
    ∃ tile, lanes.load buffer other = .ok tile ∧
      (∀ i j, lanes.Active i j → tile i j = value i j) ∧
      ∀ i j, lanes.mask i j = false → tile i j = other i j := by
  have hin : lanes.inBounds buffer := by
    intro i hi j hj hmask
    exact (List.getElem?_eq_some_iff.mp (hvalue i j ⟨hi, hj, hmask⟩)).1
  refine ⟨_, if_pos hin, fun i j hactive => ?_, fun i j hmask => ?_⟩
  · rw [if_pos hactive.mask, List.getD_eq_getElem?_getD, hvalue i j hactive, Option.getD_some]
  · rw [hmask, if_neg Bool.false_ne_true]

/-- The lanes point into a matrix that is stored row by row. -/
structure Addresses (lanes : Lanes) (numRows numCols : Nat) (row col : Nat → Nat → Nat) :
    Prop where
  ptr : ∀ i j, lanes.Active i j → lanes.ptr i j = row i j * numCols + col i j
  row_lt : ∀ i j, lanes.Active i j → row i j < numRows
  col_lt : ∀ i j, lanes.Active i j → col i j < numCols

section Matrix

variable {numRows numCols : Nat} {row col : Nat → Nat → Nat} {buffer : List α}
  {entry : Nat → Nat → α}

theorem Addresses.inBounds (haddresses : lanes.Addresses numRows numCols row col)
    (hholds : Holds buffer numRows numCols entry) : lanes.inBounds buffer := by
  intro i hi j hj hmask
  have hactive : lanes.Active i j := ⟨hi, hj, hmask⟩
  rw [haddresses.ptr i j hactive]
  exact hholds.lt (haddresses.row_lt i j hactive) (haddresses.col_lt i j hactive)

/-- A load that stays inside its buffer. -/
theorem Addresses.load (haddresses : lanes.Addresses numRows numCols row col)
    (hholds : Holds buffer numRows numCols entry) (other : Nat → Nat → α) :
    ∃ tile, lanes.load buffer other = .ok tile ∧
      (∀ i j, lanes.Active i j → tile i j = entry (row i j) (col i j)) ∧
      ∀ i j, lanes.mask i j = false → tile i j = other i j := by
  apply load_returns
  intro i j hactive
  rw [haddresses.ptr i j hactive]
  exact hholds.get _ (haddresses.row_lt i j hactive) _ (haddresses.col_lt i j hactive)

/-- An update that stays inside its buffer, told as the matrix it leaves. -/
theorem Addresses.update (haddresses : lanes.Addresses numRows numCols row col)
    (hholds : Holds buffer numRows numCols entry) {f : Nat → Nat → α → α}
    {written : Nat → Nat → α}
    (hinjective : ∀ i j k l, lanes.Active i j → lanes.Active k l → row i j = row k l →
      col i j = col k l → i = k ∧ j = l)
    (hwritten : ∀ i j, lanes.Active i j →
      written (row i j) (col i j) = f i j (entry (row i j) (col i j)))
    (hkept : ∀ r < numRows, ∀ c < numCols,
      (∀ i j, lanes.Active i j → row i j = r → col i j = c → False) → written r c = entry r c) :
    ∃ next, lanes.update f buffer = .ok next ∧ Holds next numRows numCols written := by
  have hsame : ∀ i j r c, lanes.Active i j → c < numCols →
      lanes.ptr i j = r * numCols + c → row i j = r ∧ col i j = c := by
    intro i j r c hactive hc heq
    rw [haddresses.ptr i j hactive] at heq
    exact grid_injective (haddresses.col_lt i j hactive) hc heq
  have hseparate : lanes.Separate := by
    intro i j k l hactive hother heq
    rw [haddresses.ptr k l hother] at heq
    obtain ⟨hrow, hcol⟩ := hsame i j _ _ hactive (haddresses.col_lt k l hother) heq
    exact hinjective i j k l hactive hother hrow hcol
  obtain ⟨next, hnext, htouched⟩ := @foldlM_touch _ lanes f hseparate lanes.cells buffer
    lanes.nodup_cells (fun cell hmem => mem_cells.mp hmem) (haddresses.inBounds hholds)
  refine ⟨next, hnext, htouched.length.trans hholds.length, fun r hr c hc => ?_⟩
  by_cases hlane : ∃ i j, lanes.Active i j ∧ row i j = r ∧ col i j = c
  · obtain ⟨i, j, hactive, rfl, rfl⟩ := hlane
    have hmem : (i, j) ∈ lanes.cells := mem_cells.mpr ⟨hactive.row, hactive.col⟩
    rw [← haddresses.ptr i j hactive, htouched.written i j hmem hactive.mask,
      haddresses.ptr i j hactive, hholds.get _ hr _ hc, Option.map_some, hwritten i j hactive]
  · rw [htouched.kept, hholds.get r hr c hc, hkept r hr c hc]
    · intro i j hactive hrow hcol
      exact hlane ⟨i, j, hactive, hrow, hcol⟩
    · intro i j hmem hmask heq
      have hcell := mem_cells.mp hmem
      have hactive : lanes.Active i j := ⟨hcell.1, hcell.2, hmask⟩
      obtain ⟨hrow, hcol⟩ := hsame i j r c hactive hc heq
      exact hlane ⟨i, j, hactive, hrow, hcol⟩

end Matrix

end Lanes

section Sums

variable {R : Type}

/-- `tl.dot` of tiles with a common size. -/
def dot [Semiring R] (size : Nat) (a b : Nat → Nat → R) (i j : Nat) : R :=
  ∑ x ∈ Finset.range size, a i x * b x j

variable [AddCommMonoid R]

/-- Blocks of equal size add up to the whole. -/
theorem sum_blocks (f : Nat → R) (count size : Nat) :
    ∑ block ∈ Finset.range count, ∑ j ∈ Finset.range size, f (block * size + j) =
      ∑ i ∈ Finset.range (count * size), f i := by
  induction count with
  | zero => simp
  | succ count ih => rw [Finset.sum_range_succ, ih, Nat.succ_mul, Finset.sum_range_add]

theorem sum_div_mod (f : Nat → Nat → R) (width height : Nat) :
    ∑ i ∈ Finset.range (width * height), f (i % width) (i / width) =
      ∑ y ∈ Finset.range height, ∑ x ∈ Finset.range width, f x y := by
  rw [Nat.mul_comm, ← sum_blocks]
  apply Finset.sum_congr rfl
  intro y _
  apply Finset.sum_congr rfl
  intro x hx
  have hlt := Finset.mem_range.mp hx
  rw [Nat.mul_add_mod_of_lt hlt, Nat.mul_comm, Nat.mul_add_div (Nat.zero_lt_of_lt hlt),
    Nat.div_eq_of_lt hlt, Nat.add_zero]

end Sums

/-- The orders in which the programs of a grid may run, for every size of the grid. -/
abbrev LaunchOrder := (numPrograms : Nat) → GridOrder numPrograms

/-- The programs of a grid of three dimensions; a grid of two has a depth of one. -/
def launchGrid {β : Type} {width height depth : Nat} (order : GridOrder (width * height * depth))
    (program : Nat → Nat → Nat → β → Except ε β) (state : β) : Except ε β :=
  launch order (fun pid => program (pid % (width * height) % width)
    (pid % (width * height) / width) (pid / (width * height))) state

/-- A program that leaves everything outside some entries of a matrix as it is. -/
def WritesOnly (program : List α → Except ε (List α)) (numRows numCols : Nat)
    (inside : Nat → Nat → Prop) : Prop :=
  ∀ buffer entry, Holds buffer numRows numCols entry → ∃ next written,
    program buffer = .ok next ∧ Holds next numRows numCols written ∧
      ∀ r c, ¬inside r c → written r c = entry r c

/-- A program that writes the final values of some entries of a matrix, and nothing else. -/
def Writes (program : List α → Except ε (List α)) (numRows numCols : Nat)
    (inside : Nat → Nat → Prop) (final : Nat → Nat → α) : Prop :=
  ∀ buffer entry, Holds buffer numRows numCols entry → ∃ next written,
    program buffer = .ok next ∧ Holds next numRows numCols written ∧
      ∀ r < numRows, ∀ c < numCols, (inside r c → written r c = final r c) ∧
        (¬inside r c → written r c = entry r c)

/-- Programs that write final values, in any order, where every entry is some program's own. -/
theorem launch_writes {numRows numCols numPrograms : Nat} (order : GridOrder numPrograms)
    {program : Nat → List α → Except ε (List α)} {inside : Nat → Nat → Nat → Prop}
    {start final : Nat → Nat → α} {buffer : List α}
    (hprogram : ∀ pid < numPrograms, Writes (program pid) numRows numCols (inside pid) final)
    (hcovered : ∀ r < numRows, ∀ c < numCols, ∃ pid < numPrograms, inside pid r c)
    (hholds : Holds buffer numRows numCols start) :
    ∃ result, launch order program buffer = .ok result ∧ Holds result numRows numCols final := by
  obtain ⟨result, hresult, entry, hlast, hfinal⟩ := @launch_returns _ _ _ order program
    (fun done state => ∃ entry, Holds state numRows numCols entry ∧
      ∀ pid ∈ done, ∀ r < numRows, ∀ c < numCols, inside pid r c → entry r c = final r c) buffer
    ⟨start, hholds, fun pid hpid => absurd hpid (Finset.notMem_empty pid)⟩ (by
      rintro done pid hpid - state ⟨entry, hstate, hdone⟩
      obtain ⟨next, written, hnext, hwritten, hchanged⟩ := hprogram pid hpid state entry hstate
      refine ⟨next, hnext, written, hwritten, fun other hother r hr c hc hown => ?_⟩
      by_cases hmine : inside pid r c
      · exact (hchanged r hr c hc).1 hmine
      · rw [(hchanged r hr c hc).2 hmine]
        rcases Finset.mem_insert.mp hother with rfl | hother
        · exact absurd hown hmine
        · exact hdone other hother r hr c hc hown)
  refine ⟨result, hresult, hlast.congr fun r hr c hc => ?_⟩
  obtain ⟨pid, hpid, hinside⟩ := hcovered r hr c hc
  exact hfinal pid (Finset.mem_range.mpr hpid) r hr c hc hinside

section Adding

variable {R : Type} [AddCommMonoid R] {numRows numCols : Nat} {start : Nat → Nat → R}
  {buffer : List R}

/-- Programs that only add to a matrix, in any order: every part counts once. -/
theorem launch_adds {numPrograms : Nat} (order : GridOrder numPrograms)
    {program : Nat → List R → Except ε (List R)} {part : Nat → Nat → Nat → R}
    (hprogram : ∀ pid < numPrograms, ∀ state entry, Holds state numRows numCols entry →
      ∃ next, program pid state = .ok next ∧
        Holds next numRows numCols fun r c => entry r c + part pid r c)
    (hholds : Holds buffer numRows numCols start) :
    ∃ result, launch order program buffer = .ok result ∧ Holds result numRows numCols
      fun r c => start r c + ∑ pid ∈ Finset.range numPrograms, part pid r c := by
  apply @launch_returns _ _ _ order program (fun done state => Holds state numRows numCols
    fun r c => start r c + ∑ pid ∈ done, part pid r c)
  · exact hholds.congr fun r _ c _ => by rw [Finset.sum_empty, add_zero]
  · intro done pid hpid hfresh state hstate
    obtain ⟨next, hnext, hadded⟩ := hprogram pid hpid state _ hstate
    refine ⟨next, hnext, hadded.congr fun r _ c _ => ?_⟩
    rw [Finset.sum_insert hfresh, add_assoc, add_comm (part pid r c)]

theorem launchGrid_adds {width height depth : Nat} (order : GridOrder (width * height * depth))
    {program : Nat → Nat → Nat → List R → Except ε (List R)}
    {part : Nat → Nat → Nat → Nat → Nat → R}
    (hprogram : ∀ x < width, ∀ y < height, ∀ z < depth, ∀ state entry,
      Holds state numRows numCols entry →
      ∃ next, program x y z state = .ok next ∧
        Holds next numRows numCols fun r c => entry r c + part x y z r c)
    (hholds : Holds buffer numRows numCols start) :
    ∃ result, launchGrid order program buffer = .ok result ∧ Holds result numRows numCols
      fun r c => start r c + ∑ z ∈ Finset.range depth, ∑ y ∈ Finset.range height,
        ∑ x ∈ Finset.range width, part x y z r c := by
  obtain ⟨result, hresult, hadded⟩ := launch_adds order (fun pid hpid => by
    have hplane : 0 < width * height := Nat.pos_of_mul_pos_right (Nat.zero_lt_of_lt hpid)
    have hwidth : 0 < width := Nat.pos_of_mul_pos_right hplane
    have hrow := Nat.div_lt_of_lt_mul (Nat.mod_lt pid hplane)
    have hlayer := Nat.div_lt_of_lt_mul hpid
    exact hprogram _ (Nat.mod_lt (pid % (width * height)) hwidth) _ hrow _ hlayer) hholds
  refine ⟨result, hresult, hadded.congr fun r _ c _ => ?_⟩
  rw [sum_div_mod fun i z => part (i % width) (i / width) z r c]
  apply congrArg (start r c + ·)
  apply Finset.sum_congr rfl
  intro z _
  exact sum_div_mod (fun x y => part x y z r c) width height

end Adding

end VllmMlu.Library.Kernel
