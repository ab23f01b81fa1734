import Mathlib.Data.Int.Basic

/-! Tensors of two dimensions; entries outside the shape have no meaning. -/
namespace VllmMlu.Library

structure Grid (α : Type) where
  rows : Nat
  cols : Nat
  entry : Nat → Nat → α

namespace Grid

variable {α β γ : Type}

def map (f : α → β) (grid : Grid α) : Grid β where
  rows := grid.rows
  cols := grid.cols
  entry i j := f (grid.entry i j)

def transpose (grid : Grid α) : Grid α where
  rows := grid.cols
  cols := grid.rows
  entry i j := grid.entry j i

/-- The common size of a dimension; a size of one is stretched to the other. -/
def broadcastDim? (left right : Nat) : Option Nat :=
  if left = right then some left
  else if left = 1 then some right
  else if right = 1 then some left
  else none

/-- Where a stretched dimension is read. -/
def stretch (size other i : Nat) : Nat := if size ≠ other ∧ size = 1 then 0 else i

/-- An operation on two tensors, entry by entry. -/
def zipWith? (f : α → β → γ) (left : Grid α) (right : Grid β) : Option (Grid γ) := do
  let rows ← broadcastDim? left.rows right.rows
  let cols ← broadcastDim? left.cols right.cols
  some
    { rows, cols
      entry := fun i j =>
        f (left.entry (stretch left.rows right.rows i) (stretch left.cols right.cols j))
          (right.entry (stretch right.rows left.rows i) (stretch right.cols left.cols j)) }

/-- Every entry as `count` rows: `unsqueeze(1).expand(-1, count, -1)`, then
`reshape(-1, shape[-1])`. -/
def splitRows (count : Nat) (f : Nat → α → β) (grid : Grid α) : Grid β where
  rows := grid.rows * count
  cols := grid.cols
  entry i j := f (i % count) (grid.entry (i / count) j)

/-- Every entry as `count` columns: `unsqueeze(2).expand(-1, -1, count)`, then
`reshape(shape[0], -1)`. -/
def splitCols (count : Nat) (f : Nat → α → β) (grid : Grid α) : Grid β where
  rows := grid.rows
  cols := grid.cols * count
  entry i j := f (j % count) (grid.entry i (j / count))

/-- `repeat_interleave(count, dim=0)`, which raises for a negative count. -/
def repeatInterleave? (count : Int) (grid : Grid α) : Option (Grid α) :=
  if 0 ≤ count then
    some
      { rows := grid.rows * count.toNat
        cols := grid.cols
        entry := fun i j => grid.entry (i / count.toNat) j }
  else none

/-- `torch.index_select(grid, 0, idx)` for `count` indices. -/
def indexSelect? (count : Nat) (idx : Nat → Int) (grid : Grid α) : Option (Grid α) :=
  if ∀ i < count, 0 ≤ idx i ∧ idx i < grid.rows then
    some { rows := count, cols := grid.cols, entry := fun i j => grid.entry (idx i).toNat j }
  else none

/-- `grid[:, idx]` for `count` indices. -/
def selectCols? (count : Nat) (idx : Nat → Nat) (grid : Grid α) : Option (Grid α) :=
  if ∀ j < count, idx j < grid.cols then
    some { rows := grid.rows, cols := count, entry := fun i j => grid.entry i (idx j) }
  else none

/-- `grid[:, start::2]`. -/
def everySecond (start : Nat) (grid : Grid α) : Grid α where
  rows := grid.rows
  cols := (grid.cols - start + 1) / 2
  entry i j := grid.entry i (2 * j + start)

section Entries

variable (grid : Grid α)

@[simp] theorem map_entry (f : α → β) (i j : Nat) :
    (grid.map f).entry i j = f (grid.entry i j) := rfl

@[simp] theorem transpose_entry (i j : Nat) : grid.transpose.entry i j = grid.entry j i := rfl

@[simp] theorem splitRows_entry (count : Nat) (f : Nat → α → β) (i j : Nat) :
    (grid.splitRows count f).entry i j = f (i % count) (grid.entry (i / count) j) := rfl

@[simp] theorem splitCols_entry (count : Nat) (f : Nat → α → β) (i j : Nat) :
    (grid.splitCols count f).entry i j = f (j % count) (grid.entry i (j / count)) := rfl

@[simp] theorem everySecond_entry (start i j : Nat) :
    (grid.everySecond start).entry i j = grid.entry i (2 * j + start) := rfl

end Entries

section Shapes

variable (grid : Grid α)

@[simp] theorem map_rows (f : α → β) : (grid.map f).rows = grid.rows := rfl

@[simp] theorem map_cols (f : α → β) : (grid.map f).cols = grid.cols := rfl

@[simp] theorem transpose_rows : grid.transpose.rows = grid.cols := rfl

@[simp] theorem transpose_cols : grid.transpose.cols = grid.rows := rfl

@[simp] theorem splitRows_rows (count : Nat) (f : Nat → α → β) :
    (grid.splitRows count f).rows = grid.rows * count := rfl

@[simp] theorem splitRows_cols (count : Nat) (f : Nat → α → β) :
    (grid.splitRows count f).cols = grid.cols := rfl

@[simp] theorem splitCols_rows (count : Nat) (f : Nat → α → β) :
    (grid.splitCols count f).rows = grid.rows := rfl

@[simp] theorem splitCols_cols (count : Nat) (f : Nat → α → β) :
    (grid.splitCols count f).cols = grid.cols * count := rfl

@[simp] theorem everySecond_rows (start : Nat) : (grid.everySecond start).rows = grid.rows := rfl

end Shapes

/-- The two halves of an even number of columns have the same shape. -/
theorem everySecond_cols {grid : Grid α} {start : Nat} (hstart : start < 2)
    (heven : grid.cols % 2 = 0) : (grid.everySecond start).cols = grid.cols / 2 := by
  unfold everySecond
  dsimp only
  omega

theorem zipWith?_eq (f : α → β → γ) {left : Grid α} {right : Grid β}
    (hrows : left.rows = right.rows) (hcols : left.cols = right.cols) :
    left.zipWith? f right =
      some ⟨left.rows, left.cols, fun i j => f (left.entry i j) (right.entry i j)⟩ := by
  simp [zipWith?, broadcastDim?, stretch, hrows, hcols]

theorem repeatInterleave?_eq {count : Int} (h : 0 ≤ count) (grid : Grid α) :
    grid.repeatInterleave? count =
      some ⟨grid.rows * count.toNat, grid.cols, fun i j => grid.entry (i / count.toNat) j⟩ :=
  if_pos h

theorem repeatInterleave?_neg {count : Int} (h : count < 0) (grid : Grid α) :
    grid.repeatInterleave? count = none := if_neg (Int.not_le.mpr h)

end Grid

end VllmMlu.Library
