import VllmMlu.Library.Grid

/-! Tensors of one or two dimensions, views of them and copies into views. -/
namespace VllmMlu.Library

/-- A vector is a single column. -/
structure Tensor (α : Type) extends Grid α where
  isVector : Bool

namespace Tensor

variable {α : Type}

def ndim (tensor : Tensor α) : Nat := if tensor.isVector then 1 else 2

/-- `tensor.shape[dim]`. -/
def size? (dim : Nat) (tensor : Tensor α) : Option Nat :=
  if dim = 0 then some tensor.rows
  else if dim = 1 ∧ tensor.isVector = false then some tensor.cols
  else none

/-- `tensor.narrow(dim, start, length)`, which raises outside the tensor. -/
def narrow? (dim start length : Nat) (tensor : Tensor α) : Option (Tensor α) := do
  let size ← tensor.size? dim
  if start + length ≤ size then
    some
      { rows := if dim = 0 then length else tensor.rows
        cols := if dim = 0 then tensor.cols else length
        entry := fun i j =>
          if dim = 0 then tensor.entry (start + i) j else tensor.entry i (start + j)
        isVector := tensor.isVector }
  else none

/-- `dst.copy_(src)`: sizes of one are stretched, and a vector goes into every row of a matrix. -/
def copy? (dst src : Tensor α) : Option (Tensor α) :=
  if src.isVector = dst.isVector then
    if (src.rows = dst.rows ∨ src.rows = 1) ∧ (src.cols = dst.cols ∨ src.cols = 1) then
      some
        { dst with
          entry := fun i j =>
            src.entry (Grid.stretch src.rows dst.rows i) (Grid.stretch src.cols dst.cols j) }
    else none
  else if src.isVector = true ∧ (src.rows = dst.cols ∨ src.rows = 1) then
    some { dst with entry := fun _ j => src.entry (Grid.stretch src.rows dst.cols j) 0 }
  else none

/-- `dst.narrow(dim, start, length).copy_(src)`. -/
def copyInto? (dim start length : Nat) (dst src : Tensor α) : Option (Tensor α) := do
  let view ← dst.narrow? dim start length
  let view ← view.copy? src
  some
    { dst with
      entry := fun i j =>
        if dim = 0 then
          if start ≤ i ∧ i < start + length then view.entry (i - start) j else dst.entry i j
        else if start ≤ j ∧ j < start + length then view.entry i (j - start)
        else dst.entry i j }

/-- Two tensors of one shape. -/
structure SameShape (left right : Tensor α) : Prop where
  rows : left.rows = right.rows
  cols : left.cols = right.cols
  isVector : left.isVector = right.isVector

theorem SameShape.refl (tensor : Tensor α) : SameShape tensor tensor := ⟨rfl, rfl, rfl⟩

theorem SameShape.trans {first second third : Tensor α} (h : SameShape first second)
    (hnext : SameShape second third) : SameShape first third :=
  ⟨h.rows.trans hnext.rows, h.cols.trans hnext.cols, h.isVector.trans hnext.isVector⟩

theorem narrow_rows {tensor : Tensor α} {start length : Nat} (h : start + length ≤ tensor.rows) :
    tensor.narrow? 0 start length = some
      { rows := length, cols := tensor.cols, isVector := tensor.isVector
        entry := fun i j => tensor.entry (start + i) j } := by
  simp [narrow?, size?, h]

theorem narrow_cols {tensor : Tensor α} {start length : Nat} (hmatrix : tensor.isVector = false)
    (h : start + length ≤ tensor.cols) :
    tensor.narrow? 1 start length = some
      { rows := tensor.rows, cols := length, isVector := tensor.isVector
        entry := fun i j => tensor.entry i (start + j) } := by
  simp [narrow?, size?, h, hmatrix]

theorem copy_eq {dst src : Tensor α} (h : SameShape src dst) :
    dst.copy? src = some { dst with entry := src.entry } := by
  rw [copy?, if_pos h.isVector, if_pos ⟨.inl h.rows, .inl h.cols⟩]
  simp [Grid.stretch, h.rows, h.cols]

/-- The rows that are written, and the rows that are not. -/
theorem copyInto_rows {dst src : Tensor α} {start length : Nat} (hfits : start + length ≤ dst.rows)
    (hrows : src.rows = length) (hcols : src.cols = dst.cols)
    (hvector : src.isVector = dst.isVector) :
    dst.copyInto? 0 start length src = some
      { dst with
        entry := fun i j =>
          if start ≤ i ∧ i < start + length then src.entry (i - start) j else dst.entry i j } := by
  have hcopy := @copy_eq α ⟨⟨length, dst.cols, fun i j => dst.entry (start + i) j⟩, dst.isVector⟩
    src ⟨hrows, hcols, hvector⟩
  rw [copyInto?, narrow_rows hfits]
  simp only [Option.bind_eq_bind, Option.bind_some, if_true]
  rw [hcopy]
  rfl

/-- A copy into a view keeps the shape. -/
theorem copyInto_shape {dst src out : Tensor α} {dim start length : Nat}
    (h : dst.copyInto? dim start length src = some out) : SameShape out dst := by
  rw [copyInto?] at h
  simp only [Option.bind_eq_bind, Option.bind_eq_some_iff] at h
  obtain ⟨view, -, copied, -, h⟩ := h
  cases h
  exact ⟨rfl, rfl, rfl⟩

theorem copy_shape {dst src out : Tensor α} (h : dst.copy? src = some out) : SameShape out dst := by
  rw [copy?] at h
  split at h
  · split at h
    · cases h
      exact ⟨rfl, rfl, rfl⟩
    · cases h
  · split at h
    · cases h
      exact ⟨rfl, rfl, rfl⟩
    · cases h

end Tensor

end VllmMlu.Library
