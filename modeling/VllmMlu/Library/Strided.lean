import Mathlib

/-! Strided views of a buffer, and the bytes that a row of a view touches. -/
namespace VllmMlu.Library.Strided

/-- `torch.empty(shape).stride()`. -/
def contiguousStride : List Nat → List Nat
  | [] => []
  | _ :: rest => (rest.map (max 1)).prod :: contiguousStride rest

/-- The place of the element `index`, counted in elements. -/
def offsetOf (index stride : List Nat) : Nat := (List.zipWith (· * ·) index stride).sum

structure View where
  elementSize : Nat
  size : List Nat
  stride : List Nat
  storageOffset : Nat
deriving DecidableEq

/-- `torch.as_strided`: a view may not reach beyond the buffer. -/
def asStrided (numel elementSize : Nat) (size stride : List Nat) (storageOffset : Nat) :
    Option View :=
  if 0 ∈ size ∨ storageOffset + offsetOf (size.map (· - 1)) stride < numel then
    some ⟨elementSize, size, stride, storageOffset⟩
  else none

/-- An element of the row `row` stands on the byte `byte`. -/
def View.Touches (view : View) (row byte : Nat) : Prop :=
  ∃ index, List.Forall₂ (· < ·) (row :: index) view.size ∧ ∃ part < view.elementSize,
    byte = view.elementSize * (view.storageOffset + offsetOf (row :: index) view.stride) + part

theorem prod_map_max {shape : List Nat} (h : ∀ dim ∈ shape, 0 < dim) :
    (shape.map (max 1)).prod = shape.prod := by
  congr 1
  conv_rhs => rw [← List.map_id shape]
  apply List.map_congr_left
  intro dim hdim
  exact max_eq_right (h dim hdim)

theorem dims_pos_of_index {index shape : List Nat} (h : List.Forall₂ (· < ·) index shape) :
    ∀ dim ∈ shape, 0 < dim := by
  induction h with
  | nil => nofun
  | cons hlt _ ih =>
      intro dim hdim
      rcases List.mem_cons.mp hdim with rfl | hdim
      · exact Nat.zero_lt_of_lt hlt
      · exact ih dim hdim

/-- A contiguous shape is filled without going beyond its number of elements. -/
theorem offsetOf_contiguousStride_lt {index shape : List Nat}
    (h : List.Forall₂ (· < ·) index shape) : offsetOf index (contiguousStride shape) < shape.prod := by
  induction h with
  | nil => simp [offsetOf]
  | @cons i dim rest dims hlt hrest ih =>
      have hsucc : (i + 1) * dims.prod ≤ dim * dims.prod := Nat.mul_le_mul_right _ hlt
      rw [Nat.succ_mul] at hsucc
      rw [offsetOf] at ih
      rw [contiguousStride, offsetOf, List.zipWith_cons_cons, List.sum_cons, List.prod_cons,
        prod_map_max (dims_pos_of_index hrest)]
      omega

/-- A row of a view whose rows are contiguous touches bytes of one range only. -/
theorem View.range_of_touches {view : View} {rows rowStride row byte : Nat} {shape : List Nat}
    (hsize : view.size = rows :: shape) (hstride : view.stride = rowStride :: contiguousStride shape)
    (h : view.Touches row byte) :
    row < rows ∧ view.elementSize * (view.storageOffset + row * rowStride) ≤ byte ∧
      byte < view.elementSize * (view.storageOffset + row * rowStride) +
        view.elementSize * shape.prod := by
  obtain ⟨index, hindex, part, hpart, rfl⟩ := h
  rw [hsize, List.forall₂_cons] at hindex
  have hlt := offsetOf_contiguousStride_lt hindex.2
  have hmul : view.elementSize * (offsetOf index (contiguousStride shape) + 1) ≤
      view.elementSize * shape.prod := Nat.mul_le_mul_left _ hlt
  rw [Nat.mul_add, Nat.mul_one] at hmul
  have hoffset : offsetOf (row :: index) view.stride =
      row * rowStride + offsetOf index (contiguousStride shape) := by
    rw [hstride, offsetOf, offsetOf, List.zipWith_cons_cons, List.sum_cons]
  rw [hoffset, ← Nat.add_assoc, Nat.mul_add _ (view.storageOffset + row * rowStride)]
  exact ⟨hindex.1, by omega, by omega⟩

end VllmMlu.Library.Strided
