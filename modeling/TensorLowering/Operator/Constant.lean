import TensorLowering.Binary32.Basic
import TensorLowering.Shape.Basic

set_option autoImplicit false

/-! # Constant tensors

Weights, biases and constant nodes carry their elements. The number of elements is the exact count
of the shape: the type holds the proof, so no rule has to check it again. -/

namespace TensorLowering

/-- The elements of a constant tensor in row-major order. -/
structure ConstantTensor where
  shape : Shape
  data : Array Binary32
  size_eq : data.size = shape.elements

namespace ConstantTensor

/-- Constants are equal if their shapes are and their elements are numerically. -/
instance : BEq ConstantTensor where
  beq a b := a.shape == b.shape && a.data == b.data

/-- The constant with a shape and elements, unless their number is not that of the shape. Counting
    the elements of the shape may fault. -/
def ofShape? (shape : Shape) (data : Array Binary32) : Checked (Option ConstantTensor) :=
  match h : shape.checkedElements with
  | .error t => .error t
  | .ok n =>
      if hn : n = data.size then
        .ok (some { shape, data, size_eq := by rw [← hn, Shape.checkedElements_eq_ok h] })
      else .ok none

/-- The constant with one dimension. -/
def ofArray (data : Array Binary32) : ConstantTensor where
  shape := [data.size]
  data := data
  size_eq := by simp

/-- The number of elements. -/
def size (constant : ConstantTensor) : Nat := constant.data.size

/-- A constant that is made has the given shape and elements. -/
theorem ofShape?_eq_some {shape : Shape} {data : Array Binary32} {constant : ConstantTensor}
    (h : ofShape? shape data = .ok (some constant)) :
    constant.shape = shape ∧ constant.data = data := by
  unfold ofShape? at h
  split at h
  · cases h
  · split at h
    · cases h; exact ⟨rfl, rfl⟩
    · cases h

/-- A constant is made if the elements of the shape are counted and there are as many. -/
theorem exists_ofShape?_eq_some {shape : Shape} {data : Array Binary32} :
    (∃ constant, ofShape? shape data = .ok (some constant)) ↔
      shape.checkedElements = .ok data.size := by
  unfold ofShape?
  split
  · next t h => simp [h]
  · next n h => by_cases hn : n = data.size <;> simp [h, hn]

/-- No constant is made if the elements of the shape are counted and there are more or fewer. -/
theorem ofShape?_eq_none {shape : Shape} {data : Array Binary32} :
    ofShape? shape data = .ok none ↔
      ∃ n, shape.checkedElements = .ok n ∧ n ≠ data.size := by
  unfold ofShape?
  split
  · next t h => simp [h]
  · next n h => by_cases hn : n = data.size <;> simp [h, hn]

/-- Making a constant faults where counting the elements of the shape does. -/
theorem ofShape?_eq_error {shape : Shape} {data : Array Binary32} {t : Fault} :
    ofShape? shape data = .error t ↔ shape.checkedElements = .error t := by
  unfold ofShape?
  split
  · next t' h => simp [h]
  · next n h => by_cases hn : n = data.size <;> simp [h, hn]

end ConstantTensor

end TensorLowering
