import Mathlib.Tactic.Ring
import TensorLowering.Shape.Reduced

set_option autoImplicit false

/-! # The shape of a reduction that keeps its dimensions

A reduced dimension becomes one, whatever its size, and the others stay as they are. The number of
elements is then divided by the sizes of the reduced dimensions, so it does not grow unless one of
these is zero: reducing over nothing leaves one element where there was none. It still does not grow
if a dimension that is not reduced is zero as well (`Shape.reduced_keeps_dims`). -/

namespace TensorLowering

namespace Shape

/-- The dimensions that are on one of the axes, where the first dimension listed is dimension `first`
    of the whole shape. -/
def dimsOn (axes : List Nat) (first : Nat) (shape : Shape) : Shape :=
  ((shape.zipIdx first).filter fun dimension => dimension.2 ∈ axes).map Prod.fst

variable {axes : List Nat} {shape : Shape}

/-! ## Dimensions of size zero -/

theorem zero_mem_dimsOn : 0 ∈ dimsOn axes 0 shape ↔ ∃ axis ∈ axes, shape[axis]? = some 0 := by
  simp [dimsOn, List.mk_mem_zipIdx_iff_getElem?, and_comm]

/-- A dimension of size zero that is kept is one that is not reduced. -/
theorem zero_mem_reduceFrom :
    0 ∈ reduceFrom axes true 0 shape ↔ ∃ axis, axis ∉ axes ∧ shape[axis]? = some 0 := by
  rw [List.mem_iff_getElem?]
  refine exists_congr fun axis => ?_
  rw [getElem?_reduceFrom_keep, Nat.zero_add, Option.map_eq_some_iff]
  by_cases hmem : axis ∈ axes <;> simp [hmem]

/-! ## Numbers of elements -/

/-- The dimensions that are kept and those that are reduced make up the shape. -/
theorem elements_reduceFrom_mul (axes : List Nat) (first : Nat) (shape : Shape) :
    (reduceFrom axes true first shape).elements * (dimsOn axes first shape).elements =
      shape.elements := by
  induction shape generalizing first with
  | nil => rfl
  | cons d ds ih =>
      unfold dimsOn at ih
      rw [dimsOn, List.zipIdx_cons, reduceFrom, elements_cons, ← ih (first + 1)]
      by_cases hmem : first ∈ axes
      · simp only [hmem, if_true, List.filter_cons, decide_true, List.map_cons, elements_cons]
        ring
      · simp only [hmem, if_false, List.filter_cons, decide_false, Bool.false_eq_true,
          elements_cons]
        ring

/-- The number of elements grows only from zero: where a reduced dimension is zero and none that is
    kept is. -/
theorem elements_reduceFrom_le_iff :
    (reduceFrom axes true 0 shape).elements ≤ shape.elements ↔
      (∀ axis ∈ axes, shape[axis]? ≠ some 0) ∨ ∃ axis, axis ∉ axes ∧ shape[axis]? = some 0 := by
  rw [← zero_mem_reduceFrom, ← elements_eq_zero_iff]
  have hreduced : (∀ axis ∈ axes, shape[axis]? ≠ some 0) ↔ (dimsOn axes 0 shape).elements ≠ 0 := by
    rw [ne_eq, elements_eq_zero_iff, zero_mem_dimsOn]
    push Not
    rfl
  rw [hreduced, ← elements_reduceFrom_mul axes 0 shape]
  constructor
  · intro hle
    by_contra hnot
    push Not at hnot
    rw [hnot.1, Nat.mul_zero, Nat.le_zero] at hle
    exact hnot.2 hle
  · rintro (hne | hzero)
    · exact Nat.le_mul_of_pos_right _ (Nat.pos_of_ne_zero hne)
    · rw [hzero]
      exact Nat.zero_le _

/-! ## The whole shape -/

/-- A shape that has dimensions still has some when they are kept. -/
theorem orUnit_reduceFrom_keep (h : shape ≠ []) :
    orUnit (reduceFrom axes true 0 shape) = reduceFrom axes true 0 shape := by
  apply orUnit_of_ne_nil
  intro hnil
  have hlength := length_reduceFrom_keep axes 0 shape
  rw [hnil, List.length_nil, eq_comm, List.length_eq_zero_iff] at hlength
  exact h hlength

/-- **A reduction that keeps its dimensions turns those on its axes to one.** Over axes of the shape
    there is a result. If the shape has dimensions at all, it has as many of them; each is one if it
    is on one of the axes and is that of the shape if not. The result has no more elements than the
    shape exactly if no dimension on the axes is zero, or one that is on none of them is. -/
theorem reduced_keeps_dims (shape : Shape) (axes : List Nat)
    (haxes : ∀ axis ∈ axes, axis < shape.rank) :
    ∃ result, shape.reduced axes true = .ok result ∧
      (shape ≠ [] → result.rank = shape.rank) ∧
      (∀ dimension < shape.rank,
        result[dimension]? = some (if dimension ∈ axes then 1 else shape.getD dimension 1)) ∧
      (result.elements ≤ shape.elements ↔
        (∀ axis ∈ axes, shape[axis]? ≠ some 0) ∨
          ∃ dimension, dimension ∉ axes ∧ shape[dimension]? = some 0) := by
  refine ⟨orUnit (reduceFrom axes true 0 shape), reduced_eq_ok.2 ⟨haxes, rfl⟩, ?_, ?_, ?_⟩
  · intro hshape
    rw [orUnit_reduceFrom_keep hshape]
    exact length_reduceFrom_keep axes 0 shape
  · intro dimension hlt
    have hshape : shape ≠ [] := List.ne_nil_of_length_pos (Nat.lt_of_le_of_lt (Nat.zero_le _) hlt)
    rw [orUnit_reduceFrom_keep hshape, getElem?_reduceFrom_keep, Nat.zero_add,
      List.getD_eq_getElem?_getD, List.getElem?_eq_getElem hlt]
    rfl
  · rw [elements_orUnit]
    exact elements_reduceFrom_le_iff

/-- Reducing the outermost dimension and, named twice, the empty innermost one adds no elements to a
    shape whose middle dimension is empty as well. -/
theorem reduced_keeps_dims_table :
    (∀ axis ∈ [2, 0, 2], axis < Shape.rank [5, 0, 0]) ∧
      ∃ result, Shape.reduced [5, 0, 0] [2, 0, 2] true = .ok result ∧ result.rank = 3 ∧
        result[1]? = some 0 ∧ result[2]? = some 1 ∧ result.elements ≤ elements [5, 0, 0] := by
  have haxes : ∀ axis ∈ [2, 0, 2], axis < Shape.rank [5, 0, 0] := by decide
  obtain ⟨result, hresult, hrank, hdims, helements⟩ := reduced_keeps_dims [5, 0, 0] [2, 0, 2] haxes
  exact ⟨haxes, result, hresult, hrank (by decide), hdims 1 (by decide), hdims 2 (by decide),
    helements.2 (.inr ⟨1, by decide, rfl⟩)⟩

/-- A dimension of size zero that is reduced becomes one of size one, which leaves an element where
    there was none. -/
theorem reduced_leaves_element :
    0 < rank [0] ∧ reduced [0] [0] true = .ok [1] ∧ ¬elements [1] ≤ elements [0] := by
  decide

/-- A shape without dimensions gets one, although the reduced dimensions are kept. -/
theorem reduced_adds_dimension : reduced [] [] true = .ok [1] ∧ rank [1] ≠ rank [] := by
  decide

end Shape

end TensorLowering
