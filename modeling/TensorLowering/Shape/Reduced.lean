import TensorLowering.Shape.Layout

set_option autoImplicit false

/-! # Reduced shapes

Reducing over a set of axes either keeps the reduced dimensions with size one or drops them. A
result without any dimension becomes the shape `[1]`. An element contributes to the element of the
result whose coordinate is its own with the reduced indices set to zero or dropped
(`reducedCoordinate`). -/

namespace TensorLowering

namespace Shape

/-- The dimensions that are left when those in `axes` are reduced, where the first dimension listed
    is dimension `first` of the whole shape. -/
def reduceFrom (axes : List Nat) (keepDims : Bool) (first : Nat) : Shape → Shape
  | [] => []
  | d :: ds =>
      if first ∈ axes then
        if keepDims then 1 :: reduceFrom axes keepDims (first + 1) ds
        else reduceFrom axes keepDims (first + 1) ds
      else d :: reduceFrom axes keepDims (first + 1) ds

/-- A shape that has at least one dimension. -/
def orUnit : Shape → Shape
  | [] => [1]
  | shape => shape

/-- The shape of the result of a reduction over dimensions of `shape`. -/
def reduced (shape : Shape) (axes : List Nat) (keepDims : Bool) : Except ShapeError Shape :=
  match axes.find? (shape.rank ≤ ·) with
  | some axis => .error (.axisOutOfRange (Signed.ofWord axis) shape.rank)
  | none => .ok (orUnit (reduceFrom axes keepDims 0 shape))

/-- What is left of a coordinate when the axes in `axes` are reduced, where the first index listed
    is that of axis `first`. -/
def reduceCoordinateFrom (axes : List Nat) (keepDims : Bool) (first : Nat) : Coordinate → Coordinate
  | [] => []
  | i :: is =>
      if first ∈ axes then
        if keepDims then 0 :: reduceCoordinateFrom axes keepDims (first + 1) is
        else reduceCoordinateFrom axes keepDims (first + 1) is
      else i :: reduceCoordinateFrom axes keepDims (first + 1) is

/-- The coordinate of the result to which the element at a coordinate contributes. -/
def reducedCoordinate (axes : List Nat) (keepDims : Bool) (coordinate : Coordinate) : Coordinate :=
  reduceCoordinateFrom axes keepDims 0 coordinate

/-! ## Dimensions of the result -/

theorem length_reduceFrom_keep (axes : List Nat) (first : Nat) (shape : Shape) :
    (reduceFrom axes true first shape).length = shape.length := by
  induction shape generalizing first with
  | nil => rfl
  | cons d ds ih => unfold reduceFrom; split <;> simp [ih]

/-- A dimension that is kept is one if it is reduced and as before if not. -/
theorem getElem?_reduceFrom_keep (axes : List Nat) (first : Nat) (shape : Shape) (i : Nat) :
    (reduceFrom axes true first shape)[i]? =
      shape[i]?.map fun d => if first + i ∈ axes then 1 else d := by
  induction shape generalizing first i with
  | nil => rfl
  | cons d ds ih =>
      unfold reduceFrom
      cases i with
      | zero => split <;> simp [*]
      | succ i => split <;> simp [ih, Nat.add_assoc, Nat.add_comm 1 i]

/-- As many indices are left as dimensions. -/
theorem length_reduceCoordinateFrom (axes : List Nat) (keepDims : Bool) (first : Nat)
    {shape : Shape} {coordinate : Coordinate} (h : coordinate.length = shape.length) :
    (reduceCoordinateFrom axes keepDims first coordinate).length =
      (reduceFrom axes keepDims first shape).length := by
  induction shape generalizing first coordinate with
  | nil => cases coordinate with
    | nil => rfl
    | cons i is => cases h
  | cons d ds ih => cases coordinate with
    | nil => cases h
    | cons i is =>
        have hrest := ih (first + 1) (Nat.succ.inj h)
        unfold reduceCoordinateFrom reduceFrom
        split
        · cases keepDims <;> simp [hrest]
        · simp [hrest]

/-- Keeping or dropping the reduced dimensions leaves the same number of elements. -/
theorem elements_reduceFrom (axes : List Nat) (first : Nat) (shape : Shape) :
    (reduceFrom axes false first shape).elements = (reduceFrom axes true first shape).elements := by
  induction shape generalizing first with
  | nil => rfl
  | cons d ds ih => unfold reduceFrom; split <;> simp [ih]

/-- The numbers of elements are counted alike as well, with the same faults. -/
theorem checkedElements_reduceFrom (axes : List Nat) (first : Nat) (shape : Shape) :
    (reduceFrom axes false first shape).checkedElements =
      (reduceFrom axes true first shape).checkedElements := by
  -- By induction on the shape, for the product so far, which is a word.
  suffices h : ∀ start < Word.size,
      (reduceFrom axes false first shape).foldlM Word.mul start =
        (reduceFrom axes true first shape).foldlM Word.mul start from h 1 (by decide)
  induction shape generalizing first with
  | nil => intro start _; rfl
  | cons d ds ih =>
      intro start hstart
      unfold reduceFrom
      split
      · rw [if_neg Bool.false_ne_true, if_pos rfl, Word.foldlM_mul_one_cons hstart]
        exact ih (first + 1) start hstart
      · rw [List.foldlM_cons, List.foldlM_cons]
        cases hmul : Word.mul start d with
        | error t => rfl
        | ok next =>
            obtain ⟨hnext, rfl⟩ := Word.mul_eq_ok.1 hmul
            exact ih (first + 1) _ hnext

/-- Keeping or dropping the reduced indices leaves the same offset. -/
theorem offset_reduceCoordinateFrom (axes : List Nat) (first : Nat) (shape : Shape)
    (coordinate : Coordinate) :
    (reduceFrom axes false first shape).offset (reduceCoordinateFrom axes false first coordinate) =
      (reduceFrom axes true first shape).offset
        (reduceCoordinateFrom axes true first coordinate) := by
  induction shape generalizing first coordinate with
  | nil => cases coordinate <;> simp [reduceFrom, offset]
  | cons d ds ih => cases coordinate with
    | nil => simp only [reduceFrom, reduceCoordinateFrom]; split <;> simp [offset]
    | cons i is =>
        unfold reduceFrom reduceCoordinateFrom
        split <;> simp [offset, ih, elements_reduceFrom]

/-- A shape is reduced over dimensions that it has. -/
theorem reduced_eq_ok {shape result : Shape} {axes : List Nat} {keepDims : Bool} :
    shape.reduced axes keepDims = .ok result ↔
      (∀ axis ∈ axes, axis < shape.rank) ∧ orUnit (reduceFrom axes keepDims 0 shape) = result := by
  unfold reduced
  split
  · next axis hfind =>
      have hmem := List.mem_of_find?_eq_some hfind
      have hle : shape.rank ≤ axis := by simpa using List.find?_some hfind
      simp only [reduceCtorEq, false_iff]
      exact fun h => absurd (h.1 axis hmem) (Nat.not_lt.2 hle)
  · next hfind =>
      have hlt : ∀ axis ∈ axes, axis < shape.rank := by simpa using hfind
      rw [Except.ok.injEq]
      exact ⟨fun h => ⟨hlt, h⟩, fun h => h.2⟩

theorem orUnit_of_ne_nil {shape : Shape} (h : shape ≠ []) : orUnit shape = shape := by
  cases shape with
  | nil => exact absurd rfl h
  | cons d ds => rfl

@[simp] theorem elements_orUnit (shape : Shape) : (orUnit shape).elements = shape.elements := by
  cases shape <;> rfl

@[simp] theorem checkedElements_orUnit (shape : Shape) :
    (orUnit shape).checkedElements = shape.checkedElements := by
  cases shape <;> rfl

/-- Whether there is a result does not depend on whether the reduced dimensions are kept. -/
theorem reduced_error_or_ok (shape : Shape) (axes : List Nat) :
    (∃ e, ∀ keepDims, shape.reduced axes keepDims = .error e) ∨
      ∀ keepDims, shape.reduced axes keepDims = .ok (orUnit (reduceFrom axes keepDims 0 shape)) := by
  simp only [reduced]
  cases axes.find? (shape.rank ≤ ·) with
  | none => exact .inr fun _ => rfl
  | some axis => exact .inl ⟨_, fun _ => rfl⟩

/-- An element without indices has the offset zero. -/
theorem offset_orUnit {shape : Shape} {coordinate : Coordinate}
    (h : coordinate.length = shape.length) :
    (orUnit shape).offset coordinate = shape.offset coordinate := by
  cases shape with
  | nil =>
      rw [List.eq_nil_of_length_eq_zero h]
      rfl
  | cons d ds => rfl

end Shape

end TensorLowering
