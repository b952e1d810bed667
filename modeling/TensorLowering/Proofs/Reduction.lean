import Mathlib
import TensorLowering.Proofs.Broadcasting
import TensorLowering.Rule.Reduction

set_option autoImplicit false

/-! # Where a reduction puts elements

Three shapes say where an element of the input contributes: the record's, which keeps the reduced
dimensions and pads the rank; the one with the reduced dimensions kept; and the one without them.
The shape that keeps them fits the input, so a reduction reads its *output* as an elementwise
function reads an operand (`Shape.operandCoordinate_reduceFrom`), and the offset is that in each of
the three shapes (`Operator.Reduce.outputOffset_follows_axes`). -/

namespace TensorLowering

namespace Shape

variable {shape : Shape} {coordinate : Coordinate}

/-! ## Reduced dimensions that are kept -/

theorem forall₂_reduceFrom (axes : List Nat) (first : Nat) (shape : Shape) :
    List.Forall₂ (fun d e => d = e ∨ d = 1) (reduceFrom axes true first shape) shape := by
  induction shape generalizing first with
  | nil => exact .nil
  | cons d ds ih =>
      unfold reduceFrom
      split
      · exact .cons (.inr rfl) (ih (first + 1))
      · exact .cons (.inl rfl) (ih (first + 1))

/-- The shape that keeps the reduced dimensions fits the input. -/
theorem fits_reduceFrom (axes : List Nat) (shape : Shape) :
    (reduceFrom axes true 0 shape).Fits shape :=
  ⟨[], shape, rfl, forall₂_reduceFrom axes 0 shape⟩

theorem zipWith_reduceFrom (axes : List Nat) (first : Nat) (h : shape.Contains coordinate) :
    List.zipWith (fun d i => if d = 1 then 0 else i) (reduceFrom axes true first shape) coordinate =
      reduceCoordinateFrom axes true first coordinate := by
  induction shape generalizing first coordinate with
  | nil => cases coordinate with
    | nil => rfl
    | cons i is => exact h.elim
  | cons d ds ih => cases coordinate with
    | nil => exact h.elim
    | cons i is =>
        obtain ⟨hi, his⟩ := h
        have hrest := ih (first + 1) his
        by_cases hfirst : first ∈ axes
        · simp [reduceFrom, reduceCoordinateFrom, hfirst, hrest]
        · -- The only index of a dimension of size one is zero, whether it is reduced or not.
          have hindex : (if d = 1 then 0 else i) = i := by
            split
            · omega
            · rfl
          simp [reduceFrom, reduceCoordinateFrom, hfirst, hrest, hindex]

/-- The element of the result to which an element contributes is the one that takes part in it, read
    as an operand. -/
theorem operandCoordinate_reduceFrom (axes : List Nat) (h : shape.Contains coordinate) :
    (reduceFrom axes true 0 shape).operandCoordinate coordinate =
      reduceCoordinateFrom axes true 0 coordinate := by
  rw [operandCoordinate, length_reduceFrom_keep, length_of_contains h, Nat.sub_self, List.drop_zero,
    zipWith_reduceFrom axes 0 h]

/-! ## The shape of the result -/

/-- Padding makes no difference between the shape without dimensions and the one in its place. -/
theorem padLeft_orUnit {rank : Nat} (h : 0 < rank) (shape : Shape) :
    (orUnit shape).padLeft rank = shape.padLeft rank := by
  cases shape with
  | nil =>
      obtain ⟨n, rfl⟩ := Nat.exists_eq_add_of_lt h
      simp [orUnit, padLeft, List.replicate_succ']
  | cons d ds => rfl

section

variable {axes : List Nat} {keepDims : Bool} {result : Shape}
  (hresult : shape.reduced axes keepDims = .ok result)

include hresult

theorem elements_of_reduced : result.elements = (reduceFrom axes true 0 shape).elements := by
  obtain ⟨-, rfl⟩ := reduced_eq_ok.1 hresult
  rw [elements_orUnit]
  cases keepDims with
  | false => exact elements_reduceFrom axes 0 shape
  | true => rfl

theorem offset_of_reduced (hlength : coordinate.length = shape.length) :
    result.offset (reducedCoordinate axes keepDims coordinate) =
      (reduceFrom axes true 0 shape).offset (reduceCoordinateFrom axes true 0 coordinate) := by
  obtain ⟨-, rfl⟩ := reduced_eq_ok.1 hresult
  rw [reducedCoordinate, offset_orUnit (length_reduceCoordinateFrom axes keepDims 0 hlength)]
  cases keepDims with
  | false => exact offset_reduceCoordinateFrom axes 0 shape coordinate
  | true => rfl

end

end Shape

/-! ## Records -/

namespace Operator.Reduce.Accepted

variable {context : Context} {op : Operator.Reduce} {shape found : Shape} {axes : List Nat}
  {kept expected : Shape} {record : Record.Reduce}
  (h : op.Accepted context shape found axes kept expected record)

include h

theorem dims_outputShape :
    record.outputShape.dims = (Shape.reduceFrom axes true 0 shape).padLeft recordRank := by
  obtain ⟨-, hkept⟩ := Shape.reduced_eq_ok.1 h.kept_eq
  obtain ⟨-, hdims⟩ := Shape.dims_of_toAxisArray h.outputShape_eq
  rw [hdims, ← hkept, Shape.padLeft_orUnit (by decide)]

theorem outputOffset_eq {coordinate : Coordinate} (hcontains : shape.Contains coordinate) :
    record.outputOffset coordinate =
        expected.offset (Shape.reducedCoordinate axes op.keepDims coordinate) ∧
      record.outputOffset coordinate < found.elements := by
  obtain ⟨hrank, -⟩ := Shape.dims_of_toAxisArray h.inputShape_eq
  obtain ⟨-, hoffset, hlt⟩ :=
    (Shape.fits_reduceFrom axes shape).operandOffset h.dims_outputShape hrank hcontains
  rw [Shape.operandCoordinate_reduceFrom axes hcontains] at hoffset
  constructor
  · rw [Record.Reduce.outputOffset, hoffset,
      Shape.offset_of_reduced h.expected_eq (Shape.length_of_contains hcontains)]
  · rw [h.count_eq, Shape.elements_of_reduced h.expected_eq]
    exact hlt

/-- The record has size one on each reduced axis. -/
theorem getElem?_outputShape {axis : Nat} (haxis : axis ∈ axes) :
    record.outputShape.dims[axis + (recordRank - shape.rank)]? = some 1 := by
  obtain ⟨hlt, -⟩ := Shape.reduced_eq_ok.1 h.kept_eq
  have haxisLt : axis < shape.length := hlt axis haxis
  rw [h.dims_outputShape, Shape.padLeft, Shape.length_reduceFrom_keep,
    List.getElem?_append_right (by simp), List.length_replicate, Nat.add_sub_cancel,
    Shape.getElem?_reduceFrom_keep, List.getElem?_eq_getElem haxisLt]
  simp [haxis]

end Operator.Reduce.Accepted

/-- **A reduction record puts elements where the graph expects them.** Where the rule makes a
    record, the axes that it resolves are those that the operator names, and each element of the
    input contributes to the element of the output whose coordinate is its own with the indices on
    those axes set to zero or dropped, as the operator has it. The record finds it from nothing but
    its own shapes, and it is an element of the output. On each of its axes the record has the size
    of the input or one, and one on each reduced axis. -/
theorem Operator.Reduce.outputOffset_follows_axes (graph : Graph) (oracle : Oracle)
    (op : Operator.Reduce) (r : Record) (hlower : op.lower (graph.context oracle) = .ok r) :
    ∃ (record : Record.Reduce) (input output : Value) (axes : List Nat) (expected : Shape),
      r = .reduce record ∧ graph.value? op.input = some input ∧
      graph.value? op.output = some output ∧
      axisDimensions input.shape.rank op.axes = .ok axes ∧
      (∀ axis, axis ∈ axes ↔ axis < input.shape.rank ∧
        ∃ named ∈ op.axes, named = axis ∨ named = (axis : Int) - input.shape.rank) ∧
      input.shape.reduced axes op.keepDims = .ok expected ∧
      (∀ coordinate, input.shape.Contains coordinate →
        record.outputOffset coordinate =
            expected.offset (Shape.reducedCoordinate axes op.keepDims coordinate) ∧
          record.outputOffset coordinate < output.shape.elements) ∧
      (∀ axis : Fin recordRank,
        record.outputShape.get axis = 1 ∨
          record.outputShape.get axis = record.inputShape.get axis) ∧
      ∀ axis ∈ axes, record.outputShape.dims[axis + (recordRank - input.shape.rank)]? = some 1 := by
  obtain ⟨_, _, axes, kept, expected, record, rfl, h⟩ := op.exists_accepted_of_lower hlower
  obtain ⟨input, hinput, rfl⟩ := Context.shape_eq_ok.1 h.shape_eq
  obtain ⟨output, houtput, rfl⟩ := Context.shape_eq_ok.1 h.found_eq
  obtain ⟨hrank, hshape⟩ := Shape.dims_of_toAxisArray h.inputShape_eq
  have haxes : ∀ axis, axis ∈ axes ↔ axis < input.shape.rank ∧
      ∃ named ∈ op.axes, named = axis ∨ named = (axis : Int) - input.shape.rank := by
    intro axis
    exact mem_axisDimensions (Nat.lt_of_le_of_lt hrank (by decide)) h.axes_eq
  refine ⟨record, input, output, axes, expected, rfl, hinput, houtput, h.axes_eq, haxes,
    h.expected_eq, fun coordinate hcoordinate => h.outputOffset_eq hcoordinate, fun axis => ?_,
    fun axis haxis => h.getElem?_outputShape haxis⟩
  have hfields :=
    (Shape.fits_reduceFrom axes input.shape).fields h.dims_outputShape hshape hrank axis
  rcases hfields with hsame | hone
  · exact .inr hsame.symm
  · exact .inl hone

/-- A graph with two blocks of three rows of four entries, and one value for each row number. -/
def rowsGraph : Graph where
  values := #[{ name := none, shape := [2, 3, 4], elementType := .float32 },
    { name := none, shape := [3], elementType := .float32 }]
  nodes := #[]

/-- The sum over the blocks and the entries, where the last axis is named twice. -/
def rowsSum : Operator.Reduce where
  input := 0
  output := 1
  reduction := .sum
  axes := [-1, 0, 2]
  keepDims := false
  initial := .zero

/-- The entries of the last row of either block contribute to the last value. -/
theorem Operator.Reduce.outputOffset_follows_axes_rows :
    let oracle : Oracle := fun value =>
      some { region := .data, start := .ofNat (96 * value.index), size := 96 }
    ∃ record, rowsSum.lower (rowsGraph.context oracle) = .ok (.reduce record) ∧
      record.outputShape.dims = [1, 1, 3, 1] ∧ Shape.Contains [2, 3, 4] [1, 2, 3] ∧
      Shape.reducedCoordinate [0, 2] false [1, 2, 3] = [2] ∧
      record.outputOffset [1, 2, 3] = 2 := by
  intro oracle
  have hlower : rowsSum.lower (rowsGraph.context oracle) = .ok (.reduce
      { input := ⟨.data, 0, 96⟩, output := ⟨.data, 96, 96⟩, reduction := .sum
        inputShape := .ofList [1, 2, 3, 4], outputShape := .ofList [1, 1, 3, 1]
        initial := .zero }) := by
    have haxes : axisDimensions 3 [-1, 0, 2] = .ok [0, 2] := rfl
    simp only [lower, Outcome.bind_eq_ok, Outcome.mapError_eq_ok]
    exact ⟨_, rfl, _, rfl, [0, 2], haxes, _, rfl, _, rfl, 3, rfl, 3, rfl, (), rfl, _, rfl, _, rfl,
      _, rfl, _, rfl, rfl⟩
  obtain ⟨record, input, output, axes, expected, hrecord, hinput, houtput, haxes, -, hexpected,
    hoffsets, -, -⟩ := outputOffset_follows_axes rowsGraph oracle rowsSum _ hlower
  cases hrecord
  cases hinput
  cases houtput
  have hresolved : axisDimensions 3 [-1, 0, 2] = .ok axes := haxes
  cases hresolved
  cases hexpected
  have hcontains : Shape.Contains [2, 3, 4] [1, 2, 3] := by decide
  exact ⟨_, hlower, by decide, hcontains, rfl, (hoffsets [1, 2, 3] hcontains).1⟩

end TensorLowering
