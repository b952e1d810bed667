import TensorLowering.Record
import TensorLowering.Shape.Broadcast
import TensorLowering.Shape.Layout

set_option autoImplicit false

/-! # Which elements a record combines

Records hold shapes of one fixed rank and nothing else about the tensors they were made for. From
these shapes alone the interpreter finds, for an element of one operand, where the matching element
of another lies. A tensor of lower rank has the same elements in the same places once its
coordinates are prefixed by zeros (`offset_padLeft`). -/

namespace TensorLowering

/-- The coordinate with as many zeros in front as bring it to `rank` indices. -/
def padCoordinate (rank : Nat) (coordinate : Coordinate) : Coordinate :=
  List.replicate (rank - coordinate.length) 0 ++ coordinate

namespace Record

/-- Where an operand of the given shape has the element that takes part in the element at a
    coordinate of the output. -/
def operandOffset (operand : AxisArray) (coordinate : Coordinate) : Nat :=
  operand.dims.offset
    (Shape.operandCoordinate operand.dims (padCoordinate recordRank coordinate))

/-- Where the first operand has the element that takes part in an element of the output. -/
def Binary.offsetA (record : Record.Binary) (coordinate : Coordinate) : Nat :=
  operandOffset record.shapeA coordinate

/-- Where the second operand has it. -/
def Binary.offsetB (record : Record.Binary) (coordinate : Coordinate) : Nat :=
  operandOffset record.shapeB coordinate

/-- Where the output has the element to which the element at a coordinate of the input contributes.
    The reduced axes are those on which the output has size one. -/
def Reduce.outputOffset (record : Record.Reduce) (coordinate : Coordinate) : Nat :=
  operandOffset record.outputShape coordinate

/-- Where the input has the element that the output has at an offset. -/
def Transpose.inputOffset (record : Record.Transpose) (position : Nat) : Nat :=
  let reordering : PermutedShape := { shape := record.inputShape.dims, perm := record.perm.dims }
  reordering.sourceOffset position

end Record

/-! ## Coordinates of lower rank -/

theorem length_padCoordinate {rank : Nat} {coordinate : Coordinate} (h : coordinate.length ≤ rank) :
    (padCoordinate rank coordinate).length = rank := by
  rw [padCoordinate, List.length_append, List.length_replicate, Nat.sub_add_cancel h]

/-- The element at a position has the same coordinate in the padded shape, with zeros in front. -/
theorem coordinate_padLeft (rank : Nat) {shape : Shape} {position : Nat}
    (h : position < shape.elements) :
    (shape.padLeft rank).coordinate position = padCoordinate rank (shape.coordinate position) := by
  rw [Shape.padLeft, padCoordinate, Shape.length_coordinate, Shape.coordinate_replicate_one _ h]

/-- Padding a shape and its coordinates moves no element. -/
theorem offset_padLeft {shape : Shape} {coordinate : Coordinate} (rank : Nat)
    (h : coordinate.length = shape.length) :
    (shape.padLeft rank).offset (padCoordinate rank coordinate) = shape.offset coordinate := by
  rw [Shape.padLeft, padCoordinate, h, Shape.offset_replicate_one]

/-- Padding does not change from where an operand of lower rank takes an element: on the axes that
    padding inserts the operand has size one. -/
theorem operandCoordinate_padLeft {rank : Nat} {operand : Shape} {coordinate : Coordinate}
    (hoperand : operand.length ≤ coordinate.length) (hrank : coordinate.length ≤ rank) :
    (operand.padLeft rank).operandCoordinate (padCoordinate rank coordinate) =
      padCoordinate rank (operand.operandCoordinate coordinate) := by
  -- Indices for the dimensions of the operand, after those for the inserted ones.
  have hsplit : padCoordinate rank coordinate =
      (List.replicate (rank - coordinate.length) 0 ++
        coordinate.take (coordinate.length - operand.length)) ++
      coordinate.drop (coordinate.length - operand.length) := by
    rw [padCoordinate, List.append_assoc, List.take_append_drop]
  have hinserted : List.zipWith (fun d i => if d = 1 then 0 else i)
      (List.replicate (rank - operand.length) 1)
      (List.replicate (rank - coordinate.length) 0 ++
        coordinate.take (coordinate.length - operand.length)) =
      List.replicate (rank - operand.length) 0 := by
    refine List.eq_replicate_iff.2 ⟨by simp; omega, fun index hindex => ?_⟩
    obtain ⟨i, hi, rfl⟩ := List.mem_iff_getElem.1 hindex
    simp
  rw [Shape.operandCoordinate, Shape.length_padLeft (Nat.le_trans hoperand hrank),
    length_padCoordinate hrank, Nat.sub_self, List.drop_zero, Shape.padLeft, hsplit,
    List.zipWith_append (by simp; omega), hinserted, padCoordinate,
    Shape.length_operandCoordinate hoperand, Shape.operandCoordinate]

/-- Where a record's operand has an element is told by the shape that the record was made for. -/
theorem Record.operandOffset_eq {axes : AxisArray} {operand : Shape} {coordinate : Coordinate}
    (haxes : axes.dims = operand.padLeft recordRank) (hoperand : operand.length ≤ coordinate.length)
    (hrank : coordinate.length ≤ recordRank) :
    operandOffset axes coordinate = operand.offset (operand.operandCoordinate coordinate) := by
  rw [operandOffset, haxes, operandCoordinate_padLeft hoperand hrank,
    offset_padLeft recordRank (Shape.length_operandCoordinate hoperand)]

end TensorLowering
