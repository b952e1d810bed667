import TensorLowering.Shape.Basic

set_option autoImplicit false

/-! # Values

A value is an edge of a graph: a tensor that one node produces and others read. The graph knows its
shape and the type of its elements, and perhaps a name. -/

namespace TensorLowering

/-- The types of tensor elements. -/
inductive ElementType where
  | int32
  | float32
  | int8
  | uint8
deriving DecidableEq, Repr

namespace ElementType

/-- The number of bytes of an element. -/
def size : ElementType → Nat
  | .int32 | .float32 => 4
  | .int8 | .uint8 => 1

/-- The type as messages show it. -/
def text : ElementType → String
  | .int32 => "i32"
  | .float32 => "f32"
  | .int8 => "i8"
  | .uint8 => "u8"

end ElementType

/-- What a graph knows of a tensor. -/
structure Value where
  name : Option String
  shape : Shape
  elementType : ElementType
deriving DecidableEq, Repr

namespace Value

/-- The number of elements. -/
def count (value : Value) : Checked Nat := value.shape.checkedElements

/-- Whether there are no elements. -/
def isEmpty (value : Value) : Checked Bool := do
  return (← value.count) == 0

/-- The number of bytes. -/
def byteCount (value : Value) : Checked Nat := do
  Word.mul (← value.count) value.elementType.size

/-- The value as messages show it. -/
def text (value : Value) : String := value.elementType.text ++ " " ++ value.shape.text

end Value

end TensorLowering
