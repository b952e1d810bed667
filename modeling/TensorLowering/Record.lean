import TensorLowering.Memory
import TensorLowering.Operator.Attribute
import TensorLowering.Operator.Constant
import TensorLowering.Operator.Kind
import TensorLowering.Shape.Permutation

set_option autoImplicit false

/-! # Instruction records

A record holds the parameters with which the interpreter executes one operator: the memory ranges of
its operands and of its result, attributes, and shapes as axis arrays of one fixed rank. Records
do not refer to the graph, and the interpreter executes them in the order of emission. -/

namespace TensorLowering

/-- An elementwise function. The interpreter replays broadcasting from the shapes. -/
structure Record.Binary where
  inputA : MemoryRange
  inputB : MemoryRange
  output : MemoryRange
  function : BinaryFunction
  shapeA : AxisArray
  shapeB : AxisArray
  outputShape : AxisArray
  activation : Activation
deriving BEq

/-- A concatenation. In each of `outer` rounds, each input in turn contributes the next
    `inner * sizes[i]` of its bytes. -/
structure Record.Concat where
  output : MemoryRange
  inner : UInt64
  outer : UInt64
  inputs : List MemoryRange
  sizes : List UInt32
deriving BEq

/-- How windows slide over an image. -/
structure Window where
  filter : Spatial UInt32
  padding : Spatial Padding
  stride : Spatial UInt32
  dilation : Spatial UInt32
deriving DecidableEq

/-- A convolution. -/
structure Record.Conv2d where
  input : MemoryRange
  output : MemoryRange
  inputShape : AxisArray
  groups : UInt32
  outChannels : UInt32
  window : Window
  activation : Activation
  weights : ConstantTensor
  bias : ConstantTensor
deriving BEq

/-- A conversion between floating-point and quantized elements. -/
structure Record.Conversion where
  input : MemoryRange
  output : MemoryRange
  quantization : Quantization
deriving BEq

/-- A product of two matrices. -/
structure Record.MatMul where
  inputA : MemoryRange
  inputB : MemoryRange
  output : MemoryRange
  rowsA : UInt32
  columnsA : UInt32
  columnsB : UInt32
  activation : Activation
  bias : ConstantTensor
deriving BEq

/-- A reduction. The output shape has size one on the reduced axes. -/
structure Record.Reduce where
  input : MemoryRange
  output : MemoryRange
  reduction : Reduction
  inputShape : AxisArray
  outputShape : AxisArray
  initial : Binary32
deriving BEq

/-- A reduction of sliding windows. -/
structure Record.ReduceWindow2d where
  input : MemoryRange
  output : MemoryRange
  reduction : Reduction
  inputShape : AxisArray
  window : Window
  initial : Binary32
  activation : Activation
deriving BEq

/-- A normalization of `outer` rows of `inner` elements each. -/
structure Record.Softmax where
  input : MemoryRange
  output : MemoryRange
  inner : UInt32
  outer : UInt32
deriving BEq

/-- A reordering of axes: axis `i` of the result is axis `perm[i]` of the input. -/
structure Record.Transpose where
  input : MemoryRange
  output : MemoryRange
  inputShape : AxisArray
  perm : AxisArray
deriving BEq

/-- The instruction for one computed operator. -/
inductive Record where
  | binary (record : Record.Binary)
  | concat (record : Record.Concat)
  | conv2d (record : Record.Conv2d)
  | dequantize (record : Record.Conversion)
  | matMul (record : Record.MatMul)
  | quantize (record : Record.Conversion)
  | reduce (record : Record.Reduce)
  | reduceWindow2d (record : Record.ReduceWindow2d)
  | softmax (record : Record.Softmax)
  | transpose (record : Record.Transpose)
deriving BEq

namespace Record

/-- The kind of operator that the record executes; its name is the record's operation code. -/
def kind : Record → Operator.Kind
  | .binary _ => .binary
  | .concat _ => .concat
  | .conv2d _ => .conv2d
  | .dequantize _ => .dequantize
  | .matMul _ => .matMul
  | .quantize _ => .quantize
  | .reduce _ => .reduce
  | .reduceWindow2d _ => .reduceWindow2d
  | .softmax _ => .softmax
  | .transpose _ => .transpose

/-- The ranges that the record reads, in order. -/
def inputs : Record → List MemoryRange
  | .binary r => [r.inputA, r.inputB]
  | .concat r => r.inputs
  | .conv2d r => [r.input]
  | .dequantize r => [r.input]
  | .matMul r => [r.inputA, r.inputB]
  | .quantize r => [r.input]
  | .reduce r => [r.input]
  | .reduceWindow2d r => [r.input]
  | .softmax r => [r.input]
  | .transpose r => [r.input]

/-- The range that the record writes. -/
def output : Record → MemoryRange
  | .binary r => r.output
  | .concat r => r.output
  | .conv2d r => r.output
  | .dequantize r => r.output
  | .matMul r => r.output
  | .quantize r => r.output
  | .reduce r => r.output
  | .reduceWindow2d r => r.output
  | .softmax r => r.output
  | .transpose r => r.output

/-- The same instruction on operands that were moved. -/
def relocate (move : MemoryRange → MemoryRange) : Record → Record
  | .binary r =>
      .binary { r with
        inputA := move r.inputA, inputB := move r.inputB, output := move r.output }
  | .concat r => .concat { r with inputs := r.inputs.map move, output := move r.output }
  | .conv2d r => .conv2d { r with input := move r.input, output := move r.output }
  | .dequantize r => .dequantize { r with input := move r.input, output := move r.output }
  | .matMul r =>
      .matMul { r with
        inputA := move r.inputA, inputB := move r.inputB, output := move r.output }
  | .quantize r => .quantize { r with input := move r.input, output := move r.output }
  | .reduce r => .reduce { r with input := move r.input, output := move r.output }
  | .reduceWindow2d r => .reduceWindow2d { r with input := move r.input, output := move r.output }
  | .softmax r => .softmax { r with input := move r.input, output := move r.output }
  | .transpose r => .transpose { r with input := move r.input, output := move r.output }

/-- The record as messages show it. -/
def text (record : Record) : String := record.kind.name ++ " -> " ++ record.output.text

/-- The number of bytes that an input of a concatenation contributes in each round, if there is such
    an input. -/
def Concat.chunkSize? (record : Record.Concat) (index : Nat) : Checked (Option Nat) :=
  match record.sizes[index]? with
  | some size => do return some (← Word.mul record.inner.toNat size.toNat)
  | none => .ok none

/-! ## Moving operands -/

@[simp] theorem kind_relocate (move : MemoryRange → MemoryRange) (record : Record) :
    (record.relocate move).kind = record.kind := by cases record <;> rfl

@[simp] theorem inputs_relocate (move : MemoryRange → MemoryRange) (record : Record) :
    (record.relocate move).inputs = record.inputs.map move := by cases record <;> rfl

@[simp] theorem output_relocate (move : MemoryRange → MemoryRange) (record : Record) :
    (record.relocate move).output = move record.output := by cases record <;> rfl

end Record

end TensorLowering
