import TensorLowering.Id
import TensorLowering.Operator.Attribute
import TensorLowering.Operator.Constant
import TensorLowering.Operator.Kind

set_option autoImplicit false

/-! # Operators

An operator is a kind of computation together with its attributes and the values it reads (`inputs`)
and produces (`outputs`). `==` compares attributes, and floating-point ones numerically. -/

namespace TensorLowering

/-- An elementwise function of two tensors, which are broadcast against each other. -/
structure Operator.Binary where
  a : ValueId
  b : ValueId
  output : ValueId
  function : BinaryFunction
  activation : Activation
deriving BEq

/-- The concatenation of tensors along an axis. -/
structure Operator.Concat where
  inputs : List ValueId
  output : ValueId
  axis : Int
deriving BEq

/-- A tensor known when the graph is made. -/
structure Operator.Constant where
  output : ValueId
  data : ConstantTensor
deriving BEq

/-- A convolution over images whose dimensions are batch, channel, height and width. The weights
    have the dimensions output channel, input channel of the group, filter height and filter width;
    the bias has an entry per output channel. -/
structure Operator.Conv2d where
  input : ValueId
  output : ValueId
  weights : ConstantTensor
  bias : ConstantTensor
  groups : Nat
  padding : Spatial Padding
  stride : Spatial Nat
  dilation : Spatial Nat
  activation : Activation
deriving BEq

/-- A conversion between floating-point and quantized elements. -/
structure Operator.Conversion where
  input : ValueId
  output : ValueId
  quantization : Quantization
deriving BEq

/-- A tensor that the caller of the program supplies. -/
structure Operator.Input where
  output : ValueId
deriving BEq

/-- A tensor that the caller of the program receives. -/
structure Operator.Output where
  input : ValueId
deriving BEq

/-- The product of two matrices, with a bias added to each row. -/
structure Operator.MatMul where
  a : ValueId
  b : ValueId
  output : ValueId
  bias : ConstantTensor
  activation : Activation
deriving BEq

/-- The combination of elements along a set of axes. -/
structure Operator.Reduce where
  input : ValueId
  output : ValueId
  reduction : Reduction
  axes : List Int
  keepDims : Bool
  initial : Binary32
deriving BEq

/-- The combination of elements in windows that slide over images. -/
structure Operator.ReduceWindow2d where
  input : ValueId
  output : ValueId
  reduction : Reduction
  initial : Binary32
  filter : Spatial Nat
  padding : Spatial Padding
  stride : Spatial Nat
  dilation : Spatial Nat
  activation : Activation
deriving BEq

/-- The normalization of each slice along the first dimension. -/
structure Operator.Softmax where
  input : ValueId
  output : ValueId
deriving BEq

/-- The reordering of axes: axis `i` of the result is axis `perm[i]` of the input. -/
structure Operator.Transpose where
  input : ValueId
  output : ValueId
  perm : List Nat
deriving BEq

/-- A computation of a graph. -/
inductive Operator where
  | binary (op : Operator.Binary)
  | concat (op : Operator.Concat)
  | constant (op : Operator.Constant)
  | conv2d (op : Operator.Conv2d)
  | dequantize (op : Operator.Conversion)
  | input (op : Operator.Input)
  | matMul (op : Operator.MatMul)
  | output (op : Operator.Output)
  | quantize (op : Operator.Conversion)
  | reduce (op : Operator.Reduce)
  | reduceWindow2d (op : Operator.ReduceWindow2d)
  | softmax (op : Operator.Softmax)
  | transpose (op : Operator.Transpose)
deriving BEq

namespace Operator

/-- Which computation the operator is. -/
def kind : Operator → Operator.Kind
  | .binary _ => .binary
  | .concat _ => .concat
  | .constant _ => .constant
  | .conv2d _ => .conv2d
  | .dequantize _ => .dequantize
  | .input _ => .input
  | .matMul _ => .matMul
  | .output _ => .output
  | .quantize _ => .quantize
  | .reduce _ => .reduce
  | .reduceWindow2d _ => .reduceWindow2d
  | .softmax _ => .softmax
  | .transpose _ => .transpose

/-- The values that the operator reads, in order. -/
def inputs : Operator → List ValueId
  | .binary op => [op.a, op.b]
  | .concat op => op.inputs
  | .constant _ => []
  | .conv2d op => [op.input]
  | .dequantize op => [op.input]
  | .input _ => []
  | .matMul op => [op.a, op.b]
  | .output op => [op.input]
  | .quantize op => [op.input]
  | .reduce op => [op.input]
  | .reduceWindow2d op => [op.input]
  | .softmax op => [op.input]
  | .transpose op => [op.input]

/-- The values that the operator produces. -/
def outputs : Operator → List ValueId
  | .binary op => [op.output]
  | .concat op => [op.output]
  | .constant op => [op.output]
  | .conv2d op => [op.output]
  | .dequantize op => [op.output]
  | .input op => [op.output]
  | .matMul op => [op.output]
  | .output _ => []
  | .quantize op => [op.output]
  | .reduce op => [op.output]
  | .reduceWindow2d op => [op.output]
  | .softmax op => [op.output]
  | .transpose op => [op.output]

/-- Every value that the operator mentions, those it reads first. -/
def operands (op : Operator) : List ValueId := op.inputs ++ op.outputs

/-- A computed operator produces exactly one value. -/
theorem outputs_of_isComputed {op : Operator} (h : op.kind.isComputed = true) :
    ∃ value, op.outputs = [value] := by
  cases op <;> simp_all [kind, Operator.Kind.isComputed, outputs]

end Operator

end TensorLowering
