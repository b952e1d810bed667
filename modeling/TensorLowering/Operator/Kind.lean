set_option autoImplicit false

/-! # Kinds of operators

The thirteen computations that a node can stand for. Kinds are ordered as their names are. -/

namespace TensorLowering

/-- Which computation an operator is. -/
inductive Operator.Kind where
  | binary
  | concat
  | constant
  | conv2d
  | dequantize
  | input
  | matMul
  | output
  | quantize
  | reduce
  | reduceWindow2d
  | softmax
  | transpose
deriving DecidableEq, Repr, Ord

namespace Operator.Kind

/-- Every kind, in order. -/
def all : List Operator.Kind :=
  [.binary, .concat, .constant, .conv2d, .dequantize, .input, .matMul, .output, .quantize, .reduce,
   .reduceWindow2d, .softmax, .transpose]

/-- The name of a kind. -/
def name : Operator.Kind → String
  | .binary => "Binary"
  | .concat => "Concat"
  | .constant => "Constant"
  | .conv2d => "Conv2d"
  | .dequantize => "Dequantize"
  | .input => "Input"
  | .matMul => "MatMul"
  | .output => "Output"
  | .quantize => "Quantize"
  | .reduce => "Reduce"
  | .reduceWindow2d => "ReduceWindow2d"
  | .softmax => "Softmax"
  | .transpose => "Transpose"

/-- Whether operators of the kind compute something when a program runs. The others only say where
    values enter and leave the graph. -/
def isComputed : Operator.Kind → Bool
  | .constant | .input | .output => false
  | _ => true

theorem mem_all (kind : Operator.Kind) : kind ∈ all := by cases kind <;> decide

end Operator.Kind

end TensorLowering
