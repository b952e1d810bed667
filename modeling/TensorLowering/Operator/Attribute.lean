import TensorLowering.Binary32.Basic

set_option autoImplicit false

/-! # Operator attributes

The settings that operators carry besides the values they read and write. All of them pass into
records unchanged once a rule has checked them. -/

namespace TensorLowering

/-- What an elementwise operator computes from two elements. -/
inductive BinaryFunction where
  | add
  | sub
  | mul
  | div
  | min
  | max
deriving DecidableEq, Repr

/-- How a reduction or a pooling window combines elements. -/
inductive Reduction where
  | mean
  | min
  | max
  | sum
deriving DecidableEq, Repr

/-- The value from which a reduction usually starts. -/
def Reduction.initial : Reduction → Binary32
  | .mean | .sum => .zero
  | .min => .largest
  | .max => .least

/-- A clamping that the interpreter applies to results without an instruction of its own. -/
inductive Activation where
  | linear
  | relu
  | relu6
  | clamp (low high : Binary32)
deriving BEq, Repr

/-- The ends of the interval that an activation clamps to. -/
def Activation.interval : Activation → Binary32 × Binary32
  | .linear => (.negInfinity, .infinity)
  | .relu => (.zero, .infinity)
  | .relu6 => (.zero, .six)
  | .clamp low high => (low, high)

/-- Padding before and after one spatial axis. A negative amount crops. -/
structure Padding where
  before : Int32
  after : Int32
deriving DecidableEq, Repr

namespace Padding

/-- No padding. -/
def none : Padding := { before := 0, after := 0 }

/-- The same amount on both sides. -/
def symmetric (amount : Int32) : Padding := { before := amount, after := amount }

/-- The change in size of the padded axis. -/
def total (padding : Padding) : Int := padding.before.toInt + padding.after.toInt

/-- Padding changes a size by less than two words of 32 bits can count. -/
theorem total_bounds (padding : Padding) :
    -0x100000000 ≤ padding.total ∧ padding.total < 0x100000000 := by
  have hbefore := padding.before.le_toInt
  have hbefore' := padding.before.toInt_lt
  have hafter := padding.after.le_toInt
  have hafter' := padding.after.toInt_lt
  unfold total
  omega

end Padding

/-- The parameters of an affine quantization: a quantized `q` stands for `(q - zeroPoint) *
    scale`. -/
structure Quantization where
  zeroPoint : Int32
  scale : Binary32
deriving BEq, Repr

/-! ## Spatial axes -/

/-- The two axes of an image. -/
inductive SpatialAxis where
  | height
  | width
deriving DecidableEq, Repr

/-- One thing for each of the two axes of an image. -/
structure Spatial (α : Type) where
  height : α
  width : α
deriving DecidableEq, Repr

namespace Spatial

variable {α β : Type}

/-- The entry of an axis. -/
def get (pair : Spatial α) : SpatialAxis → α
  | .height => pair.height
  | .width => pair.width

/-- The pair whose entries a computation makes, height first. -/
def ofM {m : Type → Type} [Monad m] (make : SpatialAxis → m α) : m (Spatial α) := do
  let height ← make .height
  let width ← make .width
  return { height, width }

end Spatial

end TensorLowering
