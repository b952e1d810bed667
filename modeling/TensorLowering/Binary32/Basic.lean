set_option autoImplicit false

/-! # Binary floating-point numbers of 32 bits

A number is its bit pattern: sign, eight bits of exponent, twenty-three of fraction. Lowering copies
numbers and compares them but never computes with them, so the type keeps every pattern apart (both
zeros, all payloads of a NaN) while `==` and `<` are the numeric comparisons, under which a NaN
equals nothing, itself included, and the two zeros are equal. -/

namespace TensorLowering

/-- A number, given by its bit pattern. -/
structure Binary32 where
  bits : UInt32
deriving DecidableEq, Repr, Inhabited

namespace Binary32

/-- Whether the sign bit is set. -/
def isNegative (x : Binary32) : Bool := 0x80000000 ≤ x.bits.toNat

/-- The pattern without its sign bit. Patterns of numbers are ordered by magnitude. -/
def magnitude (x : Binary32) : Nat := x.bits.toNat % 0x80000000

/-- The magnitude of the infinities; those above it are of no number. -/
def infiniteMagnitude : Nat := 0x7f800000

/-- Whether the pattern denotes no number. -/
def isNaN (x : Binary32) : Bool := infiniteMagnitude < x.magnitude

/-- The place of a number in the numeric order; both zeros have place zero. -/
def place (x : Binary32) : Int :=
  if x.isNegative then -(x.magnitude : Int) else x.magnitude

/-- Numeric equality. -/
instance : BEq Binary32 where
  beq x y := !x.isNaN && !y.isNaN && x.place == y.place

/-- Numeric order. -/
instance : LT Binary32 where
  lt x y := x.isNaN = false ∧ y.isNaN = false ∧ x.place < y.place

instance (x y : Binary32) : Decidable (x < y) := inferInstanceAs (Decidable (_ ∧ _))

/-- Zero. -/
def zero : Binary32 := ⟨0x00000000⟩

/-- Six. -/
def six : Binary32 := ⟨0x40c00000⟩

/-- Positive infinity. -/
def infinity : Binary32 := ⟨0x7f800000⟩

/-- Negative infinity. -/
def negInfinity : Binary32 := ⟨0xff800000⟩

/-- The largest finite number. -/
def largest : Binary32 := ⟨0x7f7fffff⟩

/-- The least finite number. -/
def least : Binary32 := ⟨0xff7fffff⟩

/-- Numeric equality of numbers is equality of their places. -/
theorem beq_iff {x y : Binary32} :
    (x == y) = true ↔ x.isNaN = false ∧ y.isNaN = false ∧ x.place = y.place := by
  simp [BEq.beq, and_assoc]

/-- A number equals itself exactly when it is one. -/
theorem beq_self {x : Binary32} : (x == x) = !x.isNaN := by
  cases h : x.isNaN <;> simp [BEq.beq, h]

end Binary32

end TensorLowering
