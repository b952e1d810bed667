set_option autoImplicit false

/-! # Arithmetic faults

Sizes, offsets and loop bounds live in 64-bit words. An operation whose exact result has no word, a
division by zero or an index past the end of a list is a *fault*: it abandons the whole computation,
whatever it was part of. A fault is not an error about the input that the caller can report and
carry on from, so it has a type of its own and never mixes with the error causes of the library. -/

namespace TensorLowering

/-- The operations on words that can leave the range of a word. -/
inductive WordOperation where
  | add
  | sub
  | mul
  | div
  | neg
deriving DecidableEq, Repr

/-- The verb by which a fault message names the operation. -/
def WordOperation.verb : WordOperation → String
  | .add => "add"
  | .sub => "subtract"
  | .mul => "multiply"
  | .div => "divide"
  | .neg => "negate"

/-- Why a computation was abandoned. -/
inductive Fault where
  /-- The exact result of the operation does not fit the word. -/
  | overflow (operation : WordOperation)
  /-- A quotient by zero was asked for. -/
  | divisionByZero
  /-- A remainder by zero was asked for. -/
  | remainderByZero
  /-- A list of `length` entries was read at `index`, which is past its end. -/
  | indexOutOfBounds (length index : Nat)
  /-- A value was clamped to an interval whose lower end exceeds its upper end. -/
  | emptyClamp
  /-- An identifier was asked for beyond the last one. -/
  | idOverflow
  /-- A rule outside the library gave up with a text of its own. -/
  | other (text : String)
deriving DecidableEq, Repr

/-- The text of a fault. -/
def Fault.message : Fault → String
  | .overflow operation => s!"attempt to {operation.verb} with overflow"
  | .divisionByZero => "attempt to divide by zero"
  | .remainderByZero => "attempt to calculate the remainder with a divisor of zero"
  | .indexOutOfBounds length index =>
      s!"index out of bounds: the len is {length} but the index is {index}"
  | .emptyClamp => "assertion failed: min <= max"
  | .idOverflow => "ID overflow"
  | .other text => text

/-- Whether a computation was abandoned since an exact result did not fit the word. -/
def Fault.IsOverflow (t : Fault) : Prop := ∃ operation, t = .overflow operation

/-- A computation on words: its value, or the fault that abandoned it. -/
abbrev Checked (α : Type) := Except Fault α

end TensorLowering
