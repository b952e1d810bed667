import TensorLowering.Shape.Layout

set_option autoImplicit false

/-! # Broadcasting

Two shapes broadcast to a third by matching dimensions from the right. Dimensions match if they are
equal or one of them is one, and the missing dimensions of the shorter shape count as ones. An
element of the result takes part of each operand the element whose indices are those of the result,
where an axis of size one has the index zero throughout (`operandCoordinate`). -/

namespace TensorLowering

namespace Shape

/-- The dimension that two dimensions broadcast to. -/
def broadcastDim (m n : Nat) : Option Nat :=
  if m = n then some m
  else if m = 1 then some n
  else if n = 1 then some m
  else none

/-- The dimensions that two lists of dimensions, innermost first, broadcast to. -/
def broadcastInnermost : List Nat → List Nat → Option (List Nat)
  | [], ns => some ns
  | ms, [] => some ms
  | m :: ms, n :: ns => do
      let d ← broadcastDim m n
      let ds ← broadcastInnermost ms ns
      return d :: ds

/-- The shape that two shapes broadcast to, if they do. -/
def broadcast (a b : Shape) : Option Shape :=
  (broadcastInnermost a.reverse b.reverse).map List.reverse

/-- The coordinate of the element of an operand that belongs to an element of the result. -/
def operandCoordinate (operand : Shape) (coordinate : Coordinate) : Coordinate :=
  List.zipWith (fun d i => if d = 1 then 0 else i) operand
    (coordinate.drop (coordinate.length - operand.length))

theorem length_operandCoordinate {operand : Shape} {coordinate : Coordinate}
    (h : operand.length ≤ coordinate.length) :
    (operand.operandCoordinate coordinate).length = operand.length := by
  rw [operandCoordinate, List.length_zipWith, List.length_drop, Nat.sub_sub_self h, Nat.min_self]

/-! ## Pairs of dimensions -/

theorem broadcastDim_comm (m n : Nat) : broadcastDim m n = broadcastDim n m := by
  unfold broadcastDim
  split <;> split <;> simp_all [eq_comm]

@[simp] theorem broadcastDim_self (n : Nat) : broadcastDim n n = some n := by simp [broadcastDim]

@[simp] theorem broadcastDim_one_left (n : Nat) : broadcastDim 1 n = some n := by
  unfold broadcastDim; split <;> simp_all

@[simp] theorem broadcastDim_one_right (n : Nat) : broadcastDim n 1 = some n := by
  rw [broadcastDim_comm, broadcastDim_one_left]

/-- Dimensions match if they are equal or one of them is one; the result is the one that counts. -/
theorem broadcastDim_eq_some {m n d : Nat} :
    broadcastDim m n = some d ↔ (m = d ∨ m = 1) ∧ (n = d ∨ n = 1) ∧ (d = m ∨ d = n) := by
  unfold broadcastDim
  split
  · simp; omega
  · split
    · simp; omega
    · split <;> simp <;> omega

/-! ## Shapes -/

@[simp] theorem broadcastInnermost_nil_left (ns : List Nat) :
    broadcastInnermost [] ns = some ns := by
  cases ns <;> rfl

@[simp] theorem broadcastInnermost_nil_right (ms : List Nat) :
    broadcastInnermost ms [] = some ms := by
  cases ms <;> rfl

theorem broadcastInnermost_cons (m n : Nat) (ms ns : List Nat) :
    broadcastInnermost (m :: ms) (n :: ns) =
      (broadcastDim m n).bind fun d => (broadcastInnermost ms ns).map (d :: ·) := by
  cases hd : broadcastDim m n <;> cases hs : broadcastInnermost ms ns <;>
    simp [broadcastInnermost, hd, hs]

theorem broadcastInnermost_comm (ms ns : List Nat) :
    broadcastInnermost ms ns = broadcastInnermost ns ms := by
  induction ms generalizing ns with
  | nil => simp
  | cons m ms ih => cases ns with
    | nil => simp
    | cons n ns => rw [broadcastInnermost_cons, broadcastInnermost_cons, broadcastDim_comm, ih]

theorem broadcast_comm (a b : Shape) : a.broadcast b = b.broadcast a := by
  rw [broadcast, broadcastInnermost_comm, broadcast]

/-- The empty shape broadcasts to anything. -/
theorem broadcast_nil_left (shape : Shape) : broadcast [] shape = some shape := by
  simp [broadcast]

end Shape

end TensorLowering
