import TensorLowering.Text.Listing

set_option autoImplicit false

/-! # Tables of test cases

A check is run on every case of a table, also after one has failed, and all failing cases are
reported together. -/

namespace TensorLowering

/-- The cases of a table that failed a check. -/
structure FailedCases (α : Type) where
  cases : List α
deriving DecidableEq, Repr

/-- Run a check on every case. -/
def checkCases {α : Type} (check : α → Bool) (table : List α) : Except (FailedCases α) Unit :=
  match table.filter fun case => !check case with
  | [] => .ok ()
  | failed => .error { cases := failed }

/-- The report of the failing cases, each shown by `text`. -/
def FailedCases.message {α : Type} (text : α → String) (failed : FailedCases α) : String :=
  failed.cases.length.repr ++ " test cases failed: " ++ listing (failed.cases.map text)

/-- A table passes exactly when each of its cases does. -/
theorem checkCases_eq_ok {α : Type} {check : α → Bool} {table : List α} :
    checkCases check table = .ok () ↔ ∀ case ∈ table, check case = true := by
  unfold checkCases
  split
  · next h => simpa [List.filter_eq_nil_iff] using h
  · next h =>
      simp only [reduceCtorEq, false_iff]
      intro hall
      exact h (by simpa [List.filter_eq_nil_iff] using hall)

end TensorLowering
