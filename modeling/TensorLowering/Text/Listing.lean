set_option autoImplicit false

/-! # Listings

Messages show a list between brackets, its items separated by a comma and a blank: `[2, 3]`, `[]`.
-/

namespace TensorLowering

/-- The listing of items that are already text. -/
def listing (items : List String) : String :=
  "[" ++ ", ".intercalate items ++ "]"

/-- The listing of the decimal texts of some numbers. -/
def listingOfNats (ns : List Nat) : String :=
  listing (ns.map Nat.repr)

/-- The decimal text of an integer, with a sign if it is negative. -/
def decimal : Int → String
  | .ofNat n => n.repr
  | .negSucc n => "-" ++ (n + 1).repr

end TensorLowering
