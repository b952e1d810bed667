import TensorLowering.Shape.Layout

set_option autoImplicit false

/-! # Concatenation along an axis

Parts that lie side by side along an axis split the indices of that axis into intervals, one for
each part. `locate?` finds the part whose interval holds an index, and the place of the index within
it. -/

namespace TensorLowering

/-- An index within one of several parts. -/
structure PartIndex where
  part : Nat
  index : Nat
deriving DecidableEq, Repr

/-- The part and the index within it at a place along parts of the given sizes. -/
def locate? : List Nat → Nat → Option PartIndex
  | [], _ => none
  | size :: sizes, place =>
      if place < size then some { part := 0, index := place }
      else (locate? sizes (place - size)).map fun found => { found with part := found.part + 1 }

/-- The whole holds the parts side by side along an axis: each of its elements is the element of the
    part whose interval holds the index along the axis, at the index within that interval. -/
def StoredTensor.IsConcatenation {α : Type} {width : Nat} (whole : StoredTensor α width)
    (axis : Nat) (parts : List (StoredTensor α width)) : Prop :=
  ∀ coordinate, whole.shape.Contains coordinate →
    ∃ found part,
      locate? (parts.map fun part => part.shape.getD axis 0) (coordinate.getD axis 0) =
        some found ∧
      parts[found.part]? = some part ∧ part.shape.Contains (coordinate.set axis found.index) ∧
      ∀ index < width,
        whole.item? coordinate index = part.item? (coordinate.set axis found.index) index

end TensorLowering
