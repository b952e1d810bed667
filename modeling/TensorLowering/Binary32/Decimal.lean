import TensorLowering.Binary32.Basic

set_option autoImplicit false

/-! # Decimal text of floating-point numbers

A finite number is written with the fewest decimal digits that still read back as the number, in
positional notation and never with an exponent. Of several such texts the one nearest to the number
is taken, and the upper one where two are equally near.

Everything is exact arithmetic on natural numbers. Magnitudes are measured in quarters of the least
positive number, 2^-151, the coarsest unit in which every number and both ends of the interval of
reals that round to it are whole. -/

namespace TensorLowering

namespace Binary32

/-- The whole numbers, in units of 2^-151, between which a real rounds to a given number, and
    whether the two ends do as well. -/
structure Rounding where
  value : Nat
  low : Nat
  high : Nat
  closed : Bool
deriving DecidableEq, Repr

/-- The rounding interval of a finite magnitude. The gap below a power of two is half the gap above
    it, except where the exponent field is already at its least. A real half way between two numbers
    rounds to the one with an even fraction. -/
def rounding (magnitude : Nat) : Rounding :=
  let exponentField := magnitude / 0x800000
  let fraction := magnitude % 0x800000
  let significand := if exponentField = 0 then fraction else fraction + 0x800000
  let unit := 1 <<< (exponentField - 1)
  let gapBelow := if fraction = 0 ∧ 1 < exponentField then unit else 2 * unit
  { value := 4 * significand * unit
    low := 4 * significand * unit - gapBelow
    high := 4 * significand * unit + 2 * unit
    closed := significand % 2 = 0 }

/-- Whether a real, given as `numerator / denominator` of the unit, rounds to the number. -/
def Rounding.Holds (r : Rounding) (numerator denominator : Nat) : Prop :=
  if r.closed then
    r.low * denominator ≤ numerator ∧ numerator ≤ r.high * denominator
  else r.low * denominator < numerator ∧ numerator < r.high * denominator

instance (r : Rounding) (n d : Nat) : Decidable (r.Holds n d) := by
  unfold Rounding.Holds; infer_instance

/-- The multiple of `step / scale` nearest to the number among those that round to it, if one of the
    number's two neighbours on that grid does. -/
def Rounding.nearest? (r : Rounding) (step scale : Nat) : Option Nat :=
  let below := r.value * scale / step
  let above := below + 1
  if r.Holds (below * step) scale then
    if r.Holds (above * step) scale ∧
        above * step - r.value * scale ≤ r.value * scale - below * step then
      some above
    else some below
  else if r.Holds (above * step) scale then some above
  else none

/-- The decimal digits of a number: `coefficient * 10 ^ exponent`. -/
structure Digits where
  coefficient : Nat
  exponent : Int
deriving DecidableEq, Repr

/-- The unit in which intervals are measured is this part of one. -/
def unitsPerOne : Nat := 1 <<< 151

/-- The power of ten with an exponent, or one if the exponent is negative. -/
def powerOfTen (exponent : Int) : Nat := Nat.pow 10 exponent.toNat

/-- The shortest digits among the grids `10 ^ exponent`, `10 ^ (exponent - 1)`, and so on for
    `grids` of them. -/
def Rounding.shortest? (r : Rounding) : Nat → Int → Option Digits
  | 0, _ => none
  | grids + 1, exponent =>
      match r.nearest? (powerOfTen exponent * unitsPerOne) (powerOfTen (-exponent)) with
      | some coefficient => some { coefficient, exponent }
      | none => r.shortest? grids (exponent - 1)

/-- The shortest digits of a finite magnitude other than zero. The coarsest grid that can matter is
    that of 10^38, and at the finest, 10^-54, every number is told from its neighbours. -/
def shortestDigits (magnitude : Nat) : Digits :=
  ((rounding magnitude).shortest? 93 38).getD { coefficient := 0, exponent := 0 }

/-- The digits in positional notation, without a point if the number is whole. -/
def Digits.positional (digits : Digits) : String :=
  let figures := digits.coefficient.repr
  if 0 ≤ digits.exponent then
    figures ++ String.ofList (List.replicate digits.exponent.toNat '0')
  else
    let places := (-digits.exponent).toNat
    let padded := List.replicate (places + 1 - figures.length) '0' ++ figures.toList
    let whole := padded.length - places
    String.ofList (padded.take whole) ++ "." ++ String.ofList (padded.drop whole)

/-- The text of a number. A NaN shows no sign. -/
def text (x : Binary32) : String :=
  if x.isNaN then "NaN"
  else
    let sign := if x.isNegative then "-" else ""
    if x.magnitude = infiniteMagnitude then sign ++ "inf"
    else if x.magnitude = 0 then sign ++ "0"
    else sign ++ (shortestDigits x.magnitude).positional

/-- The neighbour that is chosen reads back as the number. -/
theorem Rounding.holds_of_nearest? {r : Rounding} {step scale c : Nat}
    (h : r.nearest? step scale = some c) : r.Holds (c * step) scale := by
  unfold Rounding.nearest? at h
  simp only at h
  split at h
  · split at h
    · next hb ha => cases h; exact ha.1
    · next hb ha => cases h; exact hb
  · split at h
    · next ha => cases h; exact ha
    · cases h

/-- The digits that are found read back as the number. -/
theorem Rounding.holds_of_shortest? {r : Rounding} {grids : Nat} {exponent : Int} {d : Digits}
    (h : r.shortest? grids exponent = some d) :
    r.Holds (d.coefficient * (powerOfTen d.exponent * unitsPerOne)) (powerOfTen (-d.exponent)) := by
  induction grids generalizing exponent with
  | zero => cases h
  | succ grids ih =>
      unfold Rounding.shortest? at h
      split at h
      · next hc => cases h; exact holds_of_nearest? hc
      · exact ih h

end Binary32

end TensorLowering
