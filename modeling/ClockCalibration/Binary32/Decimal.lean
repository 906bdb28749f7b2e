import ClockCalibration.Binary32.Basic
/-!
# The shortest decimal of a binary number

A finite number is written with the fewest significant digits that still read
back as the same number.  The decimals that read back are those in the
interval of rationals that round to the number; its ends belong to it exactly
if the significand is even.

The search goes from coarse powers of ten to fine ones and stops at the first
of which a multiple lies in the interval.  If any multiple does, one of the two
around the number does, and of two such the nearer is taken, a tie going to the
larger.

The text is always positional and ends in no needless zero: `1`, `0.99994045`,
`-0`, never an exponent.
-/

namespace ClockCalibration

/-- The number `digits * 10 ^ exponent`. -/
structure Decimal where
  digits : Nat
  exponent : Int
  deriving DecidableEq

namespace Decimal

def toRat (d : Decimal) : Rat := d.digits * (10 : Rat) ^ d.exponent

/-- The positional text of a decimal. -/
def text (d : Decimal) : String :=
  let digits := Nat.toDigits 10 d.digits
  if 0 ≤ d.exponent then
    String.ofList (digits ++ List.replicate d.exponent.toNat '0')
  else
    let places := (-d.exponent).toNat
    let padded := List.replicate (places + 1 - digits.length) '0' ++ digits
    let whole := padded.length - places
    String.ofList (padded.take whole ++ '.' :: padded.drop whole)

end Decimal

namespace Binary32

/-- Half of the distance to the number above, which is the distance from a
number to the upper end of its interval. -/
def reachAbove (x : Binary32) : Rat := (2 : Rat) ^ (x.unitExponent - 1)

/-- Half of the distance to the number below, which is smaller at the bottom
of a binade. -/
def reachBelow (x : Binary32) : Rat :=
  if x.fraction = 0 ∧ 1 < x.biasedExponent then
    (2 : Rat) ^ (x.unitExponent - 2)
  else
    (2 : Rat) ^ (x.unitExponent - 1)

/-- Whether a positive rational rounds to the magnitude of a number. -/
def attracts (x : Binary32) (q : Rat) : Bool :=
  let lower := x.magnitude - x.reachBelow
  let upper := x.magnitude + x.reachAbove
  if x.significand % 2 = 0 then
    lower ≤ q && q ≤ upper
  else
    lower < q && q < upper

/-- The multiple of `10 ^ exponent` that is nearest to a magnitude among those
that read back as it. -/
def decimalAt? (x : Binary32) (exponent : Int) : Option Decimal :=
  let scaled := x.magnitude / (10 : Rat) ^ exponent
  let below : Decimal := ⟨scaled.floor.toNat, exponent⟩
  let above : Decimal := ⟨scaled.floor.toNat + 1, exponent⟩
  match x.attracts below.toRat, x.attracts above.toRat with
  | false, false => none
  | true, false => some below
  | false, true => some above
  | true, true =>
    if above.toRat - x.magnitude ≤ x.magnitude - below.toRat then some above else some below

/-- The powers of ten on which a finite magnitude can have its shortest
decimal, coarse ones first: the largest finite number is below `10 ^ 39`, and
`10 ^ (-45)` is smaller than the smallest positive one. -/
def decimalExponents : List Int := (List.range 84).map fun (k : Nat) ↦ 38 - (k : Int)

/-- The shortest decimal that reads back as the magnitude of a finite number. -/
def shortestDecimal (x : Binary32) : Decimal :=
  if x.significand = 0 then ⟨0, 0⟩
  else (decimalExponents.findSome? x.decimalAt?).getD ⟨0, 0⟩

def magnitudeText (x : Binary32) : String :=
  if x.magnitudeBits = infinityBits then "inf" else x.shortestDecimal.text

/-- The text of a number.  Patterns above infinity are not numbers and have no
sign. -/
def text (x : Binary32) : String :=
  if infinityBits < x.magnitudeBits then "NaN"
  else if x.isNegative then "-" ++ x.magnitudeText
  else x.magnitudeText

end Binary32

end ClockCalibration
