/-!
# Binary floating-point numbers of 32 bits

A `Binary32` is the 32-bit interchange pattern: a sign bit, eight exponent
bits and 23 fraction bits.  Patterns are kept as they come, payloads of
not-a-numbers included, so that reading a frame and writing it again changes
no bit.

A finite pattern stands for the rational `toRat`.  Rounding goes the other
way: `ofRat` is the number nearest to a rational, ties going to the pattern
whose last bit is zero, and a magnitude too large for the format going to
infinity.
-/

namespace ClockCalibration

/-- A binary floating-point number in its 32-bit interchange pattern. -/
structure Binary32 where
  bits : UInt32
  deriving DecidableEq

namespace Binary32

def one : Binary32 := ⟨0x3f800000⟩

/-- The pattern of positive infinity; the patterns below it are the finite
magnitudes in order. -/
def infinityBits : Nat := 0x7f800000

/-- The weight of the sign bit. -/
def signWeight : Nat := 0x80000000

/-- The weight of the lowest exponent bit, which in a significand is that of the
leading one. -/
def exponentWeight : Nat := 0x800000

/-! ## Reading a pattern -/

def isNegative (x : Binary32) : Bool := signWeight ≤ x.bits.toNat

def magnitudeBits (x : Binary32) : Nat := x.bits.toNat % signWeight

def biasedExponent (x : Binary32) : Nat := x.magnitudeBits / exponentWeight

/-- The bits after the binary point. -/
def fraction (x : Binary32) : Nat := x.magnitudeBits % exponentWeight

/-- The integer that counts units in the last place.  Numbers with the biased
exponent zero have no leading one. -/
def significand (x : Binary32) : Nat :=
  if x.biasedExponent = 0 then x.fraction else exponentWeight + x.fraction

/-- The exponent of the unit in the last place. -/
def unitExponent (x : Binary32) : Int := max x.biasedExponent 1 - 150

/-- The magnitude of a finite number. -/
def magnitude (x : Binary32) : Rat := x.significand * (2 : Rat) ^ x.unitExponent

/-- The value of a finite number. -/
def toRat (x : Binary32) : Rat := if x.isNegative then -x.magnitude else x.magnitude

/-! ## Rounding -/

/-- The integer nearest to a rational, a tie going to the even one. -/
def roundHalfEven (q : Rat) : Int :=
  let below := q.floor
  let excess := q - below
  if excess < 1 / 2 then below
  else if 1 / 2 < excess then below + 1
  else if below % 2 = 0 then below
  else below + 1

/-- The exponent of the largest power of two that is at most a positive
rational. -/
def binaryExponent (q : Rat) : Int :=
  let estimate : Int := q.num.natAbs.log2 - q.den.log2
  if (2 : Rat) ^ estimate ≤ q then estimate else estimate - 1

/-- The pattern nearest to a positive rational.

Counting units in the last place from the bottom of the binade makes one sum
serve for all: a significand that rounds up to the next power of two carries
into the exponent, and below the normal numbers the exponent stays zero. -/
def roundMagnitude (q : Rat) : Nat :=
  let unit := max (binaryExponent q - 23) (-149)
  let count := roundHalfEven (q / (2 : Rat) ^ unit)
  min ((unit + 149) * exponentWeight + count).toNat infinityBits

/-- The number nearest to a rational. -/
def ofRat (q : Rat) : Binary32 :=
  if q = 0 then ⟨0⟩
  else if q < 0 then ⟨UInt32.ofNat (signWeight + roundMagnitude (-q))⟩
  else ⟨UInt32.ofNat (roundMagnitude q)⟩

end Binary32

end ClockCalibration
