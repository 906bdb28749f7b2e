/-!
# Little-endian numbers

Numbers travel as bytes with the least significant one first, on the air as
well as on the register bus.  `littleEndian width` keeps the low `width` bytes
of a number and `ofLittleEndian` reads bytes of any number back.
-/

namespace ClockCalibration

/-- A run of bytes, in the order in which they are sent. -/
abbrev Bytes := List UInt8

namespace Wire

/-- The low `width` bytes of a number, least significant byte first. -/
def littleEndian : (width : Nat) → Nat → Bytes
  | 0, _ => []
  | width + 1, n => UInt8.ofNat n :: littleEndian width (n / 256)

/-- The number that bytes stand for, least significant byte first. -/
def ofLittleEndian : Bytes → Nat
  | [] => 0
  | byte :: rest => byte.toNat + 256 * ofLittleEndian rest

@[simp]
theorem length_littleEndian (width n : Nat) : (littleEndian width n).length = width := by
  induction width generalizing n with
  | zero => rfl
  | succ width ih => simp [littleEndian, ih]

end Wire

end ClockCalibration
