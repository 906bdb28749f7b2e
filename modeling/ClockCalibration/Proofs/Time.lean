import ClockCalibration.Time
import Mathlib.Algebra.Group.Int.Defs
import Mathlib.Algebra.Group.Nat.Defs

/-!
# The arithmetic of device time

Words of device time as numbers.  All of it is arithmetic modulo `2 ^ 40`: the clock
wraps there, and since that divides `2 ^ 64` no overflow of the words is seen.
-/

namespace ClockCalibration

/-- The device clock counts `2 ^ 40` ticks. -/
theorem toNat_timeMax : timeMax.toNat = 2 ^ 40 - 1 := rfl

/-- Truncating a word keeps its value modulo `2 ^ 40`. -/
@[simp] theorem Instant.toNat_truncate (word : UInt64) :
    (Instant.truncate word).ticks.toNat = word.toNat % 2 ^ 40 := by
  rw [truncate, UInt64.toNat_and, toNat_timeMax, Nat.and_two_pow_sub_one_eq_mod]

/-- Truncated words fit the device clock. -/
theorem Instant.truncate_lt (word : UInt64) : (truncate word).ticks.toNat < 2 ^ 40 := by
  rw [toNat_truncate]
  exact Nat.mod_lt _ (by decide)

/-- The time from one reading of the clock to a later one is their difference modulo
`2 ^ 40`. -/
theorem Instant.toNat_since (later earlier : UInt64) :
    (((truncate later).since (truncate earlier)).ticks.toNat : ℤ) =
      ((later.toNat : ℤ) - earlier.toNat) % 2 ^ 40 := by
  have hlater := toNat_truncate later
  have hearlier := toNat_truncate earlier
  have hmax := toNat_timeMax
  unfold since
  split
  · next hle =>
    rw [UInt64.toNat_sub_of_le _ _ hle]
    have := UInt64.le_iff_toNat_le.mp hle
    omega
  · next hlt =>
    have hlt := mt UInt64.le_iff_toNat_le.mpr hlt
    have hgap : earlier.toNat % 2 ^ 40 < 2 ^ 40 := Nat.mod_lt _ (by decide)
    rw [UInt64.toNat_add, UInt64.toNat_add, UInt64.toNat_sub_of_le _ _
      (UInt64.le_iff_toNat_le.mpr (by omega)), UInt64.toNat_one]
    omega

/-- Shifting a period loses none of its bits. -/
theorem toNat_shiftLeft_periodShift (microseconds : UInt32) :
    (microseconds.toUInt64 <<< periodShift).toNat = microseconds.toNat * 2 ^ 15 := by
  have hlt := microseconds.toNat_lt
  have hshift : periodShift.toNat % 64 = 15 := rfl
  rw [UInt64.toNat_shiftLeft, hshift, Nat.shiftLeft_eq, UInt32.toNat_toUInt64,
    Nat.mod_eq_of_lt (by omega : _ < 2 ^ 64)]

/-- Half of a period is that many times `2 ^ 15` ticks, modulo `2 ^ 40`. -/
@[simp] theorem Duration.toNat_ofPeriod (microseconds : UInt32) :
    (Duration.ofPeriod microseconds).ticks.toNat = microseconds.toNat * 2 ^ 15 % 2 ^ 40 := by
  rw [ofPeriod, UInt64.toNat_and, toNat_timeMax, Nat.and_two_pow_sub_one_eq_mod,
    toNat_shiftLeft_periodShift]

/-- Instants are moved on modulo `2 ^ 40`. -/
@[simp] theorem Instant.toNat_add (instant : Instant) (duration : Duration) :
    (instant + duration).ticks.toNat = (instant.ticks.toNat + duration.ticks.toNat) % 2 ^ 40 := by
  change (instant.add duration).ticks.toNat = _
  have hwrap : (timeMax + 1).toNat = 2 ^ 40 := rfl
  rw [add, UInt64.toNat_mod, UInt64.toNat_add, hwrap]
  exact Nat.mod_mod_of_dvd _ (Nat.pow_dvd_pow 2 (by decide))

/-- Instants that are moved on fit the device clock. -/
theorem Instant.add_lt (instant : Instant) (duration : Duration) :
    (instant + duration).ticks.toNat < 2 ^ 40 := by
  rw [toNat_add]
  exact Nat.mod_lt _ (by decide)

end ClockCalibration
