import ClockCalibration.Proofs.Time
import Mathlib.Data.UInt
import Mathlib.Data.ZMod.Basic
import Mathlib.Tactic.Abel

/-!
# The circle of device time

The clock wraps around in two places that do not look alike: adding a duration takes a remainder,
and the distance of two instants is a difference in two branches.  Seen from outside both are the
arithmetic of residues modulo `2 ^ 40`: `residue` takes sums to sums and distances to differences,
and it loses nothing of what the clock can show.  So the laws of the circle are those of a group,
and `Instant.circular_arithmetic` reads them back.

Words of 64 bits could spoil that by overflowing on the way.  `Instant.add?` and `Instant.since?`
are the same arithmetic with every overflow caught, and where they give a result at all it is that
of `+` and `since`.
-/

namespace ClockCalibration

/-! ## What the clock can show -/

/-- An instant that the device clock can show. -/
def Instant.InRange (instant : Instant) : Prop := instant.ticks ≤ timeMax

/-- A duration between instants that the device clock can show. -/
def Duration.InRange (duration : Duration) : Prop := duration.ticks ≤ timeMax

instance (instant : Instant) : Decidable instant.InRange :=
  inferInstanceAs (Decidable (instant.ticks ≤ timeMax))

instance (duration : Duration) : Decidable duration.InRange :=
  inferInstanceAs (Decidable (duration.ticks ≤ timeMax))

/-- A word is a time of the clock if it has 40 bits. -/
theorem le_timeMax_iff {word : UInt64} : word ≤ timeMax ↔ word.toNat < 2 ^ 40 := by
  rw [UInt64.le_iff_toNat_le, toNat_timeMax]
  omega

theorem Instant.inRange_iff {instant : Instant} :
    instant.InRange ↔ instant.ticks.toNat < 2 ^ 40 := le_timeMax_iff

theorem Duration.inRange_iff {duration : Duration} :
    duration.InRange ↔ duration.ticks.toNat < 2 ^ 40 := le_timeMax_iff

theorem Instant.inRange_truncate (word : UInt64) : (truncate word).InRange :=
  inRange_iff.mpr (truncate_lt word)

/-- A sum is in range whatever its operands are. -/
theorem Instant.inRange_add (instant : Instant) (duration : Duration) :
    (instant + duration).InRange :=
  inRange_iff.mpr (add_lt instant duration)

theorem Duration.inRange_ofPeriod (microseconds : UInt32) : (ofPeriod microseconds).InRange := by
  rw [inRange_iff, toNat_ofPeriod]
  exact Nat.mod_lt _ (by decide)

/-- Nothing is cut off of an instant in range. -/
theorem Instant.InRange.truncate_eq {instant : Instant} (h : instant.InRange) :
    Instant.truncate instant.ticks = instant := by
  have hticks : (Instant.truncate instant.ticks).ticks = instant.ticks := by
    rw [← UInt64.toNat_inj, toNat_truncate, Nat.mod_eq_of_lt (inRange_iff.mp h)]
  exact congrArg Instant.mk hticks

/-- The distance of two instants in range is their difference modulo `2 ^ 40`. -/
theorem Instant.InRange.toNat_since {later earlier : Instant} (hlater : later.InRange)
    (hearlier : earlier.InRange) : ((later.since earlier).ticks.toNat : ℤ) =
      ((later.ticks.toNat : ℤ) - earlier.ticks.toNat) % 2 ^ 40 := by
  have h := Instant.toNat_since later.ticks earlier.ticks
  rwa [hlater.truncate_eq, hearlier.truncate_eq] at h

/-- So it is in range. -/
theorem Instant.InRange.since {later earlier : Instant} (hlater : later.InRange)
    (hearlier : earlier.InRange) : (later.since earlier).InRange := by
  have h := hlater.toNat_since hearlier
  rw [Duration.inRange_iff]
  omega

/-! ## Residues -/

/-- An instant as a point of the circle. -/
def Instant.residue (instant : Instant) : ZMod (2 ^ 40) := instant.ticks.toNat

/-- A duration as a turn of the circle. -/
def Duration.residue (duration : Duration) : ZMod (2 ^ 40) := duration.ticks.toNat

/-- Adding a duration turns the circle. -/
@[simp] theorem Instant.residue_add (instant : Instant) (duration : Duration) :
    (instant + duration).residue = instant.residue + duration.residue := by
  rw [residue, toNat_add, ZMod.natCast_mod, Nat.cast_add]
  rfl

/-- The distance is the turn from one instant to the other. -/
theorem Instant.InRange.residue_since {later earlier : Instant} (hlater : later.InRange)
    (hearlier : earlier.InRange) :
    (later.since earlier).residue = later.residue - earlier.residue := by
  have h := congrArg (Int.cast : ℤ → ZMod (2 ^ 40)) (hlater.toNat_since hearlier)
  have hmod := ZMod.intCast_mod ((later.ticks.toNat : ℤ) - earlier.ticks.toNat) (2 ^ 40)
  push_cast at h hmod
  exact h.trans hmod

/-- Words in range that have one residue are equal. -/
theorem eq_of_natCast_eq {word other : UInt64} (hword : word ≤ timeMax) (hother : other ≤ timeMax)
    (h : (word.toNat : ZMod (2 ^ 40)) = other.toNat) : word = other := by
  rw [ZMod.natCast_eq_natCast_iff', Nat.mod_eq_of_lt (le_timeMax_iff.mp hword),
    Nat.mod_eq_of_lt (le_timeMax_iff.mp hother)] at h
  exact UInt64.toNat_inj.mp h

theorem Instant.InRange.eq_of_residue {instant other : Instant} (h : instant.InRange)
    (hother : other.InRange) (residue : instant.residue = other.residue) : instant = other :=
  congrArg Instant.mk (eq_of_natCast_eq h hother residue)

theorem Duration.InRange.eq_of_residue {duration other : Duration} (h : duration.InRange)
    (hother : other.InRange) (residue : duration.residue = other.residue) : duration = other :=
  congrArg Duration.mk (eq_of_natCast_eq h hother residue)

/-! ## Arithmetic that does not overflow -/

/-- The sum of two words, unless it overflows. -/
def sum? (left right : UInt64) : Option UInt64 :=
  if left.toNat + right.toNat < 2 ^ 64 then some (left + right) else none

/-- The difference of two words, unless it is negative. -/
def difference? (left right : UInt64) : Option UInt64 :=
  if right ≤ left then some (left - right) else none

variable {left right : UInt64}

theorem sum?_of_lt (h : left.toNat + right.toNat < 2 ^ 64) : sum? left right = some (left + right) :=
  if_pos h

theorem difference?_of_le (h : right ≤ left) : difference? left right = some (left - right) :=
  if_pos h

theorem difference?_of_not_le (h : ¬ right ≤ left) : difference? left right = none := if_neg h

namespace Instant

/-- The instant a duration after another one, unless a word overflows on the way. -/
def add? (instant : Instant) (duration : Duration) : Option Instant := do
  let sum ← sum? instant.ticks duration.ticks
  let modulus ← sum? timeMax 1
  return ⟨sum % modulus⟩

/-- The time from `earlier` to `later`, unless a word overflows on the way. -/
def since? (later earlier : Instant) : Option Duration :=
  if earlier.ticks ≤ later.ticks then
    Duration.mk <$> difference? later.ticks earlier.ticks
  else do
    let gap ← difference? timeMax earlier.ticks
    let wrapped ← sum? gap later.ticks
    return ⟨← sum? wrapped 1⟩

/-- Nothing overflows when a duration in range is added to an instant in range. -/
theorem InRange.add?_eq {instant : Instant} {duration : Duration} (h : instant.InRange)
    (hduration : duration.InRange) : instant.add? duration = some (instant + duration) := by
  have hticks := inRange_iff.mp h
  have hturn := Duration.inRange_iff.mp hduration
  rw [add?, sum?_of_lt (by omega)]
  rfl

/-- The distance to an earlier instant is found without overflow just if nothing is subtracted from
less than itself: either the numbers tell the order of the two, or the earlier one is in range. -/
theorem since?_eq (later earlier : Instant) : later.since? earlier =
    if earlier.ticks ≤ later.ticks ∨ earlier.InRange then some (later.since earlier) else none := by
  unfold since? since
  by_cases hle : earlier.ticks ≤ later.ticks
  · rw [if_pos hle, if_pos hle, if_pos (.inl hle), difference?_of_le hle]
    rfl
  · rw [if_neg hle, if_neg hle]
    by_cases hrange : earlier.InRange
    · have hticks := inRange_iff.mp hrange
      have hlt := mt UInt64.le_iff_toNat_le.mpr hle
      have hgap := UInt64.toNat_sub_of_le _ _ hrange
      rw [toNat_timeMax] at hgap
      have hwrapped := UInt64.toNat_add (timeMax - earlier.ticks) later.ticks
      rw [if_pos (.inr hrange), difference?_of_le hrange, Option.bind_eq_bind, Option.bind_some,
        sum?_of_lt (by omega), Option.bind_some, sum?_of_lt (by rw [UInt64.toNat_one]; omega)]
      rfl
    · rw [if_neg (not_or.mpr ⟨hle, hrange⟩), difference?_of_not_le hrange]
      rfl

/-! ## The laws of the circle -/

variable {a b c : Instant} {d e : Duration}

/-- **The arithmetic of device time is circular.**  For all instants and durations in range: a
duration that is added is the distance to where it leads; the distance that is added leads to the
instant that it was taken to; durations may be added in any order, and two of them are as good as
their sum modulo `2 ^ 40`; and distances add up modulo `2 ^ 40`.  Sums and distances are in range
again, and on the way to them no word overflows. -/
theorem circular_arithmetic (ha : a.InRange) (hb : b.InRange) (hc : c.InRange)
    (hd : d.InRange) :
    (a + d).since a = d ∧
    a + b.since a = b ∧
    a + d + e = a + e + d ∧
    a + d + e = a + (⟨.ofNat ((d.ticks.toNat + e.ticks.toNat) % 2 ^ 40)⟩ : Duration) ∧
    ((a.since b).ticks.toNat + (b.since c).ticks.toNat) % 2 ^ 40 = (a.since c).ticks.toNat ∧
    (∀ (instant : Instant) (duration : Duration), instant.InRange → duration.InRange →
      instant.add? duration = some (instant + duration) ∧ (instant + duration).InRange) ∧
    ∀ later earlier : Instant, later.InRange → earlier.InRange →
      later.since? earlier = some (later.since earlier) ∧ (later.since earlier).InRange := by
  have hsum := inRange_add a d
  refine ⟨?_, ?_, ?_, ?_, ?_, fun instant duration h hduration ↦ ?_,
    fun later earlier hlater hearlier ↦ ?_⟩
  · apply (hsum.since ha).eq_of_residue hd
    rw [hsum.residue_since ha, residue_add]
    abel
  · apply (inRange_add _ _).eq_of_residue hb
    rw [residue_add, hb.residue_since ha]
    abel
  · apply (inRange_add _ _).eq_of_residue (inRange_add _ _)
    simp only [residue_add]
    abel
  · apply (inRange_add _ _).eq_of_residue (inRange_add _ _)
    have hlt : (d.ticks.toNat + e.ticks.toNat) % 2 ^ 40 < 2 ^ 64 := by omega
    simp only [residue_add, Duration.residue]
    rw [UInt64.toNat_ofNat_of_lt' hlt, ZMod.natCast_mod, Nat.cast_add, add_assoc]
  · have hrange := Duration.inRange_iff.mp (ha.since hc)
    have hresidue : ((a.since b).residue + (b.since c).residue) = (a.since c).residue := by
      rw [ha.residue_since hb, hb.residue_since hc, ha.residue_since hc]
      abel
    simp only [Duration.residue, ← Nat.cast_add] at hresidue
    rw [ZMod.natCast_eq_natCast_iff', Nat.mod_eq_of_lt hrange] at hresidue
    exact hresidue
  · exact ⟨h.add?_eq hduration, inRange_add instant duration⟩
  · refine ⟨?_, hlater.since hearlier⟩
    rw [since?_eq, if_pos (.inr hearlier)]

/-- The laws past the wrap: twenty ticks lead from the last ten ticks of the clock to its tenth, and
the sum of two turns that is longer than a round is cut off. -/
theorem circular_arithmetic_past_wrap :
    let a : Instant := ⟨timeMax - 9⟩
    let b : Instant := ⟨5⟩
    let c : Instant := ⟨2 ^ 39⟩
    let d : Duration := ⟨20⟩
    let e : Duration := ⟨timeMax⟩
    a + d = ⟨10⟩ ∧ (a + d).since a = d ∧
    b.since a = ⟨15⟩ ∧ a + b.since a = b ∧
    a + d + e = a + e + d ∧ a + d + e = a + (⟨19⟩ : Duration) ∧
    ((a.since b).ticks.toNat + (b.since c).ticks.toNat) % 2 ^ 40 = (a.since c).ticks.toNat ∧
    a.add? d = some ⟨10⟩ ∧ b.since? a = some ⟨15⟩ := by
  intro a b c d e
  have ha : a.InRange := by decide
  have hb : b.InRange := by decide
  have hc : c.InRange := by decide
  have hd : d.InRange := by decide
  obtain ⟨hback, hthere, hcomm, hsum, hgaps, hadd, hsince⟩ :=
    circular_arithmetic (a := a) (b := b) (c := c) (d := d) (e := e) ha hb hc hd
  have htenth : a + d = ⟨10⟩ := by decide +kernel
  have hfifteen : b.since a = ⟨15⟩ := by decide +kernel
  have hturn : (⟨.ofNat ((d.ticks.toNat + e.ticks.toNat) % 2 ^ 40)⟩ : Duration) = ⟨19⟩ := by
    decide +kernel
  rw [hturn] at hsum
  refine ⟨htenth, hback, hfifteen, hthere, hcomm, hsum, hgaps, ?_, ?_⟩
  · rw [(hadd a d ha hd).1, htenth]
  · rw [(hsince b a hb ha).1, hfifteen]

end Instant

end ClockCalibration
