import ClockCalibration.Proofs.Clock
import ClockCalibration.Proofs.Wire.Buffer

/-!
# Where times come from

An instant or a duration is made from a number, from a period, from bytes, or from other instants
and durations.  `Obtainable` is all that can be had in this way, composed in any way, if the bytes
have to pass a filter.

All makers but one see to it that the clock can show what they make: `ofTicks?` refuses, `truncate`
and `ofPeriod` cut off, and `+` takes a remainder.  Reading takes the word as it is.  So the range
of all that is obtainable is a matter of the filter alone, and without one there are instants that
the clock cannot show, to which the distance is not found without an overflow.
-/

namespace ClockCalibration

/-! ## Makers -/

mutual

/-- The instants that are obtainable if only accepted bytes are read. -/
inductive Instant.Obtainable (accepted : Bytes → Prop) : Instant → Prop
  | /-- A number that is not refused is an instant. -/
    ofTicks? {word : UInt64} {instant : Instant} (h : Instant.ofTicks? word = some instant) :
      Instant.Obtainable accepted instant
  | /-- The low bits of a word are an instant. -/
    truncate (word : UInt64) : Instant.Obtainable accepted (.truncate word)
  | /-- Instants are read from bytes. -/
    decode {bytes : Bytes} {instant : Instant} {used : Nat} (permitted : accepted bytes)
      (h : Wire.decode bytes = .ok (instant, used)) : Instant.Obtainable accepted instant
  | /-- A duration leads from an instant to another one. -/
    add {instant : Instant} {duration : Duration} (h : Instant.Obtainable accepted instant)
      (hduration : Duration.Obtainable accepted duration) :
      Instant.Obtainable accepted (instant + duration)

/-- The durations that are obtainable if only accepted bytes are read. -/
inductive Duration.Obtainable (accepted : Bytes → Prop) : Duration → Prop
  | /-- A number that is not refused is a duration. -/
    ofTicks? {word : UInt64} {duration : Duration} (h : Duration.ofTicks? word = some duration) :
      Duration.Obtainable accepted duration
  | /-- Half of a period is a duration. -/
    ofPeriod (microseconds : UInt32) : Duration.Obtainable accepted (.ofPeriod microseconds)
  | /-- Durations are read from bytes. -/
    decode {bytes : Bytes} {duration : Duration} {used : Nat} (permitted : accepted bytes)
      (h : Wire.decode bytes = .ok (duration, used)) : Duration.Obtainable accepted duration
  | /-- The distance of two instants is a duration. -/
    since {later earlier : Instant} (hlater : Instant.Obtainable accepted later)
      (hearlier : Instant.Obtainable accepted earlier) :
      Duration.Obtainable accepted (later.since earlier)

end

/-- What is not refused is in range. -/
theorem Instant.inRange_of_ofTicks? {word : UInt64} {instant : Instant}
    (h : ofTicks? word = some instant) : instant.InRange := by
  obtain ⟨hle, hinstant⟩ := Option.ite_none_right_eq_some.mp h
  cases hinstant
  exact hle

theorem Duration.inRange_of_ofTicks? {word : UInt64} {duration : Duration}
    (h : ofTicks? word = some duration) : duration.InRange := by
  obtain ⟨hle, hduration⟩ := Option.ite_none_right_eq_some.mp h
  cases hduration
  exact hle

/-! ## Reading -/

namespace Wire

/-- Bytes do not begin with a word that is too large for the clock. -/
def Fits (bytes : Bytes) : Prop :=
  ∀ word : UInt64, littleEndian 8 word.toNat <+: bytes → word ≤ timeMax

/-- An instant is read just from bytes that begin with its word. -/
theorem decode_instant_iff {bytes : Bytes} {instant : Instant} {used : Nat} :
    decode bytes = .ok (instant, used) ↔
      littleEndian 8 instant.ticks.toNat <+: bytes ∧ used = 8 := by
  have hencode : encode instant = littleEndian 8 instant.ticks.toNat := List.append_nil _
  rw [decode_eq_ok_iff (Reader.takes_u64.map _), hencode]
  rfl

/-- So is a duration. -/
theorem decode_duration_iff {bytes : Bytes} {duration : Duration} {used : Nat} :
    decode bytes = .ok (duration, used) ↔
      littleEndian 8 duration.ticks.toNat <+: bytes ∧ used = 8 := by
  have hencode : encode duration = littleEndian 8 duration.ticks.toNat := List.append_nil _
  rw [decode_eq_ok_iff (Reader.takes_u64.map _), hencode]
  rfl

end Wire

open Wire (Fits decode_instant_iff decode_duration_iff)

/-! ## Range -/

variable {accepted : Bytes → Prop}

/-- An instant that the clock cannot show has been read. -/
theorem Instant.Obtainable.decode_of_not_inRange {instant : Instant}
    (h : instant.Obtainable accepted) (hrange : ¬ instant.InRange) :
    ∃ bytes, accepted bytes ∧ Wire.decode bytes = .ok (instant, 8) := by
  cases h with
  | ofTicks? h => exact absurd (inRange_of_ofTicks? h) hrange
  | truncate word => exact absurd (inRange_truncate word) hrange
  | decode permitted h =>
      obtain ⟨-, rfl⟩ := decode_instant_iff.mp h
      exact ⟨_, permitted, h⟩
  | add h hduration => exact absurd (inRange_add _ _) hrange

/-- A duration that the clock cannot show has been read, or an instant that it is the distance to
or from has been. -/
theorem Duration.Obtainable.decode_of_not_inRange {duration : Duration}
    (h : duration.Obtainable accepted) (hrange : ¬ duration.InRange) :
    (∃ bytes, accepted bytes ∧ Wire.decode bytes = .ok (duration, 8)) ∨
      ∃ later earlier : Instant, later.Obtainable accepted ∧ earlier.Obtainable accepted ∧
        ¬ (later.InRange ∧ earlier.InRange) ∧ duration = later.since earlier := by
  cases h with
  | ofTicks? h => exact absurd (inRange_of_ofTicks? h) hrange
  | ofPeriod microseconds => exact absurd (inRange_ofPeriod microseconds) hrange
  | decode permitted h =>
      obtain ⟨-, rfl⟩ := decode_duration_iff.mp h
      exact .inl ⟨_, permitted, h⟩
  | since hlater hearlier =>
      refine .inr ⟨_, _, hlater, hearlier, ?_, rfl⟩
      rintro ⟨hl, he⟩
      exact hrange (hl.since he)

/-- If accepted bytes fit the clock, it can show all instants. -/
theorem Instant.Obtainable.inRange (sound : ∀ bytes, accepted bytes → Fits bytes)
    {instant : Instant} (h : instant.Obtainable accepted) : instant.InRange := by
  by_contra hrange
  obtain ⟨bytes, permitted, hdecode⟩ := h.decode_of_not_inRange hrange
  exact hrange (sound bytes permitted _ (decode_instant_iff.mp hdecode).1)

theorem Duration.Obtainable.inRange (sound : ∀ bytes, accepted bytes → Fits bytes)
    {duration : Duration} (h : duration.Obtainable accepted) : duration.InRange := by
  by_contra hrange
  rcases h.decode_of_not_inRange hrange with
    ⟨bytes, permitted, hdecode⟩ | ⟨later, earlier, hlater, hearlier, hnot, -⟩
  · exact hrange (sound bytes permitted _ (decode_duration_iff.mp hdecode).1)
  · exact hnot ⟨hlater.inRange sound, hearlier.inRange sound⟩

/-- **What is obtainable is in range just if what is read is.**  Whatever bytes are accepted: the
clock can show all instants that are obtainable, it can show all durations, and all distances are
found without an overflow, each of these just if no accepted bytes begin with a word that is too
large.  An instant that the clock cannot show can only have been read; a duration that it cannot
show has been read, or is a distance to or from such an instant. -/
theorem obtainable_in_range_iff (accepted : Bytes → Prop) :
    let sound := ∀ bytes, accepted bytes → Fits bytes
    ((∀ instant : Instant, instant.Obtainable accepted → instant.InRange) ↔ sound) ∧
    ((∀ duration : Duration, duration.Obtainable accepted → duration.InRange) ↔ sound) ∧
    ((∀ later earlier : Instant, later.Obtainable accepted → earlier.Obtainable accepted →
      later.since? earlier = some (later.since earlier)) ↔ sound) ∧
    (∀ instant : Instant, instant.Obtainable accepted → ¬ instant.InRange →
      ∃ bytes, accepted bytes ∧ Wire.decode bytes = .ok (instant, 8)) ∧
    ∀ duration : Duration, duration.Obtainable accepted → ¬ duration.InRange →
      (∃ bytes, accepted bytes ∧ Wire.decode bytes = .ok (duration, 8)) ∨
      ∃ later earlier : Instant, later.Obtainable accepted ∧ earlier.Obtainable accepted ∧
        ¬ (later.InRange ∧ earlier.InRange) ∧ duration = later.since earlier := by
  intro sound
  refine ⟨⟨?_, ?_⟩, ⟨?_, ?_⟩, ⟨?_, ?_⟩, ?_, ?_⟩
  · intro h bytes permitted word hword
    exact h ⟨word⟩ (.decode permitted (decode_instant_iff.mpr ⟨hword, rfl⟩))
  · intro h instant hinstant
    exact hinstant.inRange h
  · intro h bytes permitted word hword
    exact h ⟨word⟩ (.decode permitted (decode_duration_iff.mpr ⟨hword, rfl⟩))
  · intro h duration hduration
    exact hduration.inRange h
  · -- The distance from such a word to zero is not found.
    intro h bytes permitted word hword
    by_contra hlarge
    have hsince := h (.truncate 0) ⟨word⟩ (.truncate 0)
      (.decode permitted (decode_instant_iff.mpr ⟨hword, rfl⟩))
    rw [Instant.since?_eq] at hsince
    split at hsince
    · next hfound =>
      rcases hfound with hle | hrange
      · exact hlarge (UInt64.le_trans hle (by decide))
      · exact hlarge hrange
    · cases hsince
  · intro h later earlier hlater hearlier
    rw [Instant.since?_eq, if_pos (.inr (hearlier.inRange h))]
  · intro instant hinstant hrange
    exact hinstant.decode_of_not_inRange hrange
  · intro duration hduration hrange
    exact hduration.decode_of_not_inRange hrange

/-- Without a filter, an instant is read that the clock cannot show, and the distance to it from
the beginning of time overflows. -/
theorem obtainable_out_of_range :
    ∃ instant : Instant, Wire.decode [0, 0, 0, 0, 0, 1, 0, 0] = .ok (instant, 8) ∧
      instant.Obtainable (fun _ ↦ True) ∧ ¬ instant.InRange ∧
      (Instant.truncate 0).since? instant = none := by
  have hdecode : Wire.decode [0, 0, 0, 0, 0, 1, 0, 0] = .ok ((⟨2 ^ 40⟩ : Instant), 8) := rfl
  exact ⟨⟨2 ^ 40⟩, hdecode, .decode trivial hdecode, by decide, by decide⟩

end ClockCalibration
