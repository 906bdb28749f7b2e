import ClockCalibration.FrameRing
import Mathlib.Data.Nat.ModEq

/-!
# Reading the ring of frames

What the current and the previous slot hold after a change.  The two are never the
same slot, so a change of one leaves the other alone, and moving on turns the current
frame into the previous one unless the index wraps around.
-/

namespace ClockCalibration.FrameRing

section

variable (ring : FrameRing) (change : Frame → Frame)

@[simp] theorem index_modifyCurrent : (ring.modifyCurrent change).index = ring.index := rfl

@[simp] theorem index_modifyPrevious : (ring.modifyPrevious change).index = ring.index := rfl

@[simp] theorem size_modifyCurrent : (ring.modifyCurrent change).size = ring.size :=
  size_modifySlot ring _ change

@[simp] theorem size_modifyPrevious : (ring.modifyPrevious change).size = ring.size :=
  size_modifySlot ring _ change

@[simp] theorem slot_modifySlot (slot : Nat) (index : UInt32) :
    (ring.modifySlot slot change).slot index = ring.slot index := by
  rw [FrameRing.slot, size_modifySlot, FrameRing.slot]

@[simp] theorem slotBefore_modifySlot (slot : Nat) (index : UInt32) :
    (ring.modifySlot slot change).slotBefore index = ring.slotBefore index := by
  rw [slotBefore, size_modifySlot, slot_modifySlot, slotBefore]

@[simp] theorem slot_advance (index : UInt32) : ring.advance.slot index = ring.slot index := rfl

@[simp] theorem get_advance (index : UInt32) : ring.advance.get index = ring.get index := rfl

@[simp] theorem get_resetIndex (index : UInt32) : ring.resetIndex.get index = ring.get index := rfl

/-- A new ring counts from zero. -/
theorem index_of_ofSize? {size : Nat} (h : ofSize? size = some ring) : ring.index = 0 := by
  unfold ofSize? at h
  split at h <;> cases h
  rfl

/-- A ring may have from 2 to 16 slots. -/
theorem ofSize?_eq_none_iff {size : Nat} : ofSize? size = none ↔ ¬ (2 ≤ size ∧ size ≤ 16) := by
  unfold ofSize?
  split
  · next h => exact iff_of_false (Option.some_ne_none _) (not_not.mpr h)
  · next h => exact iff_of_true rfl h

theorem exists_ofSize? {size : Nat} (fits : 2 ≤ size ∧ size ≤ 16) :
    ∃ ring, ofSize? size = some ring :=
  ⟨_, dif_pos fits⟩

/-- The slots of a new ring are empty. -/
theorem slots_of_ofSize? {size : Nat} (h : ofSize? size = some ring) :
    ring.slots = Array.replicate size .template := by
  unfold ofSize? at h
  split at h <;> cases h
  rfl

/-- The slot before index zero is the last. -/
theorem slotBefore_zero : ring.slotBefore 0 = ring.size - 1 := by
  have htwo : 2 ≤ ring.size := ring.two_le_size
  have hslot : ring.slot 0 = 0 := Nat.zero_mod _
  rw [slotBefore, hslot, Nat.zero_add, Nat.mod_eq_of_lt (by omega)]

/-- A change of one slot is read where that is the slot of the event. -/
theorem get_modifySlot (slot : Nat) (index : UInt32) :
    (ring.modifySlot slot change).get index =
      if slot = ring.slot index then change (ring.get index) else ring.get index := by
  simp only [get, slot_modifySlot]
  exact Array.getElem_modify _

/-- It is read for the event before where that is its slot. -/
theorem getBefore_modifySlot (slot : Nat) (index : UInt32) :
    (ring.modifySlot slot change).getBefore index =
      if slot = ring.slotBefore index then change (ring.getBefore index)
      else ring.getBefore index := by
  simp only [getBefore, slotBefore_modifySlot]
  exact Array.getElem_modify _

@[simp] theorem current_modifyCurrent :
    (ring.modifyCurrent change).current = change ring.current := by
  rw [modifyCurrent, current, get_modifySlot, index_modifySlot, if_pos rfl, current]

@[simp] theorem previous_modifyCurrent : (ring.modifyCurrent change).previous = ring.previous := by
  rw [modifyCurrent, previous, getBefore_modifySlot, index_modifySlot,
    if_neg (ring.slotBefore_ne_slot ring.index).symm, previous]

@[simp] theorem previous_modifyPrevious :
    (ring.modifyPrevious change).previous = change ring.previous := by
  rw [modifyPrevious, previous, getBefore_modifySlot, index_modifySlot, if_pos rfl, previous]

@[simp] theorem current_modifyPrevious : (ring.modifyPrevious change).current = ring.current := by
  rw [modifyPrevious, current, get_modifySlot, index_modifySlot,
    if_neg (ring.slotBefore_ne_slot ring.index), current]

/-- A ring with another current event and the frame of that event written, all other slots being
as they were. -/
structure Writes (ring : FrameRing) (event : UInt32) (frame : Frame) (later : FrameRing) :
    Prop where
  size : later.size = ring.size
  index : later.index = event
  current : later.current = frame
  others : ∀ slot, slot ≠ ring.slot event → later.slots[slot]? = ring.slots[slot]?

variable {change}

/-- A change of the current frame writes it. -/
theorem writes_modifyCurrent {frame : Frame} (h : change ring.current = frame) :
    ring.Writes ring.index frame (ring.modifyCurrent change) where
  size := size_modifyCurrent ring change
  index := rfl
  current := (current_modifyCurrent ring change).trans h
  others := by
    intro slot hslot
    change (ring.slots.modify (ring.slot ring.index) change)[slot]? = _
    rw [Array.getElem?_modify, if_neg hslot.symm]

/-- So does moving on and changing the frame of the next event. -/
theorem writes_advance {frame : Frame} (h : change (ring.get (ring.index + 1)) = frame) :
    ring.Writes (ring.index + 1) frame (ring.advance.modifyCurrent change) := by
  obtain ⟨hsize, hindex, hcurrent, hothers⟩ := ring.advance.writes_modifyCurrent h
  exact ⟨hsize, hindex, hcurrent, hothers⟩

variable {ring} in
/-- What was written last may be changed again. -/
theorem Writes.modifyCurrent {event : UInt32} {frame : Frame} {later : FrameRing}
    (h : ring.Writes event frame later) (change : Frame → Frame) :
    ring.Writes event (change frame) (later.modifyCurrent change) := by
  refine ⟨(size_modifyCurrent later change).trans h.size, h.index, ?_, fun slot hslot ↦ ?_⟩
  · rw [current_modifyCurrent, h.current]
  · have hother : slot ≠ later.slot later.index := by rwa [FrameRing.slot, h.size, h.index]
    exact ((later.writes_modifyCurrent rfl).others slot hother).trans (h.others slot hslot)

/-- Every frame of the ring is like that. -/
def All (ring : FrameRing) (P : Frame → Prop) : Prop := ∀ index, P (ring.get index)

variable {ring} {P : Frame → Prop}

/-- Moving the index does not matter. -/
theorem All.of_slots {other : FrameRing} (h : ring.All P)
    (same : ∀ index, other.get index = ring.get index) : other.All P :=
  fun index ↦ same index ▸ h index

/-- It is enough that a change of one slot keeps its frame like that. -/
theorem All.modifySlot (h : ring.All P) (slot : Nat) {change : Frame → Frame}
    (hchange : ∀ frame, P frame → P (change frame)) : (ring.modifySlot slot change).All P := by
  intro index
  rw [get_modifySlot]
  split
  · exact hchange _ (h index)
  · exact h index

/-- Every slot is that of an event. -/
theorem All.of_mem (h : ring.All P) {frame : Frame} (hmem : frame ∈ ring.slots) : P frame := by
  obtain ⟨slot, hlt, rfl⟩ := Array.mem_iff_getElem.mp hmem
  have hsmall : slot < 2 ^ 32 := hlt.trans_le (ring.size_le_sixteen.trans (by decide))
  have hslot : ring.slot (.ofNat slot) = slot := by
    rw [FrameRing.slot, UInt32.toNat_ofNat_of_lt' hsmall]
    exact Nat.mod_eq_of_lt hlt
  have hframe := h (.ofNat slot)
  simpa only [get, hslot] using hframe

/-- The frames of a new ring are all the same. -/
theorem all_of_ofSize? {size : Nat} (h : ofSize? size = some ring) (template : P .template) :
    ring.All P := by
  unfold ofSize? at h
  split at h <;> cases h
  intro index
  simpa [get] using template

variable (ring)

/-- Counting so many events on from an index is seamless: the index does not wrap around, or
the ring comes round just when it does. -/
def Seamless (size : Nat) (index : UInt32) (events : Nat) : Prop :=
  size ∣ 2 ^ 32 ∨ index.toNat + events < 2 ^ 32

instance (size : Nat) (index : UInt32) (events : Nat) : Decidable (Seamless size index events) :=
  inferInstanceAs (Decidable (_ ∨ _))

theorem Seamless.mono {size fewer events : Nat} {index : UInt32}
    (h : Seamless size index events) (hle : fewer ≤ events) : Seamless size index fewer :=
  h.imp_right fun hlt ↦ by omega

/-- The slot of the event so many events on. -/
theorem slot_add {index : UInt32} {events : Nat} (seamless : Seamless ring.size index events) :
    ring.slot (index + .ofNat events) = (ring.slot index + events) % ring.size := by
  have hsum : (index + .ofNat events).toNat % ring.size =
      (index.toNat + events) % ring.size := by
    rw [UInt32.toNat_add, UInt32.toNat_ofNat', Nat.add_mod_mod]
    rcases seamless with dvd | few
    · exact Nat.mod_mod_of_dvd _ dvd
    · rw [Nat.mod_eq_of_lt few]
  rw [slot, hsum, slot, Nat.mod_add_mod]

/-- It is the same slot again after full rounds of the ring. -/
theorem slot_add_eq_iff {index : UInt32} {events : Nat}
    (seamless : Seamless ring.size index events) :
    ring.slot (index + .ofNat events) = ring.slot index ↔ ring.size ∣ events := by
  have hlt : ring.slot index < ring.size := ring.slot_lt index
  rw [slot_add ring seamless]
  constructor
  · intro h
    have hmod : ring.slot index + events ≡ ring.slot index + 0 [MOD ring.size] := by
      rw [Nat.ModEq, h, Nat.add_zero, Nat.mod_eq_of_lt hlt]
    exact Nat.modEq_zero_iff_dvd.mp (Nat.ModEq.add_left_cancel' _ hmod)
  · rintro ⟨rounds, rfl⟩
    rw [Nat.add_mul_mod_self_left, Nat.mod_eq_of_lt hlt]

/-- The event after some others has another slot unless it completes a round. -/
theorem slot_succ_ne {index : UInt32} {events : Nat}
    (seamless : Seamless ring.size index (events + 1)) (h : ¬ ring.size ∣ events + 1) :
    ring.slot (index + .ofNat events + 1) ≠ ring.slot index := by
  have hnext : index + .ofNat events + 1 = index + .ofNat (events + 1) := by
    rw [UInt32.ofNat_add, UInt32.add_assoc]
    rfl
  rwa [hnext, Ne, slot_add_eq_iff ring seamless]

/-- A slot is the one before that of an event if that has the next slot. -/
theorem slotBefore_eq_iff {index : UInt32} {slot : Nat} (hslot : slot < ring.size) :
    ring.slotBefore index = slot ↔ ring.slot index = (slot + 1) % ring.size := by
  have hlt : ring.slot index < ring.size := ring.slot_lt index
  rw [slotBefore]
  rcases Nat.eq_zero_or_pos (ring.slot index) with hzero | hpos
  · rw [hzero, Nat.zero_add, Nat.mod_eq_of_lt (by omega)]
    rcases Nat.lt_or_ge (slot + 1) ring.size with hnext | hlast
    · rw [Nat.mod_eq_of_lt hnext]
      omega
    · rw [show slot + 1 = ring.size by omega, Nat.mod_self]
      omega
  · rw [show ring.slot index + ring.size - 1 = ring.slot index - 1 + ring.size by omega,
      Nat.add_mod_right, Nat.mod_eq_of_lt (by omega)]
    rcases Nat.lt_or_ge (slot + 1) ring.size with hnext | hlast
    · rw [Nat.mod_eq_of_lt hnext]
      omega
    · rw [show slot + 1 = ring.size by omega, Nat.mod_self]
      omega

/-- The slot of an event is the one before the current after full rounds and one event more. -/
theorem slotBefore_add_eq_iff {index : UInt32} {events : Nat}
    (seamless : Seamless ring.size index events) :
    ring.slotBefore (index + .ofNat events) = ring.slot index ↔ events % ring.size = 1 := by
  have htwo : 2 ≤ ring.size := ring.two_le_size
  rw [slotBefore_eq_iff ring (ring.slot_lt index), slot_add ring seamless]
  constructor
  · intro h
    have hmod : events ≡ 1 [MOD ring.size] := Nat.ModEq.add_left_cancel' (ring.slot index) h
    rw [hmod, Nat.mod_eq_of_lt htwo]
  · intro h
    rw [Nat.add_mod, h, Nat.mod_add_mod]

/-- The slot before that of the next event is the slot of this one. -/
theorem slotBefore_succ {index : UInt32} (seamless : Seamless ring.size index 1) :
    ring.slotBefore (index + 1) = ring.slot index :=
  (slotBefore_eq_iff ring (ring.slot_lt index)).mpr (ring.slot_add seamless)

/-- The frame before that of an event is the frame of an event. -/
theorem getBefore_eq_get (index : UInt32) :
    ring.getBefore index = ring.get (.ofNat (ring.slotBefore index)) := by
  have hlt : ring.slotBefore index < ring.size := ring.slotBefore_lt index
  have hsmall : ring.slotBefore index < 2 ^ 32 :=
    hlt.trans_le (ring.size_le_sixteen.trans (by decide))
  have hslot : ring.slot (.ofNat (ring.slotBefore index)) = ring.slotBefore index := by
    rw [slot, UInt32.toNat_ofNat_of_lt' hsmall, Nat.mod_eq_of_lt hlt]
  simp only [get, getBefore, hslot]

/-- Moving on makes the current frame the previous one. -/
theorem previous_advance (seamless : Seamless ring.size ring.index 1) :
    ring.advance.previous = ring.current := by
  have hslot : ring.advance.slotBefore (ring.index + 1) = ring.slot ring.index :=
    slotBefore_succ ring seamless
  simp only [previous, getBefore, index_advance, hslot]
  rfl

end

end ClockCalibration.FrameRing
