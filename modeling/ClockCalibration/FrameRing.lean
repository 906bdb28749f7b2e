import ClockCalibration.Frame
/-!
# The ring of frames

Every frame that is sent or received occupies one slot of a ring.  Events are
numbered by a 32-bit index, and the slot of an event is its index modulo the
number of slots, so that with two slots or more an event and the one before it
never share a slot.

The index wraps around at `2 ^ 32`, which need not be a multiple of the number
of slots.
-/

namespace ClockCalibration

/-- A ring of 2 to 16 frames addressed by a wrapping event index. -/
structure FrameRing where
  slots : Array Frame
  index : UInt32
  /-- Two neighbouring events have slots of their own. -/
  two_le_size : 2 ≤ slots.size
  size_le_sixteen : slots.size ≤ 16

namespace FrameRing

def minSize : Nat := 2

def maxSize : Nat := 16

/-- A ring of empty frames, provided that it may have so many slots. -/
def ofSize? (size : Nat) : Option FrameRing :=
  if h : minSize ≤ size ∧ size ≤ maxSize then
    some
      { slots := Array.replicate size .template
        index := 0
        two_le_size := by rw [Array.size_replicate]; exact h.1
        size_le_sixteen := by rw [Array.size_replicate]; exact h.2 }
  else none

def size (ring : FrameRing) : Nat := ring.slots.size

theorem size_pos (ring : FrameRing) : 0 < ring.size :=
  Nat.lt_of_lt_of_le Nat.zero_lt_two ring.two_le_size

/-! ## Addressing -/

/-- The slot of the event with a given index. -/
def slot (ring : FrameRing) (index : UInt32) : Nat := index.toNat % ring.size

/-- The slot of the event before the one with a given index.  Before index
zero this is the last slot. -/
def slotBefore (ring : FrameRing) (index : UInt32) : Nat :=
  (ring.slot index + ring.size - 1) % ring.size

theorem slot_lt (ring : FrameRing) (index : UInt32) : ring.slot index < ring.slots.size :=
  Nat.mod_lt _ ring.size_pos

theorem slotBefore_lt (ring : FrameRing) (index : UInt32) :
    ring.slotBefore index < ring.slots.size :=
  Nat.mod_lt _ ring.size_pos

/-- The slots of an event and of the one before it differ at every index. -/
theorem slotBefore_ne_slot (ring : FrameRing) (index : UInt32) :
    ring.slotBefore index ≠ ring.slot index := by
  have hlt : ring.slot index < ring.size := ring.slot_lt index
  have htwo : 2 ≤ ring.size := ring.two_le_size
  unfold slotBefore
  by_cases hzero : ring.slot index = 0
  · rw [hzero, Nat.mod_eq_of_lt (by omega)]
    omega
  · rw [show ring.slot index + ring.size - 1 = ring.slot index - 1 + ring.size by omega,
      Nat.add_mod_right, Nat.mod_eq_of_lt (by omega)]
    omega

def get (ring : FrameRing) (index : UInt32) : Frame :=
  have := ring.slot_lt index
  ring.slots[ring.slot index]

/-- The frame of the event before the one with a given index. -/
def getBefore (ring : FrameRing) (index : UInt32) : Frame :=
  have := ring.slotBefore_lt index
  ring.slots[ring.slotBefore index]

def current (ring : FrameRing) : Frame := ring.get ring.index

/-- The frame of the event before the current one. -/
def previous (ring : FrameRing) : Frame := ring.getBefore ring.index

/-! ## Changes -/

def modifySlot (ring : FrameRing) (slot : Nat) (change : Frame → Frame) : FrameRing where
  slots := ring.slots.modify slot change
  index := ring.index
  two_le_size := by simpa using ring.two_le_size
  size_le_sixteen := by simpa using ring.size_le_sixteen

/-- Changes the frame of the current event. -/
def modifyCurrent (ring : FrameRing) (change : Frame → Frame) : FrameRing :=
  ring.modifySlot (ring.slot ring.index) change

/-- Changes the frame of the event before the current one. -/
def modifyPrevious (ring : FrameRing) (change : Frame → Frame) : FrameRing :=
  ring.modifySlot (ring.slotBefore ring.index) change

/-- Moves on to the next event. -/
def advance (ring : FrameRing) : FrameRing := { ring with index := ring.index + 1 }

/-- Starts counting events anew.  The frames stay where they are. -/
def resetIndex (ring : FrameRing) : FrameRing := { ring with index := 0 }

/-! ## Small laws -/

@[simp]
theorem size_modifySlot (ring : FrameRing) (slot : Nat) (change : Frame → Frame) :
    (ring.modifySlot slot change).size = ring.size := by
  simp [modifySlot, size]

@[simp]
theorem index_modifySlot (ring : FrameRing) (slot : Nat) (change : Frame → Frame) :
    (ring.modifySlot slot change).index = ring.index := rfl

@[simp]
theorem size_advance (ring : FrameRing) : ring.advance.size = ring.size := rfl

@[simp]
theorem index_advance (ring : FrameRing) : ring.advance.index = ring.index + 1 := rfl

@[simp]
theorem slots_advance (ring : FrameRing) : ring.advance.slots = ring.slots := rfl

@[simp]
theorem size_resetIndex (ring : FrameRing) : ring.resetIndex.size = ring.size := rfl

@[simp]
theorem index_resetIndex (ring : FrameRing) : ring.resetIndex.index = 0 := rfl

@[simp]
theorem slots_resetIndex (ring : FrameRing) : ring.resetIndex.slots = ring.slots := rfl

end FrameRing

end ClockCalibration
