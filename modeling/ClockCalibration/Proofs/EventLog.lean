import ClockCalibration.Proofs.FrameRing
import Mathlib.Data.List.Induction
import Mathlib.Tactic.IntervalCases

/-!
# The ring as a log of events

To write the current frame and move on is to note an event.  As long as the index does not wrap
around, a ring of so many slots is a window on the log of all events: it has the frames of the last
events, as many as it has slots, each under the index of its event.

Where the index does wrap around, the window depends on the number of slots.  The slot after the
one of the largest index is that of index zero only if the ring comes round just then, which a ring
of two, four, eight or sixteen slots does and no other.
-/

namespace ClockCalibration.FrameRing

/-! ## Noting events -/

/-- Notes an event. -/
def push (ring : FrameRing) (frame : Frame) : FrameRing :=
  (ring.modifyCurrent fun _ ↦ frame).advance

/-- Notes events in their order. -/
def pushAll (ring : FrameRing) (frames : List Frame) : FrameRing := frames.foldl push ring

section

variable (ring : FrameRing) (frame : Frame) (frames : List Frame)

@[simp] theorem size_push : (ring.push frame).size = ring.size := size_modifyCurrent ring _

@[simp] theorem index_push : (ring.push frame).index = ring.index + 1 := rfl

theorem pushAll_snoc : ring.pushAll (frames ++ [frame]) = (ring.pushAll frames).push frame :=
  List.foldl_append

/-- Only the slot of the current event has another frame afterwards. -/
theorem get_push (index : UInt32) :
    (ring.push frame).get index =
      if ring.slot ring.index = ring.slot index then frame else ring.get index := by
  rw [push, get_advance, modifyCurrent, get_modifySlot]

/-- The index does not wrap around within the events that it can count. -/
theorem seamless_ofNat (size : Nat) {event events : Nat} (few : event + events < 2 ^ 32) :
    Seamless size (.ofNat event) events := by
  have hevent : event < 2 ^ 32 := Nat.lt_of_le_of_lt (Nat.le_add_right event events) few
  exact .inr ((UInt32.toNat_ofNat_of_lt' hevent).symm ▸ few)

/-- The frame before that of the next event is the frame of this one. -/
theorem getBefore_succ {index : UInt32} (seamless : Seamless ring.size index 1) :
    ring.getBefore (index + 1) = ring.get index := by
  simp only [getBefore, slotBefore_succ ring seamless, get]

/-- Two events less than a round apart have slots of their own. -/
theorem slot_ofNat_ne {earlier later : Nat} (hlt : earlier < later)
    (near : later < earlier + ring.size) (few : later < 2 ^ 32) :
    ring.slot (.ofNat earlier) ≠ ring.slot (.ofNat later) := by
  obtain ⟨events, rfl⟩ := Nat.exists_eq_add_of_lt hlt
  rw [Nat.add_assoc] at few ⊢
  rw [UInt32.ofNat_add, ne_comm, Ne, slot_add_eq_iff ring (seamless_ofNat _ few)]
  exact Nat.not_dvd_of_pos_of_lt (Nat.succ_pos events) (by omega)

end

/-! ## What is left of the log -/

/-- What a ring that was empty has of a log: the frames of the last events, and empty frames in
the slots that no event has had yet. -/
structure Logs (ring : FrameRing) (frames : List Frame) : Prop where
  index : ring.index = .ofNat frames.length
  kept : ∀ event (h : event < frames.length), frames.length ≤ event + ring.size →
    ring.get (.ofNat event) = frames[event]
  unused : ∀ slot < ring.size, frames.length ≤ slot → ring.get (.ofNat slot) = .template

section

variable {ring : FrameRing} {frames : List Frame}

/-- A new ring has an empty log. -/
theorem logs_of_ofSize? {size : Nat} (h : ofSize? size = some ring) : ring.Logs [] where
  index := index_of_ofSize? ring h
  kept := nofun
  unused slot _ _ := all_of_ofSize? (P := (· = .template)) h rfl (.ofNat slot)

/-- One more event is noted. -/
theorem Logs.push (h : ring.Logs frames) (few : frames.length < 2 ^ 32) (frame : Frame) :
    (ring.push frame).Logs (frames ++ [frame]) where
  index := by
    rw [index_push, h.index, List.length_append, UInt32.ofNat_add]
    rfl
  kept := by
    intro event hevent recent
    rw [List.length_append, List.length_singleton] at hevent recent
    rw [size_push] at recent
    rw [get_push, h.index]
    rcases Nat.lt_succ_iff_lt_or_eq.mp hevent with earlier | rfl
    · rw [if_neg (ring.slot_ofNat_ne earlier (by omega) few).symm,
        List.getElem_append_left earlier]
      exact h.kept event earlier (by omega)
    · rw [if_pos rfl, List.getElem_concat_length rfl]
  unused := by
    intro slot hslot later
    rw [size_push] at hslot
    rw [List.length_append, List.length_singleton] at later
    have hmax : ring.size ≤ 16 := ring.size_le_sixteen
    rw [get_push, h.index, if_neg (ring.slot_ofNat_ne later (by omega) (by omega))]
    exact h.unused slot hslot (Nat.le_of_succ_le later)

/-- After any number of events the ring still has the log, by induction on the last of them. -/
theorem Logs.pushAll (h : ring.Logs []) (few : frames.length < 2 ^ 32) :
    (ring.pushAll frames).Logs frames ∧ (ring.pushAll frames).size = ring.size := by
  induction frames using List.reverseRecOn with
  | nil => exact ⟨h, rfl⟩
  | append_singleton frames frame ih =>
      rw [List.length_append, List.length_singleton] at few
      obtain ⟨hlogs, hsize⟩ := ih (by omega)
      rw [pushAll_snoc, size_push]
      exact ⟨hlogs.push (by omega) frame, hsize⟩

/-- The frame of the last event is the previous one. -/
theorem Logs.previous (h : ring.Logs frames) (few : frames.length < 2 ^ 32) {event : Nat}
    (hevent : event < frames.length) (last : event + 1 = frames.length) :
    ring.previous = frames[event] := by
  have hindex : ring.index = .ofNat event + 1 := by
    rw [h.index, ← last, UInt32.ofNat_add]
    rfl
  rw [FrameRing.previous, hindex, getBefore_succ ring (seamless_ofNat _ (last ▸ few))]
  have htwo : 2 ≤ ring.size := ring.two_le_size
  exact h.kept event hevent (by omega)

/-- The current frame is that of the event a full round ago. -/
theorem Logs.current (h : ring.Logs frames) (few : frames.length < 2 ^ 32) {event : Nat}
    (hevent : event < frames.length) (round : event + ring.size = frames.length) :
    ring.current = frames[event] := by
  have hslot : ring.slot ring.index = ring.slot (.ofNat event) := by
    rw [h.index, ← round, UInt32.ofNat_add]
    exact (slot_add_eq_iff ring (seamless_ofNat _ (round ▸ few))).mpr (Nat.dvd_refl _)
  have hget : ring.current = ring.get (.ofNat event) := by
    simp only [FrameRing.current, get, hslot]
  exact hget.trans (h.kept event hevent (by omega))

/-- In the first round the current frame is empty. -/
theorem Logs.current_of_lt (h : ring.Logs frames) (first : frames.length < ring.size) :
    ring.current = .template := by
  rw [FrameRing.current, h.index]
  exact h.unused frames.length first (Nat.le_refl _)

end

/-- **The ring is a window on the log of events.**  In a ring that was made with so many slots and
then noted any number of events that the index can count, the index is that number; the frame of
each of the last events, as many as there are slots, is found under its index; the previous frame
is that of the last event; and the current one is that of the event a full round ago, or empty in
the first round.  And whatever a ring of so many slots has in them and whatever its index is, the
current and the previous frame have different slots, and a change of one of them leaves every other
slot alone. -/
theorem window_of_log {size : Nat} (fits : 2 ≤ size ∧ size ≤ 16) :
    (∃ empty, ofSize? size = some empty ∧ ∀ frames : List Frame, frames.length < 2 ^ 32 →
      let ring := empty.pushAll frames
      ring.size = size ∧ ring.index.toNat = frames.length ∧
      (∀ event (h : event < frames.length), frames.length ≤ event + size →
        ring.get (.ofNat event) = frames[event]) ∧
      (∀ event (h : event < frames.length), event + 1 = frames.length →
        ring.previous = frames[event]) ∧
      (∀ event (h : event < frames.length), event + size = frames.length →
        ring.current = frames[event]) ∧
      (frames.length < size → ring.current = .template)) ∧
    ∀ (ring : FrameRing) (change : Frame → Frame), ring.size = size →
      ring.slot ring.index ≠ ring.slotBefore ring.index ∧
      (ring.modifyCurrent change).current = change ring.current ∧
      (∀ slot, slot ≠ ring.slot ring.index →
        (ring.modifyCurrent change).slots[slot]? = ring.slots[slot]?) ∧
      (ring.modifyPrevious change).previous = change ring.previous ∧
      ∀ slot, slot ≠ ring.slotBefore ring.index →
        (ring.modifyPrevious change).slots[slot]? = ring.slots[slot]? := by
  constructor
  · obtain ⟨empty, hempty⟩ := exists_ofSize? fits
    have hsize : empty.size = size := by
      rw [FrameRing.size, slots_of_ofSize? empty hempty, Array.size_replicate]
    refine ⟨empty, hempty, fun frames few ↦ ?_⟩
    obtain ⟨hlogs, hsame⟩ := (logs_of_ofSize? hempty).pushAll few
    rw [hsize] at hsame
    refine ⟨hsame, ?_, ?_, fun event h last ↦ hlogs.previous few h last, ?_, ?_⟩
    · rw [hlogs.index, UInt32.toNat_ofNat_of_lt' few]
    · exact fun event h recent ↦ hlogs.kept event h (hsame.symm ▸ recent)
    · exact fun event h round ↦ hlogs.current few h (hsame.symm ▸ round)
    · exact fun first ↦ hlogs.current_of_lt (hsame.symm ▸ first)
  · rintro ring change rfl
    refine ⟨(ring.slotBefore_ne_slot ring.index).symm, current_modifyCurrent ring change,
      (ring.writes_modifyCurrent rfl).others, previous_modifyPrevious ring change,
      fun slot hslot ↦ ?_⟩
    change (ring.slots.modify (ring.slotBefore ring.index) change)[slot]? = _
    rw [Array.getElem?_modify, if_neg hslot.symm]

/-- Five events in a ring of three slots leave the frames of the last three. -/
theorem window_of_log_of_five_events :
    let frame (time : UInt64) : Frame := { Frame.template with sent := time }
    ∃ empty, ofSize? 3 = some empty ∧
      let ring := empty.pushAll [frame 10, frame 20, frame 30, frame 40, frame 50]
      ring.index = 5 ∧ ring.get 2 = frame 30 ∧ ring.get 3 = frame 40 ∧ ring.get 4 = frame 50 ∧
      ring.previous = frame 50 ∧ ring.current = frame 30 := by
  intro frame
  obtain ⟨⟨empty, hempty, hlog⟩, -⟩ := window_of_log (by decide : 2 ≤ 3 ∧ 3 ≤ 16)
  obtain ⟨-, hindex, hkept, hprevious, hcurrent, -⟩ :=
    hlog [frame 10, frame 20, frame 30, frame 40, frame 50] (by decide)
  exact ⟨empty, hempty, UInt32.toNat_inj.mp hindex, hkept 2 (by decide) (by decide),
    hkept 3 (by decide) (by decide), hkept 4 (by decide) (by decide),
    hprevious 4 (by decide) rfl, hcurrent 2 (by decide) rfl⟩

/-! ## Where the index wraps around -/

section

variable (ring : FrameRing) (index : UInt32)

/-- Which rings come round when the index does. -/
theorem size_dvd_iff : ring.size ∣ 2 ^ 32 ↔ ring.size ∈ [2, 4, 8, 16] := by
  have htwo : 2 ≤ ring.size := ring.two_le_size
  have hmax : ring.size ≤ 16 := ring.size_le_sixteen
  generalize ring.size = size at htwo hmax ⊢
  interval_cases size <;> decide

/-- Moving on is seamless but for a ring that does not come round when the index does. -/
theorem seamless_one_iff :
    Seamless ring.size index 1 ↔ index ≠ 0xffffffff ∨ ring.size ∈ [2, 4, 8, 16] := by
  have hlt : index.toNat < 2 ^ 32 := index.toNat_lt
  have hlargest : index.toNat + 1 < 2 ^ 32 ↔ index ≠ 0xffffffff := by
    rw [Ne, ← UInt32.toNat_inj, show (0xffffffff : UInt32).toNat = 2 ^ 32 - 1 from rfl]
    omega
  rw [Seamless, size_dvd_iff, hlargest, or_comm]

/-- Where moving on is not seamless, the event before the next is looked for in another slot. -/
theorem slotBefore_succ_ne (h : ¬ Seamless ring.size index 1) :
    ring.slotBefore (index + 1) ≠ ring.slot index := by
  rw [seamless_one_iff, not_or, not_ne_iff, ← size_dvd_iff] at h
  obtain ⟨rfl, apart⟩ := h
  have hpos : 0 < ring.size := ring.size_pos
  intro hslot
  -- The last slot belongs to the largest index only if all rounds were full ones.
  have hlast : ring.size - 1 = (2 ^ 32 - 1) % ring.size := (slotBefore_zero ring).symm.trans hslot
  have hmod := Nat.div_add_mod (2 ^ 32 - 1) ring.size
  refine apart ⟨(2 ^ 32 - 1) / ring.size + 1, ?_⟩
  rw [Nat.mul_add]
  omega

/-- What is found there is not what was just written. -/
theorem previous_push_of_ne (apart : ring.slotBefore (ring.index + 1) ≠ ring.slot ring.index)
    (frame : Frame) : (ring.push frame).previous = ring.getBefore (ring.index + 1) := by
  change (ring.modifyCurrent fun _ ↦ frame).getBefore (ring.index + 1) = _
  rw [modifyCurrent, getBefore_modifySlot, if_neg apart.symm]

/-- So the previous frame need not be the one that was current. -/
theorem exists_previous_ne (apart : ring.slotBefore (ring.index + 1) ≠ ring.slot ring.index) :
    ∃ other : FrameRing, other.size = ring.size ∧ other.index = ring.index ∧
      other.advance.previous ≠ other.current := by
  let found := ring.getBefore (ring.index + 1)
  let frame : Frame := { found with sent := found.sent + 1 }
  refine ⟨ring.modifyCurrent fun _ ↦ frame, size_modifyCurrent ring _, rfl, ?_⟩
  rw [current_modifyCurrent]
  intro hsame
  have hfound : found = frame := (previous_push_of_ne ring apart frame).symm.trans hsame
  have hsent : found.sent = found.sent + 1 := congrArg Frame.sent hfound
  simp at hsent

end

/-- **The event before.**  The slot before that of the next index is the slot of an index, unless
this is the largest index and the ring does not have two, four, eight or sixteen slots.  Just so,
moving on makes the current frame the previous one whatever there is in the slots.  Past the largest
index the previous frame is the one in the last slot: that is the slot before index zero, however
the index came to be zero. -/
theorem previous_follows_iff (ring : FrameRing) (index : UInt32) :
    (ring.slotBefore (index + 1) = ring.slot index ↔
      index ≠ 0xffffffff ∨ ring.size ∈ [2, 4, 8, 16]) ∧
    ((∀ other : FrameRing, other.size = ring.size → other.index = index →
        other.advance.previous = other.current) ↔
      index ≠ 0xffffffff ∨ ring.size ∈ [2, 4, 8, 16]) ∧
    ring.slotBefore (0xffffffff + 1) = ring.size - 1 := by
  rw [← seamless_one_iff]
  refine ⟨⟨fun h ↦ ?_, slotBefore_succ ring⟩, ⟨fun h ↦ ?_, ?_⟩, slotBefore_zero ring⟩
  · by_contra unseamless
    exact slotBefore_succ_ne ring index unseamless h
  · by_contra unseamless
    obtain ⟨other, hsize, hindex, hne⟩ :=
      exists_previous_ne { ring with index } (slotBefore_succ_ne ring index unseamless)
    exact hne (h other hsize hindex)
  · intro seamless other hsize hindex
    exact previous_advance other (by rwa [hsize, hindex])

/-- A ring of four slots comes round when the index does. -/
theorem previous_follows_of_four_slots :
    ∃ ring, ofSize? 4 = some ring ∧ ring.slotBefore (0xffffffff + 1) = ring.slot 0xffffffff ∧
      ∀ other : FrameRing, other.size = ring.size → other.index = 0xffffffff →
        other.advance.previous = other.current := by
  obtain ⟨ring, hring⟩ := exists_ofSize? (by decide : 2 ≤ 4 ∧ 4 ≤ 16)
  have hsize : ring.size ∈ [2, 4, 8, 16] := by
    rw [FrameRing.size, slots_of_ofSize? ring hring]
    decide
  obtain ⟨hslot, hprevious, -⟩ := previous_follows_iff ring 0xffffffff
  exact ⟨ring, hring, hslot.mpr (.inr hsize), hprevious.mpr (.inr hsize)⟩

/-- A ring of three does not: the largest index has the first slot, and the slot before that of
the next index, which is zero, is the last. -/
theorem slotBefore_ne_of_largest_index :
    ∃ ring, ofSize? 3 = some ring ∧ ring.slot 0xffffffff = 0 ∧
      ring.slotBefore (0xffffffff + 1) = 2 := by
  obtain ⟨ring, hring⟩ := exists_ofSize? (by decide : 2 ≤ 3 ∧ 3 ≤ 16)
  have hsize : ring.size = 3 := by
    rw [FrameRing.size, slots_of_ofSize? ring hring]
    decide
  refine ⟨ring, hring, ?_, ?_⟩
  · rw [slot, hsize]
    decide
  · rw [slotBefore, slot, hsize]
    decide

end ClockCalibration.FrameRing
