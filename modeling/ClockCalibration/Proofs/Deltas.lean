import ClockCalibration.Proofs.Numbering
import ClockCalibration.Proofs.Wire.Layout
import ClockCalibration.Radio.Scripted

/-!
# The gaps that records tell

A record tells how long its frame came after the one in the slot before, by the time stamps of
its own direction.  That slot belongs to the event before, which may be of the other direction;
its time stamp is then that of whichever frame of this direction was last written to the slot.
And a rejected blink moves the time of sending in the slot before on, so that the blink that
finally goes out is always told to come two epochs after it.

`Preceded` tells which frame is found in the slot before, and by how many epochs it was moved
on: there `World.record_deltas` says of every record that is built before anything else happens
whether it tells the gap to that frame.
-/

namespace ClockCalibration

open Relation (ReflTransGen)

variable {ρ ε : Type}

/-! ## Time stamps -/

namespace Direction

/-- What is passed when a frame of a direction is put into the ring. -/
def stamp : Direction → Landmark
  | rx => .received
  | tx => .attempted

/-- What changes the time stamps of a direction. -/
def Touches : Direction → Landmark → Prop
  | rx, landmark => landmark = .received
  | tx, .began _ | tx, .attempted | tx, .rejected => True
  | tx, _ => False

/-- That is that a frame is put into the ring, that a blink is rejected, or that the schedule
begins. -/
theorem Touches.eq {direction : Direction} {landmark : Landmark} (h : direction.Touches landmark) :
    landmark = direction.stamp ∨ landmark = .rejected ∨ ∃ time, landmark = .began time := by
  cases direction with
  | rx => exact .inl h
  | tx =>
      cases landmark with
      | attempted => exact .inl rfl
      | rejected => exact .inr (.inl rfl)
      | began time => exact .inr (.inr ⟨time, rfl⟩)
      | _ => exact h.elim

end Direction

/-- What does not touch the time stamps of a direction leaves them in their slots. -/
theorem Move.timestamp {node : Node} {calibration later : Calibration}
    {landmark : Option Landmark} (move : Move node calibration landmark later)
    {direction : Direction} (untouched : ∀ other ∈ landmark, ¬ direction.Touches other)
    (index : UInt32) : direction.timestamp (later.ring.get index) =
      direction.timestamp (calibration.ring.get index) := by
  cases move with
  | manage _ _ ring => rw [ring]
  | time | release | accept | complete | close => rfl
  | restart _ time =>
      cases direction with
      | tx => exact absurd trivial (untouched _ rfl)
      | rx =>
          rw [Calibration.restart, FrameRing.modifyPrevious, FrameRing.get_modifySlot]
          split <;> rfl
  | prepare =>
      cases direction with
      | tx => exact absurd trivial (untouched _ rfl)
      | rx =>
          rw [Calibration.prepare, FrameRing.modifyCurrent, FrameRing.get_modifySlot]
          split <;> rfl
  | reject =>
      cases direction with
      | tx => exact absurd trivial (untouched _ rfl)
      | rx =>
          rw [Calibration.reject, FrameRing.modifyPrevious, FrameRing.get_modifySlot]
          split <;> rfl
  | receive =>
      cases direction with
      | rx => exact absurd rfl (untouched _ rfl)
      | tx =>
          rw [Calibration.receive, FrameRing.modifyCurrent, FrameRing.get_modifySlot]
          split <;> rfl
  | correct =>
      rw [Calibration.correct, FrameRing.modifyCurrent, FrameRing.get_modifySlot]
      cases direction <;> split <;> rfl

namespace World

variable {allowed : Operation → Prop} {start world : World ρ ε}

/-- Nor do steps that pass nothing that does. -/
theorem timestamp_of_steps (steps : ReflTransGen (Step allowed) start world)
    {calibration : Calibration} (present : start.node.calibration = some calibration)
    {added : List (Entry ε)} (history : world.history = start.history ++ added)
    {direction : Direction}
    (untouched : ∀ landmark ∈ landmarks added, ¬ direction.Touches landmark) :
    ∃ later, world.node.calibration = some later ∧ later.config = calibration.config ∧
      later.ring.size = calibration.ring.size ∧ ∀ index,
        direction.timestamp (later.ring.get index) =
          direction.timestamp (calibration.ring.get index) := by
  obtain ⟨later, hlater, hsame⟩ := instance_invariant steps
    (P := fun _ later ↦ ∀ index, direction.timestamp (later.ring.get index) =
      direction.timestamp (calibration.ring.get index))
    (Q := fun landmark ↦ ¬ direction.Touches landmark) present (fun _ ↦ rfl)
    (fun _ _ h move hpasses index ↦ (move.timestamp hpasses index).trans (h index))
    history untouched
  obtain ⟨_, hpresent, hconfig, hsize⟩ := present_of_steps steps present
  cases hlater.symm.trans hpresent
  exact ⟨later, hlater, hconfig, hsize, hsame⟩

end World

/-! ## Times of reception -/

@[simp] theorem events_filter_attempted (course : List Landmark) :
    events (course.filter (· ≠ .attempted)) = events course := by
  simp [events, List.count_filter]

/-- What an instance has left of the time of a reception under an index, after what was passed
since. -/
structure Calibration.Stores (calibration : Calibration) (received : UInt64) (index : UInt32)
    (course : List Landmark) : Prop where
  /-- Every event moved the index on. -/
  counted : calibration.ring.index = index + .ofNat (events course)
  /-- Only another reception writes over the time of one. -/
  received : FrameRing.Seamless calibration.ring.size index (events course) →
    Spared calibration.ring.size 0 (course.filter (· ≠ .attempted)) →
    (calibration.ring.get index).received = received

/-- A move that is not a start keeps what is left of the time of a reception. -/
theorem Calibration.Stores.move {calibration later : Calibration} {received : UInt64}
    {index : UInt32} {course : List Landmark} (h : calibration.Stores received index course)
    {node : Node} {landmark : Option Landmark} (move : Move node calibration landmark later)
    (hbegan : ∀ time, landmark ≠ some (.began time)) :
    later.Stores received index (course ++ landmark.toList) := by
  have hindex := Calibration.index_move move hbegan
  have hsize := Calibration.size_move move
  refine ⟨?_, fun seamless spared ↦ ?_⟩
  · rw [hindex, h.counted, events_append, UInt32.ofNat_add, UInt32.add_assoc]
  · rw [hsize, events_append] at seamless
    rw [hsize, List.filter_append, Spared.append_iff, Nat.zero_add, events_filter_attempted]
      at spared
    have hbefore := h.received (seamless.mono (Nat.le_add_right _ _)) spared.1
    by_cases hreceived : landmark = some .received
    · subst hreceived
      cases move with
      | receive calm header time =>
          have hother := calibration.ring.slot_succ_ne seamless spared.2.1
          rw [← h.counted] at hother
          rw [Calibration.receive]
          simp only [FrameRing.modifyCurrent, FrameRing.get_modifySlot, FrameRing.index_advance,
            FrameRing.slot_advance, hother, if_false, FrameRing.get_advance]
          exact hbefore
      | manage idle => rcases idle with h | h <;> cases h
    · have huntouched : Direction.rx.timestamp (later.ring.get index) =
          Direction.rx.timestamp (calibration.ring.get index) := by
        apply move.timestamp
        rintro _ rfl rfl
        exact hreceived rfl
      exact huntouched.trans hbefore

/-- After full rounds of the ring it is in the current slot. -/
theorem Calibration.Stores.current {calibration : Calibration} {received : UInt64}
    {index : UInt32} {course : List Landmark} (h : calibration.Stores received index course)
    (seamless : FrameRing.Seamless calibration.ring.size index (events course))
    (rounds : calibration.ring.size ∣ events course)
    (spared : Spared calibration.ring.size 0 (course.filter (· ≠ .attempted))) :
    calibration.ring.current.received = received := by
  have hslot : calibration.ring.slot calibration.ring.index = calibration.ring.slot index := by
    rw [h.counted]
    exact (calibration.ring.slot_add_eq_iff seamless).mpr rounds
  have hcurrent : calibration.ring.current = calibration.ring.get index := by
    simp only [FrameRing.current, FrameRing.get, hslot]
  rw [hcurrent]
  exact h.received seamless spared

/-! ## The slot before -/

/-- After full rounds of the ring and one event more a frame is in the slot before the current,
with its time of sending moved on by rejections. -/
theorem Calibration.Kept.previous {calibration : Calibration} {written : Frame} {index : UInt32}
    {course : List Landmark} (h : calibration.Kept written index course)
    (seamless : FrameRing.Seamless calibration.ring.size index (events course))
    (next : events course % calibration.ring.size = 1)
    (spared : Spared calibration.ring.size 0 course) :
    calibration.ring.previous.sent.toNat % 2 ^ 40 = (written.sent.toNat +
      deferrals calibration.ring.size 0 course *
        (calibration.config.period.toNat * 2 ^ 15)) % 2 ^ 40 := by
  have hslot : calibration.ring.slotBefore calibration.ring.index =
      calibration.ring.slot index := by
    rw [h.counted]
    exact (calibration.ring.slotBefore_add_eq_iff seamless).mpr next
  have hprevious : calibration.ring.previous = calibration.ring.get index := by
    simp only [FrameRing.previous, FrameRing.getBefore, FrameRing.get, hslot]
  obtain ⟨-, -, hsent⟩ := h.frame seamless spared
  rwa [hprevious]

/-- The frame that a frame of a direction has in the slot before its own, if it is put into the
ring next: a reception moves the index on first. -/
def Calibration.neighbour (calibration : Calibration) : Direction → Frame
  | .rx => calibration.ring.current
  | .tx => calibration.ring.previous

/-- A frame of a direction that comes next finds this time of an earlier one in the slot before
its own, moved on by so many epochs.  What came in between, if it was of the other direction or
more than one frame, came in full rounds of the ring.  The system time at which the schedule
began is the time of a frame that was sent. -/
inductive World.Preceded (size : Nat) (history : List (Entry ε)) : Direction → Nat → Nat → Prop
  | /-- A frame was received. -/
    received {past middle : List (Entry ε)} {phase : Option Phase} {time : UInt64}
      {transfers : List Bus.Transfer}
      (split : history =
        past ++ ⟨phase, .exchange .readReceptionTime ⟨.ok time, transfers⟩⟩ :: middle)
      (steady : ∀ time, .began time ∉ landmarks middle) (rounds : size ∣ events (landmarks middle))
      (spared : Spared size 0 ((landmarks middle).filter (· ≠ .attempted))) :
      Preceded size history .rx time.toNat 0
  | /-- A blink was attempted. -/
    attempted {past middle : List (Entry ε)} {phase : Option Phase} {frame : Frame}
      {offset : UInt16} {reply : Reply ε (.writeTransmitBuffer (Wire.encode frame) offset)}
      (split : history = past ++
        ⟨phase, .exchange (.writeTransmitBuffer (Wire.encode frame) offset) reply⟩ :: middle)
      (steady : ∀ time, .began time ∉ landmarks middle)
      (next : events (landmarks middle) % size = 1) (spared : Spared size 0 (landmarks middle)) :
      Preceded size history .tx frame.sent.toNat (deferrals size 0 (landmarks middle))
  | /-- The schedule began. -/
    began {past middle : List (Entry ε)} {entry : Entry ε} {time : UInt64}
      (split : history = past ++ entry :: middle)
      (began : entry.happening.landmark? = some (.began time))
      (steady : ∀ time, .began time ∉ landmarks middle)
      (first : events (landmarks middle) = 0) :
      Preceded size history .tx time.toNat ((landmarks middle).count .rejected)

namespace Calibration

variable (calibration : Calibration)

/-- What an instance is after it put a frame of a direction into the ring. -/
inductive Puts : Direction → Calibration → Prop
  | /-- A frame is received. -/
    receive (header : BlinkHeader) (time : UInt64) : Puts .rx (calibration.receive header time)
  | /-- A blink is prepared. -/
    prepare (address : UInt64) : Puts .tx (calibration.prepare address)

namespace Puts

variable {calibration : Calibration} {direction : Direction} {stamped : Calibration}

theorem config (h : calibration.Puts direction stamped) :
    stamped.config = calibration.config := by
  cases h <;> rfl

theorem size (h : calibration.Puts direction stamped) :
    stamped.ring.size = calibration.ring.size := by
  cases h <;> simp [Calibration.receive, Calibration.prepare]

/-- The frame has its neighbour in the slot before. -/
theorem previous (h : calibration.Puts direction stamped)
    (seamless : FrameRing.Seamless calibration.ring.size calibration.ring.index direction.lead) :
    stamped.ring.previous = calibration.neighbour direction := by
  cases h with
  | receive header time =>
      rw [Calibration.receive, FrameRing.previous_modifyCurrent]
      exact calibration.ring.previous_advance seamless
  | prepare address => exact FrameRing.previous_modifyCurrent _ _

/-- A blink is to be sent two epochs after what is in the slot before. -/
theorem sent (h : calibration.Puts .tx stamped) :
    stamped.ring.current.sent.toNat = ((calibration.neighbour .tx).sent.toNat +
      2 * (calibration.config.period.toNat * 2 ^ 15)) % 2 ^ 40 := by
  cases h
  rw [Calibration.prepare, FrameRing.current_modifyCurrent]
  change calibration.nextInstant.ticks.toNat = _
  rw [nextInstant, Instant.toNat_add, Instant.toNat_add, Instant.toNat_truncate, epoch,
    Duration.toNat_ofPeriod]
  change _ = (calibration.ring.previous.sent.toNat + _) % 2 ^ 40
  omega

end Puts

/-- A record is that of the current frame of an instance that had the same time stamps. -/
theorem delta_record {stamped : Calibration} {direction : Direction}
    (size : calibration.ring.size = stamped.ring.size)
    (same : ∀ index, direction.timestamp (calibration.ring.get index) =
      direction.timestamp (stamped.ring.get index)) (uptime : UInt32) :
    let record := calibration.record direction uptime stamped.ring.index
    record.timestamp = direction.timestamp stamped.ring.current ∧
      (record.delta.ticks.toNat : ℤ) = ((record.timestamp.toNat : ℤ) -
        (direction.timestamp stamped.ring.previous).toNat) % 2 ^ 40 := by
  intro record
  have hbefore : direction.timestamp (calibration.ring.getBefore stamped.ring.index) =
      direction.timestamp stamped.ring.previous := by
    rw [FrameRing.previous, FrameRing.getBefore_eq_get, FrameRing.getBefore_eq_get, same]
    simp only [FrameRing.slotBefore, FrameRing.slot, size]
  refine ⟨same _, ?_⟩
  rw [← hbefore]
  exact Instant.toNat_since _ _

end Calibration

namespace World

variable {allowed : Operation → Prop} {start prior later world : World ρ ε}

/-- The events since the schedule last began can be counted seamlessly. -/
def Seamless (size : Nat) (history : List (Entry ε)) : Prop :=
  ∀ time since, Since (landmarks history) time since → FrameRing.Seamless size 0 (events since)

/-- They could be before, if the schedule did not begin in between. -/
theorem Seamless.before {size : Nat} {history added : List (Entry ε)}
    (h : Seamless size (history ++ added)) (steady : ∀ time, .began time ∉ landmarks added) :
    Seamless size history := by
  intro time since hsince
  have hextended := hsince.extend steady
  rw [← landmarks_append] at hextended
  have hseamless := h time _ hextended
  rw [events_append] at hseamless
  exact hseamless.mono (Nat.le_add_right _ _)

/-- Then counting on from the index is seamless. -/
theorem Counted.seamless (h : prior.Counted) {calibration : Calibration}
    (present : prior.node.calibration = some calibration) {size : Nat} {added : List (Entry ε)}
    (seamless : Seamless size (prior.history ++ added))
    (steady : ∀ time, .began time ∉ landmarks added) :
    FrameRing.Seamless size calibration.ring.index (events (landmarks added)) := by
  obtain ⟨time, since, hsince, hindex⟩ := h.index_eq present
  have hextended := hsince.extend steady
  rw [← landmarks_append] at hextended
  refine (seamless time _ hextended).imp_right fun few ↦ ?_
  have hle : calibration.ring.index.toNat ≤ events since := by
    rw [hindex, UInt32.toNat_ofNat']
    exact Nat.mod_le _ _
  have hzero : (0 : UInt32).toNat = 0 := rfl
  rw [events_append] at few
  omega

/-- The system time at which the schedule begins is put into the slot before the first. -/
theorem Step.previous_of_began (step : Step allowed prior later) {entry : Entry ε}
    {time : UInt64} (history : later.history = prior.history ++ [entry])
    (began : entry.happening.landmark? = some (.began time)) :
    ∃ calibration, later.node.calibration = some calibration ∧
      calibration.ring.previous.sent = (Instant.truncate time).ticks := by
  have hpassed {landmark : Option Landmark}
      (passed : landmarks later.history = landmarks prior.history ++ landmark.toList) :
      landmark = some (.began time) :=
    (landmark?_of_passed (history ▸ passed)).symm.trans began
  cases step.moves with
  | absent _ _ idle passed =>
      rcases idle with rfl | rfl <;> cases hpassed passed
  | @created _ _ _ _ _ other after passed =>
      have hbegan : some (Landmark.began other) = some (.began time) := hpassed passed
      cases hbegan
      exact ⟨_, after, by simp [Calibration.create, Frame.sentAt]⟩
  | @moved _ _ landmark before after move added hadded passed =>
      obtain rfl : landmark = some (.began time) :=
        hpassed (by rw [hadded, landmarks_append, passed])
      cases move with
      | manage idle => rcases idle with h | h <;> cases h
      | restart => exact ⟨_, after, by simp [Calibration.restart, Frame.sentAt]⟩

/-- Steps that do not begin the schedule anew keep what is left of the time of a reception. -/
theorem stores_of_steps (steps : ReflTransGen (Step allowed) start world)
    {calibration : Calibration} (present : start.node.calibration = some calibration)
    {added : List (Entry ε)} (history : world.history = start.history ++ added)
    (steady : ∀ time, .began time ∉ landmarks added) :
    ∃ later, world.node.calibration = some later ∧
      later.Stores calibration.ring.current.received calibration.ring.index (landmarks added) := by
  obtain ⟨later, hlater, -, -, hstores⟩ := steady_invariant steps (P := fun course later ↦
      later.Stores calibration.ring.current.received calibration.ring.index course)
    present ⟨by simp, fun _ _ ↦ rfl⟩ (fun h move hbegan ↦ h.move move hbegan) history steady
  exact ⟨later, hlater, hstores⟩

/-- The record of the current frame tells its time stamp, and how long that is after the one in
the slot before, as long as nothing is passed that touches the time stamps. -/
theorem record_of_steps (steps : ReflTransGen (Step allowed) start world)
    {stamped : Calibration} (present : start.node.calibration = some stamped)
    {added : List (Entry ε)} (history : world.history = start.history ++ added)
    {direction : Direction}
    (untouched : ∀ landmark ∈ landmarks added, ¬ direction.Touches landmark) :
    ∃ calibration record, world.node.calibration = some calibration ∧
      calibration.config = stamped.config ∧ calibration.ring.size = stamped.ring.size ∧
      Node.record? direction stamped.ring.index world = some record ∧
      record.timestamp = direction.timestamp stamped.ring.current ∧
      (record.delta.ticks.toNat : ℤ) = ((record.timestamp.toNat : ℤ) -
        (direction.timestamp stamped.ring.previous).toNat) % 2 ^ 40 := by
  obtain ⟨calibration, hworld, hconfig, hsize, hsame⟩ :=
    timestamp_of_steps steps present history untouched
  obtain ⟨htimestamp, hdelta⟩ := calibration.delta_record hsize hsame world.platform.uptime
  exact ⟨calibration, _, hworld, hconfig, hsize, congrArg (Option.map _) hworld, htimestamp, hdelta⟩

/-- As long as there is no event, the slot before the first holds the time at which the schedule
began, moved on by rejections. -/
theorem previous_of_steps (steps : ReflTransGen (Step allowed) start world)
    {calibration : Calibration} (present : start.node.calibration = some calibration)
    {added : List (Entry ε)} (history : world.history = start.history ++ added)
    (steady : ∀ time, .began time ∉ landmarks added) (first : events (landmarks added) = 0) :
    ∃ later, world.node.calibration = some later ∧ later.config = calibration.config ∧
      later.ring.previous.sent.toNat % 2 ^ 40 = (calibration.ring.previous.sent.toNat +
        (landmarks added).count .rejected * (calibration.config.period.toNat * 2 ^ 15)) %
          2 ^ 40 := by
  refine instance_invariant steps (P := fun course later ↦ later.config = calibration.config ∧
      later.ring.previous.sent.toNat % 2 ^ 40 = (calibration.ring.previous.sent.toNat +
        course.count .rejected * (calibration.config.period.toNat * 2 ^ 15)) % 2 ^ 40)
    (Q := fun landmark ↦ (∀ time, landmark ≠ .began time) ∧ events [landmark] = 0) present
    ⟨rfl, by simp⟩ ?_ history ?_
  · rintro prior course earlier later landmark - - ⟨hconfig, hprevious⟩ move hpasses
    refine ⟨move.config.trans hconfig, ?_⟩
    cases move with
    | manage idle _ ring => rcases idle with rfl | rfl <;> simpa [ring] using hprevious
    | restart _ time => exact absurd rfl ((hpasses _ rfl).1 time)
    | complete | receive => exact absurd (hpasses _ rfl).2 (by simp [events])
    | time | release | accept | close =>
        simpa [Calibration.release, Calibration.accept] using hprevious
    | prepare => simpa [Calibration.prepare] using hprevious
    | correct => simpa [Calibration.correct] using hprevious
    | reject =>
        simp only [Calibration.reject, FrameRing.previous_modifyPrevious, Frame.sentAt,
          Instant.toNat_add, Instant.toNat_truncate, Calibration.epoch, Duration.toNat_ofPeriod,
          hconfig, Option.toList_some, List.count_append, List.count_singleton_self, Nat.add_mul]
        omega
  · intro landmark hmem
    refine ⟨fun time hbegan ↦ steady time (hbegan ▸ hmem), ?_⟩
    obtain ⟨before, after, hcourse⟩ := List.append_of_mem hmem
    rw [hcourse, events_append, events_cons] at first
    omega

/-- In the slot before there is what the history tells. -/
theorem neighbour_of_preceded (empty : start.history = []) (standard : start.Standard)
    (counted : start.Counted)
    (first : ReflTransGen (Step Operation.KeepsTransmission) start prior)
    {calibration : Calibration} (present : prior.node.calibration = some calibration)
    (seamless : Seamless calibration.ring.size prior.history)
    {direction : Direction} {time deferred : Nat}
    (preceded : Preceded calibration.ring.size prior.history direction time deferred) :
    (direction.timestamp (calibration.neighbour direction)).toNat % 2 ^ 40 =
      (time + deferred * (calibration.config.period.toNat * 2 ^ 15)) % 2 ^ 40 := by
  cases preceded with
  | @received past middle phase time transfers split steady rounds spared =>
      obtain ⟨_, next, hfirst, hstep, hrest, -, hnext, earlier, header, -, -, hreceived⟩ :=
        exists_step_of_entry first (empty ▸ List.nil_prefix) split
      have hadded : prior.history = next.history ++ middle := by simp [split, hnext]
      obtain ⟨_, hpresent, hstores⟩ := stores_of_steps hrest hreceived hadded steady
      cases present.symm.trans hpresent
      have hseamless := (counted.steps standard (hfirst.tail hstep)).seamless hreceived
        (hadded ▸ seamless) steady
      have hcurrent : calibration.ring.current.received = (Instant.truncate time).ticks := by
        rw [hstores.current hseamless rounds spared]
        simp [Calibration.receive]
      change calibration.ring.current.received.toNat % 2 ^ 40 = _
      rw [hcurrent, Instant.toNat_truncate, Nat.mod_mod, Nat.zero_mul, Nat.add_zero]
  | @attempted past middle phase frame offset reply split steady next spared =>
      obtain ⟨_, prepared, hfirst, hstep, hrest, -, hprepared, _, -, -, -, hframe, hpresent⟩ :=
        exists_step_of_entry first (empty ▸ List.nil_prefix) split
      have hadded : prior.history = prepared.history ++ middle := by simp [split, hprepared]
      obtain ⟨_, hlater, hconfig, hsize, hkept⟩ := kept_of_steps hrest hpresent hadded steady
      cases present.symm.trans hlater
      have hseamless := (counted.steps standard (hfirst.tail hstep)).seamless hpresent
        (hadded ▸ seamless) steady
      rw [Wire.encode_frame_injective hframe]
      exact hkept.previous hseamless next spared
  | @began past middle entry time split began steady none =>
      obtain ⟨_, next, -, hstep, hrest, rfl, hnext, -⟩ :=
        exists_step_of_entry first (empty ▸ List.nil_prefix) split
      have hadded : prior.history = next.history ++ middle := by simp [split, hnext]
      obtain ⟨_, hpresent, hseed⟩ := hstep.previous_of_began hnext began
      obtain ⟨_, hlater, hconfig, hprevious⟩ :=
        previous_of_steps hrest hpresent hadded steady none
      cases present.symm.trans hlater
      rw [hseed, Instant.toNat_truncate, Nat.mod_add_mod, ← hconfig] at hprevious
      exact hprevious

/-- A time that was moved on tells the gap to the original exactly if it was moved on by rounds of
the clock. -/
theorem delta_eq_iff {delta timestamp neighbour time moved : Nat}
    (hdelta : (delta : ℤ) = ((timestamp : ℤ) - neighbour) % 2 ^ 40)
    (hneighbour : neighbour % 2 ^ 40 = (time + moved) % 2 ^ 40) :
    (delta : ℤ) = ((timestamp : ℤ) - time) % 2 ^ 40 ↔ 2 ^ 40 ∣ moved := by
  omega

/-- The frame of a queued event was put into the ring before, and since then no other of its
direction was, nor was a blink rejected.  It has the index of the event if there was no event in
between but its own. -/
theorem stamped_of_prompted (empty : start.history = []) (absent : start.node.calibration = none)
    (steps : ReflTransGen (Step allowed) start world) {direction : Direction} {index : UInt32}
    (prompted : world.Prompts (.postprocess direction index)) :
    ∃ (prior later : World ρ ε) (calibration stamped : Calibration) (entry : Entry ε)
      (rest : List (Entry ε)),
      ReflTransGen (Step allowed) start prior ∧ ReflTransGen (Step allowed) later world ∧
      prior.node.calibration = some calibration ∧ calibration.Puts direction stamped ∧
      later.node.calibration = some stamped ∧ later.history = prior.history ++ [entry] ∧
      entry.happening.landmark? = some direction.stamp ∧ world.history = later.history ++ rest ∧
      direction.stamp ∉ landmarks rest ∧ .rejected ∉ landmarks rest ∧
      (direction = .rx → landmarks rest = []) ∧
      ((∀ landmark ∈ landmarks rest, landmark ≠ .received ∧ ∀ time, landmark ≠ .began time) →
        index = stamped.ring.index) := by
  obtain ⟨past, phase, ⟨_, hpast, heq⟩ |
    ⟨header, time, correction, current, hpast, hreceived, present, heq⟩⟩ := prompted
  · cases heq
    obtain ⟨sending, claimed, hfirst, hstep, hclaimed, rfl, -, pending, hpending, hphase, rfl, -⟩ :=
      exists_step_of_entry steps (empty ▸ List.nil_prefix) hpast
    obtain ⟨prior, later, calibration, _, _, rest, hprior, -, hpath, hnoted, hsending, hpresent,
      hblink, hattempted, hrejected, hcompleted⟩ :=
      attempt_of_steps empty absent hfirst hpending (by simp [hphase])
    have hpassed : landmarks (rest ++ [⟨phase, .log (.blinkSent pending.ring.index)⟩]) =
        landmarks rest ++ [.completed] := landmarks_append _ _
    refine ⟨prior, later, calibration, _, _, _, hprior, (hpath.tail hstep).trans hclaimed,
      hpresent, .prepare _, hblink, hnoted, rfl, by rw [hpast, hsending, List.append_assoc],
      ?_, ?_, nofun, fun calm ↦ ?_⟩
    · simp [hpassed, hattempted, Direction.stamp]
    · simp [hpassed, hrejected]
    · rw [hpassed] at calm
      have hreceived : .received ∉ landmarks rest := fun hmem ↦
        (calm _ (List.mem_append_left _ hmem)).1 rfl
      have hsteady : ∀ time, .began time ∉ landmarks rest := fun time hmem ↦
        (calm _ (List.mem_append_left _ hmem)).2 time rfl
      obtain ⟨_, hlatest, -, -, hkept⟩ := kept_of_steps hpath hblink hsending hsteady
      cases hpending.symm.trans hlatest
      exact hkept.index_eq (events_eq_zero hcompleted hreceived)
  · cases heq
    have hreceived' : Received world.history header time :=
      hpast ▸ hreceived.append (by simp [Happening.landmark?])
    obtain ⟨prior, later, calibration, phase', transfers, rest, hprior, hpath, hnoted, hworld,
      hrest, hpresent, hreceive⟩ := reception_of_steps empty steps hreceived'
    refine ⟨prior, later, calibration, _, _, rest, hprior, hpath, hpresent, .receive header time,
      hreceive, hnoted, rfl, hworld, by simp [hrest], by simp [hrest], fun _ ↦ hrest, fun _ ↦ ?_⟩
    obtain ⟨_, hlatest, -, -, hkept⟩ := kept_of_steps hpath hreceive hworld (by simp [hrest])
    cases present.symm.trans hlatest
    exact hkept.index_eq (by simp [hrest])

/-- After a frame was put into the ring, and as long as nothing touches the time stamps of its
direction, its record tells the gap to what is in the slot before, and so that to an earlier frame
exactly if the time of that was not moved on, or by rounds of the clock. -/
theorem gap_of_stamped (empty : start.history = []) (standard : start.Standard)
    (counted : start.Counted)
    (first : ReflTransGen (Step Operation.KeepsTransmission) start prior)
    (rest : ReflTransGen (Step Operation.KeepsTransmission) later world)
    {calibration stamped : Calibration} (present : prior.node.calibration = some calibration)
    {direction : Direction} (puts : calibration.Puts direction stamped)
    (put : later.node.calibration = some stamped)
    {entry : Entry ε} (history : later.history = prior.history ++ [entry])
    (stamp : entry.happening.landmark? = some direction.stamp)
    {added : List (Entry ε)} (after : world.history = later.history ++ added)
    (untouched : ∀ landmark ∈ landmarks added, ¬ direction.Touches landmark)
    (steady : ∀ time, .began time ∉ landmarks added) {latest : Calibration}
    (hlatest : world.node.calibration = some latest)
    (seamless : Seamless latest.ring.size world.history) :
    ∃ record, Node.record? direction stamped.ring.index world = some record ∧
      (direction = .tx → record.delta.ticks.toNat =
        2 * (latest.config.period.toNat * 2 ^ 15) % 2 ^ 40) ∧
      ∀ time deferred, Preceded latest.ring.size prior.history direction time deferred →
        ((record.delta.ticks.toNat : ℤ) = ((record.timestamp.toNat : ℤ) - time) % 2 ^ 40 ↔
          2 ^ 40 ∣ deferred * (latest.config.period.toNat * 2 ^ 15)) := by
  obtain ⟨_, record, hworld, hconfig, hsize, hrecord, htimestamp, hdelta⟩ :=
    record_of_steps rest put after untouched
  cases hlatest.symm.trans hworld
  rw [hconfig, puts.config, hsize.trans puts.size]
  rw [hsize.trans puts.size, after, history, List.append_assoc] at seamless
  have hpassed : landmarks ([entry] ++ added) = direction.stamp :: landmarks added :=
    landmarks_cons stamp added
  have hsteady : ∀ time, .began time ∉ landmarks ([entry] ++ added) := by
    simp only [hpassed, List.mem_cons, not_or]
    exact fun time ↦ ⟨by cases direction <;> simp [Direction.stamp], steady time⟩
  have hlead : direction.lead ≤ events (landmarks ([entry] ++ added)) := by
    rw [hpassed, events_cons]
    cases direction <;> simp [Direction.stamp, Direction.lead, events]
  have hseamless := (counted.steps standard first).seamless present seamless hsteady
  rw [puts.previous (hseamless.mono hlead)] at hdelta
  refine ⟨record, hrecord, ?_, fun time deferred preceded ↦ delta_eq_iff hdelta ?_⟩
  · rintro rfl
    have hsent : record.timestamp.toNat = _ := (congrArg UInt64.toNat htimestamp).trans puts.sent
    have htwo : (record.delta.ticks.toNat : ℤ) = ((record.timestamp.toNat : ℤ) -
      ((calibration.neighbour .tx).sent.toNat : ℤ)) % 2 ^ 40 := hdelta
    omega
  · exact neighbour_of_preceded empty standard counted first present (seamless.before hsteady)
      preceded

/-! ## Every run -/

variable [Radio ρ ε]

/-- **Gaps of records.**  However a node is run with the standard transmit callback, there is
a record of every event as long as nothing is passed after it was queued, and before it the frame
was put into the ring that the event was queued for: a received frame just before, a blink when it
was attempted.  Unless the index wraps around, or the schedule began or a frame was received while
the blink was pending, the record of a blink tells a gap of two epochs, and that of either direction
tells the gap to an earlier frame in the slot before exactly if its time was not moved on by
rejections, or by rounds of the clock. -/
theorem record_deltas {config : Config} {address : UInt16} {radio : ρ} {platform : Platform}
    (reached : Reaches Operation.KeepsTransmission (.fresh config address radio platform) world)
    {before after : List (Entry ε)} {phase : Option Phase} {direction : Direction}
    {index : UInt32} {queued : Bool}
    (history : world.history =
      before ++ ⟨phase, .enqueue (.postprocess direction index) queued⟩ :: after)
    (quiet : landmarks after = []) :
    ∃ calibration record origin entry rest, world.node.calibration = some calibration ∧
      Node.record? direction index world = some record ∧ before = origin ++ entry :: rest ∧
      entry.happening.landmark? = some direction.stamp ∧ direction.stamp ∉ landmarks rest ∧
      (direction = .rx → landmarks rest = []) ∧
      (Seamless calibration.ring.size world.history →
        (∀ landmark ∈ landmarks rest, landmark ≠ .received ∧ ∀ time, landmark ≠ .began time) →
        (direction = .tx → record.delta.ticks.toNat =
          2 * (calibration.config.period.toNat * 2 ^ 15) % 2 ^ 40) ∧
        ∀ time deferred, Preceded calibration.ring.size origin direction time deferred →
          ((record.delta.ticks.toNat : ℤ) = ((record.timestamp.toNat : ℤ) - time) % 2 ^ 40 ↔
            2 ^ 40 ∣ deferred * (calibration.config.period.toNat * 2 ^ 15))) := by
  obtain ⟨-, hsteps⟩ := reached.leads (calm_fresh config address radio platform)
  have hstandard := Standard.fresh (ε := ε) config address radio platform
  have hcounted := Counted.fresh (ε := ε) config address radio platform
  obtain ⟨queuing, next, hfirst, hstep, hrest, rfl, hnext, hprompted, -⟩ :=
    exists_step_of_entry hsteps List.nil_prefix history
  obtain ⟨prior, later, earlier, stamped, entry, rest, hprior, hlater, hpresent, hputs, hput,
    hentry, hstamp, hqueuing, hlast, hrejected, hreception, hindex⟩ :=
    stamped_of_prompted rfl rfl hfirst hprompted
  have hpath := hlater.trans (.head hstep hrest)
  have hadded : world.history = later.history ++
      (rest ++ ⟨phase, .enqueue (.postprocess direction index) queued⟩ :: after) := by
    rw [history, hqueuing, List.append_assoc]
  have hpassed : landmarks (rest ++
      ⟨phase, .enqueue (.postprocess direction index) queued⟩ :: after) = landmarks rest := by
    rw [landmarks_append]
    exact (congrArg _ quiet).trans (List.append_nil _)
  obtain ⟨latest, hworld, -⟩ := present_of_steps hpath hput
  refine ⟨latest, _, prior.history, entry, rest, hworld, congrArg (Option.map _) hworld,
    by rw [hqueuing, hentry, List.append_assoc, List.singleton_append], hstamp, hlast, hreception,
    fun seamless calm ↦ ?_⟩
  have hsteady : ∀ time, .began time ∉ landmarks (rest ++
      ⟨phase, .enqueue (.postprocess direction index) queued⟩ :: after) := by
    rw [hpassed]
    exact fun time hmem ↦ (calm _ hmem).2 time rfl
  have huntouched : ∀ landmark ∈ landmarks (rest ++
      ⟨phase, .enqueue (.postprocess direction index) queued⟩ :: after),
      ¬ direction.Touches landmark := by
    intro landmark hmem htouches
    rcases htouches.eq with rfl | rfl | ⟨time, rfl⟩
    · exact hlast (hpassed ▸ hmem)
    · exact hrejected (hpassed ▸ hmem)
    · exact hsteady time hmem
  obtain ⟨record, hrecord, hgap⟩ := gap_of_stamped rfl hstandard hcounted hprior hpath hpresent
    hputs hput hentry hstamp hadded huntouched hsteady hworld seamless
  rw [← hindex calm] at hrecord
  cases hrecord.symm.trans (congrArg (Option.map _) hworld)
  exact hgap

/-- The first blink that is sent is told to come two epochs after the beginning of the schedule,
though one that was rejected deferred it by another. -/
theorem record_deltas_of_deferred_blink :
    let sent := (fresh { period := 1000, latency := 100 } 66
      { systemTime := 1048576, starts := [.rejected] } {} :
        World Radio.Scripted Radio.Failure).run
        [.init 3 anyMaster, .blink .blocking, .blink .blocking]
    ∃ (record : Record) (origin : List (Entry Radio.Failure)),
      Node.record? .tx 0 sent = some record ∧
      landmarks origin = [.began 1048576, .attempted, .timed, .rejected] ∧
      Preceded 3 origin .tx 1048576 1 ∧ record.delta.ticks.toNat = 2 * (1000 * 2 ^ 15) ∧
      ¬ (record.delta.ticks.toNat : ℤ) = ((record.timestamp.toNat : ℤ) - 1048576) % 2 ^ 40 := by
  intro sent
  have hreached : Reaches Operation.KeepsTransmission
      (.fresh { period := 1000, latency := 100 } 66
        { systemTime := 1048576, starts := [.rejected] } {}) sent :=
    Reaches.refl.run (by simp [Operation.KeepsTransmission])
  have hcourse : landmarks sent.history =
      [.began 1048576, .attempted, .timed, .rejected, .attempted, .timed, .accepted,
        .acknowledged, .completed] := by
    decide +kernel
  have hinstance : sent.node.calibration.map (fun calibration ↦
      (calibration.ring.size, calibration.config.period)) = some (3, 1000) := by decide +kernel
  have hlast : sent.history.getLast?.bind (·.happening.offered?) = some (.postprocess .tx 0) := by
    decide +kernel
  obtain ⟨⟨phase, _⟩, hentry, hoffered⟩ := Option.bind_eq_some_iff.mp hlast
  obtain ⟨queued, rfl⟩ := Happening.of_offered? hoffered
  obtain ⟨before, hbefore⟩ := List.getLast?_eq_some_iff.mp hentry
  obtain ⟨calibration, record, origin, entry, rest, present, hrecord, rfl, hstamp, hlatest, -,
    hgap⟩ := record_deltas hreached hbefore rfl
  obtain ⟨hsize, hperiod⟩ : calibration.ring.size = 3 ∧ calibration.config.period = 1000 := by
    simpa [present] using hinstance
  have hcut : landmarks origin ++ .attempted :: landmarks rest =
      [.began 1048576, .attempted, .timed, .rejected] ++ .attempted ::
        [.timed, .accepted, .acknowledged, .completed] := by
    have hpassed : landmarks (origin ++ entry :: rest) = landmarks sent.history := by
      rw [hbefore, landmarks_append (origin ++ _)]
      exact (List.append_nil _).symm
    rwa [landmarks_append, landmarks_cons hstamp, hcourse] at hpassed
  obtain ⟨horigin, -, hrest⟩ := cut_unique (P := (· = Direction.stamp .tx)) hcut rfl rfl
    (fun other hmem hother ↦ hlatest (hother ▸ hmem)) (by simp [Direction.stamp])
  have horigin' : landmarks origin = [] ++ .began 1048576 :: [.attempted, .timed, .rejected] :=
    horigin
  obtain ⟨past, first, middle, rfl, -, hfirst, hmiddle⟩ := exists_entry_of_landmarks horigin'
  have hpreceded : Preceded 3 (past ++ first :: middle) .tx 1048576 1 := by
    have h : Preceded 3 (past ++ first :: middle) .tx _ _ :=
      .began rfl hfirst (by simp [hmiddle]) (by rw [hmiddle]; decide)
    rwa [hmiddle] at h
  have hseamless : Seamless 3 sent.history := by
    intro time since hsince
    obtain ⟨-, rfl⟩ := hsince.unique ⟨by simp, [], hcourse⟩
    decide
  rw [hsize, hperiod, hrest] at hgap
  obtain ⟨htwo, hgap⟩ := hgap hseamless (by simp)
  refine ⟨record, _, hrecord, horigin, hpreceded, htwo rfl, fun h ↦ ?_⟩
  exact absurd ((hgap _ _ hpreceded).mp h) (by decide)

/-- A frame that is received 4000 ticks after the one before is told to come 9000 after it if a
blink was sent in between, and a blink that is sent three epochs after the one before is told to
come two after it if one was rejected in between. -/
theorem delta_ne_gap :
    let heard := (fresh { period := 1000, latency := 100 } 66
      { systemTime := 1048576, receptionTime := 5000,
        received := [0xc2, 0, 8, 7, 6, 5, 4, 3, 2, 1] } {} :
          World Radio.Scripted Radio.Failure).run [.init 3 anyMaster, .receptionInterrupt]
    let again := ({ heard with radio := { heard.radio with receptionTime := 9000 } } :
      World Radio.Scripted Radio.Failure).run [.blink .blocking, .receptionInterrupt]
    let sent := (fresh { period := 1000, latency := 100 } 66
      { systemTime := 1048576, starts := [.started, .rejected] } {} :
        World Radio.Scripted Radio.Failure).run
        [.init 3 anyMaster, .blink .blocking, .blink .blocking, .blink .blocking]
    (Node.record? .rx 1 heard).map (·.timestamp) = some 5000 ∧
      landmarks again.history = landmarks heard.history ++
        [.attempted, .timed, .accepted, .acknowledged, .completed, .received] ∧
      again.platform.queue = [.postprocess .tx 1, .postprocess .rx 3] ∧
      (Node.record? .rx 3 again).map (fun record ↦ (record.timestamp, record.delta.ticks)) =
        some (9000, 9000) ∧
      instants sent.history =
        [1048576 + 2 * 32768000, 1048576 + 4 * 32768000, 1048576 + 5 * 32768000] ∧
      sent.platform.queue = [.postprocess .tx 0, .postprocess .tx 1] ∧
      (Node.record? .tx 1 sent).map (fun record ↦ (record.timestamp, record.delta.ticks)) =
        some (1048576 + 5 * 32768000, 2 * 32768000) := by
  decide +kernel

end World

end ClockCalibration
