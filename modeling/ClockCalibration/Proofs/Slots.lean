import ClockCalibration.Proofs.FrameRing
import ClockCalibration.Proofs.Node.Trace
import ClockCalibration.Proofs.Time

/-!
# What becomes of a frame in its slot

A blink is written to the current slot when it is attempted, and a received frame to the
next one, which becomes the current.  From then on the slot is left to the later events,
and what they do to it depends only on how many events they come after it: an attempt
writes over it after full rounds of the ring, a reception one event earlier, and a
rejection moves the time of sending on by one epoch while the slot is the one before the
current.

`Spared` says of the landmarks since a frame was written that nothing was written over it,
and `Calibration.Kept` what its slot holds in that case.
-/

namespace ClockCalibration

open Relation (ReflTransGen)

variable {ρ ε : Type}

/-! ## Events -/

/-- How many events there were, each of which moved the index on by one. -/
def events (course : List Landmark) : Nat := course.count .completed + course.count .received

@[simp] theorem events_nil : events [] = 0 := rfl

@[simp] theorem events_append (before after : List Landmark) :
    events (before ++ after) = events before + events after := by
  simp only [events, List.count_append]
  omega

theorem events_cons (landmark : Landmark) (course : List Landmark) :
    events (landmark :: course) = events [landmark] + events course :=
  events_append [landmark] course

/-- Without a completion or a reception there is no event. -/
theorem events_eq_zero {course : List Landmark} (hcompleted : .completed ∉ course)
    (hreceived : .received ∉ course) : events course = 0 := by
  rw [events, List.count_eq_zero_of_not_mem hcompleted, List.count_eq_zero_of_not_mem hreceived]

/-! ## What is written over -/

/-- Whether a landmark writes over the slot of an event so many events before it. -/
def Landmark.Overwrites (size back : Nat) : Landmark → Prop
  | attempted => size ∣ back
  | received => size ∣ back + 1
  | _ => False

instance (size back : Nat) : (landmark : Landmark) → Decidable (landmark.Overwrites size back)
  | .attempted => inferInstanceAs (Decidable (size ∣ back))
  | .received => inferInstanceAs (Decidable (size ∣ back + 1))
  | .began _ | .timed | .accepted | .rejected | .acknowledged | .completed =>
      inferInstanceAs (Decidable False)

/-- None of the landmarks passed writes over the slot of an event, of which the first comes so
many events after it. -/
def Spared (size : Nat) : Nat → List Landmark → Prop
  | _, [] => True
  | back, landmark :: course =>
      ¬ landmark.Overwrites size back ∧ Spared size (back + events [landmark]) course

instance Spared.decidable (size : Nat) :
    (back : Nat) → (course : List Landmark) → Decidable (Spared size back course)
  | _, [] => .isTrue trivial
  | back, landmark :: course =>
      have := decidable size (back + events [landmark]) course
      inferInstanceAs (Decidable (_ ∧ _))

theorem Spared.append_iff {size back : Nat} {before after : List Landmark} :
    Spared size back (before ++ after) ↔
      Spared size back before ∧ Spared size (back + events before) after := by
  induction before generalizing back with
  | nil => simp [Spared]
  | cons landmark before ih =>
      rw [List.cons_append, Spared, Spared, ih, and_assoc, events_cons landmark before,
        Nat.add_assoc]

/-- Where nothing is written nothing is written over. -/
theorem Spared.of_unwritten (size back : Nat) {course : List Landmark}
    (hattempted : .attempted ∉ course) (hreceived : .received ∉ course) :
    Spared size back course := by
  induction course generalizing back with
  | nil => trivial
  | cons landmark course ih =>
      refine ⟨fun overwrites ↦ ?_, ih _ (List.not_mem_of_not_mem_cons hattempted)
        (List.not_mem_of_not_mem_cons hreceived)⟩
      cases landmark with
      | attempted => exact hattempted List.mem_cons_self
      | received => exact hreceived List.mem_cons_self
      | _ => exact overwrites

/-- An event is spared by fewer further events than there are slots, unless a blink is attempted
at its own index. -/
theorem Spared.of_few {size back : Nat} {course : List Landmark}
    (few : back + events course < size)
    (late : ∀ before after, course = before ++ .attempted :: after → 0 < back + events before) :
    Spared size back course := by
  induction course generalizing back with
  | nil => trivial
  | cons landmark course ih =>
      rw [events_cons, ← Nat.add_assoc] at few
      refine ⟨fun overwrites ↦ ?_, ih few fun before after h ↦ ?_⟩
      · cases landmark with
        | attempted =>
            have hback : 0 < back := late [] course rfl
            exact absurd (Nat.le_of_dvd hback overwrites) (by omega)
        | received =>
            have hle := Nat.le_of_dvd (Nat.succ_pos back) overwrites
            simp only [events, List.count_singleton_self] at few
            omega
        | _ => exact overwrites
      · rw [Nat.add_assoc, ← events_cons]
        exact late (landmark :: before) after (by rw [h, List.cons_append])

/-- How often a blink was rejected while the event so many events before the first of the
landmarks passed was the one before the current. -/
def deferrals (size : Nat) : Nat → List Landmark → Nat
  | _, [] => 0
  | back, landmark :: course =>
      (if landmark = .rejected ∧ back % size = 1 then 1 else 0) +
        deferrals size (back + events [landmark]) course

theorem deferrals_append (size back : Nat) (before after : List Landmark) :
    deferrals size back (before ++ after) =
      deferrals size back before + deferrals size (back + events before) after := by
  induction before generalizing back with
  | nil => simp [deferrals]
  | cons landmark before ih =>
      rw [List.cons_append, deferrals, deferrals, ih, events_cons landmark before, Nat.add_assoc,
        Nat.add_assoc]

/-- Only an event is followed by another slot. -/
theorem deferrals_eq_zero {size back : Nat} {course : List Landmark} (h : events course = 0)
    (hback : back % size ≠ 1) : deferrals size back course = 0 := by
  induction course with
  | nil => rfl
  | cons landmark course ih =>
      rw [events_cons] at h
      have hlandmark : events [landmark] = 0 := by omega
      rw [deferrals, hlandmark, if_neg (fun hrejected ↦ hback hrejected.2), Nat.zero_add]
      exact ih (by omega)

/-! ## What is kept -/

namespace Calibration

/-- The size of the ring does not change. -/
theorem size_move {node : Node} {calibration later : Calibration} {landmark : Option Landmark}
    (move : Move node calibration landmark later) : later.ring.size = calibration.ring.size := by
  cases move with
  | manage _ _ ring => rw [ring]
  | _ => simp [Calibration.restart, Calibration.prepare, Calibration.release, Calibration.reject,
      Calibration.accept, Calibration.complete, Calibration.receive, Calibration.correct]

/-- Events move the index on by one each. -/
theorem index_move {node : Node} {calibration later : Calibration} {landmark : Option Landmark}
    (move : Move node calibration landmark later)
    (hbegan : ∀ time, landmark ≠ some (.began time)) :
    later.ring.index = calibration.ring.index + .ofNat (events landmark.toList) := by
  cases move with
  | manage idle _ ring => rcases idle with rfl | rfl <;> simp [ring, events]
  | restart _ time => exact absurd rfl (hbegan time)
  | _ => simp [Calibration.prepare, Calibration.release, Calibration.reject, Calibration.accept,
      Calibration.complete, Calibration.receive, Calibration.correct, events]

/-- What an instance has left of a frame that was written under an index, after what was passed
since. -/
structure Kept (calibration : Calibration) (written : Frame) (index : UInt32)
    (course : List Landmark) : Prop where
  /-- Every event moved the index on. -/
  counted : calibration.ring.index = index + .ofNat (events course)
  /-- A slot that was spared holds the frame, with its time of sending moved on by rejections. -/
  frame : FrameRing.Seamless calibration.ring.size index (events course) →
    Spared calibration.ring.size 0 course →
    (calibration.ring.get index).header = written.header ∧
      (calibration.ring.get index).received = written.received ∧
      (calibration.ring.get index).sent.toNat % 2 ^ 40 = (written.sent.toNat +
        deferrals calibration.ring.size 0 course *
          (calibration.config.period.toNat * 2 ^ 15)) % 2 ^ 40

namespace Kept

variable {written : Frame} {index : UInt32} {course : List Landmark}
variable {calibration later : Calibration}

/-- The current frame is in its slot. -/
theorem current (calibration : Calibration) :
    calibration.Kept calibration.ring.current calibration.ring.index [] where
  counted := by simp
  frame _ _ := by simp [FrameRing.current, deferrals]

variable (h : calibration.Kept written index course)

include h

/-- Without an event the index stays. -/
theorem index_eq (none : events course = 0) : calibration.ring.index = index := by
  rw [h.counted, none]
  exact UInt32.add_zero index

/-- It is enough to know what a landmark does to the slot. -/
theorem pass {landmark : Option Landmark} (size : later.ring.size = calibration.ring.size)
    (config : later.config = calibration.config)
    (counted : later.ring.index = calibration.ring.index + .ofNat (events landmark.toList))
    (frame : FrameRing.Seamless calibration.ring.size index
        (events course + events landmark.toList) →
      Spared calibration.ring.size (events course) landmark.toList →
      (later.ring.get index).header = (calibration.ring.get index).header ∧
        (later.ring.get index).received = (calibration.ring.get index).received ∧
        (later.ring.get index).sent.toNat % 2 ^ 40 = ((calibration.ring.get index).sent.toNat +
          deferrals calibration.ring.size (events course) landmark.toList *
            (calibration.config.period.toNat * 2 ^ 15)) % 2 ^ 40) :
    later.Kept written index (course ++ landmark.toList) := by
  refine ⟨?_, fun seamless spared ↦ ?_⟩
  · rw [counted, h.counted, events_append, UInt32.ofNat_add, UInt32.add_assoc]
  · rw [size, events_append] at seamless
    rw [size, Spared.append_iff, Nat.zero_add] at spared
    obtain ⟨hheader, hreceived, hsent⟩ :=
      h.frame (seamless.mono (Nat.le_add_right _ _)) spared.1
    obtain ⟨hheader', hreceived', hsent'⟩ := frame seamless spared.2
    refine ⟨hheader'.trans hheader, hreceived'.trans hreceived, ?_⟩
    rw [hsent', Nat.add_mod, hsent, ← Nat.add_mod, size, config, deferrals_append, Nat.zero_add,
      Nat.add_assoc, ← Nat.add_mul]

/-- A move that is not a start keeps what is left of a frame. -/
theorem move {node : Node} {landmark : Option Landmark}
    (move : Move node calibration landmark later)
    (hbegan : ∀ time, landmark ≠ some (.began time)) :
    later.Kept written index (course ++ landmark.toList) := by
  have hcounted := h.counted
  refine h.pass (size_move move) move.config (index_move move hbegan) fun seamless spared ↦ ?_
  have hbefore := seamless.mono (Nat.le_add_right (events course) _)
  cases move with
  | manage idle config ring phase sequence valid =>
      rcases idle with rfl | rfl <;> simp [ring, deferrals]
  | time | release | accept | close => simp [Calibration.release, Calibration.accept, deferrals]
  | restart _ time => exact absurd rfl (hbegan time)
  | prepare idle =>
      have hother : calibration.ring.slot calibration.ring.index ≠ calibration.ring.slot index := by
        rw [hcounted, Ne, FrameRing.slot_add_eq_iff _ hbefore]
        exact spared.1
      simp [Calibration.prepare, FrameRing.modifyCurrent, FrameRing.get_modifySlot, hother,
        deferrals]
  | reject armed =>
      simp only [Calibration.reject, FrameRing.modifyPrevious, FrameRing.get_modifySlot]
      rw [hcounted]
      simp only [FrameRing.slotBefore_add_eq_iff _ hbefore]
      split
      · next previous => simp [deferrals, previous, Frame.sentAt, epoch]
      · next other => simp [deferrals, other]
  | complete pending => simp [Calibration.complete, deferrals]
  | receive calm header time =>
      have hother := calibration.ring.slot_succ_ne seamless spared.1
      rw [← hcounted] at hother
      simp [Calibration.receive, FrameRing.modifyCurrent, FrameRing.get_modifySlot, hother,
        deferrals]
  | correct valid correction =>
      simp only [Calibration.correct, FrameRing.modifyCurrent, FrameRing.get_modifySlot]
      split <;> simp [deferrals]

end Kept

end Calibration

/-! ## Device times -/

/-- Every slot holds a device time as the time of sending. -/
def FrameRing.Dated (ring : FrameRing) : Prop := ∀ index, (ring.get index).sent.toNat < 2 ^ 40

/-- What is written as the time of sending is a device time. -/
theorem Move.dated {node : Node} {calibration later : Calibration} {landmark : Option Landmark}
    (move : Move node calibration landmark later) (h : calibration.ring.Dated) :
    later.ring.Dated := by
  have hlt (number : Nat) : number % 2 ^ 40 < 2 ^ 40 := Nat.mod_lt _ (Nat.two_pow_pos 40)
  have h : calibration.ring.All fun frame ↦ frame.sent.toNat < 2 ^ 40 := h
  cases move with
  | manage _ _ ring => exact ring ▸ h
  | time | release | accept | complete | close => exact h
  | restart _ time =>
      exact (h.of_slots calibration.ring.get_resetIndex).modifySlot _ fun _ _ ↦
        (Instant.toNat_truncate time).symm ▸ hlt _
  | prepare idle => exact h.modifySlot _ fun _ _ ↦ (Instant.toNat_add _ _).symm ▸ hlt _
  | reject armed => exact h.modifySlot _ fun _ _ ↦ (Instant.toNat_add _ _).symm ▸ hlt _
  | receive => exact (h.of_slots calibration.ring.get_advance).modifySlot _ fun _ hframe ↦ hframe
  | correct => exact h.modifySlot _ fun _ hframe ↦ hframe

namespace World

/-- Whatever a node did, the slots hold device times. -/
theorem dated_of_steps {allowed : Operation → Prop} {start world : World ρ ε}
    (steps : ReflTransGen (Step allowed) start world) (absent : start.node.calibration = none)
    {calibration : Calibration} (present : world.node.calibration = some calibration) :
    calibration.ring.Dated := by
  induction steps generalizing calibration with
  | refl => cases absent.symm.trans present
  | tail _ step ih =>
      cases step.moves with
      | absent _ after => cases after.symm.trans present
      | created before valid sized after =>
          cases after.symm.trans present
          have hring := FrameRing.all_of_ofSize? (P := fun frame ↦ frame.sent.toNat < 2 ^ 40) sized
            (Nat.two_pow_pos 40)
          exact hring.modifySlot _ fun _ _ ↦
            (Instant.toNat_truncate _).symm ▸ Nat.mod_lt _ (Nat.two_pow_pos 40)
      | moved before after move =>
          cases after.symm.trans present
          exact move.dated (ih before)

variable {allowed : Operation → Prop} {start world : World ρ ε}

/-- An instance is not given up, and keeps its configuration and the size of its ring. -/
theorem present_of_steps (steps : ReflTransGen (Step allowed) start world)
    {calibration : Calibration} (present : start.node.calibration = some calibration) :
    ∃ later, world.node.calibration = some later ∧ later.config = calibration.config ∧
      later.ring.size = calibration.ring.size := by
  obtain ⟨added, history⟩ := history_of_steps steps
  obtain ⟨later, hlater, hconfig, hsize⟩ := instance_invariant steps
    (P := fun _ later ↦ later.config = calibration.config ∧
      later.ring.size = calibration.ring.size) (Q := fun _ ↦ True) present ⟨rfl, rfl⟩
    (fun _ _ h move _ ↦ ⟨move.config.trans h.1, (Calibration.size_move move).trans h.2⟩)
    history fun _ _ ↦ trivial
  exact ⟨later, hlater, hconfig, hsize⟩

/-- What every move other than a start keeps holds as long as the schedule does not begin anew. -/
theorem steady_invariant (steps : ReflTransGen (Step allowed) start world)
    {P : List Landmark → Calibration → Prop} {calibration : Calibration}
    (present : start.node.calibration = some calibration) (hstart : P [] calibration)
    (hmove : ∀ {node course earlier later landmark}, P course earlier →
      Move node earlier landmark later → (∀ time, landmark ≠ some (.began time)) →
      P (course ++ landmark.toList) later)
    {added : List (Entry ε)} (history : world.history = start.history ++ added)
    (steady : ∀ time, .began time ∉ landmarks added) :
    ∃ later, world.node.calibration = some later ∧ later.config = calibration.config ∧
      later.ring.size = calibration.ring.size ∧ P (landmarks added) later := by
  obtain ⟨later, hlater, hkept⟩ := instance_invariant steps
    (Q := fun landmark ↦ ∀ time, landmark ≠ .began time) present hstart
    (fun _ _ h move hpasses ↦ hmove h move fun time hbegan ↦ hpasses _ hbegan time rfl)
    history fun landmark hmem time hbegan ↦ steady time (hbegan ▸ hmem)
  obtain ⟨_, hpresent, hconfig, hsize⟩ := present_of_steps steps present
  cases hlater.symm.trans hpresent
  exact ⟨later, hlater, hconfig, hsize, hkept⟩

/-- Steps that do not begin the schedule anew keep what is left of a frame. -/
theorem kept_of_steps (steps : ReflTransGen (Step allowed) start world)
    {calibration : Calibration} (present : start.node.calibration = some calibration)
    {added : List (Entry ε)} (history : world.history = start.history ++ added)
    (steady : ∀ time, .began time ∉ landmarks added) :
    ∃ later, world.node.calibration = some later ∧ later.config = calibration.config ∧
      later.ring.size = calibration.ring.size ∧
      later.Kept calibration.ring.current calibration.ring.index (landmarks added) :=
  steady_invariant steps (P := fun course later ↦
      later.Kept calibration.ring.current calibration.ring.index course)
    present (.current calibration) (fun h move hbegan ↦ h.move move hbegan) history steady

end World

end ClockCalibration
