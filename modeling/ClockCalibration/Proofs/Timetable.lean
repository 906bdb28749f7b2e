import ClockCalibration.Proofs.FrameRing
import ClockCalibration.Proofs.Node.Move
import ClockCalibration.Proofs.Run
import ClockCalibration.Proofs.Time
import ClockCalibration.Radio.Scripted
import Mathlib.Logic.Function.Basic

/-!
# Receptions and the schedule

Transmissions and receptions share one ring and one index, and a blink is reckoned from
the time of sending in the slot before the current one, whoever moved the index there.
A reception moves it and leaves the times of sending as they are, so the next blink is
reckoned from a slot that the latest transmission need not have written.

A `Timetable` is what there is to a ring as far as this goes: a time for each slot, and
an index.  It is replayed over the landmarks of a history alone, and `instants_eq_iff`
says that two runs from the same instance arm their blinks for the same instants exactly
if the replay finds the same times before the current slot.  With receptions it need
not, which `instants_ne_of_reception` shows.  It does if they come in full rounds of the
ring, for then the timetables are `Timetable.Aligned` from there on.
-/

namespace ClockCalibration

variable {ρ ε : Type}

/-- The times of sending in the slots of a ring, modulo `2 ^ 40`, and its index. -/
@[ext]
structure Timetable where
  size : Nat
  times : Nat → Nat
  index : UInt32

namespace Timetable

/-- The slot of the current event. -/
def slot (table : Timetable) : Nat := table.index.toNat % table.size

/-- The slot before the current one. -/
def slotBefore (table : Timetable) : Nat := (table.slot + table.size - 1) % table.size

/-- The time from which the next blink is reckoned. -/
def basis (table : Timetable) : Nat := table.times table.slotBefore

/-- A timetable with another time in a slot. -/
def set (table : Timetable) (slot time : Nat) : Timetable :=
  { table with times := Function.update table.times slot (time % 2 ^ 40) }

/-- What a landmark makes of a timetable, the length of an epoch being given. -/
def pass (epoch : Nat) (table : Timetable) : Landmark → Timetable
  | .began time =>
    let table := { table with index := 0 }
    table.set table.slotBefore time.toNat
  | .attempted => table.set table.slot (table.basis + 2 * epoch)
  | .rejected => table.set table.slotBefore (table.basis + epoch)
  | .completed | .received => { table with index := table.index + 1 }
  | .timed | .accepted | .acknowledged => table

/-- What a course of landmarks makes of a timetable. -/
def replay (epoch : Nat) (table : Timetable) (course : List Landmark) : Timetable :=
  course.foldl (pass epoch) table

/-- The times from which the blinks of a course are reckoned whose instants the radio is
told. -/
def bases (epoch : Nat) : Timetable → List Landmark → List Nat
  | _, [] => []
  | table, .timed :: course => table.basis :: bases epoch table course
  | table, landmark :: course => bases epoch (table.pass epoch landmark) course

variable (epoch : Nat) (table : Timetable)

@[simp] theorem replay_append (before after : List Landmark) :
    table.replay epoch (before ++ after) = (table.replay epoch before).replay epoch after :=
  List.foldl_append

/-- A course is told one part after the other. -/
@[simp] theorem bases_append (before after : List Landmark) :
    table.bases epoch (before ++ after) =
      table.bases epoch before ++ (table.replay epoch before).bases epoch after := by
  induction before generalizing table with
  | nil => rfl
  | cons landmark before ih => cases landmark <;> simp [bases, replay, pass, ih]

/-- Every time is a reading of the device clock. -/
def Bounded (table : Timetable) : Prop := ∀ slot, table.times slot < 2 ^ 40

variable {epoch table}

theorem Bounded.set (h : table.Bounded) (slot time : Nat) : (table.set slot time).Bounded := by
  intro other
  change Function.update table.times slot (time % 2 ^ 40) other < 2 ^ 40
  rcases eq_or_ne other slot with rfl | hother
  · rw [Function.update_self]
    exact Nat.mod_lt _ (Nat.two_pow_pos 40)
  · rw [Function.update_of_ne hother]
    exact h other

theorem Bounded.pass (h : table.Bounded) (landmark : Landmark) :
    (table.pass epoch landmark).Bounded := by
  cases landmark with
  | began | attempted | rejected => exact Bounded.set h _ _
  | timed | accepted | acknowledged | completed | received => exact h

/-- The times from which blinks are reckoned are readings of the device clock. -/
theorem Bounded.bases_lt (h : table.Bounded) {course : List Landmark} {time : Nat}
    (hmem : time ∈ table.bases epoch course) : time < 2 ^ 40 := by
  induction course generalizing table with
  | nil => cases hmem
  | cons landmark course ih =>
      cases landmark with
      | timed =>
          rcases List.mem_cons.mp hmem with rfl | hmem
          · exact h _
          · exact ih h hmem
      | _ => exact ih (h.pass _) hmem

/-! ### Full rounds -/

/-- A landmark moves the index on by one slot at most. -/
theorem index_pass_le (landmark : Landmark) :
    (table.pass epoch landmark).index.toNat ≤ table.index.toNat + 1 := by
  cases landmark with
  | began => exact Nat.zero_le _
  | completed | received =>
      rw [pass, UInt32.toNat_add]
      exact Nat.mod_le _ _
  | attempted | rejected | timed | accepted | acknowledged => exact Nat.le_succ _

/-- Two timetables with the same times, of which one has gone some full rounds ahead. -/
structure Aligned (table ahead : Timetable) : Prop where
  size : ahead.size = table.size
  times : ahead.times = table.times
  slot : ahead.slot = table.slot

namespace Aligned

variable {ahead : Timetable}

theorem slotBefore (h : Aligned table ahead) : ahead.slotBefore = table.slotBefore := by
  rw [Timetable.slotBefore, h.slot, h.size, Timetable.slotBefore]

theorem basis (h : Aligned table ahead) : ahead.basis = table.basis := by
  rw [Timetable.basis, h.times, h.slotBefore, Timetable.basis]

theorem set (h : Aligned table ahead) (slot time : Nat) :
    Aligned (table.set slot time) (ahead.set slot time) :=
  ⟨h.size, by rw [Timetable.set, h.times, Timetable.set], h.slot⟩

/-- Aligned timetables stay so unless an index wraps around. -/
theorem pass (h : Aligned table ahead) (landmark : Landmark)
    (fits : table.index.toNat + 1 < 2 ^ 32) (fitsAhead : ahead.index.toNat + 1 < 2 ^ 32) :
    Aligned (table.pass epoch landmark) (ahead.pass epoch landmark) := by
  cases landmark with
  | began time =>
      have hbegan : Aligned { table with index := 0 } { ahead with index := 0 } :=
        ⟨h.size, h.times, by simp [Timetable.slot]⟩
      rw [Timetable.pass, Timetable.pass, hbegan.slotBefore]
      exact hbegan.set _ _
  | attempted =>
      rw [Timetable.pass, Timetable.pass, h.slot, h.basis]
      exact h.set _ _
  | rejected =>
      rw [Timetable.pass, Timetable.pass, h.slotBefore, h.basis]
      exact h.set _ _
  | completed | received =>
      refine ⟨h.size, h.times, ?_⟩
      have hslot := h.slot
      simp only [Timetable.slot, Timetable.pass, h.size, UInt32.toNat_add, UInt32.toNat_one]
        at hslot ⊢
      rw [Nat.mod_eq_of_lt fits, Nat.mod_eq_of_lt fitsAhead, Nat.add_mod, hslot, ← Nat.add_mod]
  | timed | accepted | acknowledged => exact h

/-- Aligned timetables reckon the blinks of a course from the same times. -/
theorem bases (h : Aligned table ahead) {course : List Landmark}
    (fits : table.index.toNat + course.length < 2 ^ 32)
    (fitsAhead : ahead.index.toNat + course.length < 2 ^ 32) :
    ahead.bases epoch course = table.bases epoch course := by
  induction course generalizing table ahead with
  | nil => rfl
  | cons landmark course ih =>
      rw [List.length_cons] at fits fitsAhead
      have hindex : (table.pass epoch landmark).index.toNat ≤ _ := index_pass_le landmark
      have hindexAhead : (ahead.pass epoch landmark).index.toNat ≤ _ := index_pass_le landmark
      have hcourse : (ahead.pass epoch landmark).bases epoch course =
          (table.pass epoch landmark).bases epoch course :=
        ih (h.pass landmark (by omega) (by omega)) (by omega) (by omega)
      cases landmark with
      | timed => exact congrArg₂ List.cons h.basis hcourse
      | _ => exact hcourse

end Aligned

/-- Receptions move the index on and change no time. -/
theorem replay_replicate_received (count : Nat) :
    table.replay epoch (List.replicate count .received) =
      { table with index := table.index + .ofNat count } := by
  induction count generalizing table with
  | zero => simp [replay]
  | succ count ih =>
      rw [List.replicate_succ]
      refine ih.trans ?_
      simp only [pass, Nat.add_comm count, UInt32.ofNat_add, UInt32.add_assoc]
      rfl

/-- Nothing is sent in a course of receptions. -/
theorem bases_replicate_received (count : Nat) :
    table.bases epoch (List.replicate count .received) = [] := by
  induction count generalizing table with
  | zero => rfl
  | succ count ih => exact ih

theorem size_replay (course : List Landmark) : (table.replay epoch course).size = table.size := by
  induction course generalizing table with
  | nil => rfl
  | cons landmark course ih => cases landmark <;> exact ih

/-- Receptions in full rounds of the ring leave the schedule as it is, wherever they come. -/
theorem bases_of_full_round (before after : List Landmark)
    (fits : (table.replay epoch before).index.toNat + table.size + after.length < 2 ^ 32) :
    table.bases epoch (before ++ List.replicate table.size .received ++ after) =
      table.bases epoch (before ++ after) := by
  have hindex : ((table.replay epoch before).index + .ofNat table.size).toNat =
      (table.replay epoch before).index.toNat + table.size := by
    rw [UInt32.toNat_add, UInt32.toNat_ofNat', Nat.mod_eq_of_lt (by omega : table.size < 2 ^ 32),
      Nat.mod_eq_of_lt (by omega)]
  have haligned : Aligned (table.replay epoch before)
      { table.replay epoch before with
        index := (table.replay epoch before).index + .ofNat table.size } := by
    refine ⟨rfl, rfl, ?_⟩
    rw [slot, slot, hindex, size_replay, Nat.add_mod_right]
  rw [List.append_assoc, bases_append, bases_append, bases_append, bases_replicate_received,
    List.nil_append, replay_replicate_received]
  refine congrArg _ (haligned.bases (by omega) ?_)
  rw [hindex]
  exact fits

end Timetable

/-! ## The timetable of a ring -/

namespace FrameRing

/-- The times of sending in the slots of a ring. -/
def timetable (ring : FrameRing) : Timetable where
  size := ring.size
  times slot := ring.slots[slot]?.elim 0 (·.sent.toNat % 2 ^ 40)
  index := ring.index

variable (ring : FrameRing) (change : Frame → Frame)

/-- The next blink is reckoned from the previous frame. -/
theorem basis_timetable : ring.timetable.basis = ring.previous.sent.toNat % 2 ^ 40 := by
  have hslot : ring.slots[ring.slotBefore ring.index]? = some ring.previous :=
    Array.getElem?_eq_getElem (ring.slotBefore_lt ring.index)
  change (ring.slots[ring.slotBefore ring.index]?).elim 0 _ = _
  rw [hslot]
  rfl

theorem bounded_timetable : ring.timetable.Bounded := by
  intro slot
  change (ring.slots[slot]?).elim 0 _ < _
  cases ring.slots[slot]? with
  | none => exact Nat.two_pow_pos 40
  | some frame => exact Nat.mod_lt _ (Nat.two_pow_pos 40)

/-- A change of the frame in one slot is one of the time there. -/
theorem timetable_modifySlot {slot : Nat} (h : slot < ring.slots.size) :
    (ring.modifySlot slot change).timetable =
      ring.timetable.set slot (change ring.slots[slot]).sent.toNat := by
  ext other
  · exact size_modifySlot ring slot change
  · by_cases hother : slot = other
    · subst hother
      simp [timetable, Timetable.set, modifySlot, Array.getElem?_modify, h]
    · simp [timetable, Timetable.set, modifySlot, Array.getElem?_modify, hother, Ne.symm hother]
  · rfl

theorem timetable_modifyCurrent : (ring.modifyCurrent change).timetable =
    ring.timetable.set ring.timetable.slot (change ring.current).sent.toNat :=
  timetable_modifySlot ring change (ring.slot_lt ring.index)

theorem timetable_modifyPrevious : (ring.modifyPrevious change).timetable =
    ring.timetable.set ring.timetable.slotBefore (change ring.previous).sent.toNat :=
  timetable_modifySlot ring change (ring.slotBefore_lt ring.index)

/-- A change that leaves the time of sending alone leaves the timetable alone. -/
theorem timetable_modifyCurrent_of_sent (h : ∀ frame, (change frame).sent = frame.sent) :
    (ring.modifyCurrent change).timetable = ring.timetable := by
  have hslot := ring.slot_lt ring.index
  ext other
  · exact size_modifyCurrent ring change
  · by_cases hother : ring.slot ring.index = other
    · subst hother
      simp [timetable, modifyCurrent, modifySlot, Array.getElem?_modify, hslot, h]
    · simp [timetable, modifyCurrent, modifySlot, Array.getElem?_modify, hother]
  · rfl

end FrameRing

/-- The instant two epochs after a time. -/
def Calibration.dueAfter (calibration : Calibration) (time : Nat) : Nat :=
  (time + 2 * calibration.epoch.ticks.toNat) % 2 ^ 40

/-- The next blink is due two epochs after the time from which it is reckoned. -/
theorem Calibration.toNat_nextInstant (calibration : Calibration) :
    calibration.nextInstant.ticks.toNat =
      calibration.dueAfter calibration.ring.timetable.basis := by
  rw [nextInstant, Instant.toNat_add, Instant.toNat_add, Instant.toNat_truncate,
    ← FrameRing.basis_timetable, Nat.mod_add_mod, Nat.add_assoc, ← Nat.two_mul, dueAfter]

/-- What a move makes of the instance, its landmark makes of the timetable. -/
theorem Move.timetable {node : Node} {calibration later : Calibration}
    {landmark : Option Landmark} (move : Move node calibration landmark later) :
    later.ring.timetable =
      calibration.ring.timetable.replay calibration.epoch.ticks.toNat landmark.toList := by
  cases move with
  | manage idle _ ring => rcases idle with rfl | rfl <;> rw [ring] <;> rfl
  | time | release | accept | close | complete => rfl
  | restart calm time mode =>
      refine (FrameRing.timetable_modifyPrevious _ _).trans ?_
      rw [Frame.sentAt, Timetable.set, Instant.toNat_truncate, Nat.mod_mod]
      rfl
  | prepare =>
      refine (FrameRing.timetable_modifyCurrent _ _).trans ?_
      rw [Timetable.set, Calibration.toNat_nextInstant, Calibration.dueAfter, Nat.mod_mod]
      rfl
  | reject =>
      refine (FrameRing.timetable_modifyPrevious _ _).trans ?_
      rw [Frame.sentAt, Timetable.set, Instant.toNat_add, Instant.toNat_truncate,
        ← FrameRing.basis_timetable, Nat.mod_mod]
      rfl
  | receive => exact FrameRing.timetable_modifyCurrent_of_sent _ _ fun _ ↦ rfl
  | correct => exact FrameRing.timetable_modifyCurrent_of_sent _ _ fun _ ↦ rfl

/-! ## Retracing a run -/

/-- The times from which an instance reckons the blinks of a course that is to come. -/
def Calibration.bases (calibration : Calibration) (course : List Landmark) : List Nat :=
  calibration.ring.timetable.bases calibration.epoch.ticks.toNat course

/-- What an instance has become since it was `initial` is told by the entries since. -/
structure Retraced (initial : Calibration) (added : List (Entry ε)) (calibration : Calibration) :
    Prop where
  config : calibration.config = initial.config
  /-- The slots are as the timetable has them. -/
  timetable : calibration.ring.timetable =
    initial.ring.timetable.replay initial.epoch.ticks.toNat (landmarks added)
  /-- The radio was told the instants two epochs after the times in the timetable. -/
  told : (instants added).map (·.toNat) =
    (initial.bases (landmarks added)).map initial.dueAfter
  /-- A blink that is armed is due two epochs after the time in the timetable. -/
  due : calibration.phase = .armed →
    calibration.ring.current.sent.toNat = initial.dueAfter calibration.ring.timetable.basis

namespace Retraced

variable {initial calibration later : Calibration} {added more : List (Entry ε)}

/-- An instance that is not armed is retraced from itself. -/
theorem refl (h : initial.phase ≠ .armed) : Retraced initial ([] : List (Entry ε)) initial :=
  ⟨rfl, rfl, rfl, fun armed ↦ absurd armed h⟩

/-- The epoch does not change. -/
theorem epoch (h : Retraced initial added calibration) : calibration.epoch = initial.epoch := by
  rw [Calibration.epoch, h.config, Calibration.epoch]

/-- A move is retraced along with what came before it. -/
theorem move (h : Retraced initial added calibration) {node : Node} {landmark : Option Landmark}
    (move : Move node calibration landmark later) (passed : landmarks more = landmark.toList)
    (told : instants more =
      if landmark = some .timed then [calibration.ring.current.sent] else []) :
    Retraced initial (added ++ more) later := by
  have htold : (instants more).map (·.toNat) =
      (calibration.ring.timetable.bases initial.epoch.ticks.toNat landmark.toList).map
        initial.dueAfter := by
    cases move with
    | time armed => simp [told, Timetable.bases, h.due armed]
    | manage idle => rcases idle with rfl | rfl <;> simp [told, Timetable.bases]
    | _ => simp [told, Timetable.bases]
  refine ⟨move.config.trans h.config, ?_, ?_, fun armed ↦ ?_⟩
  · rw [move.timetable, h.epoch, h.timetable, landmarks_append, passed, Timetable.replay_append]
  · rw [instants_append, List.map_append, h.told, htold, landmarks_append, passed,
      Calibration.bases, Calibration.bases, Timetable.bases_append, List.map_append, h.timetable]
  · rw [FrameRing.basis_timetable]
    cases move with
    | manage _ _ ring phase =>
        rw [ring, h.due (phase ▸ armed), FrameRing.basis_timetable]
    | time => rw [h.due armed, FrameRing.basis_timetable]
    | restart calm => exact absurd armed calm
    | receive calm => exact absurd armed calm
    | prepare =>
        rw [Calibration.prepare, FrameRing.previous_modifyCurrent,
          FrameRing.current_modifyCurrent, Calibration.toNat_nextInstant,
          FrameRing.basis_timetable, Calibration.dueAfter, h.epoch, Calibration.dueAfter]
    | correct =>
        rw [Calibration.correct, FrameRing.previous_modifyCurrent,
          FrameRing.current_modifyCurrent, h.due armed, FrameRing.basis_timetable]
    | _ => cases armed

end Retraced

namespace Calibration

variable (calibration : Calibration)

/-- The time two epochs before an instant. -/
def dueBefore (instant : Nat) : Nat :=
  (instant + (2 ^ 40 - 2 * calibration.epoch.ticks.toNat % 2 ^ 40)) % 2 ^ 40

/-- Which time a blink was reckoned from is seen from the instant. -/
theorem dueBefore_dueAfter {time : Nat} (h : time < 2 ^ 40) :
    calibration.dueBefore (calibration.dueAfter time) = time := by
  rw [dueBefore, dueAfter]
  omega

/-- The times that blinks were reckoned from are seen from their instants. -/
theorem map_dueBefore_bases (course : List Landmark) :
    ((calibration.bases course).map calibration.dueAfter).map calibration.dueBefore =
      calibration.bases course := by
  rw [List.map_map]
  refine (List.map_congr_left fun time hmem ↦ ?_).trans (List.map_id _)
  exact calibration.dueBefore_dueAfter
    (calibration.ring.bounded_timetable.bases_lt hmem)

end Calibration

/-- The radio is told the same instants exactly if blinks are reckoned from the same times. -/
theorem Retraced.instants_eq {initial calibration calibration' : Calibration}
    {added added' : List (Entry ε)} (h : Retraced initial added calibration)
    (h' : Retraced initial added' calibration') :
    instants added = instants added' ↔
      initial.bases (landmarks added) = initial.bases (landmarks added') := by
  constructor
  · intro heq
    rw [← initial.map_dueBefore_bases, ← h.told, heq, h'.told, initial.map_dueBefore_bases]
  · intro heq
    refine (List.map_inj_right fun _ _ ↦ UInt64.toNat_inj.mp).mp ?_
    rw [h.told, heq, h'.told]

/-- So it is if one has passed a full round of receptions more. -/
theorem Retraced.instants_eq_of_round {initial calibration calibration' : Calibration}
    {added added' : List (Entry ε)} (h : Retraced initial added calibration)
    (h' : Retraced initial added' calibration') {before after : List Landmark}
    (passed : landmarks added = before ++ List.replicate initial.ring.size .received ++ after)
    (passed' : landmarks added' = before ++ after)
    (fits : (initial.ring.timetable.replay initial.epoch.ticks.toNat before).index.toNat +
      initial.ring.size + after.length < 2 ^ 32) : instants added = instants added' := by
  refine (h.instants_eq h').mpr ?_
  rw [passed, passed']
  exact Timetable.bases_of_full_round before after fits

/-! ## Every pair of runs -/

namespace World

variable [Radio ρ ε] {start world left right : World ρ ε} {initial : Calibration}

/-- Whatever a run from an instance reaches is retraced. -/
theorem Reaches.retraced {allowed : Operation → Prop} (reached : Reaches allowed start world)
    (calm : start.Calm) (present : start.node.calibration = some initial) :
    ∃ added calibration, world.history = start.history ++ added ∧
      world.node.calibration = some calibration ∧ Retraced initial added calibration := by
  refine reached.invariant (P := fun world ↦ ∃ added calibration,
    world.history = start.history ++ added ∧ world.node.calibration = some calibration ∧
      Retraced initial added calibration) calm
    ⟨[], initial, (List.append_nil _).symm, present, .refl (calm.ne_armed present)⟩ ?_
  rintro world later ⟨added, calibration, hhistory, hpresent, h⟩ step
  cases step.moves with
  | absent before => cases before.symm.trans hpresent
  | created before => cases before.symm.trans hpresent
  | @moved _ calibration' landmark before after move more history passed phases told =>
      cases before.symm.trans hpresent
      refine ⟨added ++ more, calibration', ?_, after, h.move move passed told⟩
      rw [history, hhistory, List.append_assoc]

/-- **Receptions and the schedule.**  Two runs from one instance arm their blinks for the
same instants exactly if the replay of what they pass finds the same times before the current
slot, from which the blinks are reckoned.  The replay moves on with completions and receptions
alike, so this is what runs that differ in receptions alone have to meet.  They do if what they
differ in is a full round of the ring, wherever it comes, unless the index wraps around. -/
theorem instants_eq_iff {allowed allowed' : Operation → Prop} (calm : start.Calm)
    (present : start.node.calibration = some initial) (hleft : Reaches allowed start left)
    (hright : Reaches allowed' start right) :
    ∃ sinceLeft sinceRight, left.history = start.history ++ sinceLeft ∧
      right.history = start.history ++ sinceRight ∧
      (instants sinceLeft).map (·.toNat) =
        (initial.bases (landmarks sinceLeft)).map initial.dueAfter ∧
      (instants sinceRight).map (·.toNat) =
        (initial.bases (landmarks sinceRight)).map initial.dueAfter ∧
      (instants left.history = instants right.history ↔
        initial.bases (landmarks sinceLeft) = initial.bases (landmarks sinceRight)) ∧
      ∀ before after,
        landmarks sinceLeft = before ++ List.replicate initial.ring.size .received ++ after →
        landmarks sinceRight = before ++ after →
        (initial.ring.timetable.replay initial.epoch.ticks.toNat before).index.toNat +
          initial.ring.size + after.length < 2 ^ 32 →
        instants left.history = instants right.history := by
  obtain ⟨sinceLeft, _, hhistory, -, h⟩ := hleft.retraced calm present
  obtain ⟨sinceRight, _, hhistory', -, h'⟩ := hright.retraced calm present
  rw [hhistory, hhistory', instants_append, instants_append, List.append_cancel_left_eq]
  exact ⟨sinceLeft, sinceRight, rfl, rfl, h.told, h'.told, h.instants_eq h',
    fun _ _ ↦ h.instants_eq_of_round h'⟩

/-- After one reception a node blinks two epochs after what was sent a round ago, and not two
epochs after the schedule began. -/
theorem instants_ne_of_reception :
    let start := (fresh { period := 1000, latency := 100 } 66
      { systemTime := 1048576, received := [0xc2, 0, 8, 7, 6, 5, 4, 3, 2, 1] } {} :
        World Radio.Scripted Radio.Failure).run [.init 2 anyMaster]
    let left := start.run [.receptionInterrupt, .blink .blocking]
    let right := start.run [.blink .blocking]
    (landmarks left.history).filter (· ≠ .received) = landmarks right.history ∧
      instants left.history = [2 * 32768000] ∧
      instants right.history = [1048576 + 2 * 32768000] := by
  decide +kernel

/-- After a full round of receptions it blinks as if there had been none. -/
theorem instants_eq_of_full_round :
    let start := (fresh { period := 1000, latency := 100 } 66
      { systemTime := 1048576, received := [0xc2, 0, 8, 7, 6, 5, 4, 3, 2, 1] } {} :
        World Radio.Scripted Radio.Failure).run [.init 2 anyMaster]
    let left := start.run [.receptionInterrupt, .receptionInterrupt, .blink .blocking]
    let right := start.run [.blink .blocking]
    ∃ initial sinceLeft sinceRight, start.node.calibration = some initial ∧
      left.history = start.history ++ sinceLeft ∧ right.history = start.history ++ sinceRight ∧
      landmarks sinceLeft = List.replicate 2 .received ++ landmarks sinceRight ∧
      instants left.history = instants right.history ∧
      initial.bases (landmarks sinceLeft) = initial.bases (landmarks sinceRight) := by
  intro start left right
  have hring : start.node.calibration.map (fun initial ↦ (initial.ring.size, initial.ring.index)) =
      some (2, 0) := by decide +kernel
  have hcalm : start.node.phase? ≠ some .armed := by decide +kernel
  obtain ⟨initial, present, hinitial⟩ := Option.map_eq_some_iff.mp hring
  obtain ⟨hsize, hindex⟩ := Prod.mk.inj hinitial
  have hleft : Reaches (fun _ ↦ True) start left := Reaches.refl.run (by simp)
  have hright : Reaches (fun _ ↦ True) start right := Reaches.refl.run (by simp)
  obtain ⟨sinceLeft, sinceRight, hhistory, hhistory', -, -, hiff, hround⟩ :=
    instants_eq_iff hcalm present hleft hright
  let blink : List Landmark := [.attempted, .timed, .accepted, .acknowledged, .completed]
  have hblink : landmarks right.history = landmarks start.history ++ blink := by decide +kernel
  have hheard : landmarks left.history =
      landmarks start.history ++ (List.replicate 2 .received ++ blink) := by decide +kernel
  rw [hhistory', landmarks_append, List.append_cancel_left_eq] at hblink
  rw [hhistory, landmarks_append, List.append_cancel_left_eq] at hheard
  have fits : initial.ring.index.toNat + initial.ring.size + blink.length < 2 ^ 32 := by
    rw [hsize, hindex]
    decide
  have hinstants := hround [] blink (by rwa [hsize]) hblink fits
  exact ⟨initial, sinceLeft, sinceRight, present, hhistory, hhistory', hblink ▸ hheard,
    hinstants, hiff.mp hinstants⟩

end World

end ClockCalibration
