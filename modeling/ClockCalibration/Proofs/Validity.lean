import ClockCalibration.Proofs.Admission
import ClockCalibration.Proofs.Slots

/-!
# When an instance is valid

The drift of the clock is measured from one reception to the next, so an instance is not valid
before it has something to compare a reception with.  The model has no counter for that.  It looks
at the index, which completed blinks move on as well, which a start sets back and which wraps
around.

What the flag amounts to is told by the landmarks passed since the schedule last began, and
`Confirmed` is what has to be among them: a reception that some other event came before.  As long
as there were too few events for the index to have wrapped around, that is when the flag is set, and
nothing but a start takes it back.
-/

namespace ClockCalibration

open Relation (ReflTransGen)

variable {ρ ε : Type}

/-! ## Confirmed courses -/

/-- A frame was received when there had been another event already. -/
def Confirmed (course : List Landmark) : Prop :=
  ∃ before after, course = before ++ .received :: after ∧ 0 < events before

namespace Confirmed

variable {course : List Landmark}

/-- What is passed later confirms nothing but by being a reception itself. -/
theorem snoc_iff {landmark : Landmark} :
    Confirmed (course ++ [landmark]) ↔
      Confirmed course ∨ landmark = .received ∧ 0 < events course := by
  constructor
  · rintro ⟨before, after, hcourse, hevents⟩
    rcases cut_snoc hcourse with ⟨-, rfl, hlast⟩ | ⟨rest, -, hcourse⟩
    · exact .inr ⟨hlast, hevents⟩
    · exact .inl ⟨before, rest, hcourse, hevents⟩
  · rintro (⟨before, after, rfl, hevents⟩ | ⟨rfl, hevents⟩)
    · exact ⟨before, after ++ [landmark], by simp, hevents⟩
    · exact ⟨course, [], rfl, hevents⟩

/-- Blinks alone confirm nothing. -/
theorem received (h : Confirmed course) : .received ∈ course := by
  obtain ⟨before, after, rfl, -⟩ := h
  simp

/-- Where no blink is completed it takes a second reception. -/
theorem iff_two_le_count (passive : .completed ∉ course) :
    Confirmed course ↔ 2 ≤ course.count .received := by
  constructor
  · rintro ⟨before, after, rfl, hevents⟩
    have hcompleted : .completed ∉ before := fun hmem ↦ passive (List.mem_append_left _ hmem)
    rw [events, List.count_eq_zero_of_not_mem hcompleted] at hevents
    rw [List.count_append, List.count_cons_self]
    omega
  · intro htwo
    have hfirst : .received ∈ course := List.count_pos_iff.mp (by omega)
    obtain ⟨first, rest, rfl, hbefore⟩ := List.eq_append_cons_of_mem hfirst
    rw [List.count_append, List.count_eq_zero_of_not_mem hbefore, List.count_cons_self] at htwo
    have hsecond : .received ∈ rest := List.count_pos_iff.mp (by omega)
    obtain ⟨between, after, rfl⟩ := List.append_of_mem hsecond
    refine ⟨first ++ .received :: between, after, by simp, ?_⟩
    rw [events, List.count_append, List.count_append, List.count_cons_self]
    omega

end Confirmed

/-! ## The flag -/

namespace Calibration

/-- An instance has counted the events of a course since its schedule began, and tells by its flag
whether that is confirmed. -/
structure Confirms (calibration : Calibration) (course : List Landmark) : Prop where
  /-- Every event moved the index on. -/
  index : calibration.ring.index = .ofNat (events course)
  /-- The flag is right as long as the index has not come round. -/
  valid : events course < 2 ^ 32 → (calibration.status.valid = true ↔ Confirmed course)

variable {calibration later : Calibration} {course : List Landmark} {node : Node}
  {landmark : Option Landmark}

/-- An instance whose schedule begins is not valid. -/
theorem Confirms.began (index : calibration.ring.index = 0)
    (valid : calibration.status.valid = false) : calibration.Confirms [] where
  index := index
  valid _ := by simp [valid, Confirmed]

/-- Whether the instance is valid changes with receptions alone. -/
theorem valid_move (move : Move node calibration landmark later)
    (hbegan : ∀ time, landmark ≠ some (.began time)) :
    (landmark = some .received ∧ later.status.valid =
        (calibration.status.valid || decide (1 < calibration.ring.index + 1))) ∨
      landmark ≠ some .received ∧ later.status.valid = calibration.status.valid := by
  cases move with
  | manage idle _ _ _ _ valid => exact .inr ⟨by rcases idle with rfl | rfl <;> simp, valid⟩
  | restart _ time => exact absurd rfl (hbegan time)
  | receive => exact .inl ⟨rfl, rfl⟩
  | _ => exact .inr ⟨by simp, rfl⟩

/-- No move but a start takes the flag back. -/
theorem valid_of_move (move : Move node calibration landmark later)
    (hbegan : ∀ time, landmark ≠ some (.began time)) (valid : calibration.status.valid = true) :
    later.status.valid = true := by
  rcases valid_move move hbegan with ⟨-, hlater⟩ | ⟨-, hlater⟩
  · rw [hlater, valid, Bool.true_or]
  · rw [hlater, valid]

/-- The index of the next event is past one just if there has been an event. -/
theorem one_lt_next_iff (few : events course + 1 < 2 ^ 32)
    (index : calibration.ring.index = .ofNat (events course)) :
    1 < calibration.ring.index + 1 ↔ 0 < events course := by
  have hsmall : events course < 2 ^ 32 := by omega
  rw [index, UInt32.lt_iff_toNat_lt, UInt32.toNat_add, UInt32.toNat_ofNat_of_lt' hsmall]
  simp only [UInt32.toNat_one]
  omega

/-- So the flag stays right as long as the schedule does not begin anew. -/
theorem Confirms.move (h : calibration.Confirms course)
    (move : Move node calibration landmark later)
    (hbegan : ∀ time, landmark ≠ some (.began time)) :
    later.Confirms (course ++ landmark.toList) := by
  refine ⟨?_, fun few ↦ ?_⟩
  · rw [index_move move hbegan, h.index, events_append, UInt32.ofNat_add]
  · rw [events_append] at few
    have hvalid := h.valid (by omega)
    rcases valid_move move hbegan with ⟨rfl, hlater⟩ | ⟨hother, hlater⟩
    · have hnext := one_lt_next_iff few h.index
      rw [hlater, Bool.or_eq_true, decide_eq_true_iff, hvalid, hnext, Option.toList_some,
        Confirmed.snoc_iff, and_iff_right rfl]
    · rw [hlater, hvalid]
      cases landmark with
      | none => simp
      | some landmark =>
          have hreceived : landmark ≠ .received := fun heq ↦ hother (congrArg some heq)
          simp [Confirmed.snoc_iff, hreceived]

end Calibration

namespace World

variable {allowed : Operation → Prop} {start world : World ρ ε}

/-- In a run that begins without an instance the flag is right throughout. -/
theorem confirms_of_steps (steps : ReflTransGen (Step allowed) start world)
    (absent : start.node.calibration = none) {calibration : Calibration}
    (present : world.node.calibration = some calibration) :
    ∃ time since, Since (landmarks world.history) time since ∧ calibration.Confirms since := by
  induction steps generalizing calibration with
  | refl => cases absent.symm.trans present
  | tail _ step ih =>
      cases step.moves with
      | absent _ after => cases after.symm.trans present
      | created _ _ sized after passed =>
          cases after.symm.trans present
          rw [passed]
          have hindex := FrameRing.index_of_ofSize? _ sized
          exact ⟨_, [], .began _ _, .began hindex rfl⟩
      | @moved _ _ landmark before after move _ history passed =>
          cases after.symm.trans present
          rw [history, landmarks_append, passed]
          by_cases hbegan : ∃ time, landmark = some (.began time)
          · obtain ⟨time, rfl⟩ := hbegan
            cases move with
            | manage idle => simp at idle
            | restart => exact ⟨time, [], .began _ _, .began rfl rfl⟩
          · have hsteady : ∀ time, landmark ≠ some (.began time) := not_exists.mp hbegan
            obtain ⟨time, since, hsince, hconfirms⟩ := ih before
            exact ⟨time, _, hsince.append hsteady, hconfirms.move move hsteady⟩

/-- An instance that is valid stays so as long as the schedule does not begin anew. -/
theorem valid_of_steps (steps : ReflTransGen (Step allowed) start world)
    {calibration : Calibration} (present : start.node.calibration = some calibration)
    (valid : calibration.status.valid = true) {added : List (Entry ε)}
    (history : world.history = start.history ++ added)
    (steady : ∀ time, .began time ∉ landmarks added) :
    ∃ later, world.node.calibration = some later ∧ later.status.valid = true := by
  obtain ⟨later, hlater, -, -, hvalid⟩ := steady_invariant steps
    (P := fun _ later ↦ later.status.valid = true) present valid
    (fun h move hbegan ↦ Calibration.valid_of_move move hbegan h) history steady
  exact ⟨later, hlater, hvalid⟩

variable [Radio ρ ε]

/-- **The meaning of the flag.**  In every run, as long as there were fewer than `2 ^ 32` events
since the schedule last began, the instance is valid just if one of them was a reception that
another event, of whichever kind, came before.  So it is the second reception that makes an instance
valid that completes no blinks, and blinks alone never do.  Once it is valid it stays so, whatever
is done to the node, until the schedule begins anew.  Receptions are the frames that the receive
callback accepts, and completions what the transmit callback claims. -/
theorem valid_iff_confirmed {config : Config} {address : UInt16} {radio : ρ} {platform : Platform}
    (reached : Reaches allowed (.fresh config address radio platform) world)
    {calibration : Calibration} (present : world.node.calibration = some calibration) :
    (∃ time since, Since (landmarks world.history) time since ∧ (events since < 2 ^ 32 →
      (calibration.status.valid = true ↔
        ∃ before after, since = before ++ .received :: after ∧ 0 < events before) ∧
      (.completed ∉ since → (calibration.status.valid = true ↔ 2 ≤ since.count .received)) ∧
      (.received ∉ since → calibration.status.valid = false))) ∧
    (calibration.status.valid = true → ∀ (permitted : Operation → Prop) (later : World ρ ε),
      Reaches permitted world later → ∃ added, later.history = world.history ++ added ∧
        ((∀ time, .began time ∉ landmarks added) →
          ∃ latest, later.node.calibration = some latest ∧ latest.status.valid = true)) ∧
    (∀ called : World ρ ε,
      (∃ bytes time, called.Accepts bytes time) ∧
        landmarks (called.upon Node.receptionComplete).history =
          landmarks called.history ++ [.received] ∨
      (∀ bytes time, ¬ called.Accepts bytes time) ∧
        landmarks (called.upon Node.receptionComplete).history = landmarks called.history) ∧
    (∀ called : World ρ ε, ∃ claimed later,
      (Node.transmissionComplete : NodeM ρ ε Bool) called = .ok claimed later ∧
      landmarks later.history =
        landmarks called.history ++ if claimed then [.completed] else []) := by
  obtain ⟨calm, steps⟩ := reached.leads (calm_fresh config address radio platform)
  obtain ⟨time, since, hsince, hconfirms⟩ := confirms_of_steps steps rfl present
  refine ⟨⟨time, since, hsince, fun few ↦ ⟨hconfirms.valid few, fun passive ↦ ?_, fun none ↦ ?_⟩⟩,
    fun valid permitted later continued ↦ ?_, fun called ↦ ?_, Node.transmissionComplete_claims⟩
  · exact (hconfirms.valid few).trans (Confirmed.iff_two_le_count passive)
  · exact Bool.eq_false_iff.mpr fun valid ↦ none ((hconfirms.valid few).mp valid).received
  · have hsteps := (continued.leads calm).2
    obtain ⟨added, history⟩ := history_of_steps hsteps
    exact ⟨added, history, valid_of_steps hsteps present valid history⟩
  · by_cases haccepted : ∃ bytes time, called.Accepts bytes time
    · obtain ⟨bytes, time, accepted⟩ := haccepted
      obtain ⟨_, hcalled⟩ := Option.isSome_iff_exists.mp accepted.present
      exact .inl ⟨⟨bytes, time, accepted⟩, (Node.receptionComplete_of_accepts hcalled accepted).1⟩
    · have hrefused : ∀ bytes time, ¬ called.Accepts bytes time := by simpa using haccepted
      exact .inr ⟨hrefused, (Node.unmoved_of_not_accepts hrefused).landmarks⟩

/-- One reception is enough after a blink of one's own. -/
theorem valid_iff_confirmed_of_blink :
    let world := (fresh { period := 1000, latency := 100 } 66
      { systemTime := 1048576, receptionTime := 5000,
        received := [0xc2, 0, 8, 7, 6, 5, 4, 3, 2, 1] } {} :
          World Radio.Scripted Radio.Failure).run
        [.init 3 anyMaster, .start .nonBlocking, .blink .blocking, .receptionInterrupt]
    ∃ calibration since, world.node.calibration = some calibration ∧
      Since (landmarks world.history) 1048576 since ∧ since.count .received = 1 ∧
      events since = 2 ∧ calibration.status.valid = true ∧
      ∃ before after, since = before ++ .received :: after ∧ 0 < events before := by
  intro world
  have hcourse : landmarks world.history = [.began 1048576] ++ .began 1048576 ::
      [.attempted, .timed, .accepted, .acknowledged, .completed, .received] := by decide +kernel
  have hsince : Since (landmarks world.history) 1048576
      [.attempted, .timed, .accepted, .acknowledged, .completed, .received] :=
    ⟨by simp, _, hcourse⟩
  have hvalid : world.node.calibration.map (·.status.valid) = some true := by decide +kernel
  obtain ⟨calibration, present, valid⟩ := Option.map_eq_some_iff.mp hvalid
  have reached : Reaches (fun _ ↦ True) (fresh { period := 1000, latency := 100 } 66 _ {}) world :=
    Reaches.refl.run fun _ _ ↦ trivial
  obtain ⟨⟨time, since, hlast, hmeaning⟩, -⟩ := valid_iff_confirmed reached present
  obtain ⟨rfl, rfl⟩ := hsince.unique hlast
  exact ⟨calibration, _, present, hlast, rfl, rfl, valid, (hmeaning (by decide)).1.mp valid⟩

end World

end ClockCalibration
