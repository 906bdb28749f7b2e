import ClockCalibration.Proofs.FrameRing
import ClockCalibration.Proofs.Node.Request
import ClockCalibration.Proofs.Run
import ClockCalibration.Proofs.Time
import ClockCalibration.Radio.Scripted

/-!
# Creation and start

An instance is created with the configuration of the node, a number of slots and the system time,
and started with the system time again.  Each of these may be wrong or out of reach, and then
nothing has been done yet: everything is checked before anything is changed, and the only trace of
an attempt that failed is that the radio was asked for the time.

The outcomes of `Node.init` and `Node.start` are told one by one here, each under what it takes, and
`World.creation_outcome` puts them together.
-/

namespace ClockCalibration

variable {ρ ε : Type}

/-! ## A new ring -/

namespace FrameRing

variable (ring : FrameRing) {size : Nat}

/-- The slots of a new instance are empty, but for the time that is in the last of them. -/
theorem slots_previous_of_ofSize? (sized : ofSize? size = some ring) (instant : Instant)
    {slot : Nat} (hslot : slot < size) :
    (ring.modifyPrevious (·.sentAt instant)).slots[slot]? =
      some { Frame.template with sent := if slot + 1 = size then instant.ticks else 0 } := by
  have hslots := slots_of_ofSize? ring sized
  have hsize : ring.size = size := by rw [FrameRing.size, hslots, Array.size_replicate]
  have hindex := index_of_ofSize? ring sized
  change (ring.slots.modify (ring.slotBefore ring.index) _)[slot]? = _
  rw [hindex, slotBefore_zero, hsize, hslots, Array.getElem?_modify, Array.getElem?_replicate,
    if_pos hslot]
  by_cases hlast : slot + 1 = size
  · rw [if_pos (by omega), if_pos hlast]
    rfl
  · rw [if_neg (by omega), if_neg hlast]
    rfl

end FrameRing

namespace Node

open World

variable {world later : World ρ ε} {calibration : Calibration}

/-! ## Creation -/

/-- With a valid configuration the number of slots decides whether there is a ring. -/
theorem newRing_of_valid (valid : world.node.config.isValid = true) (count : Nat) :
    (newRing count : NodeM ρ ε FrameRing) world = match FrameRing.ofSize? count with
      | some ring => .ok ring world
      | none => .error (.invalidFrameCount count) world := by
  rw [newRing, get_bind, valid]
  cases FrameRing.ofSize? count <;> rfl

variable [Radio ρ ε]

section Absent

variable (absent : world.node.calibration = none) (count : Nat) (master : UInt64)

include absent

theorem init_of_absent :
    (init count master : NodeM ρ ε Calibration) world = create count master world := by
  rw [init, get_bind, absent]

/-- Without a valid configuration nothing is created. -/
theorem init_of_invalid (invalid : ¬ world.node.config.isValid = true) :
    (init count master : NodeM ρ ε Calibration) world = .error .invalidConfiguration world := by
  rw [init_of_absent absent]
  refine bind_of_error ?_ _
  rw [newRing, get_bind, Bool.eq_false_iff.mpr invalid]
  rfl

variable (valid : world.node.config.isValid = true)

include valid

/-- Neither is anything with another number of slots. -/
theorem init_of_misfit (misfit : ¬ (2 ≤ count ∧ count ≤ 16)) :
    (init count master : NodeM ρ ε Calibration) world =
      .error (.invalidFrameCount count) world := by
  rw [init_of_absent absent]
  refine bind_of_error ?_ _
  rw [newRing_of_valid valid count, FrameRing.ofSize?_eq_none_iff.mpr misfit]

variable {count} {ring : FrameRing} (sized : FrameRing.ofSize? count = some ring)

include sized

/-- Without the system time nothing is created either, though it was asked for. -/
theorem init_of_unread {failure : ε}
    (unread : (Radio.perform .readSystemTime world.radio).1.answer = .error failure) :
    (init count master : NodeM ρ ε Calibration) world =
      .error (.radio failure) (world.asking .readSystemTime) := by
  have hring := newRing_of_valid valid count
  rw [sized] at hring
  rw [init_of_absent absent, create, bind_of_ok hring]
  exact bind_of_error (ask_of_failed unread) _

/-- With the system time the instance is created. -/
theorem init_of_read {time : UInt64}
    (read : (Radio.perform .readSystemTime world.radio).1.answer = .ok time) :
    let created := Calibration.create world.node.config ring time
    (init count master : NodeM ρ ε Calibration) world = .ok created
      (((world.asking .readSystemTime).updating (·.withCalibration created master)).noting
        (.log (.created count world.node.config.period master))) := by
  have hring := newRing_of_valid valid count
  rw [sized] at hring
  rw [init_of_absent absent, create, bind_of_ok hring, bind_of_ok (ask_of_answered read)]
  rfl

omit valid sized

variable (count)

/-- There is no other outcome. -/
theorem init_outcome :
    let init : NodeM ρ ε Calibration := Node.init count master
    let systemTime := (Radio.perform .readSystemTime world.radio).1.answer
    (∃ error later, init world = .error error later ∧
      (later = world ∨ later = world.asking .readSystemTime)) ∨
    ∃ ring time, world.node.config.isValid = true ∧ FrameRing.ofSize? count = some ring ∧
      systemTime = .ok time ∧
      init world = .ok (.create world.node.config ring time)
        (((world.asking .readSystemTime).updating
          (·.withCalibration (.create world.node.config ring time) master)).noting
            (.log (.created count world.node.config.period master))) := by
  intro init systemTime
  by_cases valid : world.node.config.isValid = true
  · cases sized : FrameRing.ofSize? count with
    | none =>
        have misfit := FrameRing.ofSize?_eq_none_iff.mp sized
        exact .inl ⟨_, _, init_of_misfit absent count master valid misfit, .inl rfl⟩
    | some ring =>
        cases read : systemTime with
        | error failure =>
            exact .inl ⟨_, _, init_of_unread absent master valid sized read, .inr rfl⟩
        | ok time =>
            exact .inr ⟨ring, time, valid, rfl, rfl, init_of_read absent master valid sized read⟩
  · exact .inl ⟨_, _, init_of_invalid absent count master valid, .inl rfl⟩

end Absent

/-- An instance that there is stays, if it has as many slots as are asked for. -/
theorem init_of_present (present : world.node.calibration = some calibration) (count : Nat)
    (master : UInt64) :
    (init count master : NodeM ρ ε Calibration) world =
      if calibration.ring.size = count then
        .ok calibration (world.updating fun node ↦ { node with clockMaster := master })
      else .error (.frameCountMismatch calibration.ring.size count) world := by
  rw [init, get_bind, present]
  by_cases matching : calibration.ring.size = count
  · rw [if_pos matching]
    exact congrFun (if_neg (not_not.mpr matching)) world
  · rw [if_neg matching]
    exact congrFun (if_pos matching) world

/-! ## Start -/

/-- Without the system time nothing is started. -/
theorem start_of_unread (present : world.node.calibration = some calibration) (mode : BlinkMode)
    {failure : ε}
    (unread : (Radio.perform .readSystemTime world.radio).1.answer = .error failure) :
    (start mode : NodeM ρ ε Unit) world =
      .error (.radio failure) (world.asking .readSystemTime) := by
  rw [start, bind_of_ok (requireCalibration_of_some world present)]
  exact bind_of_error (ask_of_failed unread) _

/-- With it the schedule begins anew, and an expiry of the timer is scheduled. -/
theorem start_of_read (present : world.node.calibration = some calibration) (mode : BlinkMode)
    {time : UInt64} (read : (Radio.perform .readSystemTime world.radio).1.answer = .ok time) :
    (start mode : NodeM ρ ε Unit) world = .ok ()
      ((((world.asking .readSystemTime).recalibrating (·.restart time mode)).noting
        (.log (.started calibration.config.startDelay))).scheduling
          calibration.config.startDelay) := by
  rw [start, bind_of_ok (requireCalibration_of_some world present),
    bind_of_ok (ask_of_answered read)]
  rfl

/-! ## Failures -/

/-- A creation that fails leaves but the question for the system time behind. -/
theorem asked_of_init_eq_error {count : Nat} {master : UInt64} {error : Error ε}
    (failed : (init count master : NodeM ρ ε Calibration) world = .error error later) :
    later = world ∨ later = world.asking .readSystemTime := by
  cases hcalibration : world.node.calibration with
  | some calibration =>
      rw [init_of_present hcalibration] at failed
      split at failed <;> cases failed
      exact .inl rfl
  | none =>
      rcases init_outcome hcalibration count master with
        ⟨_, _, hinit, hasked⟩ | ⟨_, _, -, -, -, hinit⟩
      · cases hinit.symm.trans failed
        exact hasked
      · cases hinit.symm.trans failed

/-- So does a start. -/
theorem asked_of_start_eq_error {mode : BlinkMode} {error : Error ε}
    (failed : (start mode : NodeM ρ ε Unit) world = .error error later) :
    later = world ∨ later = world.asking .readSystemTime := by
  cases hcalibration : world.node.calibration with
  | none =>
      cases (bind_of_error (requireCalibration_of_none world hcalibration) _).symm.trans failed
      exact .inl rfl
  | some calibration =>
      cases read : (Radio.perform .readSystemTime world.radio).1.answer with
      | error failure =>
          cases (start_of_unread hcalibration mode read).symm.trans failed
          exact .inr rfl
      | ok time => cases (start_of_read hcalibration mode read).symm.trans failed

end Node

namespace World

variable [Radio ρ ε]

/-- **All or nothing.**  Without an instance, one is created just if the configuration is valid, the
number of slots is from 2 to 16, and the system time is read; the first of these that is not so is
the error.  The new instance has index 0, empty slots but for the low 40 bits of the system time in
the last, no blink under way, sequence number 0, and the standard sink and callbacks.  An instance
that there is is kept if it has as many slots as are asked for, and then only the clock master
changes; otherwise that is the error.  And whenever a creation or a start fails, the node and its
platform are as they were, and nothing has happened but that the radio was perhaps asked for the
system time. -/
theorem creation_outcome (world : World ρ ε) (count : Nat) (master : UInt64) :
    let init : NodeM ρ ε Calibration := Node.init count master
    let asked := world.asking .readSystemTime
    let systemTime := (Radio.perform .readSystemTime world.radio).1.answer
    (world.node.calibration = none →
      ((∃ created later, init world = .ok created later) ↔
        world.node.config.isValid = true ∧ (2 ≤ count ∧ count ≤ 16) ∧
          ∃ time, systemTime = .ok time) ∧
      (¬ world.node.config.isValid = true → init world = .error .invalidConfiguration world) ∧
      (world.node.config.isValid = true → ¬ (2 ≤ count ∧ count ≤ 16) →
        init world = .error (.invalidFrameCount count) world) ∧
      (world.node.config.isValid = true → 2 ≤ count ∧ count ≤ 16 →
        ∀ failure, systemTime = .error failure → init world = .error (.radio failure) asked) ∧
      (∀ created later, init world = .ok created later →
        ∃ ring time, systemTime = .ok time ∧ ring.index = 0 ∧ ring.size = count ∧
          (∀ slot < count, ring.slots[slot]? = some { Frame.template with
            sent := if slot + 1 = count then .ofNat (time.toNat % 2 ^ 40) else 0 }) ∧
          created =
            { config := world.node.config
              ring
              status := { initialized := true }
              phase := .idle
              timer := none
              timerMode := .nonBlocking
              postprocess := world.node.config.postprocess
              sink := .log
              sequence := 0 } ∧
          later.node = { world.node with
            clockMaster := master
            calibration := some created
            onReception := some .reception
            onTransmission := some .transmission } ∧
          later.platform = world.platform)) ∧
    (∀ calibration, world.node.calibration = some calibration →
      init world = if calibration.ring.size = count then
          .ok calibration { world with node := { world.node with clockMaster := master } }
        else .error (.frameCountMismatch calibration.ring.size count) world) ∧
    (∀ error later, (init world = .error error later ∨
        ∃ mode, Node.start mode world = .error error later) →
      (later = world ∨ later = asked) ∧
        later.node = world.node ∧ later.platform = world.platform) := by
  intro init asked systemTime
  refine ⟨fun absent ↦ ⟨?_, Node.init_of_invalid absent count master,
    Node.init_of_misfit absent count master, fun valid fits failure unread ↦ ?_,
    fun created later h ↦ ?_⟩, fun calibration present ↦ ?_, ?_⟩
  · constructor
    · rintro ⟨created, later, h⟩
      rcases Node.init_outcome absent count master with
        ⟨_, _, hinit, -⟩ | ⟨ring, time, valid, sized, read, -⟩
      · cases hinit.symm.trans h
      · have fits : 2 ≤ count ∧ count ≤ 16 := by
          by_contra misfit
          cases (FrameRing.ofSize?_eq_none_iff.mpr misfit).symm.trans sized
        exact ⟨valid, fits, time, read⟩
    · rintro ⟨valid, fits, time, read⟩
      obtain ⟨ring, sized⟩ := FrameRing.exists_ofSize? fits
      exact ⟨_, _, Node.init_of_read absent master valid sized read⟩
  · obtain ⟨ring, sized⟩ := FrameRing.exists_ofSize? fits
    exact Node.init_of_unread absent master valid sized unread
  · rcases Node.init_outcome absent count master with
      ⟨_, _, hinit, -⟩ | ⟨ring, time, -, sized, read, hinit⟩
    · cases hinit.symm.trans h
    · cases hinit.symm.trans h
      have hlow : .ofNat (time.toNat % 2 ^ 40) = (Instant.truncate time).ticks := by
        rw [← Instant.toNat_truncate, UInt64.ofNat_toNat]
      refine ⟨_, time, read, ?_, ?_, fun slot hslot ↦ ?_, rfl, rfl, rfl⟩
      · exact FrameRing.index_of_ofSize? ring sized
      · rw [FrameRing.size_modifyPrevious, FrameRing.size, FrameRing.slots_of_ofSize? ring sized,
          Array.size_replicate]
      · rw [hlow]
        exact FrameRing.slots_previous_of_ofSize? ring sized _ hslot
  · exact Node.init_of_present present count master
  · intro error later failed
    have hlater : later = world ∨ later = asked := by
      rcases failed with failed | ⟨mode, failed⟩
      · exact Node.asked_of_init_eq_error failed
      · exact Node.asked_of_start_eq_error failed
    refine ⟨hlater, ?_⟩
    rcases hlater with rfl | rfl <;> exact ⟨rfl, rfl⟩

/-- An instance with three slots is created, and is then kept by asking for one with three slots
and by asking for one with four. -/
theorem creation_outcome_of_three_slots :
    let world : World Radio.Scripted Radio.Failure :=
      fresh { period := 1000, latency := 100 } 66 { systemTime := 0x1000000004d } {}
    ∃ created later, Node.init 3 anyMaster world = .ok created later ∧
      created.ring.slots[0]? = some .template ∧
      created.ring.slots[2]? = some { Frame.template with sent := 0x4d } ∧
      later.node.calibration = some created ∧
      Node.init 3 5 later =
        .ok created { later with node := { later.node with clockMaster := 5 } } ∧
      Node.init 4 5 later = .error (.frameCountMismatch 3 4) later := by
  intro world
  obtain ⟨hiff, -, -, -, hcreated⟩ := (creation_outcome world 3 anyMaster).1 rfl
  obtain ⟨created, later, h⟩ := hiff.mpr ⟨by decide, by decide, 0x1000000004d, rfl⟩
  obtain ⟨ring, time, read, -, hsize, hslots, rfl, hnode, -⟩ := hcreated created later h
  obtain rfl : 0x1000000004d = time :=
    Except.ok.inj (read : (.ok 0x1000000004d : Except Radio.Failure UInt64) = .ok time)
  have hpresent : later.node.calibration = some _ := congrArg Node.calibration hnode
  have hkept (count : Nat) := (creation_outcome later count 5).2.1 _ hpresent
  refine ⟨_, later, h, hslots 0 (by decide), hslots 2 (by decide), hpresent, ?_, ?_⟩
  · exact (hkept 3).trans (if_pos hsize)
  · rw [hkept 4, hsize]
    rfl

end World

end ClockCalibration
