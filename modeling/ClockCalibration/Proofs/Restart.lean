import ClockCalibration.Proofs.Cadence
import ClockCalibration.Proofs.Creation
import ClockCalibration.Proofs.Node.Trace
import ClockCalibration.Proofs.Slots

/-!
# The first blink of a stream

A start sets the index and the sequence number back to zero and puts the system time into
the slot before the first, from which the first blink is reckoned.  It leaves the cycle
alone: a blink that is pending stays so, and its completion moves the index on to one.
The first blink of the stream then finds that blink in the slot before its own, whenever
that was sent, and its own event comes second.

A stream is on a schedule in both cases.  `World.first_blink_of_start` says of which
instant it is reckoned.
-/

namespace ClockCalibration

open Relation (ReflTransGen)

variable {ρ ε : Type}

namespace Calibration

/-- The instant that a stream is reckoned from which begins at a system time: while a blink is
pending, its time of sending. -/
def basisAt (calibration : Calibration) (time : UInt64) : UInt64 :=
  if calibration.phase = .pending then (calibration.ring.get 0).sent else time

/-- How many blinks are pending, which is at most one. -/
def waiting (calibration : Calibration) : Nat := if calibration.phase = .pending then 1 else 0

theorem waiting_le_one (calibration : Calibration) : calibration.waiting ≤ 1 := by
  unfold waiting
  split <;> omega

/-- An instance in the course of a stream that is reckoned from a time. -/
structure Streams (calibration : Calibration) (basis : UInt64) (course : List Landmark) :
    Prop where
  /-- It is on the schedule of the stream. -/
  schedule : calibration.OnSchedule basis course
  /-- Every attempt comes to one of its ends, or is still under way. -/
  attempts : course.count .accepted + course.count .rejected +
    (if calibration.phase = .armed then 1 else 0) ≤ course.count .attempted

namespace Streams

variable {calibration later : Calibration} {basis : UInt64} {course : List Landmark}

/-- A start begins a stream, also while a blink is pending: that is then in slot zero as far as
the schedule goes. -/
theorem of_restart (dated : calibration.ring.Dated) (calm : calibration.phase ≠ .armed)
    (time : UInt64) (mode : BlinkMode) (handle : TimerHandle) :
    ((calibration.restart time mode).scheduled handle).Streams (calibration.basisAt time) [] where
  schedule := by
    refine ⟨rfl, rfl, fun _ quiet ↦ ?_, fun _ armed ↦ absurd armed calm, fun _ pending ↦ ?_⟩
    · have hbasis : calibration.basisAt time = time := if_neg quiet
      simp [hbasis, restart, scheduled, Frame.sentAt, Config.epochsAfter, elapsed]
    · have hbasis : calibration.basisAt time = (calibration.ring.get 0).sent := if_pos pending
      have hcurrent : (calibration.restart time mode).ring.current = calibration.ring.get 0 :=
        FrameRing.current_modifyPrevious _ _
      simpa [hbasis, hcurrent, scheduled, Config.epochsAfter, elapsed] using
        (Nat.mod_eq_of_lt (dated 0)).symm
  attempts := by simp [restart, scheduled, calm]

variable (h : calibration.Streams basis course)

include h

/-- A move that is neither a start nor a reception is one within the stream. -/
theorem move {node : Node} {landmark : Option Landmark}
    (move : Move node calibration landmark later)
    (hbegan : ∀ time, landmark ≠ some (.began time)) (hreceived : landmark ≠ some .received)
    (standard : calibration.phase = .pending →
      node.onTransmission = some .transmission ∧ node.outgoing = some .calibration) :
    later.Streams basis (course ++ landmark.toList) := by
  refine ⟨h.schedule.move move hbegan hreceived standard, ?_⟩
  have hattempts := h.attempts
  cases move with
  | manage idle _ _ phase => rcases idle with rfl | rfl <;> simpa [phase]
  | restart _ time => exact absurd rfl (hbegan time)
  | time => simpa
  | prepare idle => simpa [Calibration.prepare, idle] using hattempts
  | release armed | reject armed | accept armed =>
      simp only [armed, if_true] at hattempts
      simp [Calibration.release, Calibration.reject, Calibration.accept]
      omega
  | complete pending | close pending =>
      simpa [Calibration.complete, Calibration.release, pending] using hattempts
  | receive => exact absurd rfl hreceived
  | correct => simpa [Calibration.correct]

/-- The first attempt has sequence number zero and is due two epochs after the basis. -/
theorem first_prepared (idle : calibration.phase = .idle) (first : course.count .attempted = 0)
    (few : course.count .completed < 2 ^ 32) (address : UInt64) :
    (calibration.prepare address).ring.current.header.sequence = 0 ∧
      (calibration.prepare address).ring.current.sent.toNat =
        calibration.config.epochsAfter basis 2 := by
  obtain ⟨hsequence, hsent⟩ := h.schedule.prepared idle few address
  have hattempts := h.attempts
  have helapsed : elapsed course = 0 := by
    unfold elapsed
    omega
  rw [first] at hsequence
  rw [helapsed] at hsent
  exact ⟨UInt8.toNat_inj.mp hsequence, hsent⟩

/-- So is the time that is told for it. -/
theorem first_due (armed : calibration.phase = .armed) (first : course.count .attempted = 1)
    (few : course.count .completed < 2 ^ 32) :
    calibration.ring.current.sent.toNat = calibration.config.epochsAfter basis 2 := by
  have hsent := h.schedule.due few armed
  have hattempts := h.attempts
  rw [if_pos armed] at hattempts
  have helapsed : elapsed course = 0 := by
    unfold elapsed
    omega
  rwa [helapsed] at hsent

end Streams

end Calibration

namespace World

variable [Radio ρ ε] {world restarted later : World ρ ε} {calibration : Calibration}

/-- A start that can read the system time succeeds, and restarts the instance at that time. -/
theorem start_of_read (mode : BlinkMode) {time : UInt64}
    (present : world.node.calibration = some calibration)
    (read : (Radio.perform .readSystemTime world.radio : Reply ε .readSystemTime × ρ).1.answer =
      .ok time) :
    ∃ restarted handle, (Node.start mode : NodeM ρ ε Unit) world = .ok () restarted ∧
      restarted.node.calibration = some ((calibration.restart time mode).scheduled handle) := by
  exact ⟨_, world.platform.schedule.1, Node.start_of_read present mode read,
    congrArg (Option.map _) (congrArg (Option.map _) present)⟩

/-- A run goes on from a start that succeeds. -/
theorem Reaches.of_start {origin : World ρ ε} {mode : BlinkMode}
    (reached : Reaches Operation.KeepsTransmission origin world)
    (started : (Node.start mode : NodeM ρ ε Unit) world = .ok () restarted) :
    Reaches Operation.KeepsTransmission origin restarted := by
  have hafter : world.after (.start mode) = restarted :=
    (after_eq_upon world _).trans (upon_of_ok started)
  exact hafter ▸ reached.operation trivial

section

variable {config : Config} {address : UInt16} {radio : ρ} {platform : Platform}
variable {mode : BlinkMode} {time : UInt64}
  (reached : Reaches Operation.KeepsTransmission (.fresh config address radio platform) world)
  (present : world.node.calibration = some calibration)
  (read : (Radio.perform .readSystemTime world.radio : Reply ε .readSystemTime × ρ).1.answer =
    .ok time)
  (started : (Node.start mode : NodeM ρ ε Unit) world = .ok () restarted)

include reached present read started

/-- After a start, an instance is in the course of the stream that the start began, as long as
nothing is received; and every blink that was pending or was accepted since has been completed,
or is still pending. -/
theorem stream_of_start
    (steps : ReflTransGen (Step Operation.KeepsTransmission) restarted later)
    {added : List (Entry ε)} (history : later.history = restarted.history ++ added)
    (steady : ∀ landmark ∈ landmarks added,
      landmark ≠ .received ∧ ∀ other, landmark ≠ .began other) :
    ∃ latest, later.node.calibration = some latest ∧ latest.config = calibration.config ∧
      latest.Streams (calibration.basisAt time) (landmarks added) ∧
      calibration.waiting + (landmarks added).count .accepted =
        (landmarks added).count .completed + latest.waiting := by
  obtain ⟨hcalm, hsteps⟩ := reached.leads (calm_fresh config address radio platform)
  have hsteps' := ((reached.of_start started).leads (calm_fresh config address radio platform)).2
  have hstandard := (Standard.fresh config address radio platform).steps hsteps'
  have hcounted := (Counted.fresh config address radio platform).steps
    (.fresh config address radio platform) hsteps'
  obtain ⟨_, handle, hstart, hrestarted⟩ := start_of_read mode present read
  cases hstart.symm.trans started
  have hdated := dated_of_steps hsteps rfl present
  obtain ⟨latest, hlatest, hconfig, hstreams⟩ : ∃ latest, later.node.calibration = some latest ∧
      latest.config = calibration.config ∧
      latest.Streams (calibration.basisAt time) (landmarks added) := by
    refine instance_invariant steps
      (P := fun course latest ↦ latest.config = calibration.config ∧
        latest.Streams (calibration.basisAt time) course)
      (Q := fun landmark ↦ landmark ≠ .received ∧ ∀ other, landmark ≠ .began other) hrestarted
      ⟨rfl, .of_restart hdated (hcalm.ne_armed present) time mode handle⟩ ?_ history steady
    rintro prior course earlier latest landmark hprior hearlier ⟨hconfig, hstreams⟩ move hpasses
    have hprior := hstandard.steps hprior
    refine ⟨move.config.trans hconfig, hstreams.move move ?_ ?_ fun pending ↦ ?_⟩
    · rintro other rfl
      exact (hpasses _ rfl).2 other rfl
    · rintro rfl
      exact (hpasses _ rfl).1 rfl
    · refine ⟨hprior.callback _ hearlier, hprior.outgoing ?_⟩
      rw [Node.phase?, hearlier, Option.map_some, pending]
  refine ⟨latest, hlatest, hconfig, hstreams, ?_⟩
  have hbalance := hcounted.balance
  have hbalance' := (hcounted.steps hstandard steps).balance
  have hphase : restarted.node.phase? = some calibration.phase := by
    rw [Node.phase?, hrestarted]
    rfl
  have hphase' : later.node.phase? = some latest.phase := by rw [Node.phase?, hlatest]; rfl
  rw [history, landmarks_append, List.count_append, List.count_append] at hbalance'
  simp only [hphase, hphase', Option.some.injEq] at hbalance hbalance'
  unfold Calibration.waiting
  omega

/-- An entry made in the course of a stream tells of a step within it. -/
theorem tells_of_stream
    (continued : Reaches Operation.KeepsTransmission restarted later)
    {before after : List (Entry ε)} {entry : Entry ε}
    (history : later.history = restarted.history ++ (before ++ entry :: after))
    (steady : ∀ landmark ∈ landmarks (before ++ entry :: after),
      landmark ≠ .received ∧ ∀ other, landmark ≠ .began other) :
    ∃ (prior next : World ρ ε) (latest : Calibration), Tells prior next entry.happening ∧
      prior.history = restarted.history ++ before ∧ prior.node.calibration = some latest ∧
      latest.config = calibration.config ∧
      latest.Streams (calibration.basisAt time) (landmarks before) ∧
      calibration.waiting + (landmarks before).count .accepted =
        (landmarks before).count .completed + latest.waiting := by
  have hcalm := ((reached.of_start started).leads (calm_fresh config address radio platform)).1
  rw [← List.append_assoc] at history
  obtain ⟨prior, next, hprior, -, -, hbefore, -, htells⟩ := exists_step_of_entry
    (continued.leads hcalm).2 (List.prefix_append restarted.history before) history
  obtain ⟨latest, hlatest, hconfig, hstreams, hbalance⟩ := stream_of_start reached present read
    started hprior hbefore fun landmark hmem ↦ steady landmark (by
      rw [landmarks_append]
      exact List.mem_append_left _ hmem)
  exact ⟨prior, next, latest, htells, hbefore, hlatest, hconfig, hstreams, hbalance⟩

/-- The completion of the first blink that is accepted in a stream is noted under index zero, or
one if a blink was pending when it began. -/
theorem index_of_first_completion
    (continued : Reaches Operation.KeepsTransmission restarted later)
    {before after : List (Entry ε)} {phase : Option Phase} {index : UInt32}
    (history : later.history =
      restarted.history ++ (before ++ ⟨phase, .log (.blinkSent index)⟩ :: after))
    (steady : ∀ landmark ∈ landmarks (before ++ ⟨phase, .log (.blinkSent index)⟩ :: after),
      landmark ≠ .received ∧ ∀ other, landmark ≠ .began other)
    (accepted : (landmarks before).count .accepted = 1) :
    index.toNat = calibration.waiting := by
  obtain ⟨prior, next, latest, htells, -, hlatest, -, hstreams, hbalance⟩ :=
    tells_of_stream reached present read started continued history steady
  obtain ⟨_, hpresent, pending, rfl, -⟩ := htells
  cases hlatest.symm.trans hpresent
  have hwaiting : latest.waiting = 1 := if_pos pending
  have hle := calibration.waiting_le_one
  rw [hstreams.schedule.index, Nat.mod_eq_of_lt (by omega)]
  omega

/-- **A fresh stream.**  However a node was run with the standard transmit callback, a start that
succeeds begins a stream.  As long as nothing is received and it is not started again, the first
blink of the stream carries sequence number zero; it is armed two epochs after the system time
that the start read, or, if a blink was pending then, after the time of sending in slot zero;
and if it is accepted and completed, its event has index zero, or one if a blink was pending. -/
theorem first_blink_of_start
    (continued : Reaches Operation.KeepsTransmission restarted later)
    {added : List (Entry ε)} (history : later.history = restarted.history ++ added)
    (steady : ∀ landmark ∈ landmarks added,
      landmark ≠ .received ∧ ∀ other, landmark ≠ .began other) :
    let basis := if calibration.phase = .pending then (calibration.ring.get 0).sent else time
    let due := (basis.toNat + 2 * (calibration.config.period.toNat * 2 ^ 15)) % 2 ^ 40
    (∀ before phase payload offset reply after, added = before ++
        ⟨phase, .exchange (.writeTransmitBuffer payload offset) reply⟩ :: after →
      (landmarks before).count .attempted = 0 →
      offset = 0 ∧ ∃ frame : Frame, Wire.decode payload = .ok (frame, 30) ∧
        frame.header.sequence = 0 ∧ frame.sent.toNat = due) ∧
    (∀ before phase instant reply after, added = before ++
        ⟨phase, .exchange (.setDelayedStart instant) reply⟩ :: after →
      (landmarks before).count .attempted = 1 → instant.toNat = due) ∧
    (∀ before phase happening after index, added = before ++ ⟨phase, happening⟩ :: after →
      (landmarks before).count .attempted = 1 → (landmarks before).count .accepted = 1 →
      (happening = .log (.blinkSent index) ∨
        ∃ queued, happening = .enqueue (.postprocess .tx index) queued) →
      index.toNat = if calibration.phase = .pending then 1 else 0) := by
  intro basis due
  have hwaiting := calibration.waiting_le_one
  refine ⟨?_, ?_, ?_⟩
  · rintro before phase payload offset reply after rfl hfirst
    obtain ⟨prior, next, latest, htells, -, hlatest, hconfig, hstreams, hbalance⟩ :=
      tells_of_stream reached present read started continued history steady
    obtain ⟨_, hpresent, idle, rfl, rfl, -⟩ := htells
    cases hlatest.symm.trans hpresent
    have hattempts := hstreams.attempts
    obtain ⟨hsequence, hsent⟩ := hstreams.first_prepared idle hfirst (by omega)
      prior.node.shortAddress.toUInt64
    rw [hconfig] at hsent
    exact ⟨rfl, _, Wire.decode_encode_frame _, hsequence, hsent⟩
  · rintro before phase instant reply after rfl hfirst
    obtain ⟨prior, next, latest, htells, -, hlatest, hconfig, hstreams, hbalance⟩ :=
      tells_of_stream reached present read started continued history steady
    obtain ⟨_, hpresent, armed, rfl⟩ := htells
    cases hlatest.symm.trans hpresent
    have hattempts := hstreams.attempts
    have hsent := hstreams.first_due armed hfirst (by omega)
    rwa [hconfig] at hsent
  · rintro before phase happening after index rfl - haccepted (rfl | ⟨queued, rfl⟩)
    · exact index_of_first_completion reached present read started continued history steady
        haccepted
    · -- the event is queued right after its completion was noted
      obtain ⟨prior, next, latest, htells, hprior, -⟩ :=
        tells_of_stream reached present read started continued history steady
      obtain ⟨⟨past, phase', ⟨_, hpast, heq⟩ | ⟨_, _, _, _, -, -, -, heq⟩⟩, -⟩ := htells
      · cases heq
        rcases List.eq_nil_or_concat before with rfl | ⟨rest, last, rfl⟩
        · simp at haccepted
        · rw [List.concat_eq_append] at history hprior haccepted steady
          rw [hpast, ← List.append_assoc] at hprior
          obtain rfl := List.singleton_inj.mp (List.append_inj' hprior rfl).2
          rw [List.append_assoc rest] at history steady
          refine index_of_first_completion reached present read started continued history steady ?_
          simpa [Happening.landmark?] using haccepted
      · cases heq

end

/-- The first blink of a stream that begins while no other is pending. -/
theorem first_blink_of_idle_start :
    let world := (fresh {} 7 { systemTime := 5 } {} : World Radio.Scripted Radio.Failure).run
      [.init 2 0, .blink .blocking]
    let restarted := world.after (.start .nonBlocking)
    let later := restarted.after (.blink .blocking)
    instants later.history = [5 + 2 * 32768000000, 5 + 2 * 32768000000] ∧
    ∃ added, later.history = restarted.history ++ added ∧
      ∀ before phase instant reply after, added = before ++
          ⟨phase, .exchange (.setDelayedStart instant) reply⟩ :: after →
        (landmarks before).count .attempted = 1 →
        instant.toNat = (5 + 2 * (1000000 * 2 ^ 15)) % 2 ^ 40 := by
  intro world restarted later
  have hinstants : instants later.history = [5 + 2 * 32768000000, 5 + 2 * 32768000000] := by
    decide +kernel
  have hpresent : world.node.calibration.map (fun calibration ↦
      (calibration.phase, calibration.config.period)) = some (.idle, 1000000) := by
    decide +kernel
  have hpassed : landmarks later.history = landmarks restarted.history ++
      [.attempted, .timed, .accepted, .acknowledged, .completed] := by decide +kernel
  obtain ⟨calibration, present, hcalibration⟩ := Option.map_eq_some_iff.mp hpresent
  obtain ⟨idle, hperiod⟩ := Prod.mk.inj hcalibration
  have hread : (Radio.perform .readSystemTime world.radio :
      Reply Radio.Failure .readSystemTime × Radio.Scripted).1.answer = .ok 5 := by decide +kernel
  obtain ⟨ended, -, started, -⟩ := start_of_read .nonBlocking present hread
  obtain rfl : restarted = ended := (after_eq_upon world _).trans (upon_of_ok started)
  have hreached : Reaches Operation.KeepsTransmission (.fresh {} 7 { systemTime := 5 } {}) world :=
    Reaches.refl.run (by simp [Operation.KeepsTransmission])
  have hcontinued : Reaches Operation.KeepsTransmission restarted later :=
    Reaches.refl.operation trivial
  have hcalm := ((hreached.of_start started).leads (calm_fresh _ _ _ _)).1
  obtain ⟨added, hadded⟩ := history_of_steps (hcontinued.leads hcalm).2
  rw [hadded, landmarks_append] at hpassed
  have hfirst := (first_blink_of_start hreached present hread started hcontinued hadded
    (by simp [List.append_cancel_left hpassed])).2.1
  refine ⟨hinstants, added, hadded, ?_⟩
  intro before phase instant reply after hsplit hcount
  simpa [idle, hperiod] using hfirst before phase instant reply after hsplit hcount

/-- The first blink of a stream that begins while another is pending is reckoned from that. -/
theorem first_blink_of_pending_start :
    let world := (fresh { period := 1000, latency := 100 } 66 { systemTime := 1048576 } {} :
      World Radio.Scripted Radio.Failure).run [.init 2 anyMaster, .blink .nonBlocking]
    let waited : World Radio.Scripted Radio.Failure :=
      { world with radio := { systemTime := 500000000 } }
    let restarted := waited.after (.start .nonBlocking)
    let later := restarted.after (.blink .blocking)
    (landmarks restarted.history).getLast? = some (.began 500000000) ∧
      instants restarted.history = [1048576 + 2 * 32768000] ∧
      instants later.history = [1048576 + 2 * 32768000, 1048576 + 4 * 32768000] ∧
      (1048576 + 4 * 32768000 : Nat) ≠ (500000000 + 2 * (1000 * 2 ^ 15)) % 2 ^ 40 ∧
      later.platform.queue = [.postprocess .tx 0, .postprocess .tx 1] := by
  decide +kernel

end World

end ClockCalibration
