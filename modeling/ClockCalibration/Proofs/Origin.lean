import ClockCalibration.Proofs.Slots

/-!
# The frames of events

The event of a frame is queued after the frame was written to the ring, so that the frame must
be traced back to the entry that wrote it.  The frame of a received event was written by the
latest reception, to the slot of the index that its event gets.  The frame of a completed blink
was written by the latest attempt.  That is in the slot of the index of its event as well if
nothing was received while the blink was pending; otherwise each reception has moved the index on
past the slot by one.
-/

namespace ClockCalibration

open Relation (ReflTransGen)

variable {ρ ε : Type}

/-! ## The latest attempt -/

/-- A course in which a blink was attempted and not completed yet. -/
def Attempted (course : List Landmark) : Prop :=
  ∃ earlier since, course = earlier ++ .attempted :: since ∧ .attempted ∉ since ∧
    .completed ∉ since

/-- A blink that was attempted stays the latest one until it is completed. -/
theorem Attempted.append {course : List Landmark} {landmark : Option Landmark}
    (h : Attempted course) (hattempted : landmark ≠ some .attempted)
    (hcompleted : landmark ≠ some .completed) : Attempted (course ++ landmark.toList) := by
  obtain ⟨earlier, since, rfl, hattempt, hcompletion⟩ := h
  refine ⟨earlier, since ++ landmark.toList, by simp, ?_, ?_⟩
  · simpa [hattempt, Option.mem_toList, eq_comm] using hattempted
  · simpa [hcompletion, Option.mem_toList, eq_comm] using hcompleted

namespace World

/-- A world's latest blink was attempted with a frame, and these landmarks were passed since. -/
def Blinked (history : List (Entry ε)) (frame : Frame) (since : List Landmark) : Prop :=
  ∃ past phase offset reply after,
    history = past ++
      ⟨phase, .exchange (.writeTransmitBuffer (Wire.encode frame) offset) reply⟩ :: after ∧
    landmarks after = since ∧ .attempted ∉ since

/-- No other was attempted since. -/
theorem Blinked.latest {history : List (Entry ε)} {frame : Frame} {since : List Landmark}
    (h : Blinked history frame since) : .attempted ∉ since := by
  obtain ⟨-, -, -, -, -, -, -, hsince⟩ := h
  exact hsince

/-- It stays the latest one until another is attempted. -/
theorem Blinked.append {history : List (Entry ε)} {frame : Frame} {since : List Landmark}
    (h : Blinked history frame since) {added : List (Entry ε)}
    (hattempted : .attempted ∉ landmarks added) :
    Blinked (history ++ added) frame (since ++ landmarks added) := by
  obtain ⟨past, phase, offset, reply, after, rfl, rfl, hsince⟩ := h
  refine ⟨past, phase, offset, reply, after ++ added, by simp, landmarks_append _ _, ?_⟩
  simp [hsince, hattempted]

/-- A course tells in one way only what was passed since the latest attempt. -/
theorem Blinked.since_eq {history : List (Entry ε)} {frame : Frame}
    {earlier since rest : List Landmark} (h : Blinked history frame since)
    (hcourse : landmarks history = earlier ++ .attempted :: rest) (hrest : .attempted ∉ rest) :
    since = rest := by
  obtain ⟨past, phase, offset, reply, after, rfl, rfl, hafter⟩ := h
  rw [landmarks_append] at hcourse
  change landmarks past ++ .attempted :: landmarks after = _ at hcourse
  obtain ⟨-, -, hsince⟩ := cut_unique (P := (· = .attempted)) hcourse rfl rfl
    (fun other hmem hother ↦ hafter (hother ▸ hmem)) fun other hmem hother ↦ hrest (hother ▸ hmem)
  exact hsince

variable {allowed : Operation → Prop} {start prior world : World ρ ε}

/-- A blink that is armed or pending was attempted and not completed yet. -/
theorem attempted_of_steps (steps : ReflTransGen (Step allowed) start world)
    (absent : start.node.calibration = none) {calibration : Calibration}
    (present : world.node.calibration = some calibration) (busy : calibration.phase ≠ .idle) :
    Attempted (landmarks world.history) := by
  induction steps generalizing calibration with
  | refl => cases absent.symm.trans present
  | tail _ step ih =>
      cases step.moves with
      | absent _ after => cases after.symm.trans present
      | created _ _ _ after =>
          cases after.symm.trans present
          exact absurd rfl busy
      | moved before after move history passed =>
          cases after.symm.trans present
          rw [history, landmarks_append, passed]
          cases move with
          | manage idle _ _ phase =>
              refine (ih before (phase ▸ busy)).append ?_ ?_ <;> rcases idle with rfl | rfl <;> simp
          | prepare => exact ⟨_, [], rfl, List.not_mem_nil, List.not_mem_nil⟩
          | release | reject | complete | close => exact absurd rfl busy
          | accept armed => exact (ih before (by simp [armed])).append (by simp) (by simp)
          | restart | time | receive | correct =>
              exact (ih before busy).append (by simp) (by simp)

/-- Only one header is heard last. -/
theorem Heard.unique {history : List (Entry ε)} {header other : BlinkHeader}
    (h : Heard history header) (h' : Heard history other) : header = other := by
  obtain ⟨past, phase, bytes, transfers, length, rfl, hdecode⟩ := h
  obtain ⟨past', phase', bytes', transfers', length', heq, hdecode'⟩ := h'
  cases List.singleton_inj.mp (List.append_inj' heq rfl).2
  cases hdecode.symm.trans hdecode'
  rfl

/-- The frame that was received last was put into the ring by its reception, since when nothing
was passed. -/
theorem reception_of_steps (empty : start.history = [])
    (steps : ReflTransGen (Step allowed) start world) {header : BlinkHeader} {time : UInt64}
    (received : Received world.history header time) :
    ∃ (prior next : World ρ ε) (earlier : Calibration) (phase : Option Phase)
      (transfers : List Bus.Transfer) (since : List (Entry ε)),
      ReflTransGen (Step allowed) start prior ∧ ReflTransGen (Step allowed) next world ∧
      next.history =
        prior.history ++ [⟨phase, .exchange .readReceptionTime ⟨.ok time, transfers⟩⟩] ∧
      world.history = next.history ++ since ∧ landmarks since = [] ∧
      prior.node.calibration = some earlier ∧
      next.node.calibration = some (earlier.receive header time) := by
  obtain ⟨past, phase, transfers, since, hheard, hsince, hhistory⟩ := received
  obtain ⟨prior, next, hfirst, -, hrest, rfl, hnext, earlier, _, hearlier, hheard', hreceived⟩ :=
    exists_step_of_entry steps (empty ▸ List.nil_prefix) hhistory
  obtain rfl := hheard.unique hheard'
  exact ⟨prior, next, earlier, phase, transfers, since, hfirst, hrest, hnext,
    by simp [hhistory, hnext], hsince, hearlier, hreceived⟩

/-- The frame that was received last is in the current slot, and what is left of it later is
told by what was passed since. -/
theorem kept_of_received (empty : start.history = [])
    (first : ReflTransGen (Step allowed) start prior)
    (rest : ReflTransGen (Step allowed) prior world) {header : BlinkHeader} {time : UInt64}
    (received : Received prior.history header time) {added : List (Entry ε)}
    (history : world.history = prior.history ++ added)
    (steady : ∀ time, .began time ∉ landmarks added) :
    ∃ calibration frame later, prior.node.calibration = some calibration ∧
      world.node.calibration = some later ∧ frame.header = header ∧
      frame.received = (Instant.truncate time).ticks ∧
      later.Kept frame calibration.ring.index (landmarks added) := by
  obtain ⟨_, next, earlier, _, _, since, -, hpath, -, hprior, hsince, -, hreceived⟩ :=
    reception_of_steps empty first received
  obtain ⟨calibration, hcalibration, -, -, hkept⟩ :=
    kept_of_steps hpath hreceived hprior (by simp [hsince])
  have hworld : world.history = next.history ++ (since ++ added) := by
    rw [history, hprior, List.append_assoc]
  have hpassed : landmarks (since ++ added) = landmarks added := by simp [hsince]
  obtain ⟨later, hlater, -, -, hkept'⟩ :=
    kept_of_steps (hpath.trans rest) hreceived hworld (by rwa [hpassed])
  have hindex := hkept.index_eq (by simp [hsince])
  rw [hpassed, ← hindex] at hkept'
  refine ⟨calibration, (earlier.receive header time).ring.current, later, hcalibration, hlater,
    ?_, ?_, hkept'⟩ <;> simp [Calibration.receive]

/-- A blink is not rejected once it is pending. -/
theorem not_rejected_of_steps (steps : ReflTransGen (Step allowed) prior world)
    {earlier calibration : Calibration} (before : prior.node.calibration = some earlier)
    (present : world.node.calibration = some calibration) (busy : calibration.phase ≠ .idle)
    {added : List (Entry ε)} (history : world.history = prior.history ++ added)
    (hattempted : .attempted ∉ landmarks added) : .rejected ∉ landmarks added := by
  obtain ⟨latest, hlatest, h⟩ : ∃ latest, world.node.calibration = some latest ∧
      (latest.phase = .idle ∨ .rejected ∉ landmarks added) := by
    refine instance_invariant steps
      (P := fun course latest ↦ latest.phase = .idle ∨ .rejected ∉ course)
      (Q := (· ≠ .attempted)) before (.inr List.not_mem_nil) ?_ history
      fun landmark hmem hattempt ↦ hattempted (hattempt ▸ hmem)
    rintro prior course earlier later landmark - - h move hpasses
    cases move with
    | prepare => exact absurd rfl (hpasses _ rfl)
    | release | reject | complete | close => exact .inl rfl
    | manage idle _ _ phase =>
        rw [phase]
        rcases idle with rfl | rfl <;> simpa using h
    | accept armed =>
        right
        simpa [armed] using h
    | restart | time | receive | correct =>
        refine h.imp id fun hrejected ↦ ?_
        simpa using hrejected
  cases present.symm.trans hlatest
  exact h.resolve_left busy

/-- A blink that is armed or pending was put into the ring by its attempt, and since then no
other was attempted, rejected or completed. -/
theorem attempt_of_steps (empty : start.history = []) (absent : start.node.calibration = none)
    (steps : ReflTransGen (Step allowed) start world) {calibration : Calibration}
    (present : world.node.calibration = some calibration) (busy : calibration.phase ≠ .idle) :
    ∃ (idle next : World ρ ε) (earlier : Calibration) (phase : Option Phase)
      (reply : Reply ε (.writeTransmitBuffer
        (Wire.encode (earlier.prepare idle.node.shortAddress.toUInt64).ring.current) 0))
      (after : List (Entry ε)),
      ReflTransGen (Step allowed) start idle ∧ Step allowed idle next ∧
      ReflTransGen (Step allowed) next world ∧
      next.history = idle.history ++ [⟨phase, .exchange (.writeTransmitBuffer _ 0) reply⟩] ∧
      world.history = next.history ++ after ∧
      idle.node.calibration = some earlier ∧
      next.node.calibration = some (earlier.prepare idle.node.shortAddress.toUInt64) ∧
      .attempted ∉ landmarks after ∧ .rejected ∉ landmarks after ∧
      .completed ∉ landmarks after := by
  obtain ⟨_, since, hlandmarks, hattempted, hcompleted⟩ :=
    attempted_of_steps steps absent present busy
  obtain ⟨before, ⟨phase, _⟩, after, hsplit, -, hattempt, rfl⟩ :=
    exists_entry_of_landmarks hlandmarks
  obtain ⟨payload, offset, reply, rfl⟩ := Happening.of_landmark?_attempted hattempt
  obtain ⟨idle, next, hfirst, hstep, hrest, rfl, hnext, earlier, hidle, -, rfl, rfl, hprepared⟩ :=
    exists_step_of_entry steps (empty ▸ List.nil_prefix) hsplit
  have history : world.history = next.history ++ after := by simp [hsplit, hnext]
  exact ⟨idle, next, earlier, phase, reply, after, hfirst, hstep, hrest, hnext, history, hidle,
    hprepared, hattempted,
    not_rejected_of_steps hrest hprepared present busy history hattempted, hcompleted⟩

/-- The frame of a completed blink is the one that was attempted.  Unless the schedule began anew
while it was pending, the index of its event is so many past that of the slot it was written to as
there were events in between, and what is left of the frame later is told by what was passed since
the attempt. -/
theorem kept_of_sent (empty : start.history = []) (absent : start.node.calibration = none)
    {claimed : World ρ ε} (first : ReflTransGen (Step allowed) start prior)
    (step : Step allowed prior claimed) (rest : ReflTransGen (Step allowed) claimed world)
    {phase : Option Phase} {index : UInt32}
    (sent : claimed.history = prior.history ++ [⟨phase, .log (.blinkSent index)⟩])
    {added : List (Entry ε)} (history : world.history = claimed.history ++ added)
    (steady : ∀ time, .began time ∉ landmarks added) :
    ∃ frame since later, Blinked prior.history frame since ∧ .completed ∉ since ∧
      world.node.calibration = some later ∧
      ((∀ time, .began time ∉ since) → ∃ written, index = written + .ofNat (events since) ∧
        later.Kept frame written (since ++ .completed :: landmarks added)) := by
  obtain ⟨calibration, present, pending, rfl, hclaimed⟩ := step.tells sent
  obtain ⟨later, hlater, -⟩ := kept_of_steps rest hclaimed history steady
  obtain ⟨idle, next, blinking, phase', reply, after, -, -, hpath, hnext, hprior, -, hprepared,
    hattempted, -, hcompleted⟩ := attempt_of_steps empty absent first present (by simp [pending])
  let frame := (blinking.prepare idle.node.shortAddress.toUInt64).ring.current
  have hblinked : Blinked prior.history frame (landmarks after) :=
    ⟨idle.history, phase', 0, reply, after, by simp [hprior, hnext, frame], rfl, hattempted⟩
  refine ⟨frame, landmarks after, later, hblinked, hcompleted, hlater, fun quiet ↦ ?_⟩
  obtain ⟨_, hpresent, -, -, hkept⟩ := kept_of_steps hpath hprepared hprior quiet
  cases present.symm.trans hpresent
  refine ⟨_, hkept.counted, ?_⟩
  have hworld : world.history = next.history ++
      (after ++ ⟨phase, .log (.blinkSent calibration.ring.index)⟩ :: added) := by
    rw [history, sent, hprior]
    simp
  have hpassed : landmarks (after ++ ⟨phase, .log (.blinkSent calibration.ring.index)⟩ :: added) =
      landmarks after ++ .completed :: landmarks added := by
    rw [landmarks_append]
    rfl
  obtain ⟨_, hpresent', -, -, hkept'⟩ := kept_of_steps ((hpath.tail step).trans rest) hprepared
    hworld (by simp [hpassed, quiet, steady])
  cases hlater.symm.trans hpresent'
  rwa [hpassed] at hkept'

end World

end ClockCalibration
