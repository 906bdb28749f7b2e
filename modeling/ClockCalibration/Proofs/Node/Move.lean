import ClockCalibration.Proofs.Node.Step

/-!
# What steps do to the instance

Much of what is said about runs is about the instance and the landmarks that are
passed: where the ring has got, what its slots hold, how far the cycle is.  For that
the steps are too fine.  `Step.moves` sums them up: a step creates the instance, or
makes a `Move` of it while at most one landmark is passed, or finds none and leaves
none.
-/

namespace ClockCalibration

variable {ρ ε : Type}

/-- What a step makes of the instance of a node, and the landmark that it passes. -/
inductive Move (node : Node) (calibration : Calibration) : Option Landmark → Calibration → Prop
  | /-- The timer, the sink or nothing at all changes. -/
    manage {landmark : Option Landmark} {later : Calibration}
      (idle : landmark = none ∨ landmark = some .acknowledged)
      (config : later.config = calibration.config) (ring : later.ring = calibration.ring)
      (phase : later.phase = calibration.phase) (sequence : later.sequence = calibration.sequence)
      (valid : later.status.valid = calibration.status.valid) :
      Move node calibration landmark later
  | /-- The schedule begins anew. -/
    restart (calm : calibration.phase ≠ .armed) (time : UInt64) (mode : BlinkMode) :
      Move node calibration (some (.began time)) (calibration.restart time mode)
  | /-- A blink is attempted. -/
    prepare (idle : calibration.phase = .idle) :
      Move node calibration (some .attempted) (calibration.prepare node.shortAddress.toUInt64)
  | /-- The radio is told when to send it. -/
    time (armed : calibration.phase = .armed) : Move node calibration (some .timed) calibration
  | /-- The attempt fails. -/
    release (armed : calibration.phase = .armed) : Move node calibration none calibration.release
  | /-- The radio rejects the blink. -/
    reject (armed : calibration.phase = .armed) :
      Move node calibration (some .rejected) calibration.reject
  | /-- The radio accepts the blink. -/
    accept (armed : calibration.phase = .armed) :
      Move node calibration (some .accepted) calibration.accept
  | /-- The completion of the blink is claimed. -/
    complete (pending : calibration.phase = .pending) :
      Move node calibration (some .completed) calibration.complete
  | /-- The cycle of the blink is closed without its completion being claimed. -/
    close (pending : calibration.phase = .pending)
      (foreign : node.onTransmission = some .transmission → node.outgoing ≠ some .calibration) :
      Move node calibration none calibration.release
  | /-- A frame is received. -/
    receive (calm : calibration.phase ≠ .armed) (header : BlinkHeader) (time : UInt64)
      (kind : header.kind? = some .calibration) :
      Move node calibration (some .received) (calibration.receive header time)
  | /-- The frame in the current slot is given its correction factor. -/
    correct (valid : calibration.status.valid = true) (correction : Binary32) :
      Move node calibration none (calibration.correct correction)

/-- An instance keeps the configuration that it was created with. -/
theorem Move.config {node : Node} {calibration later : Calibration} {landmark : Option Landmark}
    (move : Move node calibration landmark later) : later.config = calibration.config := by
  cases move with
  | manage _ config => exact config
  | _ => rfl

namespace World

/-- The instance and the history after a step, given those before. -/
inductive Moves (world later : World ρ ε) : Prop
  | /-- There is no instance, and nothing that only an instance can do is done. -/
    absent (before : world.node.calibration = none) (after : later.node.calibration = none)
      {landmark : Option Landmark} (idle : landmark = none ∨ landmark = some .acknowledged)
      (passed : landmarks later.history = landmarks world.history ++ landmark.toList)
  | /-- The instance is created. -/
    created (before : world.node.calibration = none) (valid : world.node.config.isValid = true)
      {size : Nat} {ring : FrameRing} (sized : FrameRing.ofSize? size = some ring) {time : UInt64}
      (after : later.node.calibration = some (.create world.node.config ring time))
      (passed : landmarks later.history = landmarks world.history ++ [.began time])
  | /-- The instance moves.  What is noted is noted in the phase before or after, and the only
    instant that the radio may be told is that of the current frame. -/
    moved {calibration calibration' : Calibration} {landmark : Option Landmark}
      (before : world.node.calibration = some calibration)
      (after : later.node.calibration = some calibration')
      (move : Move world.node calibration landmark calibration')
      {added : List (Entry ε)} (history : later.history = world.history ++ added)
      (passed : landmarks added = landmark.toList)
      (phases : ∀ entry ∈ added,
        entry.phase = some calibration.phase ∨ entry.phase = some calibration'.phase)
      (told : instants added =
        if landmark = some .timed then [calibration.ring.current.sent] else [])

variable {world later : World ρ ε}

/-- A move that is not noted. -/
theorem Moves.silent {calibration calibration' : Calibration}
    (before : world.node.calibration = some calibration)
    (after : later.node.calibration = some calibration')
    (move : Move world.node calibration none calibration')
    (history : later.history = world.history) : Moves world later :=
  .moved before after move (history.trans (List.append_nil _).symm) rfl
    (fun _ entry ↦ (nomatch entry)) rfl

/-- A move that is noted in the phase before, and by which the radio is told no instant. -/
theorem Moves.noted {calibration calibration' : Calibration} {happening : Happening ε}
    (before : world.node.calibration = some calibration)
    (after : later.node.calibration = some calibration')
    (move : Move world.node calibration happening.landmark? calibration')
    (history : later.history = world.history ++ [⟨world.node.phase?, happening⟩])
    (untold : happening.instant? = none) : Moves world later := by
  refine .moved before after move history (landmarks_singleton _) (fun entry hentry ↦ .inl ?_) ?_
  · rw [List.mem_singleton.mp hentry, Node.phase?, before]
    rfl
  · have huntimed : happening.landmark? ≠ some .timed := by
      unfold Happening.landmark?
      split <;> simp
      simp [Happening.instant?] at untold
    rw [instants_singleton, untold, if_neg huntimed]
    rfl

/-- A step that leaves the instance alone and notes nothing. -/
theorem Moves.of_eq (same : later.node.calibration = world.node.calibration)
    (history : later.history = world.history) : Moves world later := by
  cases before : world.node.calibration with
  | none => exact .absent before (same.trans before) (.inl rfl) (by simp [history])
  | some calibration =>
      exact .silent before (same.trans before) (.manage (.inl rfl) rfl rfl rfl rfl rfl) history

/-- A step that makes a silent change to the instance, if there is one. -/
theorem Moves.of_recalibrating {change : Calibration → Calibration}
    (h : ∀ calibration, Move world.node calibration none (change calibration)) :
    Moves world (world.recalibrating change) := by
  cases before : world.node.calibration with
  | none => exact .absent before (congrArg (Option.map change) before) (.inl rfl) (by simp)
  | some calibration => exact .silent before (congrArg (Option.map change) before) (h _) rfl

/-- An instance of a calm world is not armed. -/
theorem Calm.ne_armed (calm : world.Calm) {calibration : Calibration}
    (present : world.node.calibration = some calibration) : calibration.phase ≠ .armed := by
  intro armed
  exact calm (by rw [Node.phase?, present, Option.map_some, armed])

theorem Reaction.moves (step : Reaction world later) (calm : world.Calm) : Moves world later := by
  cases step with
  | surroundings | disown => exact .of_eq rfl rfl
  | note quiet =>
      cases before : world.node.calibration with
      | none => exact .absent before before quiet.landmark? (by simp)
      | some calibration =>
          exact .noted before before (.manage quiet.landmark? rfl rfl rfl rfl rfl) rfl
            (Happening.instant?_of_not_isArming quiet.not_isArming)
  | schedule present =>
      exact .noted present (congrArg (Option.map _) present)
        (.manage (.inl rfl) rfl rfl rfl rfl rfl) rfl rfl
  | offer present =>
      exact .noted present present (.manage (.inl rfl) rfl rfl rfl rfl rfl) rfl rfl
  | complete present pending =>
      refine .moved present (congrArg (Option.map _) present) (.complete pending) rfl rfl
        (fun entry hentry ↦ .inr ?_) rfl
      rw [List.mem_singleton.mp hentry, Node.phase?, node_recalibrating, present]
      rfl
  | close pending finished foreign =>
      obtain ⟨calibration, present, h⟩ := Option.map_eq_some_iff.mp pending
      refine .silent present ?_ (.close h foreign) rfl
      rw [node_updating, Node.closeCycle, if_pos pending, present]
      rfl
  | receive present _ kind =>
      exact .noted present (congrArg (Option.map _) present)
        (.receive (calm.ne_armed present) _ _ kind) rfl rfl
  | correct present valid =>
      exact .silent present (congrArg (Option.map _) present) (.correct valid _) rfl

theorem Arming.moves (step : Arming world later) : Moves world later := by
  cases step with
  | attempt present idle =>
      refine .moved present (congrArg (Option.map _) present) (.prepare idle) rfl rfl
        (fun entry hentry ↦ .inr ?_) rfl
      rw [List.mem_singleton.mp hentry, Node.phase?, node_recalibrating, present]
      rfl
  | request armed reply radio minor futile =>
      obtain ⟨calibration, present, -⟩ := Option.map_eq_some_iff.mp armed
      refine .noted present present (.manage (.inl futile) rfl rfl rfl rfl rfl) rfl ?_
      rcases minor with rfl | rfl | rfl <;> rfl
  | time present armed =>
      refine .moved present present (.time armed) rfl rfl (fun entry hentry ↦ .inl ?_) rfl
      rw [List.mem_singleton.mp hentry, Node.phase?, present]
      rfl
  | release armed =>
      obtain ⟨calibration, present, h⟩ := Option.map_eq_some_iff.mp armed
      exact .silent present (congrArg (Option.map _) present) (.release h) rfl
  | reject armed =>
      obtain ⟨calibration, present, h⟩ := Option.map_eq_some_iff.mp armed
      exact .noted present (congrArg (Option.map _) present) (.reject h) rfl rfl
  | accept armed =>
      obtain ⟨calibration, present, h⟩ := Option.map_eq_some_iff.mp armed
      exact .noted present (congrArg (Option.map _) present) (.accept h) rfl rfl

theorem Control.moves {allowed : Operation → Prop} (step : Control allowed world later)
    (calm : world.Calm) : Moves world later := by
  cases step with
  | create absent valid sized => exact .created absent valid sized rfl (landmarks_append _ _)
  | remaster => exact .of_eq rfl rfl
  | restart present =>
      exact .noted present (congrArg (Option.map _) present)
        (.restart (calm.ne_armed present) _ _) rfl rfl
  | stopped present =>
      exact .noted present present (.manage (.inl rfl) rfl rfl rfl rfl rfl) rfl rfl
  | halt => exact .of_recalibrating fun _ ↦ .manage (.inl rfl) rfl rfl rfl rfl rfl
  | timerFired => exact .of_recalibrating fun _ ↦ .manage (.inl rfl) rfl rfl rfl rfl rfl
  | withSink => exact .of_recalibrating fun _ ↦ .manage (.inl rfl) rfl rfl rfl rfl rfl

/-- What a step makes of the instance. -/
theorem Step.moves {allowed : Operation → Prop} (step : Step allowed world later) :
    Moves world later := by
  cases step with
  | turn turn =>
      cases turn with
      | reaction calm step => exact step.moves calm
      | arming step => exact step.moves
  | control calm step => exact step.moves calm
  | callbacks => exact .of_eq rfl rfl

end World

end ClockCalibration
