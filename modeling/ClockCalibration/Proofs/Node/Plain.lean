import ClockCalibration.Proofs.Node.Broadcast

/-!
# Worlds without postprocessing

`World.plain` leaves out of a world everything that concerns postprocessing: the flag, its copy
in the configuration and the sink, the event queue and the uptime, and the entries in the
history that tell of them.  What is left is the world of a node that does no postprocessing.

A computation `Projects` to another if it does, seen like that, what the other one does in the
plain world.  Sequences project to sequences, so it is enough to say it of each block; offering
an event, which is all that the protocol has to do with postprocessing, projects to nothing at
all.  In the end every operation of the protocol projects to itself.
-/

namespace ClockCalibration

variable {ρ ε α β γ δ : Type}

/-! ## Leaving postprocessing out -/

/-- A configuration without postprocessing. -/
def Config.plain (config : Config) : Config := { config with postprocess := false }

/-- An instance without anything that concerns postprocessing. -/
def Calibration.plain (calibration : Calibration) : Calibration :=
  { calibration with config := calibration.config.plain, postprocess := false, sink := .log }

/-- A node without anything that concerns postprocessing. -/
def Node.plain (node : Node) : Node :=
  { node with config := node.config.plain, calibration := node.calibration.map (·.plain) }

/-- Whether something that happened belongs to the protocol: to what a node does with the radio
and the timer, as opposed to what becomes of its events and records. -/
def Happening.isProtocol : Happening ε → Bool
  | .enqueue _ _ | .log (.eventDropped _) | .log (.record _) => false
  | .sink _ _ | .sinkBlink _ | .sinkStop _ => false
  | _ => true

/-- The entries of a history that belong to the protocol. -/
def protocol (history : List (Entry ε)) : List (Entry ε) :=
  history.filter (·.happening.isProtocol)

/-- A world without anything that concerns postprocessing. -/
def World.plain (world : World ρ ε) : World ρ ε where
  node := world.node.plain
  radio := world.radio
  platform := { scheduled := world.platform.scheduled }
  history := protocol world.history

@[simp] theorem Node.phase?_plain (node : Node) : node.plain.phase? = node.phase? :=
  Option.map_map _ _ _

namespace World

variable (world : World ρ ε)

@[simp] theorem calibration_plain :
    world.plain.node.calibration = world.node.calibration.map (·.plain) := rfl

@[simp] theorem phase?_plain : world.plain.node.phase? = world.node.phase? :=
  world.node.phase?_plain

/-- What belongs to the protocol is noted in the plain world too. -/
theorem plain_noting {happening : Happening ε} (h : happening.isProtocol = true) :
    (world.noting happening).plain = world.plain.noting happening := by
  rw [noting, noting, phase?_plain, plain, protocol, List.filter_append,
    List.filter_cons_of_pos (by exact h), List.filter_nil]
  rfl

/-- Nothing else is. -/
theorem plain_noting_of_not {happening : Happening ε} (h : happening.isProtocol = false) :
    (world.noting happening).plain = world.plain := by
  rw [noting, plain, protocol, List.filter_append, List.filter_cons_of_neg (by simp [h]),
    List.filter_nil, List.append_nil]
  rfl

/-- An event that is offered does not show. -/
theorem plain_offering (event : Event) : (world.offering event).plain = world.plain := by
  let offered := { world with platform := world.platform.enqueue event }
  have henqueue : offered.plain = world.plain := by
    unfold offered plain Platform.enqueue
    split <;> rfl
  unfold offering
  split
  · rw [plain_noting_of_not _ rfl, henqueue]
  · rw [plain_noting_of_not _ rfl, plain_noting_of_not _ rfl, henqueue]

/-- A change of the instance that postprocessing has no part in is the same in the plain world. -/
theorem plain_recalibrating {change : Calibration → Calibration}
    (h : ∀ calibration, (change calibration).plain = change calibration.plain) :
    (world.recalibrating change).plain = world.plain.recalibrating change := by
  have hcalibration : (world.node.calibration.map change).map (·.plain) =
      (world.node.calibration.map (·.plain)).map change := by
    rw [Option.map_map, Option.map_map]
    exact congrArg (Option.map · world.node.calibration) (funext h)
  unfold recalibrating updating plain Node.plain
  rw [hcalibration]

/-- Timers are counted alike. -/
theorem plain_scheduling (delay : UInt32) :
    (world.scheduling delay).plain = world.plain.scheduling delay := by
  let counted := { world with platform := world.platform.schedule.2 }
  have hscheduled : (counted.noting (.schedule delay world.platform.schedule.1)).plain =
      counted.plain.noting (.schedule delay world.platform.schedule.1) := plain_noting counted rfl
  rw [scheduling, plain_recalibrating _ (by exact fun _ ↦ rfl), hscheduled]
  rfl

end World

/-! ## Projections -/

/-- An outcome without anything that concerns postprocessing. -/
def plainly (see : α → β) :
    EStateM.Result (Error ε) (World ρ ε) α → EStateM.Result (Error ε) (World ρ ε) β
  | .ok value world => .ok (see value) world.plain
  | .error error world => .error error world.plain

/-- One computation does in the plain world what the other one does, seen without
postprocessing. -/
def Projects (see : α → β) (computation : NodeM ρ ε α) (plain : NodeM ρ ε β) : Prop :=
  ∀ world : World ρ ε, plain world.plain = plainly see (computation world)

/-- What a computation comes to: a value or an error. -/
def World.outcome (world : World ρ ε) (computation : NodeM ρ ε α) : Except (Error ε) α :=
  match computation world with
  | .ok value _ => .ok value
  | .error error _ => .error error

namespace Projects

open World

variable {see : α → β} {see' : γ → δ} {computation : NodeM ρ ε α} {plain : NodeM ρ ε β}

/-- The world that is left behind is left behind plain. -/
theorem plain_upon (h : Projects see computation plain) (world : World ρ ε) :
    (world.upon computation).plain = world.plain.upon plain := by
  unfold upon
  rw [h world]
  cases computation world <;> rfl

/-- It ends with the same value as it is seen, or with the same error. -/
theorem outcome_plain (h : Projects see computation plain) (world : World ρ ε) :
    world.plain.outcome plain = (world.outcome computation).map see := by
  unfold outcome
  rw [h world]
  cases computation world <;> rfl

theorem pure (see : α → β) (value : α) :
    Projects see (pure value : NodeM ρ ε α) (pure (see value)) := fun _ ↦ rfl

theorem throw (see : α → β) (error : Error ε) :
    Projects see (throw error : NodeM ρ ε α) (throw error) := fun _ ↦ rfl

/-- Sequences project to sequences. -/
theorem bind {next : α → NodeM ρ ε γ} {next' : β → NodeM ρ ε δ}
    (h : Projects see computation plain)
    (hnext : ∀ value, Projects see' (next value) (next' (see value))) :
    Projects see' (computation >>= next) (plain >>= next') := by
  intro world
  have hworld := h world
  cases hresult : computation world with
  | ok value later =>
      rw [hresult] at hworld
      rw [bind_of_ok hworld, bind_of_ok hresult]
      exact hnext value later
  | error error later =>
      rw [hresult] at hworld
      rw [bind_of_error hworld, bind_of_error hresult]
      rfl

/-- The world is seen plain. -/
theorem get : Projects World.plain (get : NodeM ρ ε (World ρ ε)) get := fun _ ↦ rfl

theorem discard (h : Projects see computation plain) :
    Projects id (discard computation) (discard plain) := by
  intro world
  have hworld := h world
  cases hresult : computation world with
  | ok value later =>
      rw [hresult] at hworld
      rw [Node.discard_of_ok hresult, Node.discard_of_ok hworld]
      rfl
  | error error later =>
      rw [hresult] at hworld
      rw [Node.discard_of_error hresult, Node.discard_of_error hworld]
      rfl

theorem attempt {plain : NodeM ρ ε α} (h : Projects id computation plain) :
    Projects id (Node.attempt computation) (Node.attempt plain) := by
  intro world
  have hworld := h world
  cases hresult : computation world with
  | ok value later =>
      rw [hresult] at hworld
      rw [Node.attempt_of_ok hresult, Node.attempt_of_ok hworld]
      rfl
  | error error later =>
      rw [hresult] at hworld
      rw [Node.attempt_of_error hresult, Node.attempt_of_error hworld]
      rfl

end Projects

namespace Node

open World

/-! ## Blocks -/

theorem projects_note {happening : Happening ε} (h : happening.isProtocol = true) :
    Projects id (note happening : NodeM ρ ε Unit) (note happening) :=
  fun world ↦ congrArg (EStateM.Result.ok ()) (world.plain_noting h).symm

theorem projects_update {change change' : Node → Node}
    (h : ∀ node, (change node).plain = change' node.plain) :
    Projects id (update change : NodeM ρ ε Unit) (update change') := by
  intro world
  change EStateM.Result.ok () _ = EStateM.Result.ok () _
  congr 1
  change { world.plain with node := change' world.node.plain } = _
  rw [← h]
  rfl

theorem projects_updateCalibration {change : Calibration → Calibration}
    (h : ∀ calibration, (change calibration).plain = change calibration.plain) :
    Projects id (updateCalibration change : NodeM ρ ε Unit) (updateCalibration change) :=
  fun world ↦ congrArg (EStateM.Result.ok ()) (world.plain_recalibrating h).symm

theorem projects_requireCalibration :
    Projects Calibration.plain (requireCalibration : NodeM ρ ε Calibration)
      requireCalibration := by
  refine .bind .get fun world ↦ ?_
  rw [calibration_plain]
  cases world.node.calibration with
  | none => exact .throw _ _
  | some calibration => exact .pure _ _

/-- Offering an event projects to nothing. -/
theorem projects_offer (event : Event) :
    Projects id (offer event : NodeM ρ ε Unit) (pure ()) := by
  intro world
  rw [offer_eq, plainly, plain_offering]
  rfl

/-- What comes after it is left. -/
theorem projects_offer_bind {see : α → β} {next : Unit → NodeM ρ ε α} {plain : NodeM ρ ε β}
    (h : Projects see (next ()) plain) (event : Event) :
    Projects see (offer event >>= next) plain := by
  change Projects see (offer event >>= next) (pure () >>= fun _ ↦ plain)
  exact .bind (projects_offer event) fun _ ↦ h

theorem projects_schedule (delay : UInt32) :
    Projects id (schedule delay : NodeM ρ ε Unit) (schedule delay) :=
  fun world ↦ congrArg (EStateM.Result.ok ()) (world.plain_scheduling delay).symm

theorem projects_setCallbacks (onReception onTransmission : Callback) :
    Projects id (setCallbacks onReception onTransmission : NodeM ρ ε Unit)
      (setCallbacks onReception onTransmission) :=
  projects_update fun _ ↦ rfl

/-! ## Transmissions -/

theorem projects_finishBlink (calibration : Calibration) :
    Projects id (finishBlink calibration : NodeM ρ ε Unit) (finishBlink calibration.plain) := by
  refine .bind (projects_updateCalibration fun _ ↦ rfl) fun _ ↦ ?_
  refine .bind (projects_note rfl) fun _ ↦ ?_
  have htimer : Projects id
      (if calibration.status.timerEnabled then schedule calibration.config.timerDelay
        else pure () : NodeM ρ ε Unit)
      (if calibration.status.timerEnabled then schedule calibration.config.timerDelay
        else pure ()) := by
    split
    · exact projects_schedule _
    · exact .pure _ _
  cases calibration.postprocess with
  | true => exact projects_offer_bind htimer _
  | false => exact htimer

theorem projects_transmissionComplete :
    Projects id (transmissionComplete : NodeM ρ ε Bool) transmissionComplete := by
  refine .bind .get fun world ↦ ?_
  simp only [calibration_plain]
  cases world.node.calibration with
  | none => exact .pure _ _
  | some calibration =>
      change Projects id (if world.node.outgoing = some .calibration ∧ calibration.phase = .pending
        then _ else _) (if world.node.outgoing = some .calibration ∧ calibration.phase = .pending
        then _ else _)
      split
      · exact .bind (projects_finishBlink calibration) fun _ ↦ .pure _ _
      · exact .pure _ _

variable [Radio ρ ε]

/-! ## Receptions -/

/-- The radio is asked the same, and gives the same answer. -/
theorem projects_ask (call : Call) :
    Projects id (ask call : NodeM ρ ε call.Answer) (ask call) := by
  intro world
  have hasking : (world.asking call).plain = world.plain.asking call :=
    plain_noting { world with radio := (Radio.perform call world.radio).2 } rfl
  have hradio : world.plain.radio = world.radio := rfl
  rw [ask, ask, hradio, ← hasking]
  cases (Radio.perform call world.radio).1.answer <;> rfl

theorem projects_askHeader : Projects id (askHeader : NodeM ρ ε BlinkHeader) askHeader := by
  refine .bind (projects_ask _) fun bytes ↦ ?_
  simp only [id_eq]
  cases (Wire.decode bytes.toList : Except Wire.Error (BlinkHeader × Nat)) with
  | ok decoded => exact .pure _ _
  | error error => exact .throw _ _

theorem projects_askCorrection : Projects id (askCorrection : NodeM ρ ε Binary32) askCorrection :=
  .bind (projects_ask _) fun _ ↦ .bind (projects_ask _) fun _ ↦ .pure _ _

theorem projects_track (calibration : Calibration) (header : BlinkHeader) (time : UInt64) :
    Projects id (track calibration header time : NodeM ρ ε Unit)
      (track calibration.plain header time) := by
  refine .bind projects_askCorrection fun correction ↦ ?_
  refine .bind (projects_updateCalibration fun _ ↦ rfl) fun _ ↦ ?_
  refine .bind (projects_note rfl) fun _ ↦ ?_
  cases calibration.postprocess with
  | true => exact projects_offer _
  | false => exact .pure _ _

theorem projects_accept (header : BlinkHeader) :
    Projects id (accept header : NodeM ρ ε Unit) (accept header) := by
  refine .bind (projects_ask _) fun time ↦ ?_
  refine .bind (projects_updateCalibration fun _ ↦ rfl) fun _ ↦ ?_
  refine .bind projects_requireCalibration fun calibration ↦ ?_
  change Projects id (if calibration.status.valid then _ else _)
    (if calibration.status.valid then _ else _)
  split
  · exact projects_track calibration header time
  · exact .pure _ _

theorem projects_consider (header : BlinkHeader) :
    Projects id (consider header : NodeM ρ ε Unit) (consider header) := by
  refine .bind .get fun world ↦ ?_
  change Projects id (if world.node.trusts header.source then _ else _)
    (if world.node.trusts header.source then _ else _)
  split
  · exact projects_accept header
  · exact projects_note rfl

theorem projects_receptionComplete :
    Projects id (receptionComplete : NodeM ρ ε Bool) receptionComplete := by
  refine .bind .get fun world ↦ ?_
  simp only [calibration_plain]
  cases world.node.calibration with
  | none => exact .pure _ _
  | some calibration =>
      refine .bind projects_askHeader fun header ↦ ?_
      simp only [id_eq]
      split
      · exact .bind (projects_consider header) fun _ ↦ .pure _ _
      · exact .pure _ _

/-! ## Interrupts -/

theorem projects_invoke (callback : Callback) :
    Projects id (invoke callback : NodeM ρ ε Bool) (invoke callback) := by
  refine .bind (projects_note rfl) fun _ ↦ ?_
  cases callback with
  | reception => exact projects_receptionComplete
  | transmission => exact projects_transmissionComplete
  | claim | ignore => exact .pure _ _
  | fail => exact .throw _ _
  | transmissionUnclaimed => exact .bind (.discard projects_transmissionComplete) fun _ ↦ .pure _ _

theorem projects_receptionInterrupt :
    Projects id (receptionInterrupt : NodeM ρ ε Bool) receptionInterrupt := by
  refine .bind .get fun world ↦ ?_
  have hcallback : world.plain.node.onReception = world.node.onReception := rfl
  rw [hcallback]
  cases world.node.onReception with
  | none => exact .pure _ _
  | some callback => exact projects_invoke callback

theorem projects_transmissionInterrupt :
    Projects id (transmissionInterrupt : NodeM ρ ε Bool) transmissionInterrupt := by
  refine .bind .get fun world ↦ ?_
  have hcallback : world.plain.node.onTransmission = world.node.onTransmission := rfl
  rw [hcallback]
  cases world.node.onTransmission with
  | none => exact .pure _ _
  | some callback =>
      refine .bind (projects_invoke callback) fun claimed ↦ ?_
      cases claimed with
      | false => exact .pure _ _
      | true => exact .bind (projects_update fun _ ↦ rfl) fun _ ↦ .pure _ _

/-! ## Polling -/

/-- A cycle is closed alike. -/
theorem plain_closeCycle (node : Node) : node.closeCycle.plain = node.plain.closeCycle := by
  unfold closeCycle
  rw [phase?_plain]
  split
  · simp [Node.plain, Function.comp_def, Calibration.plain, Calibration.release]
  · rfl

theorem projects_acknowledge : Projects id (acknowledge : NodeM ρ ε Unit) acknowledge :=
  .bind (.discard projects_transmissionInterrupt) fun _ ↦ projects_update plain_closeCycle

theorem projects_pollPending :
    Projects id (pollPending : NodeM ρ ε Completion) pollPending := by
  refine .bind (projects_ask _) fun completion ↦ ?_
  cases completion with
  | wouldBlock => exact .pure _ _
  | done => exact .bind projects_acknowledge fun _ ↦ .pure _ _

theorem projects_poll : Projects id (poll : NodeM ρ ε Completion) poll := by
  intro world
  unfold poll
  rw [World.phase?_plain]
  split
  · exact projects_pollPending world
  · rfl

/-- Waiting takes as many polls. -/
theorem projects_awaitCompletion :
    Projects id (awaitCompletion : NodeM ρ ε Unit) awaitCompletion := by
  intro world
  have hpoll := projects_poll world
  induction world using awaitCompletion.induct with
  | case1 world later blocked ih =>
      rw [blocked] at hpoll
      rw [awaitCompletion_of_blocked blocked, awaitCompletion_of_blocked hpoll]
      exact ih (projects_poll later)
  | case2 world later h =>
      rw [h] at hpoll
      rw [awaitCompletion_of_done h, awaitCompletion_of_done hpoll]
      rfl
  | case3 world error later h =>
      rw [h] at hpoll
      rw [awaitCompletion_of_error h, awaitCompletion_of_error hpoll]
      rfl

/-! ## The broadcast -/

omit [Radio ρ ε] in
theorem projects_newRing (size : Nat) :
    Projects id (newRing size : NodeM ρ ε FrameRing) (newRing size) := by
  refine .bind .get fun world ↦ ?_
  have hvalid : world.plain.node.config.isValid = world.node.config.isValid := rfl
  rw [hvalid]
  cases world.node.config.isValid with
  | false => exact .throw _ _
  | true =>
      cases FrameRing.ofSize? size with
      | none => exact .throw _ _
      | some ring => exact .pure _ _

/-- What is answered is an instance without postprocessing. -/
theorem projects_create (size : Nat) (master : UInt64) :
    Projects Calibration.plain (create size master : NodeM ρ ε Calibration)
      (create size master) := by
  refine .bind (projects_newRing size) fun ring ↦ .bind (projects_ask _) fun time ↦ ?_
  refine .bind .get fun world ↦ ?_
  refine .bind (projects_update fun _ ↦ rfl) fun _ ↦ .bind (projects_note rfl) fun _ ↦ ?_
  exact .pure _ _

theorem projects_init (size : Nat) (master : UInt64) :
    Projects Calibration.plain (init size master : NodeM ρ ε Calibration) (init size master) := by
  refine .bind .get fun world ↦ ?_
  simp only [calibration_plain]
  cases world.node.calibration with
  | none => exact projects_create size master
  | some calibration =>
      change Projects _ (if calibration.ring.size ≠ size then _ else _)
        (if calibration.ring.size ≠ size then _ else _)
      split
      · exact .throw _ _
      · exact .bind (projects_update fun _ ↦ rfl) fun _ ↦ .pure _ _

theorem projects_start (mode : BlinkMode) :
    Projects id (start mode : NodeM ρ ε Unit) (start mode) := by
  refine .bind projects_requireCalibration fun calibration ↦ .bind (projects_ask _) fun time ↦ ?_
  refine .bind (projects_updateCalibration fun _ ↦ rfl) fun _ ↦ .bind (projects_note rfl) fun _ ↦ ?_
  exact projects_schedule _

omit [Radio ρ ε] in
theorem projects_stop : Projects id (stop : NodeM ρ ε Unit) stop := by
  refine .bind projects_requireCalibration fun calibration ↦ ?_
  refine .bind (projects_updateCalibration fun _ ↦ rfl) fun _ ↦ ?_
  have htimer : calibration.plain.timer = calibration.timer := rfl
  rw [htimer]
  cases calibration.timer with
  | none => exact projects_note rfl
  | some handle => exact .bind (projects_note rfl) fun _ ↦ projects_note rfl

theorem projects_arm (payload : Bytes) (instant : UInt64) :
    Projects id (arm payload instant : NodeM ρ ε StartOutcome) (arm payload instant) :=
  .bind (projects_ask _) fun _ ↦ .bind (projects_ask _) fun _ ↦ .bind (projects_ask _) fun _ ↦
    .bind (projects_ask _) fun _ ↦ projects_ask _

omit [Radio ρ ε] in
theorem projects_prepare : Projects id (prepare : NodeM ρ ε Frame) prepare := by
  refine .bind .get fun world ↦ .bind (projects_updateCalibration fun _ ↦ rfl) fun _ ↦ ?_
  exact .bind projects_requireCalibration fun _ ↦ .pure _ _

theorem projects_conclude (mode : BlinkMode) (frame : Frame) (outcome : StartOutcome) :
    Projects id (conclude mode frame outcome : NodeM ρ ε Unit) (conclude mode frame outcome) := by
  cases outcome with
  | rejected => exact .bind (projects_updateCalibration fun _ ↦ rfl) fun _ ↦ projects_note rfl
  | started =>
      refine .bind (projects_update fun _ ↦ ?_) fun _ ↦ .bind (projects_note rfl) fun _ ↦ ?_
      · simp [Node.plain, Function.comp_def, Calibration.plain, Calibration.accept]
      · cases mode with
        | blocking => exact projects_awaitCompletion
        | nonBlocking => exact .pure _ _

theorem projects_blink (mode : BlinkMode) :
    Projects id (blink mode : NodeM ρ ε Status) (blink mode) := by
  refine .bind (.discard projects_requireCalibration) fun _ ↦ ?_
  refine .bind projects_awaitCompletion fun _ ↦ .bind projects_prepare fun frame ↦ ?_
  refine .bind (.attempt (projects_arm _ _)) fun outcome ↦ ?_
  have hstatus : Projects id (do return (← requireCalibration).status : NodeM ρ ε Status)
      (do return (← requireCalibration).status) :=
    .bind projects_requireCalibration fun _ ↦ .pure _ _
  cases outcome with
  | ok outcome => exact .bind (projects_conclude mode frame outcome) fun _ ↦ hstatus
  | error error => exact .bind (projects_updateCalibration fun _ ↦ rfl) fun _ ↦ .throw _ _

theorem projects_timedBlink (mode : BlinkMode) (delay : UInt32) :
    Projects id (timedBlink mode delay : NodeM ρ ε Unit) (timedBlink mode delay) := by
  refine .bind (.attempt (projects_blink mode)) fun outcome ↦ ?_
  cases outcome with
  | ok status =>
      simp only [id_eq]
      split
      · exact projects_schedule delay
      · exact .pure _ _
  | error error => exact .bind (projects_schedule delay) fun _ ↦ .throw _ _

theorem projects_timerExpired : Projects id (timerExpired : NodeM ρ ε Unit) timerExpired := by
  refine .bind .get fun world ↦ ?_
  simp only [calibration_plain]
  cases world.node.calibration with
  | none => exact .pure _ _
  | some calibration =>
      refine .bind (projects_updateCalibration fun _ ↦ rfl) fun _ ↦ ?_
      change Projects id (if calibration.status.timerEnabled then _ else _)
        (if calibration.status.timerEnabled then _ else _)
      split
      · exact projects_timedBlink _ _
      · exact .pure _ _

end Node

end ClockCalibration
