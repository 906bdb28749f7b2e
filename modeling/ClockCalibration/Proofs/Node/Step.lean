import ClockCalibration.Proofs.History
import ClockCalibration.Proofs.Node.Execution
import Mathlib.Logic.Relation

/-!
# The steps of a world

Everything that a node does is a path of small steps, each of which makes at most
one entry in the history.  There are three kinds.

* A `Reaction` is what callbacks and polls are made of.
* An `Arming` step belongs to the stretch of a blink in which the radio is being
  programmed, from the attempt to the outcome of the start.
* A `Control` step sets the instance up, starts it or stops it.

The steps say what a node may do without saying in which order its operations do
it, so they do not mention the radio's interface: a reply is any reply.  A property
of all runs is proved once for each step; that the operations are paths of steps is
the business of `Node.Operation`.

A world is `Calm` while the radio is not being programmed.  Reactions and control
steps happen in calm worlds only, which is why an entry made while the phase is
`armed` is one of the five requests that a blink makes.
-/

namespace ClockCalibration

variable {ρ ε : Type}

/-! ## Quiet entries -/

/-- A request of the five that program the radio with a blink. -/
def Call.IsArming : Call → Prop
  | writeTransmitBuffer _ _ | configureTransmit _ _ | setWaitForResponse _ | setDelayedStart _
  | startTransmission => True
  | _ => False

/-- A happening that is such a request. -/
def Happening.IsArming : Happening ε → Prop
  | .exchange call _ => call.IsArming
  | _ => False

/-- A happening that changes nothing in the node and belongs to no larger step. -/
def Happening.IsQuiet : Happening ε → Prop
  | .exchange .readSystemTime ⟨.ok _, _⟩ => False
  | .exchange .readReceptionTime ⟨.ok _, _⟩ => False
  | .exchange call _ => ¬ call.IsArming
  | .log (.blinkSent _) | .log .stopped => False
  | .schedule _ _ | .enqueue _ _ => False
  | _ => True

/-- A quiet happening does not program the radio. -/
theorem Happening.IsQuiet.not_isArming {happening : Happening ε} (h : happening.IsQuiet) :
    ¬ happening.IsArming := by
  cases happening with
  | exchange call reply =>
      cases call with
      | readSystemTime | readReceptionTime => exact id
      | _ => exact h
  | _ => exact id

/-- A happening that does not program the radio tells it no instant. -/
theorem Happening.instant?_of_not_isArming {happening : Happening ε}
    (h : ¬ happening.IsArming) : happening.instant? = none := by
  unfold Happening.instant?
  split
  · exact absurd trivial h
  · rfl

/-- A quiet happening is no landmark, unless it is the acknowledgement of a blink. -/
theorem Happening.IsQuiet.landmark? {happening : Happening ε} (h : happening.IsQuiet) :
    happening.landmark? = none ∨ happening.landmark? = some .acknowledged := by
  unfold Happening.landmark?
  split
  · exact h.elim
  · exact h.elim
  · exact absurd trivial h
  · exact absurd trivial h
  · exact absurd trivial h
  · exact absurd trivial h
  · exact .inr rfl
  · exact h.elim
  · exact .inl rfl

namespace World

/-- The radio is not being programmed. -/
def Calm (world : World ρ ε) : Prop := world.node.phase? ≠ some .armed

/-- The latest entry is the radio's answer with the header of a received frame. -/
def Heard (history : List (Entry ε)) (header : BlinkHeader) : Prop :=
  ∃ past phase bytes transfers length,
    history = past ++ [⟨phase,
      .exchange (.readReceiveBuffer (Wire.Packed.size BlinkHeader) 0) ⟨.ok bytes, transfers⟩⟩] ∧
    Wire.decode bytes.toList = .ok (header, length)

/-- A frame with this header and time of reception was received, and since then no landmark was
passed. -/
def Received (history : List (Entry ε)) (header : BlinkHeader) (time : UInt64) : Prop :=
  ∃ past phase transfers since, Heard past header ∧ landmarks since = [] ∧
    history = past ++ ⟨phase, .exchange .readReceptionTime ⟨.ok time, transfers⟩⟩ :: since

/-- What was received stays so while no landmark is passed. -/
theorem Received.append {history added : List (Entry ε)} {header : BlinkHeader} {time : UInt64}
    (h : Received history header time) (hadded : landmarks added = []) :
    Received (history ++ added) header time := by
  obtain ⟨past, phase, transfers, since, hheard, hsince, rfl⟩ := h
  exact ⟨past, phase, transfers, since ++ added, hheard, by simp [hsince, hadded], by simp⟩

/-- The latest entries are those of a blink that has been handed to the radio: its payload was
put into the transmit buffer, and the radio was told how to send it. -/
def Loaded (history : List (Entry ε)) (payload : Bytes) : Prop :=
  ∃ past written configured ready,
    history = past ++ [⟨some .armed, .exchange (.writeTransmitBuffer payload 0) written⟩,
      ⟨some .armed, .exchange (.configureTransmit 30 true) configured⟩,
      ⟨some .armed, .exchange (.setWaitForResponse false) ready⟩]

/-- The latest entry calls for an event to be queued. -/
def Prompts (world : World ρ ε) (event : Event) : Prop :=
  ∃ past phase,
    (∃ index, world.history = past ++ [⟨phase, .log (.blinkSent index)⟩] ∧
      event = .postprocess .tx index) ∨
    (∃ header time correction calibration,
      world.history = past ++ [⟨phase, .log (.frameReceived header.sequence time correction)⟩] ∧
      Received past header time ∧ world.node.calibration = some calibration ∧
      event = .postprocess .rx calibration.ring.index)

/-! ## The three kinds of steps -/

/-- What callbacks and polls are made of. -/
inductive Reaction (world : World ρ ε) : World ρ ε → Prop
  | /-- The radio or the platform changes. -/
    surroundings (radio : ρ) (platform : Platform) :
      Reaction world { world with radio, platform }
  | /-- Something quiet is noted. -/
    note {happening : Happening ε} (quiet : happening.IsQuiet) :
      Reaction world (world.noting happening)
  | /-- An expiry of the timer is scheduled. -/
    schedule {calibration : Calibration} (present : world.node.calibration = some calibration)
      (enabled : calibration.status.timerEnabled = true) {delay : UInt32}
      (due : delay = calibration.config.startDelay ∨ delay = calibration.config.timerDelay) :
      Reaction world (world.scheduling delay)
  | /-- An event is offered to the queue. -/
    offer {calibration : Calibration} (present : world.node.calibration = some calibration)
      (wanted : calibration.postprocess = true) {event : Event} (prompted : world.Prompts event) :
      Reaction world ({ world with platform := world.platform.enqueue event }.noting
        (.enqueue event world.platform.hasRoom))
  | /-- The completion of the pending blink is claimed. -/
    complete {calibration : Calibration} (present : world.node.calibration = some calibration)
      (pending : calibration.phase = .pending)
      (outgoing : world.node.outgoing = some .calibration) :
      Reaction world ((world.recalibrating (·.complete)).noting
        (.log (.blinkSent calibration.ring.index)))
  | /-- The kind of the outgoing frame is forgotten, by a callback that took the frame. -/
    disown (taken : world.node.onTransmission = some .transmission →
        world.node.phase? ≠ some .pending) :
      Reaction world (world.updating fun node ↦ { node with outgoing := none })
  | /-- A cycle is closed that the callback left open. -/
    close (pending : world.node.phase? = some .pending)
      (finished : underway (landmarks world.history) = false)
      (foreign : world.node.onTransmission = some .transmission →
        world.node.outgoing ≠ some .calibration) :
      Reaction world (world.updating Node.closeCycle)
  | /-- A calibration frame of a trusted sender is accepted. -/
    receive {calibration : Calibration} (present : world.node.calibration = some calibration)
      {header : BlinkHeader} (heard : Heard world.history header)
      (kind : header.kind? = some .calibration)
      (trusted : world.node.trusts header.source = true) (time : UInt64)
      (transfers : List Bus.Transfer) (radio : ρ) :
      Reaction world ((world.exchanging .readReceptionTime ⟨.ok time, transfers⟩
        radio).recalibrating (·.receive header time))
  | /-- The frame in the current slot is given its correction factor. -/
    correct {calibration : Calibration} (present : world.node.calibration = some calibration)
      (valid : calibration.status.valid = true) (correction : Binary32) :
      Reaction world (world.recalibrating (·.correct correction))

/-- What a blink does from its attempt to the outcome of the start. -/
inductive Arming (world : World ρ ε) : World ρ ε → Prop
  | /-- The frame is put into the current slot and handed to the radio. -/
    attempt {calibration : Calibration} (present : world.node.calibration = some calibration)
      (idle : calibration.phase = .idle)
      (reply : Reply ε (.writeTransmitBuffer (Wire.encode
        (calibration.prepare world.node.shortAddress.toUInt64).ring.current) 0)) (radio : ρ) :
      Arming world ((world.recalibrating (·.prepare world.node.shortAddress.toUInt64)).exchanging
        (.writeTransmitBuffer (Wire.encode
          (calibration.prepare world.node.shortAddress.toUInt64).ring.current) 0) reply radio)
  | /-- The radio is told how to send the frame, or fails to start. -/
    request (armed : world.node.phase? = some .armed) {call : Call} (reply : Reply ε call)
      (radio : ρ)
      (minor : call = .configureTransmit 30 true ∨ call = .setWaitForResponse false ∨
        call = .startTransmission)
      (futile : (Happening.exchange call reply).landmark? = none) :
      Arming world (world.exchanging call reply radio)
  | /-- The radio is told when to send the frame. -/
    time {calibration : Calibration} (present : world.node.calibration = some calibration)
      (armed : calibration.phase = .armed)
      (reply : Reply ε (.setDelayedStart calibration.ring.current.sent)) (radio : ρ)
      (loaded : Loaded world.history (Wire.encode calibration.ring.current)) :
      Arming world (world.exchanging (.setDelayedStart calibration.ring.current.sent) reply radio)
  | /-- The attempt is given up after a failure of the radio. -/
    release (armed : world.node.phase? = some .armed) :
      Arming world (world.recalibrating (·.release))
  | /-- The radio rejects the blink. -/
    reject (armed : world.node.phase? = some .armed) (transfers : List Bus.Transfer) (radio : ρ) :
      Arming world ((world.exchanging .startTransmission ⟨.ok .rejected, transfers⟩
        radio).recalibrating (·.reject))
  | /-- The radio accepts the blink. -/
    accept (armed : world.node.phase? = some .armed) (transfers : List Bus.Transfer) (radio : ρ) :
      Arming world ((world.exchanging .startTransmission ⟨.ok .started, transfers⟩
        radio).updating fun node ↦
          { node with
            calibration := node.calibration.map (·.accept)
            outgoing := some .calibration })

/-- How an instance is set up, started and stopped, by operations that are allowed. -/
inductive Control (allowed : Operation → Prop) (world : World ρ ε) : World ρ ε → Prop
  | /-- An instance is created. -/
    create (absent : world.node.calibration = none) (valid : world.node.config.isValid = true)
      {size : Nat} {ring : FrameRing} (sized : FrameRing.ofSize? size = some ring)
      (time : UInt64) (transfers : List Bus.Transfer) (radio : ρ) (master : UInt64) :
      Control allowed world ((world.exchanging .readSystemTime ⟨.ok time, transfers⟩ radio).updating
        (·.withCalibration (.create world.node.config ring time) master))
  | /-- The sender whose frames are processed changes. -/
    remaster (master : UInt64) :
      Control allowed world (world.updating fun node ↦ { node with clockMaster := master })
  | /-- A fresh stream of blinks begins. -/
    restart {calibration : Calibration} (present : world.node.calibration = some calibration)
      (time : UInt64) (transfers : List Bus.Transfer) (radio : ρ) {mode : BlinkMode}
      (permitted : allowed (.start mode)) :
      Control allowed world ((world.exchanging .readSystemTime ⟨.ok time, transfers⟩
        radio).recalibrating (·.restart time mode))
  | /-- The stream of blinks ends. -/
    halt : Control allowed world (world.recalibrating (·.halt))
  | /-- The end of the stream is noted. -/
    stopped {calibration : Calibration} (present : world.node.calibration = some calibration)
      (disabled : calibration.status.timerEnabled = false)
      (unscheduled : calibration.timer = none) :
      Control allowed world (world.noting (.log .stopped))
  | /-- The timer expires. -/
    timerFired : Control allowed world (world.recalibrating (·.timerFired))
  | /-- Records go to another sink from now on. -/
    withSink {sink : Sink} (permitted : allowed (.setSink sink)) :
      Control allowed world (world.recalibrating (·.withSink sink))

/-- A step of a blink: a reaction, or one that programs the radio. -/
inductive Turn (world later : World ρ ε) : Prop
  | reaction (calm : world.Calm) (step : Reaction world later)
  | arming (step : Arming world later)

/-- A step of a node to which the operations are done that are allowed. -/
inductive Step (allowed : Operation → Prop) (world : World ρ ε) : World ρ ε → Prop
  | turn {later : World ρ ε} (step : Turn world later) : Step allowed world later
  | control {later : World ρ ε} (calm : world.Calm) (step : Control allowed world later) :
      Step allowed world later
  | callbacks {onReception onTransmission : Callback} (calm : world.Calm)
      (permitted : allowed (.setCallbacks onReception onTransmission)) :
      Step allowed world (world.updating fun node ↦
        { node with onReception := some onReception, onTransmission := some onTransmission })

/-! ## What steps leave alone -/

variable {world later : World ρ ε}

/-- A reaction does not begin to program the radio. -/
theorem Reaction.calm (step : Reaction world later) (calm : world.Calm) : later.Calm := by
  cases step with
  | surroundings | note | offer | disown => exact calm
  | schedule present | receive present | correct present =>
      simpa [Calm, Node.phase?, present, Calibration.scheduled, Calibration.receive,
        Calibration.correct] using calm
  | complete present => simp [Calm, Node.phase?, present, Calibration.complete]
  | close pending =>
      obtain ⟨calibration, present, -⟩ := Option.map_eq_some_iff.mp pending
      rw [Calm, node_updating, Node.closeCycle, if_pos pending]
      simp [Node.phase?, present, Calibration.release]

/-- Reactions stay within calm worlds. -/
theorem Calm.reactions (calm : world.Calm)
    (steps : Relation.ReflTransGen Reaction world later) : later.Calm := by
  induction steps with
  | refl => exact calm
  | tail _ step ih => exact step.calm ih

end World

/-- What is done to an instance is done to it alone: the settings of an instance that
a blink finds are those it leaves. -/
def Node.settings? (node : Node) : Option (Config × Bool) :=
  node.calibration.map fun calibration ↦ (calibration.config, calibration.status.timerEnabled)

namespace World

/-- The configuration, the transmit callback and the settings of the instance are the same
in two worlds. -/
structure SameSetup (world later : World ρ ε) : Prop where
  config : later.node.config = world.node.config
  callback : later.node.onTransmission = world.node.onTransmission
  settings : later.node.settings? = world.node.settings?

theorem SameSetup.refl (world : World ρ ε) : SameSetup world world := ⟨rfl, rfl, rfl⟩

theorem SameSetup.trans {latest : World ρ ε} (first : SameSetup world later)
    (second : SameSetup later latest) : SameSetup world latest :=
  ⟨second.config.trans first.config, second.callback.trans first.callback,
    second.settings.trans first.settings⟩

/-- An instance that there is stays. -/
theorem SameSetup.present (h : SameSetup world later) {calibration : Calibration}
    (present : world.node.calibration = some calibration) :
    ∃ latest, later.node.calibration = some latest := by
  have hsettings := h.settings
  rw [Node.settings?, Node.settings?, present] at hsettings
  obtain ⟨latest, hlatest, -⟩ := Option.map_eq_some_iff.mp hsettings
  exact ⟨latest, hlatest⟩

/-- A reaction does not change the setup. -/
theorem Reaction.sameSetup (step : Reaction world later) : SameSetup world later := by
  cases step with
  | surroundings | note | offer | disown => exact ⟨rfl, rfl, rfl⟩
  | schedule present | receive present | correct present | complete present =>
      exact ⟨rfl, rfl, by simp [Node.settings?, present, Calibration.scheduled,
        Calibration.receive, Calibration.correct, Calibration.complete]⟩
  | close pending =>
      obtain ⟨calibration, present, -⟩ := Option.map_eq_some_iff.mp pending
      have hclose : (world.updating Node.closeCycle).node = _ := if_pos pending
      refine ⟨?_, ?_, ?_⟩ <;> rw [hclose]
      simp [Node.settings?, present, Calibration.release]

/-- Programming the radio does not change the setup. -/
theorem Arming.sameSetup (step : Arming world later) : SameSetup world later := by
  cases step with
  | request | time => exact ⟨rfl, rfl, rfl⟩
  | attempt present =>
      refine ⟨rfl, rfl, ?_⟩
      rw [Node.settings?, node_exchanging, node_recalibrating, Node.settings?, present]
      rfl
  | release | reject | accept =>
      exact ⟨rfl, rfl, by simp [Node.settings?, Function.comp_def, Calibration.release,
        Calibration.reject, Calibration.accept]⟩

/-- The radio is programmed with a blink only once no other is pending. -/
theorem Arming.not_pending (step : Arming world later) : world.node.phase? ≠ some .pending := by
  cases step with
  | attempt present idle => simp [Node.phase?, present, idle]
  | time present armed => simp [Node.phase?, present, armed]
  | request armed | release armed | reject armed | accept armed => simp [armed]

/-- A blink does not change the setup. -/
theorem Turn.sameSetup (step : Turn world later) : SameSetup world later := by
  cases step with
  | reaction _ step => exact step.sameSetup
  | arming step => exact step.sameSetup

/-- What no step changes, no path of steps changes. -/
theorem SameSetup.of_steps {R : World ρ ε → World ρ ε → Prop}
    (step : ∀ {world later}, R world later → SameSetup world later)
    (steps : Relation.ReflTransGen R world later) : SameSetup world later := by
  induction steps with
  | refl => exact .refl world
  | tail _ last ih => exact ih.trans (step last)

/-- No step changes the configuration of the node. -/
theorem Step.config {allowed : Operation → Prop} (step : Step allowed world later) :
    later.node.config = world.node.config := by
  cases step with
  | turn step => exact step.sameSetup.config
  | control _ step => cases step <;> rfl
  | callbacks => rfl

/-! ## What steps add to the history -/

variable {world later : World ρ ε}

/-- A step adds at most one entry to the history, and only the steps that program the
radio ask it for that. -/
theorem Step.history {allowed : Operation → Prop} (step : Step allowed world later) :
    later.history = world.history ∨
      ∃ entry, later.history = world.history ++ [entry] ∧
        (entry.happening.IsArming → Arming world later) := by
  cases step with
  | turn turn =>
      cases turn with
      | reaction _ step =>
          cases step with
          | surroundings | disown | close | correct => exact .inl rfl
          | note quiet => exact .inr ⟨_, rfl, fun h ↦ absurd h quiet.not_isArming⟩
          | schedule | offer | complete | receive => exact .inr ⟨_, rfl, nofun⟩
      | arming step =>
          cases step with
          | attempt present idle reply radio =>
              exact .inr ⟨_, rfl, fun _ ↦ .attempt present idle reply radio⟩
          | request armed reply radio minor futile =>
              exact .inr ⟨_, rfl, fun _ ↦ .request armed reply radio minor futile⟩
          | time present armed reply radio loaded =>
              exact .inr ⟨_, rfl, fun _ ↦ .time present armed reply radio loaded⟩
          | release => exact .inl rfl
          | reject armed transfers radio =>
              exact .inr ⟨_, rfl, fun _ ↦ .reject armed transfers radio⟩
          | accept armed transfers radio =>
              exact .inr ⟨_, rfl, fun _ ↦ .accept armed transfers radio⟩
  | control _ step =>
      cases step with
      | create | restart | stopped => exact .inr ⟨_, rfl, nofun⟩
      | remaster | halt | timerFired | withSink => exact .inl rfl
  | callbacks => exact .inl rfl

/-- What is asked of requests that program the radio alone holds throughout the history
after a step, if it did before and does for the request that the step makes. -/
theorem Step.always {allowed : Operation → Prop} (step : Step allowed world later)
    {proper : List (Entry ε) → Entry ε → Prop} (h : Always proper world.history)
    (hidle : ∀ entry, ¬ entry.happening.IsArming → proper world.history entry)
    (harming : Arming world later → ∀ entry, later.history = world.history ++ [entry] →
      proper world.history entry) :
    Always proper later.history := by
  rcases step.history with hhistory | ⟨entry, hhistory, hentry⟩
  · rwa [hhistory]
  · rw [hhistory]
    by_cases hrequest : entry.happening.IsArming
    · exact h.snoc (harming (hentry hrequest) entry hhistory)
    · exact h.snoc (hidle entry hrequest)

end World

end ClockCalibration
