import ClockCalibration.Node.Broadcast
import ClockCalibration.Proofs.Node.Completion
import ClockCalibration.Proofs.Wire.Layout

/-!
# Blinks

A blink first waits for the older cycle, which is a path of reactions, and then makes
its attempt.  `attemptBlink` is that second half.  It programs the radio by five
requests, and `arm_cases` says where they may end: the radio answered the request to
start, or one of the five failed.  The node is the same at both ends, so that what
becomes of it is left to the conclusion.
-/

namespace ClockCalibration

open Relation (ReflTransGen)

variable {ρ ε α : Type}

namespace World

/-- From a calm world, steps lead to a calm world. -/
def Leads (R : World ρ ε → World ρ ε → Prop) (world later : World ρ ε) : Prop :=
  world.Calm → later.Calm ∧ ReflTransGen R world later

theorem Leads.refl (R : World ρ ε → World ρ ε → Prop) (world : World ρ ε) :
    Leads R world world :=
  fun calm ↦ ⟨calm, .refl⟩

theorem Leads.trans {R : World ρ ε → World ρ ε → Prop} {first second third : World ρ ε}
    (h : Leads R first second) (h' : Leads R second third) : Leads R first third := by
  intro calm
  obtain ⟨calm, hsteps⟩ := h calm
  obtain ⟨calm, hsteps'⟩ := h' calm
  exact ⟨calm, hsteps.trans hsteps'⟩

/-- Reactions lead from calm to calm worlds. -/
theorem leads_of_reactions {world later : World ρ ε}
    (steps : ReflTransGen Reaction world later) : Leads Turn world later := by
  intro calm
  refine ⟨calm.reactions steps, ?_⟩
  induction steps with
  | refl => exact .refl
  | tail steps step ih => exact ih.tail (.reaction (calm.reactions steps) step)

/-- What needs the instance leads where it leads with it, and nowhere without. -/
theorem leads_requireCalibration {R : World ρ ε → World ρ ε → Prop} {world : World ρ ε}
    {next : Calibration → NodeM ρ ε α}
    (h : ∀ calibration, world.node.calibration = some calibration →
      Leads R world (world.upon (next calibration))) :
    Leads R world (world.upon (Node.requireCalibration >>= next)) := by
  cases present : world.node.calibration with
  | none =>
      rw [upon_bind_of_error (Node.requireCalibration_of_none world present)]
      exact .refl R world
  | some calibration =>
      rw [upon_bind_of_ok (Node.requireCalibration_of_some world present)]
      exact h calibration present

/-- A world whose blink was rejected by the radio. -/
def rejecting (world : World ρ ε) (frame : Frame) : World ρ ε :=
  (world.recalibrating (·.reject)).noting (.log (.blinkRejected frame.sent))

/-- A world whose blink was accepted by the radio. -/
def accepting (world : World ρ ε) (frame : Frame) : World ρ ε :=
  (world.updating fun node ↦
    { node with
      calibration := node.calibration.map (·.accept)
      outgoing := some .calibration }).noting (.log (.blinkArmed frame.sent))

/-- Programming the radio is made of turns. -/
theorem turns_of_arming {world later : World ρ ε} (steps : ReflTransGen Arming world later) :
    ReflTransGen Turn world later := by
  induction steps with
  | refl => exact .refl
  | tail _ step ih => exact ih.tail (.arming step)

end World

namespace Node

open World

variable {world : World ρ ε}

/-! ## Programming the radio -/

/-- Steps that program the radio and leave the node alone. -/
def Programs (world later : World ρ ε) : Prop :=
  ReflTransGen Arming world later ∧ later.node = world.node

/-- A request for how to send the frame is such a step, and so is one to start that starts
nothing. -/
theorem Programs.request {middle : World ρ ε} (steps : Programs world middle)
    (armed : world.node.phase? = some .armed) {call : Call}
    (minor : call = .configureTransmit 30 true ∨ call = .setWaitForResponse false ∨
      call = .startTransmission) {reply : Reply ε call}
    (futile : (Happening.exchange call reply).landmark? = none) (radio : ρ) :
    Programs world (middle.exchanging call reply radio) :=
  ⟨steps.1.tail (.request (steps.2 ▸ armed) reply radio minor futile), steps.2⟩

/-- So is the one for when to send it. -/
theorem Programs.time {middle : World ρ ε} (steps : Programs world middle)
    {calibration : Calibration} (present : world.node.calibration = some calibration)
    (armed : calibration.phase = .armed)
    (loaded : Loaded middle.history (Wire.encode calibration.ring.current))
    (reply : Reply ε (.setDelayedStart calibration.ring.current.sent)) (radio : ρ) :
    Programs world (middle.exchanging (.setDelayedStart calibration.ring.current.sent)
      reply radio) :=
  ⟨steps.1.tail (.time (steps.2 ▸ present) armed reply radio loaded), steps.2⟩

variable [Radio ρ ε]

/-- What is left of programming the radio once it has the frame. -/
def program (instant : UInt64) : NodeM ρ ε StartOutcome := do
  ask (.configureTransmit 30 true)
  ask (.setWaitForResponse false)
  ask (.setDelayedStart instant)
  ask .startTransmission

theorem arm_eq (frame : Frame) (instant : UInt64) :
    (arm (Wire.encode frame) instant : NodeM ρ ε StartOutcome) =
      (do
        ask (.writeTransmitBuffer (Wire.encode frame) 0)
        program instant) := by
  rw [arm, Wire.length_encode_frame]
  rfl

/-- Programming the radio ends with the answer to the request to start, or with a failure
of one of the requests. -/
def Programmed (world : World ρ ε)
    (result : EStateM.Result (Error ε) (World ρ ε) StartOutcome) : Prop :=
  (∃ outcome middle transfers radio, Programs world middle ∧
    result = .ok outcome (middle.exchanging .startTransmission ⟨.ok outcome, transfers⟩ radio)) ∨
  ∃ error later, Programs world later ∧ result = .error error later

/-- It goes on after a request that succeeds, and ends with one that fails. -/
theorem Programmed.ask_bind {middle : World ρ ε} {call : Call}
    (steps : ∀ reply radio, Programs world (middle.exchanging call reply radio))
    {rest : call.Answer → NodeM ρ ε StartOutcome}
    (goesOn : ∀ answer reply radio, Programs world (middle.exchanging call reply radio) →
      Programmed world (rest answer (middle.exchanging call reply radio))) :
    Programmed world ((ask call >>= rest) middle) := by
  rcases ask_cases middle call with
    ⟨answer, transfers, radio, -, h⟩ | ⟨failure, transfers, radio, -, h⟩
  · rw [bind_of_ok h]
    exact goesOn answer _ radio (steps ⟨.ok answer, transfers⟩ radio)
  · rw [bind_of_error h]
    exact .inr ⟨_, _, steps ⟨.error failure, transfers⟩ radio, rfl⟩

/-- It ends with the request to start. -/
theorem Programmed.ask_start {middle : World ρ ε} (steps : Programs world middle)
    (armed : world.node.phase? = some .armed) :
    Programmed world (ask .startTransmission middle) := by
  rcases ask_cases middle .startTransmission with
    ⟨outcome, transfers, radio, -, h⟩ | ⟨failure, transfers, radio, -, h⟩
  · exact .inl ⟨outcome, middle, transfers, radio, steps, h⟩
  · exact .inr ⟨_, _, steps.request armed (.inr (.inr rfl)) rfl radio, h⟩

/-- Programming the radio with an armed blink that it was handed ends like that. -/
theorem programmed_program {calibration : Calibration}
    (present : world.node.calibration = some calibration) (armed : calibration.phase = .armed)
    {past : List (Entry ε)}
    {written : Reply ε (.writeTransmitBuffer (Wire.encode calibration.ring.current) 0)}
    (handed : world.history = past ++ [⟨some .armed, .exchange _ written⟩]) :
    Programmed world (program calibration.ring.current.sent world) := by
  have harmed : world.node.phase? = some .armed := by
    rw [phase?, present, Option.map_some, armed]
  have hworld : Programs world world := ⟨.refl, rfl⟩
  refine .ask_bind (fun _ radio ↦ hworld.request harmed (.inl rfl) rfl radio)
    fun _ configured _ hconfigured ↦ ?_
  refine .ask_bind (fun _ radio ↦ hconfigured.request harmed (.inr (.inl rfl)) rfl radio)
    fun _ ready _ hready ↦ ?_
  refine .ask_bind (fun reply radio ↦ hready.time present armed ?_ reply radio)
    fun _ _ _ htimed ↦ .ask_start htimed harmed
  exact ⟨past, written, configured, ready, by simp [harmed, handed]⟩

/-- The node of a world with its next blink in the current slot. -/
def prepared (node : Node) (calibration : Calibration) : Node :=
  { node with calibration := some (calibration.prepare node.shortAddress.toUInt64) }

omit [Radio ρ ε] in
/-- Putting the next blink into the current slot succeeds. -/
theorem prepare_eq {calibration : Calibration}
    (present : world.node.calibration = some calibration) :
    (prepare : NodeM ρ ε Frame) world =
      .ok (calibration.prepare world.node.shortAddress.toUInt64).ring.current
        (world.recalibrating (·.prepare world.node.shortAddress.toUInt64)) := by
  rw [prepare, get_bind, bind_of_ok (updateCalibration_eq world _),
    bind_of_ok (requireCalibration_of_some _ (congrArg (Option.map _) present))]
  rfl

/-- All of programming the radio ends in the same two ways, and the node is as the
preparation left it. -/
theorem arm_cases {calibration : Calibration}
    (present : world.node.calibration = some calibration) (idle : calibration.phase = .idle) :
    let frame := (calibration.prepare world.node.shortAddress.toUInt64).ring.current
    let before := world.recalibrating (·.prepare world.node.shortAddress.toUInt64)
    (∃ outcome middle transfers radio, ReflTransGen Arming world middle ∧
      middle.node = world.node.prepared calibration ∧
      arm (Wire.encode frame) frame.sent before =
        .ok outcome (middle.exchanging .startTransmission ⟨.ok outcome, transfers⟩ radio)) ∨
    (∃ error later, ReflTransGen Arming world later ∧
      later.node = world.node.prepared calibration ∧
      arm (Wire.encode frame) frame.sent before = .error error later) := by
  intro frame before
  have hbefore : before.node = world.node.prepared calibration := by
    rw [node_recalibrating, present]
    rfl
  rw [arm_eq]
  rcases ask_cases before (.writeTransmitBuffer (Wire.encode frame) 0) with
    ⟨answer, transfers, radio, -, h⟩ | ⟨failure, transfers, radio, -, h⟩
  rotate_left
  · exact .inr ⟨_, _, .single (.attempt present idle ⟨.error failure, transfers⟩ radio), hbefore,
      bind_of_error h _⟩
  rw [bind_of_ok h]
  have hwritten := ReflTransGen.single (Arming.attempt present idle ⟨.ok answer, transfers⟩ radio)
  have hnode : (before.exchanging (.writeTransmitBuffer (Wire.encode frame) 0)
      ⟨.ok answer, transfers⟩ radio).node = world.node.prepared calibration := hbefore
  have harmed : before.node.phase? = some .armed := by
    rw [hbefore]
    rfl
  have hhanded : (before.exchanging (.writeTransmitBuffer (Wire.encode frame) 0)
      ⟨.ok answer, transfers⟩ radio).history =
        before.history ++ [⟨some .armed, .exchange _ ⟨.ok answer, transfers⟩⟩] := by
    rw [history_exchanging, harmed]
  change ReflTransGen Arming world (before.exchanging (.writeTransmitBuffer (Wire.encode frame) 0)
    ⟨.ok answer, transfers⟩ radio) at hwritten
  generalize before.exchanging _ _ _ = written at hwritten hnode hhanded ⊢
  rcases programmed_program (congrArg Node.calibration hnode) rfl hhanded with
    ⟨outcome, middle, transfers, radio, ⟨hsteps, hmiddle⟩, hprogram⟩ |
    ⟨error, later, ⟨hsteps, hlater⟩, hprogram⟩
  · exact .inl ⟨outcome, middle, transfers, radio, hwritten.trans hsteps, hmiddle.trans hnode,
      hprogram⟩
  · exact .inr ⟨error, later, hwritten.trans hsteps, hlater.trans hnode, hprogram⟩

/-! ## Attempts -/

/-- What a blink does once no older one is under way. -/
def attemptBlink (mode : BlinkMode) : NodeM ρ ε Status := do
  let frame ← prepare
  match ← attempt (arm (Wire.encode frame) frame.sent) with
  | .ok outcome => conclude mode frame outcome
  | .error error =>
    updateCalibration (·.release)
    throw error
  return (← requireCalibration).status

theorem blink_eq (mode : BlinkMode) :
    (blink mode : NodeM ρ ε Status) =
      (do
        discard requireCalibration
        awaitCompletion
        attemptBlink mode) := rfl

/-- A blink that the radio answered has its conclusion left. -/
theorem attemptBlink_of_ok {later : World ρ ε} {mode : BlinkMode} {calibration : Calibration}
    {outcome : StartOutcome}
    (present : world.node.calibration = some calibration)
    (h : arm (Wire.encode (calibration.prepare world.node.shortAddress.toUInt64).ring.current)
        (calibration.prepare world.node.shortAddress.toUInt64).ring.current.sent
        (world.recalibrating (·.prepare world.node.shortAddress.toUInt64)) = .ok outcome later) :
    (attemptBlink mode : NodeM ρ ε Status) world =
      (do
        conclude mode (calibration.prepare world.node.shortAddress.toUInt64).ring.current outcome
        return (← requireCalibration).status) later := by
  rw [attemptBlink, bind_of_ok (prepare_eq present), bind_of_ok (attempt_of_ok h)]

/-- One that it failed is released. -/
theorem attemptBlink_of_error {later : World ρ ε} {mode : BlinkMode} {calibration : Calibration}
    {error : Error ε}
    (present : world.node.calibration = some calibration)
    (h : arm (Wire.encode (calibration.prepare world.node.shortAddress.toUInt64).ring.current)
        (calibration.prepare world.node.shortAddress.toUInt64).ring.current.sent
        (world.recalibrating (·.prepare world.node.shortAddress.toUInt64)) = .error error later) :
    (attemptBlink mode : NodeM ρ ε Status) world =
      .error error (later.recalibrating (·.release)) := by
  rw [attemptBlink, bind_of_ok (prepare_eq present), bind_of_ok (attempt_of_error h)]
  rfl

/-- What is waited for once a blink has been accepted. -/
def awaitIn : BlinkMode → NodeM ρ ε Unit
  | .blocking => awaitCompletion
  | .nonBlocking => pure ()

/-- What a blink answers with. -/
def tellStatus : NodeM ρ ε Status := do return (← requireCalibration).status

omit [Radio ρ ε] in
/-- The status is read off the instance. -/
theorem tellStatus_of_some {calibration : Calibration}
    (present : world.node.calibration = some calibration) :
    (tellStatus : NodeM ρ ε Status) world = .ok calibration.status world :=
  bind_of_ok (requireCalibration_of_some world present) _

theorem conclude_rejected (mode : BlinkMode) (frame : Frame) :
    (conclude mode frame .rejected : NodeM ρ ε Unit) world = .ok () (world.rejecting frame) := rfl

theorem conclude_started (mode : BlinkMode) (frame : Frame) :
    (conclude mode frame .started : NodeM ρ ε Unit) world =
      awaitIn mode (world.accepting frame) := by
  cases mode <;> rfl

/-- The conclusion of a blink leads from the answer to a calm world. -/
theorem leads_conclude {calibration : Calibration} (mode : BlinkMode) (frame : Frame)
    (present : world.node.calibration = some calibration) (armed : calibration.phase = .armed)
    (outcome : StartOutcome) (transfers : List Bus.Transfer) (radio : ρ) :
    let later := (world.exchanging .startTransmission ⟨.ok outcome, transfers⟩ radio).upon
      (conclude mode frame outcome)
    later.Calm ∧ ReflTransGen Turn world later := by
  intro later
  have harmed : world.node.phase? = some .armed := by
    rw [phase?, present, Option.map_some, armed]
  cases outcome with
  | rejected =>
      let rejected := (world.exchanging .startTransmission ⟨.ok .rejected, transfers⟩
        radio).recalibrating (·.reject)
      have hstep : Turn world rejected := .arming (.reject harmed transfers radio)
      have hcalm : rejected.Calm := by simp [rejected, Calm, phase?, present, Calibration.reject]
      exact ⟨hcalm, (ReflTransGen.single hstep).tail (.reaction hcalm (.note trivial))⟩
  | started =>
      let accepted := (world.exchanging .startTransmission ⟨.ok .started, transfers⟩
        radio).updating fun node ↦
          { node with
            calibration := node.calibration.map (·.accept)
            outgoing := some .calibration }
      have hstep : Turn world accepted := .arming (.accept harmed transfers radio)
      have hcalm : accepted.Calm := by simp [accepted, Calm, phase?, present, Calibration.accept]
      let logged := accepted.noting (.log (.blinkArmed frame.sent))
      have hlogged : ReflTransGen Turn world logged :=
        (ReflTransGen.single hstep).tail (.reaction hcalm (.note trivial))
      cases mode with
      | nonBlocking => exact ⟨hcalm, hlogged⟩
      | blocking =>
          obtain ⟨hlater, hwait⟩ :=
            leads_of_reactions (reactions_awaitCompletion logged) hcalm
          exact ⟨hlater, hlogged.trans hwait⟩

omit [Radio ρ ε] in
/-- What a blink answers with is read off the world that it leaves. -/
theorem upon_bind_status (computation : NodeM ρ ε Unit) :
    world.upon (do computation; return (← requireCalibration).status) =
      world.upon computation := by
  cases h : computation world with
  | error error later => rw [upon_bind_of_error h, upon_of_error h]
  | ok value later =>
      rw [upon_bind_of_ok h, upon_of_ok h]
      cases present : later.node.calibration with
      | none => rw [upon_bind_of_error (requireCalibration_of_none later present)]
      | some calibration =>
          rw [upon_bind_of_ok (requireCalibration_of_some later present)]
          rfl

/-- An attempt programs the radio, and goes on from there with the blink armed. -/
theorem attemptBlink_path {calibration : Calibration} (mode : BlinkMode)
    (present : world.node.calibration = some calibration) (idle : calibration.phase = .idle) :
    ∃ middle, ReflTransGen Arming world middle ∧
      middle.node = world.node.prepared calibration ∧
      (world.upon (attemptBlink mode)).Calm ∧
      ReflTransGen Turn middle (world.upon (attemptBlink mode)) := by
  rw [attemptBlink, upon_bind_of_ok (prepare_eq present)]
  rcases arm_cases present idle with
    ⟨outcome, middle, transfers, radio, hsteps, hmiddle, h⟩ | ⟨error, later, hsteps, hlater, h⟩
  · rw [upon_bind_of_ok (attempt_of_ok h)]
    obtain ⟨hcalm, hconclude⟩ := leads_conclude mode
      (calibration.prepare world.node.shortAddress.toUInt64).ring.current
      (congrArg Node.calibration hmiddle) rfl outcome transfers radio
    rw [← upon_bind_status] at hcalm hconclude
    exact ⟨middle, hsteps, hmiddle, hcalm, hconclude⟩
  · rw [upon_bind_of_ok (attempt_of_error h)]
    have harmed : later.node.phase? = some .armed := by
      rw [hlater]
      rfl
    have hrelease : Turn later (later.recalibrating (·.release)) := .arming (.release harmed)
    refine ⟨later, hsteps, hlater, ?_, .single hrelease⟩
    change (later.recalibrating (·.release)).Calm
    simp [Calm, hlater, prepared, phase?, Calibration.release]

/-- An attempt leads from calm to calm worlds. -/
theorem leads_attemptBlink {calibration : Calibration} (mode : BlinkMode)
    (present : world.node.calibration = some calibration) (idle : calibration.phase = .idle) :
    Leads Turn world (world.upon (attemptBlink mode)) := by
  intro _
  obtain ⟨middle, hsteps, -, hcalm, hrest⟩ := attemptBlink_path mode present idle
  exact ⟨hcalm, (turns_of_arming hsteps).trans hrest⟩

/-- The instance is there, if it was, once an older blink has been waited for. -/
theorem present_of_awaitCompletion {later : World ρ ε} {calibration : Calibration}
    (present : world.node.calibration = some calibration)
    (h : (awaitCompletion : NodeM ρ ε Unit) world = .ok () later) :
    ∃ waited, later.node.calibration = some waited := by
  have hsteps := reactions_awaitCompletion world
  rw [upon_of_ok h] at hsteps
  exact (SameSetup.of_steps Reaction.sameSetup hsteps).present present

/-- In a calm world, no blink is under way then. -/
theorem idle_of_awaitCompletion {later : World ρ ε} {calibration : Calibration}
    (calm : world.Calm) (present : world.node.calibration = some calibration)
    (h : (awaitCompletion : NodeM ρ ε Unit) world = .ok () later) :
    ∃ waited, later.node.calibration = some waited ∧ waited.phase = .idle := by
  have hsteps := reactions_awaitCompletion world
  rw [upon_of_ok h] at hsteps
  obtain ⟨waited, hpresent⟩ := present_of_awaitCompletion present h
  have hcalm := calm.reactions hsteps
  have hpending := phase?_of_awaitCompletion h
  rw [Calm, phase?, hpresent] at hcalm
  rw [phase?, hpresent] at hpending
  refine ⟨waited, hpresent, ?_⟩
  cases hphase : waited.phase with
  | idle => rfl
  | armed => exact absurd (congrArg some hphase) hcalm
  | pending => exact absurd (congrArg some hphase) hpending

/-- With no blink pending there is nothing to wait for before the attempt. -/
theorem blink_eq_attemptBlink {calibration : Calibration} (mode : BlinkMode)
    (present : world.node.calibration = some calibration) (free : calibration.phase ≠ .pending) :
    (blink mode : NodeM ρ ε Status) world = attemptBlink mode world := by
  have hfree : world.node.phase? ≠ some .pending := by simpa [phase?, present] using free
  rw [blink_eq, bind_of_ok (discard_of_ok (requireCalibration_of_some world present)),
    bind_of_ok (awaitCompletion_of_not_pending hfree)]

/-- A blink fails, or the radio answers it.  Its mode matters from there on only. -/
theorem blink_cases (world : World ρ ε) :
    (∃ error later, ∀ mode, (blink mode : NodeM ρ ε Status) world = .error error later) ∨
    (∃ frame outcome answered, ∀ mode, (blink mode : NodeM ρ ε Status) world =
      (do conclude mode frame outcome; tellStatus : NodeM ρ ε Status) answered) := by
  cases present : world.node.calibration with
  | none =>
      refine .inl ⟨.notInitialized, world, fun mode ↦ ?_⟩
      exact bind_of_error (discard_of_error (requireCalibration_of_none world present)) _
  | some calibration =>
      have hrequired := discard_of_ok (requireCalibration_of_some world present)
      cases h : (awaitCompletion : NodeM ρ ε Unit) world with
      | error error later =>
          refine .inl ⟨error, later, fun mode ↦ ?_⟩
          rw [blink_eq, bind_of_ok hrequired, bind_of_error h]
      | ok _ waited =>
          have hblink (mode : BlinkMode) :
              (blink mode : NodeM ρ ε Status) world = attemptBlink mode waited := by
            rw [blink_eq, bind_of_ok hrequired, bind_of_ok h]
          obtain ⟨calibration, present⟩ := present_of_awaitCompletion present h
          let frame := (calibration.prepare waited.node.shortAddress.toUInt64).ring.current
          cases harm : (arm (Wire.encode frame) frame.sent : NodeM ρ ε StartOutcome)
              (waited.recalibrating (·.prepare waited.node.shortAddress.toUInt64)) with
          | error error later =>
              exact .inl ⟨error, later.recalibrating (·.release), fun mode ↦
                (hblink mode).trans (attemptBlink_of_error present harm)⟩
          | ok outcome answered =>
              exact .inr ⟨frame, outcome, answered, fun mode ↦
                (hblink mode).trans (attemptBlink_of_ok present harm)⟩

/-- A blink leads from calm to calm worlds. -/
theorem leads_blink (world : World ρ ε) (mode : BlinkMode) :
    Leads Turn world (world.upon (blink mode)) := by
  rw [blink_eq, upon_discard_bind]
  refine leads_requireCalibration fun calibration present calm ↦ ?_
  refine upon_bind_of (R := Leads Turn) Leads.trans
    (leads_of_reactions (reactions_awaitCompletion world)) (fun _ later h ↦ ?_) calm
  obtain ⟨waited, hpresent, hidle⟩ := idle_of_awaitCompletion calm present h
  exact leads_attemptBlink mode hpresent hidle

/-! ## The timer -/

/-- Blinking at the expiry of a timer that is enabled leads from calm to calm worlds. -/
theorem leads_timedBlink {config : Config} (mode : BlinkMode)
    (settings : world.node.settings? = some (config, true)) :
    Leads Turn world (world.upon (timedBlink mode config.timerDelay)) := by
  intro calm
  obtain ⟨hcalm, hblink⟩ := leads_blink world mode calm
  have hsettings := (SameSetup.of_steps Turn.sameSetup hblink).settings.trans settings
  obtain ⟨calibration, present, hcalibration⟩ := Option.map_eq_some_iff.mp hsettings
  obtain ⟨hconfig, enabled⟩ := Prod.mk.inj hcalibration
  have hschedule : Leads Turn (world.upon (blink mode))
      ((world.upon (blink mode)).scheduling config.timerDelay) :=
    leads_of_reactions (.single (.schedule present enabled (.inr (hconfig ▸ rfl))))
  have hscheduled := Leads.trans (fun _ ↦ ⟨hcalm, hblink⟩) hschedule calm
  unfold timedBlink
  cases h : (blink mode : NodeM ρ ε Status) world with
  | ok status later =>
      rw [upon_bind_of_ok (attempt_of_ok h)]
      rw [upon_of_ok h] at hcalm hblink hscheduled
      dsimp only
      split
      · exact hscheduled
      · exact ⟨hcalm, hblink⟩
  | error error later =>
      rw [upon_bind_of_ok (attempt_of_error h)]
      rw [upon_of_error h] at hscheduled
      exact hscheduled

end Node

end ClockCalibration
