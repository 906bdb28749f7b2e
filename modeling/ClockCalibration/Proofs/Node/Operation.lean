import ClockCalibration.Node.Operation
import ClockCalibration.Proofs.Node.Broadcast

/-!
# Operations

Every operation leads from calm to calm worlds by steps.  Setting an instance up,
starting it and stopping it are `Control` steps between reactions; the expiry of the
timer and the dispatch of an event come down to a blink.  An operation that is made of
others, such as the dispatch of a queue, leads where its parts lead, one after the
other.

`World.leads_after` is what the theory of runs needs of all this.
-/

namespace ClockCalibration

open Relation (ReflTransGen)

variable {ρ ε α β : Type}

namespace World

variable {allowed : Operation → Prop} {world later : World ρ ε}

/-- Turns are steps whatever is allowed. -/
theorem leads_of_turns (h : Leads Turn world later) : Leads (Step allowed) world later := by
  intro calm
  obtain ⟨calm, hsteps⟩ := h calm
  exact ⟨calm, hsteps.lift id fun _ _ ↦ .turn⟩

/-- Reactions are steps whatever is allowed. -/
theorem steps_of_reactions (steps : ReflTransGen Reaction world later) :
    Leads (Step allowed) world later :=
  leads_of_turns (leads_of_reactions steps)

/-- A control step that ends in a calm world is a step whatever is allowed. -/
theorem leads_of_control (step : Control allowed world later) (h : world.Calm → later.Calm) :
    Leads (Step allowed) world later :=
  fun calm ↦ ⟨h calm, .single (.control calm step)⟩

/-- What every computation in a sequence leads to, the sequence does. -/
theorem leads_mapM {R : World ρ ε → World ρ ε → Prop} {computation : α → NodeM ρ ε β}
    (h : ∀ item world, Leads R world (world.upon (computation item))) (items : List α)
    (world : World ρ ε) : Leads R world (world.upon (items.mapM computation)) :=
  upon_mapM_of (R := Leads R) (.refl R) Leads.trans (fun item _ ↦ h item) world

end World

namespace Node

open World

variable [Radio ρ ε] {allowed : Operation → Prop} (world : World ρ ε)

/-! ## Creation, start and stop -/

omit [Radio ρ ε] in
/-- A new instance either cannot be had or gets a ring of its own. -/
theorem newRing_cases (size : Nat) :
    (∃ ring, world.node.config.isValid = true ∧ FrameRing.ofSize? size = some ring ∧
      (newRing size : NodeM ρ ε FrameRing) world = .ok ring world) ∨
    (∃ error, (newRing size : NodeM ρ ε FrameRing) world = .error error world) := by
  rw [newRing, get_bind]
  cases valid : world.node.config.isValid with
  | false => exact .inr ⟨.invalidConfiguration, rfl⟩
  | true =>
      cases sized : FrameRing.ofSize? size with
      | none => exact .inr ⟨.invalidFrameCount size, rfl⟩
      | some ring => exact .inl ⟨ring, rfl, rfl, rfl⟩

theorem leads_create (absent : world.node.calibration = none) (size : Nat) (master : UInt64) :
    Leads (Step allowed) world (world.upon (create size master : NodeM ρ ε Calibration)) := by
  unfold create
  rcases newRing_cases world size with ⟨ring, valid, sized, h⟩ | ⟨error, h⟩
  · rw [upon_bind_of_ok h]
    refine upon_ask_bind (P := Leads (Step allowed) world) world
      (fun time transfers radio ↦ ?_) fun failure transfers radio ↦ ?_
    · refine (leads_of_control (.create absent valid sized time transfers radio master)
        fun _ ↦ ?_).trans (steps_of_reactions (.single (.note trivial)))
      simp [Calm, phase?, withCalibration, Calibration.create]
    · exact steps_of_reactions
        (reactions_exchanging .readSystemTime ⟨.error failure, transfers⟩ id radio)
  · rw [upon_bind_of_error h]
    exact .refl _ world

theorem leads_init (size : Nat) (master : UInt64) :
    Leads (Step allowed) world (world.upon (init size master : NodeM ρ ε Calibration)) := by
  rw [init, upon_get_bind]
  cases present : world.node.calibration with
  | none => exact leads_create world present size master
  | some calibration =>
      dsimp only
      split
      · exact .refl _ world
      · exact leads_of_control (.remaster master) id

theorem leads_start {mode : BlinkMode} (permitted : allowed (.start mode)) :
    Leads (Step allowed) world (world.upon (start mode : NodeM ρ ε Unit)) := by
  unfold start
  refine leads_requireCalibration fun calibration present ↦ ?_
  refine upon_ask_bind (P := Leads (Step allowed) world) world
    (fun time transfers radio ↦ ?_) fun failure transfers radio ↦ ?_
  · let restarted := (world.exchanging .readSystemTime ⟨.ok time, transfers⟩
      radio).recalibrating (·.restart time mode)
    let logged := restarted.noting (.log (.started calibration.config.startDelay))
    have hpresent : logged.node.calibration = some (calibration.restart time mode) := by
      simp [logged, restarted, present]
    have hrestart : Leads (Step allowed) world restarted := by
      refine leads_of_control (.restart present time transfers radio permitted) fun calm ↦ ?_
      simpa [restarted, Calm, phase?, present, Calibration.restart] using calm
    have hschedule : Leads (Step allowed) restarted
        (logged.scheduling calibration.config.startDelay) :=
      steps_of_reactions ((ReflTransGen.single (.note trivial)).tail
        (.schedule hpresent rfl (.inl rfl)))
    exact hrestart.trans hschedule
  · exact steps_of_reactions
      (reactions_exchanging .readSystemTime ⟨.error failure, transfers⟩ id radio)

omit [Radio ρ ε] in
theorem leads_stop : Leads (Step allowed) world (world.upon (stop : NodeM ρ ε Unit)) := by
  unfold stop
  refine leads_requireCalibration fun calibration present ↦ ?_
  rw [upon_bind_of_ok (updateCalibration_eq world _)]
  have hhalt : Leads (Step allowed) world (world.recalibrating (·.halt)) := by
    refine leads_of_control .halt fun calm ↦ ?_
    simpa [Calm, phase?, present, Calibration.halt] using calm
  let halted := world.recalibrating (·.halt)
  have hpresent : halted.node.calibration = some calibration.halt := by simp [halted, present]
  have hstopped (later : World ρ ε) (same : later.node = halted.node) :
      Leads (Step allowed) later (later.noting (.log .stopped)) :=
    leads_of_control (.stopped (same ▸ hpresent) rfl rfl) id
  refine hhalt.trans ?_
  cases calibration.timer with
  | none => exact hstopped halted rfl
  | some handle =>
      have hcancel : Leads (Step allowed) halted (halted.noting (.cancel handle)) :=
        steps_of_reactions (.single (.note trivial))
      exact hcancel.trans (hstopped _ rfl)

/-! ## Events -/

theorem leads_timerExpired :
    Leads (Step allowed) world (world.upon (timerExpired : NodeM ρ ε Unit)) := by
  rw [timerExpired, upon_get_bind]
  cases present : world.node.calibration with
  | none => exact .refl _ world
  | some calibration =>
      dsimp only
      rw [upon_bind_of_ok (updateCalibration_eq world _)]
      have hfired : Leads (Step allowed) world (world.recalibrating (·.timerFired)) := by
        refine leads_of_control .timerFired fun calm ↦ ?_
        simpa [Calm, phase?, present, Calibration.timerFired] using calm
      refine hfired.trans ?_
      split
      · next enabled =>
        refine leads_of_turns (leads_timedBlink _ ?_)
        simp [settings?, present, Calibration.timerFired, enabled]
      · exact .refl _ _

/-- A sink that calls back does what it does, and what came of it is noted. -/
theorem leads_deliver (record : Record) (sink : Sink) :
    Leads (Step allowed) world (world.upon (deliver record sink : NodeM ρ ε Unit)) := by
  have hnote (world : World ρ ε) {happening : Happening ε} (quiet : happening.IsQuiet) :
      Leads (Step allowed) world (world.noting happening) :=
    steps_of_reactions (.single (.note quiet))
  refine upon_bind_of (R := Leads (Step allowed)) Leads.trans (hnote world trivial)
    fun _ later _ ↦ ?_
  cases sink with
  | log => exact hnote later trivial
  | observe => exact .refl _ later
  | blink =>
      refine upon_bind_of (R := Leads (Step allowed)) Leads.trans ?_
        fun _ latest _ ↦ hnote latest trivial
      rw [upon_attempt]
      exact leads_of_turns (leads_blink later .nonBlocking)
  | stop =>
      refine upon_bind_of (R := Leads (Step allowed)) Leads.trans ?_
        fun _ latest _ ↦ hnote latest trivial
      rw [upon_attempt]
      exact leads_stop later

theorem leads_dispatch (event : Event) :
    Leads (Step allowed) world (world.upon (dispatch event : NodeM ρ ε Unit)) := by
  cases event with
  | timerExpired => exact leads_timerExpired world
  | postprocess direction index =>
      change Leads _ world (world.upon (postprocess direction index))
      rw [postprocess, upon_get_bind]
      cases world.node.calibration with
      | none => exact .refl _ world
      | some calibration => exact leads_deliver world _ calibration.sink

theorem leads_drain :
    Leads (Step allowed) world (world.upon (drain : NodeM ρ ε (List (Except (Error ε) Unit)))) := by
  rw [drain, upon_get_bind]
  refine leads_mapM (fun event world ↦ ?_) world.platform.queue world
  have hdrop : Leads (Step allowed) world
      { world with platform := world.platform.dropOldest } :=
    steps_of_reactions (.single (.surroundings world.radio world.platform.dropOldest))
  refine upon_bind_of (R := Leads (Step allowed)) Leads.trans hdrop fun _ later _ ↦ ?_
  rw [upon_attempt]
  exact leads_dispatch later event

omit [Radio ρ ε] in
theorem leads_setSink {sink : Sink} (permitted : allowed (.setSink sink)) :
    Leads (Step allowed) world (world.upon (setSink sink : NodeM ρ ε Unit)) := by
  rw [setSink, upon_discard_bind]
  refine leads_requireCalibration fun calibration present ↦ ?_
  rw [upon_of_ok (updateCalibration_eq world _)]
  refine leads_of_control (.withSink permitted) fun calm ↦ ?_
  simpa [Calm, phase?, present, Calibration.withSink] using calm

end Node

namespace World

variable [Radio ρ ε] {allowed : Operation → Prop}

/-- An operation that is allowed leads from calm to calm worlds. -/
theorem leads_after (world : World ρ ε) {operation : Operation} (permitted : allowed operation) :
    Leads (Step allowed) world (world.after operation) := by
  rw [after_eq_upon]
  cases operation with
  | init size master => exact Node.leads_init world size master
  | start mode => exact Node.leads_start world permitted
  | stop => exact Node.leads_stop world
  | blink mode => exact leads_of_turns (Node.leads_blink world mode)
  | poll => exact steps_of_reactions (Node.reactions_poll world)
  | receptionInterrupt => exact steps_of_reactions (Node.reactions_receptionInterrupt world)
  | transmissionInterrupt => exact steps_of_reactions (Node.reactions_transmissionInterrupt world)
  | receptionComplete => exact steps_of_reactions (Node.reactions_receptionComplete world)
  | transmissionComplete => exact steps_of_reactions (Node.reactions_transmissionComplete world)
  | dispatch event => exact Node.leads_dispatch world event
  | drain => exact Node.leads_drain world
  | setCallbacks onReception onTransmission =>
      exact fun calm ↦ ⟨calm, .single (.callbacks calm permitted)⟩
  | setSink sink => exact Node.leads_setSink world permitted
  | elapse uptime =>
      exact steps_of_reactions (.single (.surroundings world.radio
        { world.platform with uptime }))

end World

end ClockCalibration
