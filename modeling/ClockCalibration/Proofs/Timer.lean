import ClockCalibration.Proofs.Completion
import ClockCalibration.Proofs.Node.Starts

/-!
# The timer of the broadcast

While the broadcast is enabled, either an expiry of the timer is to come or a blink is
pending whose completion will schedule one, so the broadcast never stops of itself.  The
two paths of an expiry split the work.  A blink that is accepted is left to its completion
to schedule the next expiry; one that is rejected or fails, at whichever request, is not,
and the expiry schedules the next one itself.

In the middle of an operation there may be neither: the completion of a blink ends the
cycle before it schedules, and an expiry forgets its own handle first.  So the property is
not one that every step keeps, and the operations are gone through one by one:
`World.Sustains` relates the worlds before and after each.
-/

namespace ClockCalibration

open Relation (ReflTransGen)

variable {ρ ε : Type}

namespace Node

open World

/-- If the broadcast is enabled, an expiry of the timer is to come or a blink is pending that
the standard transmit callback will recognise. -/
def Sustained (node : Node) : Prop :=
  ∀ calibration, node.calibration = some calibration → calibration.status.timerEnabled = true →
    (∃ handle, calibration.timer = some handle) ∨
      (calibration.phase = .pending ∧ node.outgoing = some .calibration)

/-- What matters for that is the pulse of a node alone. -/
theorem Sustained.of_pulse {node later : Node} (h : node.Sustained)
    (same : later.pulse = node.pulse) : later.Sustained := by
  intro calibration present enabled
  obtain ⟨houtgoing, hpulse⟩ := Prod.mk.inj same
  rw [present, Option.map_some] at hpulse
  obtain ⟨earlier, hpresent, hearlier⟩ := Option.map_eq_some_iff.mp hpulse.symm
  obtain ⟨htimer, hrest⟩ := Prod.mk.inj hearlier
  obtain ⟨hphase, henabled⟩ := Prod.mk.inj hrest
  rw [← htimer, ← hphase, houtgoing]
  exact h earlier hpresent (henabled.trans enabled)

/-- While no blink is pending it is the timer that counts. -/
theorem Sustained.of_timer {node later : Node} {calibration : Calibration} (h : node.Sustained)
    (present : node.calibration = some calibration) (idle : calibration.phase = .idle)
    (settings : later.settings? = node.settings?)
    (timer : later.calibration.map (·.timer) = some calibration.timer) : later.Sustained := by
  intro latest hlatest enabled
  rw [settings?, settings?, hlatest, present] at settings
  rw [hlatest] at timer
  rw [(Option.some.inj timer : latest.timer = calibration.timer)]
  have hsame := (Prod.mk.inj (Option.some.inj settings)).2
  exact .inl ((h calibration present (hsame.symm.trans enabled)).resolve_right
    fun pending ↦ by simp [idle] at pending)

/-- A node without an instance has no broadcast to keep up. -/
theorem Sustained.of_absent {node : Node} (absent : node.calibration = none) : node.Sustained :=
  fun _ present ↦ (nomatch absent.symm.trans present)

end Node

namespace World

/-- A world between operations in which the broadcast goes on. -/
structure Ticking (world : World ρ ε) : Prop where
  calm : world.Calm
  standard : world.Standard
  sustained : world.node.Sustained

/-- What was the case at the start of a path of steps and the broadcast going on at its end
make a world in which it goes on. -/
theorem Ticking.of_leads {world later : World ρ ε} (h : world.Ticking)
    (leads : Leads (Step Operation.KeepsTransmission) world later)
    (sustained : later.node.Sustained) : later.Ticking := by
  obtain ⟨hcalm, hsteps⟩ := leads h.calm
  exact ⟨hcalm, h.standard.steps hsteps, sustained⟩

/-- The broadcast goes on from one world to another. -/
def Sustains (world later : World ρ ε) : Prop := world.Ticking → later.Ticking

theorem Sustains.refl (world : World ρ ε) : Sustains world world := id

theorem Sustains.trans {first second third : World ρ ε} (h : Sustains first second)
    (h' : Sustains second third) : Sustains first third :=
  h' ∘ h

variable {world later : World ρ ε}

theorem sustains_of_leads (leads : Leads (Step Operation.KeepsTransmission) world later)
    (h : world.Ticking → later.node.Sustained) : Sustains world later :=
  fun ticking ↦ ticking.of_leads leads (h ticking)

theorem sustains_of_reactions (steps : ReflTransGen Reaction world later)
    (h : world.Ticking → later.node.Sustained) : Sustains world later :=
  sustains_of_leads (steps_of_reactions steps) h

/-- So it does along a path on which nothing happens to the timer. -/
theorem sustains_of_pulse (leads : Leads (Step Operation.KeepsTransmission) world later)
    (same : later.node.pulse = world.node.pulse) : Sustains world later :=
  sustains_of_leads leads fun ticking ↦ ticking.sustained.of_pulse same

/-- Noting something quiet is nothing to the timer. -/
theorem sustains_noting (world : World ρ ε) {happening : Happening ε} (quiet : happening.IsQuiet) :
    Sustains world (world.noting happening) :=
  sustains_of_pulse (steps_of_reactions (.single (.note quiet))) rfl

/-- The end of a blink schedules the next expiry of a timer that is enabled. -/
theorem timer_finishing {calibration latest : Calibration}
    (present : world.node.calibration = some calibration)
    (h : (world.finishing calibration).node.calibration = some latest)
    (enabled : latest.status.timerEnabled = true) : ∃ handle, latest.timer = some handle := by
  unfold finishing at h
  split at h
  · simp only [node_scheduling, node_recording, claiming, node_noting, node_recalibrating,
      present] at h
    obtain rfl := Option.some.inj h
    exact ⟨_, rfl⟩
  · next disabled =>
    simp only [node_recording, claiming, node_noting, node_recalibrating, present] at h
    obtain rfl := Option.some.inj h
    exact absurd enabled disabled

end World

namespace Node

open World

variable (world : World ρ ε)

/-! ### Callbacks and polls -/

/-- The standard transmit callback keeps the broadcast going. -/
theorem sustains_transmissionComplete :
    Sustains world (world.upon (transmissionComplete : NodeM ρ ε Bool)) := by
  refine sustains_of_reactions (reactions_transmissionComplete world) fun ticking ↦ ?_
  rcases transmissionComplete_cases world with ⟨calibration, present, -, -, h⟩ | ⟨-, h⟩
  · rw [upon_of_ok h]
    exact fun _ hlatest enabled ↦ .inl (timer_finishing present hlatest enabled)
  · rw [upon_of_ok h]
    exact ticking.sustained

variable [Radio ρ ε]

/-- Every callback keeps the broadcast going. -/
theorem sustains_invoke (callback : Callback) :
    Sustains world (world.upon (invoke callback : NodeM ρ ε Bool)) := by
  refine upon_bind_of (R := Sustains) Sustains.trans (sustains_noting world trivial)
    fun _ later _ ↦ ?_
  cases callback with
  | reception =>
      exact sustains_of_pulse (steps_of_reactions (reactions_receptionComplete later))
        (samePulse_receptionComplete later)
  | transmission => exact sustains_transmissionComplete later
  | transmissionUnclaimed =>
      refine upon_bind_of (R := Sustains) Sustains.trans ?_ fun _ latest _ ↦ .refl latest
      rw [upon_discard]
      exact sustains_transmissionComplete later
  | claim | fail | ignore => exact .refl later

theorem sustains_receptionInterrupt :
    Sustains world (world.upon (receptionInterrupt : NodeM ρ ε Bool)) := by
  rw [receptionInterrupt, upon_get_bind]
  cases world.node.onReception with
  | none => exact .refl world
  | some callback => exact sustains_invoke world callback

variable {world} {later : World ρ ε}

omit [Radio ρ ε] in
/-- A path of reactions finds no instance where there was none. -/
theorem absent_of_reactions (steps : ReflTransGen Reaction world later)
    (absent : world.node.calibration = none) : later.node.calibration = none := by
  have hsettings := (SameSetup.of_steps Reaction.sameSetup steps).settings
  rw [settings?, settings?, absent] at hsettings
  exact Option.map_eq_none_iff.mp hsettings

/-- The interrupt leaves a world in which the broadcast goes on and no blink is pending. -/
theorem sustained_transmissionInterrupt (h : world.Ticking) :
    (world.upon (transmissionInterrupt : NodeM ρ ε Bool)).node.Sustained ∧
      (world.upon (transmissionInterrupt : NodeM ρ ε Bool)).node.phase? ≠ some .pending := by
  cases present : world.node.calibration with
  | none =>
      have habsent := absent_of_reactions (reactions_transmissionInterrupt world) present
      exact ⟨.of_absent habsent, by simp [phase?, habsent]⟩
  | some calibration =>
      rcases transmissionInterrupt_cases (h.standard.callback calibration present) with
        ⟨_, hpresent, -, -, hended⟩ | ⟨foreign, hidle⟩
      · rw [upon_of_ok hended]
        let called := world.noting (.callback .transmission)
        have hphase : (called.finishing _).node.phase? = some .idle := phase?_finishing hpresent
        refine ⟨fun latest hlatest enabled ↦ .inl ?_, fun pending ↦ ?_⟩
        · have hcalled : called.node.calibration = some _ := hpresent
          exact timer_finishing hcalled hlatest enabled
        · cases hphase.symm.trans pending
      · rw [upon_of_ok hidle]
        exact ⟨h.sustained, fun pending ↦ foreign pending (h.standard.outgoing pending)⟩

theorem sustains_transmissionInterrupt (world : World ρ ε) :
    Sustains world (world.upon (transmissionInterrupt : NodeM ρ ε Bool)) :=
  sustains_of_reactions (reactions_transmissionInterrupt world) fun ticking ↦
    (sustained_transmissionInterrupt ticking).1

/-- Nothing is left to be closed after the interrupt, so the acknowledgement of a blink keeps
the broadcast going. -/
theorem sustained_acknowledge (h : world.Ticking) :
    (world.upon (acknowledge : NodeM ρ ε Unit)).node.Sustained := by
  obtain ⟨hsustained, hidle⟩ := sustained_transmissionInterrupt h
  rw [acknowledge, upon_discard_bind]
  cases hinterrupt : (transmissionInterrupt : NodeM ρ ε Bool) world with
  | error error later =>
      rw [upon_of_error hinterrupt] at hsustained
      rwa [upon_bind_of_error hinterrupt]
  | ok claimed later =>
      rw [upon_of_ok hinterrupt] at hsustained hidle
      rw [upon_bind_of_ok hinterrupt, upon_of_ok (update_eq later _), node_updating, closeCycle,
        if_neg hidle]
      exact hsustained

theorem sustains_poll (world : World ρ ε) :
    Sustains world (world.upon (poll : NodeM ρ ε Completion)) := by
  refine sustains_of_reactions (reactions_poll world) fun ticking ↦ ?_
  by_cases pending : world.node.phase? = some .pending
  · rw [upon, poll, if_pos pending]
    change (world.upon pollPending).node.Sustained
    have hasked (reply : Reply ε .pollTransmission) (radio : ρ) :
        (world.exchanging .pollTransmission reply radio).Ticking :=
      sustains_of_pulse (steps_of_reactions (reactions_exchanging .pollTransmission reply id radio))
        rfl ticking
    refine upon_ask_bind (P := fun later ↦ later.node.Sustained) world
      (fun completion transfers radio ↦ ?_) fun failure transfers radio ↦ ticking.sustained
    cases completion with
    | wouldBlock => exact ticking.sustained
    | done =>
        rw [upon_bind_pure]
        exact sustained_acknowledge (hasked ⟨.ok .done, transfers⟩ radio)
  · rw [upon, poll, if_neg pending]
    exact ticking.sustained

/-- Waiting for a blink keeps the broadcast going. -/
theorem sustains_awaitCompletion (world : World ρ ε) :
    Sustains world (world.upon (awaitCompletion : NodeM ρ ε Unit)) := by
  have hpoll := sustains_poll world
  induction world using awaitCompletion.induct with
  | case1 world later blocked ih =>
      rw [upon_of_ok blocked] at hpoll
      unfold upon
      rw [awaitCompletion_of_blocked blocked]
      exact hpoll.trans (ih (sustains_poll later))
  | case2 world later h =>
      rw [upon_of_ok h] at hpoll
      rwa [upon_of_ok (awaitCompletion_of_done h)]
  | case3 world error later h =>
      rw [upon_of_error h] at hpoll
      rwa [upon_of_error (awaitCompletion_of_error h)]

/-! ### Blinks -/

theorem sustains_awaitIn (world : World ρ ε) (mode : BlinkMode) :
    Sustains world (world.upon (awaitIn mode : NodeM ρ ε Unit)) := by
  cases mode with
  | blocking => exact sustains_awaitCompletion world
  | nonBlocking => exact .refl world

/-- How an attempt ends: the radio failed it, rejected it, or has accepted it, after which it
may be waited for. -/
theorem attemptBlink_cases {calibration : Calibration} (mode : BlinkMode)
    (present : world.node.calibration = some calibration) (idle : calibration.phase = .idle) :
    (∃ error later, later.node.calibration.map (·.timer) = some calibration.timer ∧
      (attemptBlink mode : NodeM ρ ε Status) world = .error error later) ∨
    (∃ status later, status.startError = true ∧
      later.node.calibration.map (·.timer) = some calibration.timer ∧
      (attemptBlink mode : NodeM ρ ε Status) world = .ok status later) ∨
    (∃ armed : World ρ ε, Leads (Step Operation.KeepsTransmission) world armed ∧
      armed.node.phase? = some .pending ∧ armed.node.outgoing = some .calibration ∧
      (attemptBlink mode : NodeM ρ ε Status) world =
        (do awaitIn mode; return (← requireCalibration).status) armed) := by
  rcases arm_cases present idle with
    ⟨outcome, middle, transfers, radio, hsteps, hmiddle, harm⟩ | ⟨error, later, -, hlater, harm⟩
  rotate_left
  · refine .inl ⟨error, later.recalibrating (·.release), ?_, attemptBlink_of_error present harm⟩
    rw [node_recalibrating, hlater]
    rfl
  have hanswered : (attemptBlink mode : NodeM ρ ε Status) world = _ :=
    attemptBlink_of_ok present harm
  rw [hanswered]
  let frame := (calibration.prepare world.node.shortAddress.toUInt64).ring.current
  have hpresent := congrArg Node.calibration hmiddle
  cases outcome with
  | rejected =>
      let rejected := (middle.exchanging .startTransmission ⟨.ok .rejected, transfers⟩
        radio).recalibrating (·.reject)
      let logged := rejected.noting (.log (.blinkRejected frame.sent))
      have hlogged : logged.node.calibration =
          some (calibration.prepare world.node.shortAddress.toUInt64).reject := by
        simp [logged, rejected, hpresent, prepared]
      refine .inr (.inl ⟨(calibration.prepare world.node.shortAddress.toUInt64).reject.status,
        logged, rfl, by rw [hlogged]; rfl, ?_⟩)
      exact bind_of_ok (requireCalibration_of_some logged hlogged) _
  | started =>
      let accepted := (middle.exchanging .startTransmission ⟨.ok .started, transfers⟩
        radio).updating fun node ↦
          { node with
            calibration := node.calibration.map (·.accept)
            outgoing := some .calibration }
      have hphase : accepted.node.phase? = some .pending := by
        simp [accepted, phase?, hpresent, prepared, Calibration.accept]
      have harmed : middle.node.phase? = some .armed := by
        rw [phase?, hpresent]
        rfl
      have haccepted : Leads Turn world accepted := fun _ ↦
        ⟨by simp [Calm, hphase], (turns_of_arming hsteps).tail
          (.arming (.accept harmed transfers radio))⟩
      refine .inr (.inr ⟨accepted.noting (.log (.blinkArmed frame.sent)),
        leads_of_turns (haccepted.trans (leads_of_reactions (.single (.note trivial)))),
        hphase, rfl, ?_⟩)
      cases mode <;> rfl

/-- A blink that was accepted keeps the broadcast going, whatever the timer was before. -/
theorem ticking_of_accepted {armed : World ρ ε} {mode : BlinkMode} (calm : world.Calm)
    (standard : world.Standard) (leads : Leads (Step Operation.KeepsTransmission) world armed)
    (pending : armed.node.phase? = some .pending)
    (outgoing : armed.node.outgoing = some .calibration)
    (h : (attemptBlink mode : NodeM ρ ε Status) world =
      (do awaitIn mode; return (← requireCalibration).status) armed) :
    (world.upon (attemptBlink mode)).Ticking := by
  obtain ⟨hcalm, hsteps⟩ := leads calm
  have harmed : armed.Ticking := by
    refine ⟨hcalm, standard.steps hsteps, fun calibration present _ ↦ .inr ⟨?_, outgoing⟩⟩
    rw [phase?, present] at pending
    exact Option.some.inj pending
  rw [upon, h]
  change (armed.upon _).Ticking
  rw [upon_bind_status]
  exact sustains_awaitIn armed mode harmed

/-- An attempt keeps the broadcast going. -/
theorem sustains_attemptBlink {calibration : Calibration} (mode : BlinkMode)
    (present : world.node.calibration = some calibration) (idle : calibration.phase = .idle) :
    Sustains world (world.upon (attemptBlink mode)) := by
  have hleads : Leads Turn world (world.upon (attemptBlink mode)) :=
    leads_attemptBlink mode present idle
  refine sustains_of_leads (leads_of_turns hleads) fun ticking ↦ ?_
  have hsettings := (SameSetup.of_steps Turn.sameSetup (hleads ticking.calm).2).settings
  rcases attemptBlink_cases mode present idle with
    ⟨error, later, timer, h⟩ | ⟨status, later, -, timer, h⟩ |
    ⟨armed, leads, pending, outgoing, h⟩
  · rw [upon_of_error h] at hsettings ⊢
    exact ticking.sustained.of_timer present idle hsettings timer
  · rw [upon_of_ok h] at hsettings ⊢
    exact ticking.sustained.of_timer present idle hsettings timer
  · exact (ticking_of_accepted ticking.calm ticking.standard leads pending outgoing h).sustained

/-- A blink keeps the broadcast going. -/
theorem sustains_blink (world : World ρ ε) (mode : BlinkMode) :
    Sustains world (world.upon (blink mode)) := by
  intro ticking
  rw [blink_eq, upon_discard_bind]
  cases present : world.node.calibration with
  | none =>
      rw [upon_bind_of_error (requireCalibration_of_none world present)]
      exact ticking
  | some calibration =>
      rw [upon_bind_of_ok (requireCalibration_of_some world present)]
      refine upon_bind_of (R := Sustains) Sustains.trans (sustains_awaitCompletion world)
        (fun _ later h ↦ ?_) ticking
      obtain ⟨waited, hpresent, hidle⟩ := idle_of_awaitCompletion ticking.calm present h
      exact sustains_attemptBlink mode hpresent hidle

/-- A blink that does not tell of a rejection keeps the broadcast going, also where nothing
else would: an expiry of the timer sets it off without a handle. -/
theorem ticking_of_blink {mode : BlinkMode} {status : Status} (calm : world.Calm)
    (standard : world.Standard) (h : (blink mode : NodeM ρ ε Status) world = .ok status later) :
    status.startError = true ∨ later.Ticking := by
  rw [blink_eq] at h
  cases present : world.node.calibration with
  | none => cases (bind_of_error
      (discard_of_error (requireCalibration_of_none world present)) _).symm.trans h
  | some calibration =>
      rw [bind_of_ok (discard_of_ok (requireCalibration_of_some world present))] at h
      obtain ⟨_, waited, hwait, hattempt⟩ := of_bind_eq_ok h
      obtain ⟨_, hpresent, hidle⟩ := idle_of_awaitCompletion calm present hwait
      have hreactions := reactions_awaitCompletion world
      rw [upon_of_ok hwait] at hreactions
      have hleads : Leads (Step Operation.KeepsTransmission) world waited :=
        steps_of_reactions hreactions
      obtain ⟨hcalm, hsteps⟩ := hleads calm
      rcases attemptBlink_cases mode hpresent hidle with
        ⟨error, _, -, hfailed⟩ | ⟨_, _, hstatus, -, hrejected⟩ |
        ⟨armed, leads, pending, outgoing, haccepted⟩
      · cases hfailed.symm.trans hattempt
      · cases hrejected.symm.trans hattempt
        exact .inl hstatus
      · have hticking := ticking_of_accepted hcalm (standard.steps hsteps) leads pending
          outgoing haccepted
        exact .inr (upon_of_ok hattempt ▸ hticking)

/-! ### The expiry of the timer -/

omit [Radio ρ ε] in
/-- Holding on to another expiry keeps the broadcast going. -/
theorem sustained_scheduling (world : World ρ ε) (delay : UInt32) :
    (world.scheduling delay).node.Sustained := by
  intro latest hlatest _
  obtain ⟨calibration, -, rfl⟩ := Option.map_eq_some_iff.mp hlatest
  exact .inl ⟨_, rfl⟩

/-- A blink that the timer sets off keeps the broadcast going: if it is accepted its completion
will schedule the next expiry, and if not, that is done at once. -/
theorem sustained_timedBlink (mode : BlinkMode) (delay : UInt32) (calm : world.Calm)
    (standard : world.Standard) :
    (world.upon (timedBlink mode delay : NodeM ρ ε Unit)).node.Sustained := by
  unfold timedBlink
  cases h : (blink mode : NodeM ρ ε Status) world with
  | error error later =>
      rw [upon_bind_of_ok (attempt_of_error h)]
      exact sustained_scheduling later delay
  | ok status later =>
      rw [upon_bind_of_ok (attempt_of_ok h)]
      rcases ticking_of_blink calm standard h with rejected | ticking
      · simp only [if_pos rejected]
        exact sustained_scheduling later delay
      · dsimp only
        split
        · exact sustained_scheduling later delay
        · exact ticking.sustained

theorem sustains_timerExpired (world : World ρ ε) :
    Sustains world (world.upon (timerExpired : NodeM ρ ε Unit)) := by
  refine sustains_of_leads (leads_timerExpired world) fun ticking ↦ ?_
  rw [timerExpired, upon_get_bind]
  cases present : world.node.calibration with
  | none => exact .of_absent present
  | some calibration =>
      dsimp only
      rw [upon_bind_of_ok (updateCalibration_eq world _)]
      let fired := world.recalibrating (·.timerFired)
      have hpresent : fired.node.calibration = some calibration.timerFired := by
        simp [fired, present]
      split
      · have hfired : Leads (Step Operation.KeepsTransmission) world fired :=
          leads_of_control .timerFired fun calm ↦ by
            simpa [fired, Calm, phase?, present, Calibration.timerFired] using calm
        obtain ⟨hcalm, hsteps⟩ := hfired ticking.calm
        exact sustained_timedBlink _ _ hcalm (ticking.standard.steps hsteps)
      · next disabled =>
        intro latest hlatest enabled
        obtain rfl := Option.some.inj (hpresent.symm.trans hlatest)
        exact absurd enabled disabled

/-! ### Creation, start and stop -/

theorem sustains_init (world : World ρ ε) (size : Nat) (master : UInt64) :
    Sustains world (world.upon (init size master : NodeM ρ ε Calibration)) := by
  refine sustains_of_leads (leads_init world size master) fun ticking ↦ ?_
  rw [init, upon_get_bind]
  cases present : world.node.calibration with
  | some calibration =>
      dsimp only
      split <;> exact ticking.sustained
  | none =>
      dsimp only
      unfold create
      rcases newRing_cases world size with ⟨ring, -, -, h⟩ | ⟨error, h⟩
      · rw [upon_bind_of_ok h]
        refine upon_ask_bind (P := fun later ↦ later.node.Sustained) world
          (fun time transfers radio ↦ ?_) fun failure transfers radio ↦ ticking.sustained
        -- the broadcast of a new instance is yet to be started
        intro latest hlatest enabled
        obtain rfl := Option.some.inj hlatest
        cases enabled
      · rw [upon_bind_of_error h]
        exact ticking.sustained

theorem sustains_start (world : World ρ ε) (mode : BlinkMode) :
    Sustains world (world.upon (start mode : NodeM ρ ε Unit)) := by
  refine sustains_of_leads (leads_start world trivial) fun ticking ↦ ?_
  unfold start
  cases present : world.node.calibration with
  | none =>
      rw [upon_bind_of_error (requireCalibration_of_none world present)]
      exact ticking.sustained
  | some calibration =>
      rw [upon_bind_of_ok (requireCalibration_of_some world present)]
      exact upon_ask_bind (P := fun later ↦ later.node.Sustained) world
        (fun _ _ _ ↦ sustained_scheduling _ _) fun _ _ _ ↦ ticking.sustained

omit [Radio ρ ε] in
theorem sustains_stop (world : World ρ ε) :
    Sustains world (world.upon (stop : NodeM ρ ε Unit)) := by
  refine sustains_of_leads (leads_stop world) fun ticking ↦ ?_
  unfold stop
  cases present : world.node.calibration with
  | none =>
      rw [upon_bind_of_error (requireCalibration_of_none world present)]
      exact ticking.sustained
  | some calibration =>
      rw [upon_bind_of_ok (requireCalibration_of_some world present),
        upon_bind_of_ok (updateCalibration_eq world _)]
      have hhalted : (world.recalibrating (·.halt)).node.Sustained := by
        intro latest hlatest enabled
        obtain ⟨_, -, rfl⟩ := Option.map_eq_some_iff.mp hlatest
        cases enabled
      cases calibration.timer <;> exact hhalted

/-! ### Records -/

theorem sustains_deliver (world : World ρ ε) (record : Record) (sink : Sink) :
    Sustains world (world.upon (deliver record sink : NodeM ρ ε Unit)) := by
  refine upon_bind_of (R := Sustains) Sustains.trans (sustains_noting world trivial)
    fun _ later _ ↦ ?_
  cases sink with
  | log => exact sustains_noting later trivial
  | observe => exact .refl later
  | blink =>
      refine upon_bind_of (R := Sustains) Sustains.trans ?_
        fun _ latest _ ↦ sustains_noting latest trivial
      rw [upon_attempt]
      exact sustains_blink later .nonBlocking
  | stop =>
      refine upon_bind_of (R := Sustains) Sustains.trans ?_
        fun _ latest _ ↦ sustains_noting latest trivial
      rw [upon_attempt]
      exact sustains_stop later

theorem sustains_dispatch (world : World ρ ε) (event : Event) :
    Sustains world (world.upon (dispatch event : NodeM ρ ε Unit)) := by
  cases event with
  | timerExpired => exact sustains_timerExpired world
  | postprocess direction index =>
      change Sustains world (world.upon (postprocess direction index))
      rw [postprocess, upon_get_bind]
      cases world.node.calibration with
      | none => exact .refl world
      | some calibration => exact sustains_deliver world _ calibration.sink

omit [Radio ρ ε] in
theorem sustains_surroundings (world : World ρ ε) (radio : ρ) (platform : Platform) :
    Sustains world { world with radio, platform } :=
  sustains_of_pulse (steps_of_reactions (.single (.surroundings radio platform))) rfl

theorem sustains_drain (world : World ρ ε) :
    Sustains world (world.upon (drain : NodeM ρ ε (List (Except (Error ε) Unit)))) := by
  rw [drain, upon_get_bind]
  refine upon_mapM_of (R := Sustains) Sustains.refl Sustains.trans (fun event _ world ↦ ?_) world
  refine upon_bind_of (R := Sustains) Sustains.trans
    (sustains_surroundings world world.radio world.platform.dropOldest) fun _ later _ ↦ ?_
  rw [upon_attempt]
  exact sustains_dispatch later event

omit [Radio ρ ε] in
theorem sustains_setSink (world : World ρ ε) (sink : Sink) :
    Sustains world (world.upon (setSink sink : NodeM ρ ε Unit)) := by
  refine sustains_of_pulse (leads_setSink world trivial) ?_
  rw [setSink, upon_discard_bind]
  cases present : world.node.calibration with
  | none => rw [upon_bind_of_error (requireCalibration_of_none world present)]
  | some calibration =>
      rw [upon_bind_of_ok (requireCalibration_of_some world present),
        upon_of_ok (updateCalibration_eq world _)]
      exact samePulse_recalibrating world fun _ ↦ ⟨rfl, rfl, rfl⟩

end Node

namespace World

variable [Radio ρ ε]

/-- Every operation that leaves the standard transmit callback in place keeps the broadcast
going. -/
theorem sustains_after (world : World ρ ε) {operation : Operation}
    (permitted : operation.KeepsTransmission) : Sustains world (world.after operation) := by
  have hleads := leads_after world permitted
  rw [after_eq_upon] at hleads ⊢
  cases operation with
  | init size master => exact Node.sustains_init world size master
  | start mode => exact Node.sustains_start world mode
  | stop => exact Node.sustains_stop world
  | blink mode => exact Node.sustains_blink world mode
  | poll => exact Node.sustains_poll world
  | receptionInterrupt => exact Node.sustains_receptionInterrupt world
  | transmissionInterrupt => exact Node.sustains_transmissionInterrupt world
  | receptionComplete => exact sustains_of_pulse hleads (Node.samePulse_receptionComplete world)
  | transmissionComplete => exact Node.sustains_transmissionComplete world
  | dispatch event => exact Node.sustains_dispatch world event
  | drain => exact Node.sustains_drain world
  | setCallbacks | elapse => exact sustains_of_pulse hleads rfl
  | setSink sink => exact Node.sustains_setSink world sink

omit [Radio ρ ε] in
/-- Nothing needs to be kept up in a world in which nothing has happened yet. -/
theorem Ticking.fresh (config : Config) (address : UInt16) (radio : ρ) (platform : Platform) :
    (World.fresh config address radio platform : World ρ ε).Ticking :=
  ⟨calm_fresh config address radio platform, .fresh config address radio platform,
    .of_absent rfl⟩

/-- The broadcast goes on in every world that is reached from one in which it does. -/
theorem Reaches.ticking {start world : World ρ ε}
    (reached : Reaches Operation.KeepsTransmission start world) (h : start.Ticking) :
    world.Ticking := by
  induction reached with
  | refl => exact h
  | operation _ permitted ih => exact sustains_after _ permitted ih
  | surroundings _ radio platform ih => exact Node.sustains_surroundings _ radio platform ih

/-- **The broadcast does not die.**  However a node is run with the standard transmit callback,
in every world it gets to in which the broadcast is enabled: an expiry of the timer is to come,
or a calibration blink is pending, and reporting it as sent to the transmit callback schedules
one.  And wherever the expiry of the timer is dispatched, it requests one start at most. -/
theorem timer_or_pending {config : Config} {address : UInt16} {radio : ρ} {platform : Platform}
    {world : World ρ ε}
    (reached : Reaches Operation.KeepsTransmission (.fresh config address radio platform) world) :
    (∀ calibration, world.node.calibration = some calibration →
      calibration.status.timerEnabled = true →
      (∃ handle, calibration.timer = some handle) ∨
        (calibration.phase = .pending ∧ world.node.outgoing = some .calibration ∧
          ∃ later completed handle,
            (Node.transmissionComplete : NodeM ρ ε Bool) world = .ok true later ∧
            later.node.calibration = some completed ∧ completed.timer = some handle)) ∧
    (∀ called : World ρ ε,
      starts (called.upon (Node.dispatch .timerExpired : NodeM ρ ε Unit)).history ≤
        starts called.history + 1) := by
  refine ⟨fun calibration present enabled ↦ ?_, Node.StartsAtMost.timerExpired⟩
  have hticking := reached.ticking (.fresh config address radio platform)
  refine (hticking.sustained calibration present enabled).imp_right fun ⟨pending, outgoing⟩ ↦ ?_
  refine ⟨pending, outgoing, ?_⟩
  rcases Node.transmissionComplete_cases world with ⟨_, hpresent, -, -, h⟩ | ⟨foreign, -⟩
  · cases present.symm.trans hpresent
    obtain ⟨timer, hfinished⟩ := finishing_calibration present
    obtain ⟨handle, hhandle⟩ := timer_finishing present hfinished enabled
    exact ⟨_, _, handle, h, hfinished, hhandle⟩
  · exact absurd outgoing (foreign (by rw [Node.phase?, present, Option.map_some, pending]))

/-- Of two blinks that the timer sets off the radio rejects the first, after which the timer is
scheduled at once, and accepts the second, which leaves that to its completion. -/
theorem timer_or_pending_of_rejected_blink :
    let world := (fresh {} 7 { starts := [.rejected] } {} :
      World Radio.Scripted Radio.Failure).run
        [.init 2 0, .start .nonBlocking, .dispatch .timerExpired, .dispatch .timerExpired]
    world.node.calibration.map (fun calibration ↦
      (calibration.status.timerEnabled, calibration.timer)) = some (true, none) ∧
    ∃ later completed handle,
      (Node.transmissionComplete : NodeM Radio.Scripted Radio.Failure Bool) world =
        .ok true later ∧
      later.node.calibration = some completed ∧ completed.timer = some handle := by
  intro world
  have hreached : Reaches Operation.KeepsTransmission
      (.fresh {} 7 { starts := [.rejected] } {}) world :=
    Reaches.refl.run (by simp [Operation.KeepsTransmission])
  have htimer : world.node.calibration.map (fun calibration ↦
      (calibration.status.timerEnabled, calibration.timer)) = some (true, none) := by
    decide +kernel
  refine ⟨htimer, ?_⟩
  obtain ⟨calibration, present, hsettings⟩ := Option.map_eq_some_iff.mp htimer
  obtain ⟨enabled, unscheduled⟩ := Prod.mk.inj hsettings
  rcases (timer_or_pending hreached).1 calibration present enabled with
    ⟨handle, scheduled⟩ | ⟨-, -, hcompletes⟩
  · cases unscheduled.symm.trans scheduled
  · exact hcompletes

end World

end ClockCalibration
