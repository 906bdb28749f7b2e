import ClockCalibration.Proofs.Node.Trace
import ClockCalibration.Proofs.Run
import ClockCalibration.Radio.Scripted

/-!
# The end of the broadcast

A stop is final.  Much may still happen after it: a blink that is pending completes, an
expiry that is already queued is dispatched, records are handed to sinks, which may blink
or stop in turn.  Several of these paths end in a place where the timer is scheduled, but
each looks at the status of the instance first, and the only thing that enables the
broadcast again is a start.

So there are two parts to it.  An instance `Rests` if its broadcast is disabled and it holds
on to no expiry, and every step that does not begin the schedule anew keeps it at rest and
schedules nothing.  And no step begins the schedule of an instance unless starts are allowed.

A stop takes back the expiry that is to come.  That this is the right one is an invariant of
its own: an instance that holds on to an expiry holds on to the one scheduled last.
-/

namespace ClockCalibration

open Relation (ReflTransGen)

variable {ρ ε : Type}

/-! ## Expiries -/

/-- The expiry of the timer that is scheduled by a happening, if one is. -/
def Happening.expiry? : Happening ε → Option TimerHandle
  | .schedule _ handle => some handle
  | _ => none

/-- The expiries of the timer that were scheduled, in the order in which they were. -/
def expiries (history : List (Entry ε)) : List TimerHandle :=
  history.filterMap (·.happening.expiry?)

@[simp] theorem expiries_append (before after : List (Entry ε)) :
    expiries (before ++ after) = expiries before ++ expiries after :=
  List.filterMap_append

@[simp] theorem expiries_singleton (entry : Entry ε) :
    expiries [entry] = entry.happening.expiry?.toList := by
  cases h : entry.happening.expiry? <;> simp [expiries, h]

/-- A quiet happening schedules nothing. -/
theorem Happening.IsQuiet.expiry? {happening : Happening ε} (h : happening.IsQuiet) :
    happening.expiry? = none := by
  cases happening with
  | schedule => exact h.elim
  | _ => rfl

/-- An instance is at rest if its broadcast is disabled and it waits for no expiry. -/
def Node.Rests (node : Node) : Prop :=
  ∃ calibration, node.calibration = some calibration ∧
    calibration.status.timerEnabled = false ∧ calibration.timer = none

/-- Whether an operation is anything but a start. -/
def Operation.StartsNothing : Operation → Prop
  | start _ => False
  | _ => True

namespace World

variable {allowed : Operation → Prop} {world later : World ρ ε}

/-! ## What a step does to the timer -/

/-- A step leaves the timer as it was, as far as there is one to be left. -/
def SpareTimer (world later : World ρ ε) : Prop :=
  expiries later.history = expiries world.history ∧
    ∀ calibration, later.node.calibration = some calibration → calibration.timer = none ∨
      ∃ earlier, world.node.calibration = some earlier ∧ calibration.timer = earlier.timer

/-- The timer is not affected by anything that leaves the instance alone. -/
theorem SpareTimer.of_eq (hexpiries : expiries later.history = expiries world.history)
    (same : later.node.calibration = world.node.calibration) : SpareTimer world later := by
  refine ⟨hexpiries, ?_⟩
  intro calibration present
  exact .inr ⟨calibration, same.symm.trans present, rfl⟩

/-- Nor is it by a change of the instance that keeps or forgets the expiry to come. -/
theorem SpareTimer.of_change {change : Calibration → Calibration}
    (hexpiries : expiries later.history = expiries world.history)
    (hlater : later.node.calibration = world.node.calibration.map change)
    (h : ∀ calibration, (change calibration).timer = none ∨
      (change calibration).timer = calibration.timer) : SpareTimer world later := by
  refine ⟨hexpiries, ?_⟩
  intro calibration present
  obtain ⟨earlier, hearlier, rfl⟩ := Option.map_eq_some_iff.mp (hlater.symm.trans present)
  exact (h earlier).imp_right fun hkept ↦ ⟨earlier, hearlier, hkept⟩

/-- A reaction schedules the next expiry of an enabled broadcast, or spares the timer. -/
theorem Reaction.timer (step : Reaction world later) :
    (∃ calibration handle, world.node.calibration = some calibration ∧
      calibration.status.timerEnabled = true ∧
      expiries later.history = expiries world.history ++ [handle] ∧
      later.node.calibration = some (calibration.scheduled handle)) ∨
    SpareTimer world later := by
  cases step with
  | surroundings | disown => exact .inr (.of_eq rfl rfl)
  | note quiet => exact .inr (.of_eq (by simp [quiet.expiry?]) rfl)
  | @schedule calibration present enabled delay =>
      refine .inl ⟨calibration, world.platform.schedule.1, present, enabled, ?_, ?_⟩
      · simp [scheduling, Happening.expiry?]
      · simp [present]
  | offer => exact .inr (.of_eq (by simp [Happening.expiry?]) rfl)
  | complete | receive =>
      exact .inr (.of_change (by simp [Happening.expiry?]) rfl fun _ ↦ .inr rfl)
  | close pending =>
      have hreleased : (world.updating Node.closeCycle).node.calibration =
          world.node.calibration.map (·.release) := by
        rw [node_updating, Node.closeCycle, if_pos pending]
      exact .inr (.of_change rfl hreleased fun _ ↦ .inr rfl)
  | correct => exact .inr (.of_change rfl rfl fun _ ↦ .inr rfl)

/-- Programming the radio spares the timer. -/
theorem Arming.timer (step : Arming world later) : SpareTimer world later := by
  cases step with
  | attempt | reject | accept =>
      exact .of_change (by simp [Happening.expiry?]) rfl fun _ ↦ .inr rfl
  | request | time => exact .of_eq (by simp [Happening.expiry?]) rfl
  | release => exact .of_change rfl rfl fun _ ↦ .inr rfl

/-- Setting an instance up, starting it and stopping it spares the timer.  What a start
schedules it schedules after it has restarted the instance. -/
theorem Control.timer (step : Control allowed world later) : SpareTimer world later := by
  cases step with
  | create =>
      refine ⟨by simp [Happening.expiry?], ?_⟩
      intro calibration present
      obtain rfl := Option.some.inj present
      exact .inl rfl
  | remaster => exact .of_eq rfl rfl
  | restart => exact .of_change (by simp [Happening.expiry?]) rfl fun _ ↦ .inr rfl
  | halt | timerFired => exact .of_change rfl rfl fun _ ↦ .inl rfl
  | stopped => exact .of_eq (by simp [Happening.expiry?]) rfl
  | withSink => exact .of_change rfl rfl fun _ ↦ .inr rfl

/-- Only an enabled broadcast has its timer scheduled, and then holds on to that expiry. -/
theorem Step.timer (step : Step allowed world later) :
    (∃ calibration handle, world.node.calibration = some calibration ∧
      calibration.status.timerEnabled = true ∧
      expiries later.history = expiries world.history ++ [handle] ∧
      later.node.calibration = some (calibration.scheduled handle)) ∨
    SpareTimer world later := by
  cases step with
  | turn turn =>
      cases turn with
      | reaction _ step => exact step.timer
      | arming step => exact .inr step.timer
  | control _ step => exact .inr step.timer
  | callbacks => exact .inr (.of_eq rfl rfl)

/-! ## The expiry that is held -/

/-- An instance holds on to no expiry but the one that was scheduled last. -/
def HoldsLatest (world : World ρ ε) : Prop :=
  ∀ calibration handle, world.node.calibration = some calibration →
    calibration.timer = some handle → (expiries world.history).getLast? = some handle

/-- That is so after every step if it was before. -/
theorem HoldsLatest.step (h : world.HoldsLatest) (step : Step allowed world later) :
    later.HoldsLatest := by
  intro calibration handle present held
  rcases step.timer with ⟨earlier, latest, -, -, hexpiries, hlater⟩ | ⟨hexpiries, hspared⟩
  · obtain rfl := Option.some.inj (hlater.symm.trans present)
    obtain rfl : latest = handle := Option.some.inj held
    rw [hexpiries, List.getLast?_concat]
  · rw [hexpiries]
    rcases hspared calibration present with hnone | ⟨earlier, hearlier, hkept⟩
    · cases hnone.symm.trans held
    · exact h earlier handle hearlier (hkept.symm.trans held)

/-! ## Staying at rest -/

/-- A step that does not begin the schedule anew leaves a disabled broadcast disabled. -/
theorem Step.disabled (step : Step allowed world later) {calibration : Calibration}
    (present : world.node.calibration = some calibration)
    (disabled : calibration.status.timerEnabled = false)
    (steady : ∀ time, landmarks later.history ≠ landmarks world.history ++ [.began time]) :
    ∃ latest, later.node.calibration = some latest ∧ latest.status.timerEnabled = false := by
  cases step with
  | turn turn =>
      have hsettings := turn.sameSetup.settings
      rw [Node.settings?, Node.settings?, present] at hsettings
      obtain ⟨latest, hlatest, hsame⟩ := Option.map_eq_some_iff.mp hsettings
      exact ⟨latest, hlatest, (Prod.mk.inj hsame).2.trans disabled⟩
  | control _ step =>
      cases step with
      | create absent => cases absent.symm.trans present
      | remaster | stopped => exact ⟨calibration, present, disabled⟩
      | restart _ time => exact absurd (by simp [Happening.landmark?]) (steady time)
      | halt => exact ⟨calibration.halt, congrArg (Option.map _) present, rfl⟩
      | timerFired => exact ⟨calibration.timerFired, congrArg (Option.map _) present, disabled⟩
      | @withSink sink =>
          exact ⟨calibration.withSink sink, congrArg (Option.map _) present, disabled⟩
  | callbacks => exact ⟨calibration, present, disabled⟩

/-- A step that does not begin the schedule anew keeps an instance at rest, and schedules
nothing. -/
theorem Step.rests (step : Step allowed world later) (rests : world.node.Rests)
    {added : List (Entry ε)} (history : later.history = world.history ++ added)
    (steady : ∀ time, .began time ∉ landmarks added) :
    later.node.Rests ∧ expiries added = [] := by
  obtain ⟨calibration, present, disabled, unscheduled⟩ := rests
  obtain ⟨latest, hlatest, hdisabled⟩ := step.disabled present disabled fun time hbegan ↦ by
    rw [history, landmarks_append] at hbegan
    exact steady time (List.append_cancel_left hbegan ▸ List.mem_singleton_self _)
  rcases step.timer with ⟨earlier, _, hearlier, enabled, -⟩ | ⟨hexpiries, hspared⟩
  · cases hearlier.symm.trans present
    cases enabled.symm.trans disabled
  · constructor
    · refine ⟨latest, hlatest, hdisabled, ?_⟩
      rcases hspared latest hlatest with hnone | ⟨earlier, hearlier, hkept⟩
      · exact hnone
      · cases hearlier.symm.trans present
        exact hkept.trans unscheduled
    · rw [history, expiries_append] at hexpiries
      exact List.append_right_eq_self.mp hexpiries

/-- So does every path of such steps. -/
theorem rests_of_steps (steps : ReflTransGen (Step allowed) world later)
    (rests : world.node.Rests) {added : List (Entry ε)}
    (history : later.history = world.history ++ added)
    (steady : ∀ time, .began time ∉ landmarks added) :
    later.node.Rests ∧ expiries added = [] := by
  induction steps generalizing added with
  | refl =>
      obtain rfl : added = [] := by simpa using history
      exact ⟨rests, rfl⟩
  | tail steps step ih =>
      obtain ⟨past, hpast⟩ := history_of_steps steps
      obtain ⟨latest, hlatest⟩ := history_of_steps (.single step)
      obtain rfl : added = past ++ latest := by
        rw [history, hpast, List.append_assoc] at hlatest
        exact List.append_cancel_left hlatest
      simp only [landmarks_append, List.mem_append, not_or] at steady
      obtain ⟨hrests, hpassed⟩ := ih hpast fun time ↦ (steady time).1
      obtain ⟨hrests, hlast⟩ := step.rests hrests hlatest fun time ↦ (steady time).2
      exact ⟨hrests, by rw [expiries_append, hpassed, hlast]; rfl⟩

/-- The end of a stream is noted with the instance at rest. -/
theorem Step.rests_of_stopped (step : Step allowed world later) {phase : Option Phase}
    (history : later.history = world.history ++ [⟨phase, .log .stopped⟩]) :
    later.node.Rests := by
  have hentry {entry : Entry ε} (h : world.history ++ [entry] = later.history) :
      entry.happening = .log .stopped := by
    rw [List.singleton_inj.mp (List.append_cancel_left (h.trans history))]
  cases step with
  | turn turn =>
      cases turn with
      | reaction _ step =>
          cases step with
          | surroundings | disown | close | correct => exact absurd history (by simp)
          | @note happening quiet =>
              obtain rfl : happening = .log .stopped := hentry rfl
              exact quiet.elim
          | schedule | offer | complete | receive => cases hentry rfl
      | arming step =>
          cases step with
          | release => exact absurd history (by simp)
          | attempt | request | time | reject | accept => cases hentry rfl
  | control _ step =>
      cases step with
      | create | restart => cases hentry rfl
      | remaster | halt | timerFired | withSink => exact absurd history (by simp)
      | stopped present disabled unscheduled => exact ⟨_, present, disabled, unscheduled⟩
  | callbacks => exact absurd history (by simp)

/-! ## Runs without a start -/

/-- A blink does not begin the schedule anew. -/
theorem Turn.count_began (step : Turn world later) (time : UInt64) :
    (landmarks later.history).count (.began time) =
      (landmarks world.history).count (.began time) := by
  cases step with
  | reaction _ step =>
      cases step with
      | surroundings | disown | close | correct => rfl
      | note quiet => rcases quiet.landmark? with h | h <;> simp [h]
      | schedule | offer | complete | receive => simp [scheduling, Happening.landmark?]
  | arming step =>
      cases step with
      | release => rfl
      | attempt | time | reject | accept => simp [Happening.landmark?]
      | request armed reply radio minor futile => simp [futile]

/-- If starts are not allowed then no step begins the schedule of an instance anew. -/
theorem Step.count_began (step : Step Operation.StartsNothing world later)
    {calibration : Calibration} (present : world.node.calibration = some calibration)
    (time : UInt64) :
    (landmarks later.history).count (.began time) =
      (landmarks world.history).count (.began time) := by
  cases step with
  | turn turn => exact turn.count_began time
  | control _ step =>
      cases step with
      | create absent => cases absent.symm.trans present
      | restart _ _ _ _ permitted => exact permitted.elim
      | stopped => simp [Happening.landmark?]
      | remaster | halt | timerFired | withSink => rfl
  | callbacks => rfl

/-- Nor does any path of them. -/
theorem steady_of_steps (steps : ReflTransGen (Step Operation.StartsNothing) world later)
    {calibration : Calibration} (present : world.node.calibration = some calibration)
    {added : List (Entry ε)} (history : later.history = world.history ++ added) (time : UInt64) :
    .began time ∉ landmarks added := by
  have hsteady : (∃ latest, later.node.calibration = some latest) ∧
      (landmarks later.history).count (.began time) =
        (landmarks world.history).count (.began time) := by
    clear history
    induction steps with
    | refl => exact ⟨⟨calibration, present⟩, rfl⟩
    | tail _ step ih =>
        obtain ⟨⟨earlier, hearlier⟩, hcount⟩ := ih
        refine ⟨?_, (step.count_began hearlier time).trans hcount⟩
        cases step.moves with
        | absent before | created before => cases before.symm.trans hearlier
        | moved _ after => exact ⟨_, after⟩
  rw [history, landmarks_append, List.count_append] at hsteady
  exact List.count_eq_zero.mp (by omega)

/-! ## The stop -/

/-- A world whose broadcast was stopped, and the expiry that was to come, if there was one,
cancelled.  The ring, the cycle and the outgoing frame are as they were. -/
def stopping (world : World ρ ε) (calibration : Calibration) : World ρ ε :=
  { world with
    node := { world.node with
      calibration := some { calibration with
        status := { calibration.status with timerEnabled := false }
        timer := none } }
    history := world.history ++
      (calibration.timer.toList.map fun handle ↦ ⟨world.node.phase?, .cancel handle⟩) ++
      [⟨world.node.phase?, .log .stopped⟩] }

variable {calibration : Calibration}

/-- Stopping disables the broadcast and takes back the expiry that is to come. -/
theorem stop_eq (present : world.node.calibration = some calibration) :
    (Node.stop : NodeM ρ ε Unit) world = .ok () (world.stopping calibration) := by
  have hphase : world.node.phase? = some calibration.phase := by
    rw [Node.phase?, present, Option.map_some]
  have hhalted : world.recalibrating (·.halt) =
      { world with node := { world.node with calibration := some calibration.halt } } := by
    rw [recalibrating, updating, present, Option.map_some]
  rw [Node.stop, bind_of_ok (Node.requireCalibration_of_some world present),
    bind_of_ok (Node.updateCalibration_eq world _), hhalted]
  unfold stopping
  rw [hphase]
  cases calibration.timer with
  | none => rw [Option.toList_none, List.map_nil, List.append_nil]; rfl
  | some handle => rfl

variable [Radio ρ ε]

/-- The expiry of the timer is nothing to an instance at rest. -/
theorem timerExpired_of_rests (rests : world.node.Rests) :
    (Node.dispatch .timerExpired : NodeM ρ ε Unit) world = .ok () world := by
  obtain ⟨calibration, present, disabled, unscheduled⟩ := rests
  have hfired : world.recalibrating (·.timerFired) = world := by
    have hsame : calibration.timerFired = calibration := by
      rw [Calibration.timerFired, ← unscheduled]
    rw [recalibrating, updating, present, Option.map_some, hsame, ← present]
  change (Node.timerExpired : NodeM ρ ε Unit) world = .ok () world
  rw [Node.timerExpired, get_bind, present]
  simp only [bind_of_ok (Node.updateCalibration_eq world _), hfired, disabled]
  rfl

/-! ## Every run -/

/-- In a world that was stopped, and whose history was `past` then, nothing has been
scheduled since, and nothing will be when the timer expires. -/
structure Stopped (past : List (Entry ε)) (world : World ρ ε) : Prop where
  /-- No expiry of the timer was scheduled since. -/
  unscheduled : ∃ added, world.history = past ++ added ∧ expiries added = []
  /-- The broadcast is disabled, and no expiry is to come. -/
  rests : world.node.Rests
  /-- Dispatching the expiry of the timer does nothing at all. -/
  expiry : (Node.dispatch .timerExpired : NodeM ρ ε Unit) world = .ok () world

/-- **A stop is final.**  However a node is run, with any callbacks and sinks, wherever it has
an instance: stopping it succeeds; it disables the broadcast, forgets the expiry that is to
come, which is the one that was scheduled last, and cancels that one and no other; it changes
nothing else, so a blink that is armed stays so; and however the node is run on, as long as it
is not started it stays stopped.  It also does if it was stopped in the middle of an operation,
by a sink, for as long as the schedule does not begin anew. -/
theorem stop_is_final {config : Config} {address : UInt16} {radio : ρ} {platform : Platform}
    (reached : Reaches (fun _ ↦ True) (.fresh config address radio platform) world) :
    (∀ calibration, world.node.calibration = some calibration →
      let stopped := world.stopping calibration
      (Node.stop : NodeM ρ ε Unit) world = .ok () stopped ∧
      (∀ handle, calibration.timer = some handle →
        (expiries world.history).getLast? = some handle) ∧
      ∀ later, Reaches Operation.StartsNothing stopped later → later.Stopped stopped.history) ∧
    (∀ before phase after, world.history = before ++ ⟨phase, .log .stopped⟩ :: after →
      (∀ time, .began time ∉ landmarks after) →
      world.Stopped (before ++ [⟨phase, .log .stopped⟩])) := by
  obtain ⟨hcalm, hsteps⟩ := reached.leads (calm_fresh config address radio platform)
  constructor
  · intro calibration present stopped
    have hstop : (Node.stop : NodeM ρ ε Unit) world = .ok () stopped := stop_eq present
    refine ⟨hstop, fun handle held ↦ ?_, fun later continued ↦ ?_⟩
    · have hholds : world.HoldsLatest :=
        reached.invariant (calm_fresh config address radio platform)
          (fun _ _ present ↦ nomatch present) fun h step ↦ h.step step
      exact hholds calibration handle present held
    · have hcalm : stopped.Calm := by
        simpa [Calm, Node.phase?, stopped, stopping, present] using hcalm
      obtain ⟨-, hcontinued⟩ := continued.leads hcalm
      obtain ⟨added, history⟩ := history_of_steps hcontinued
      obtain ⟨hrests, hadded⟩ := rests_of_steps hcontinued ⟨_, rfl, rfl, rfl⟩ history
        (steady_of_steps hcontinued rfl history)
      exact ⟨⟨added, history, hadded⟩, hrests, timerExpired_of_rests hrests⟩
  · intro before phase after history steady
    obtain ⟨prior, next, -, hstep, hafter, hprior, hnext, -⟩ :=
      exists_step_of_entry hsteps List.nil_prefix history
    have hstopped : next.node.Rests := hstep.rests_of_stopped (hprior ▸ hnext)
    have hhistory : world.history = next.history ++ after := by
      rw [hnext, history, List.append_assoc, List.singleton_append]
    obtain ⟨hrests, hadded⟩ := rests_of_steps hafter hstopped hhistory steady
    exact ⟨⟨after, hnext ▸ hhistory, hadded⟩, hrests, timerExpired_of_rests hrests⟩

/-- A broadcast is stopped while a blink is pending, which then completes and by its record
sets off another one. -/
theorem stop_is_final_of_pending_blink :
    let world := (fresh {} 7 {} {} : World Radio.Scripted Radio.Failure).run
      [.init 2 0, .setSink .blink, .start .nonBlocking, .blink .nonBlocking]
    let stopped := world.after .stop
    let later := stopped.run [.transmissionInterrupt, .drain, .dispatch .timerExpired]
    world.node.calibration.map (fun calibration ↦ (calibration.phase, calibration.timer)) =
      some (.pending, some ⟨1⟩) ∧
    later.node.calibration.map (fun calibration ↦ (calibration.phase, calibration.ring.index)) =
      some (.pending, 1) ∧
    (expiries world.history).getLast? = some ⟨1⟩ ∧ later.Stopped stopped.history := by
  intro world stopped later
  have hworld : world.node.calibration.map (fun calibration ↦
      (calibration.phase, calibration.timer)) = some (.pending, some ⟨1⟩) := by decide +kernel
  have hlater : later.node.calibration.map (fun calibration ↦
      (calibration.phase, calibration.ring.index)) = some (.pending, 1) := by decide +kernel
  have hreached : Reaches (fun _ ↦ True) (.fresh {} 7 {} {}) world :=
    Reaches.refl.run fun _ _ ↦ trivial
  obtain ⟨calibration, present, htimer⟩ := Option.map_eq_some_iff.mp hworld
  obtain ⟨hstop, hlast, hfinal⟩ := (stop_is_final hreached).1 calibration present
  have hstopped : stopped = world.stopping calibration :=
    (after_eq_upon world .stop).trans (upon_of_ok hstop)
  refine ⟨hworld, hlater, hlast _ (Prod.mk.inj htimer).2, ?_⟩
  rw [hstopped]
  refine hfinal later (hstopped ▸ Reaches.refl.run ?_)
  simp [Operation.StartsNothing]

end World

end ClockCalibration
