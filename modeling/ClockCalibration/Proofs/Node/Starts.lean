import ClockCalibration.Proofs.Node.Operation

/-!
# Requests to start

An operation that blinks asks the radio to start at most once, although it may wait for
an older blink first and may go on after the radio has failed it.  `Node.StartsAtMost`
is a bound that adds up along the sequence of requests an operation makes.
-/

namespace ClockCalibration

open Relation (ReflTransGen)

variable {ρ ε α β : Type}

/-- Whether a happening is a request to start a transmission. -/
def Happening.isStart : Happening ε → Bool
  | .exchange .startTransmission _ => true
  | _ => false

/-- A happening that does not program the radio requests no start. -/
theorem Happening.isStart_of_not_isArming {happening : Happening ε} (h : ¬ happening.IsArming) :
    happening.isStart = false := by
  unfold isStart
  split
  · exact absurd trivial h
  · rfl

/-- How often the radio was asked to start a transmission. -/
def starts (history : List (Entry ε)) : Nat := history.countP (·.happening.isStart)

@[simp] theorem starts_append (before after : List (Entry ε)) :
    starts (before ++ after) = starts before + starts after :=
  List.countP_append

@[simp] theorem starts_singleton (entry : Entry ε) :
    starts [entry] = if entry.happening.isStart then 1 else 0 := by
  simp [starts, List.countP_singleton]

/-- Reactions request no start. -/
theorem World.Reaction.starts {world later : World ρ ε} (step : Reaction world later) :
    starts later.history = starts world.history := by
  cases step with
  | surroundings | disown | close | correct => rfl
  | note quiet =>
      simp [Happening.isStart_of_not_isArming quiet.not_isArming]
  | schedule | offer | complete | receive => simp [scheduling, Happening.isStart]

/-- No path of reactions requests one. -/
theorem World.starts_of_reactions {world later : World ρ ε}
    (steps : ReflTransGen Reaction world later) : starts later.history = starts world.history := by
  induction steps with
  | refl => rfl
  | tail _ step ih => exact step.starts.trans ih

namespace Node

open World

/-- A computation that requests at most so many starts, wherever it begins and however it
ends. -/
def StartsAtMost (count : Nat) (computation : NodeM ρ ε α) : Prop :=
  ∀ world : World ρ ε, starts (world.upon computation).history ≤ starts world.history + count

namespace StartsAtMost

variable {n m : Nat} {computation : NodeM ρ ε α}

theorem pure (value : α) : StartsAtMost 0 (pure value : NodeM ρ ε α) := fun _ ↦ Nat.le_refl _

theorem throw (error : Error ε) : StartsAtMost 0 (throw error : NodeM ρ ε α) :=
  fun _ ↦ Nat.le_refl _

/-- A sequence requests what its parts do. -/
theorem bind {next : α → NodeM ρ ε β} (first : StartsAtMost n computation)
    (rest : ∀ value, StartsAtMost m (next value)) :
    StartsAtMost (n + m) (computation >>= next) := by
  intro world
  have hfirst := first world
  cases h : computation world with
  | ok value later =>
      have hrest := rest value later
      rw [upon_of_ok h] at hfirst
      rw [upon_bind_of_ok h]
      omega
  | error error later =>
      rw [upon_of_error h] at hfirst
      rw [upon_bind_of_error h]
      omega

theorem attempt (h : StartsAtMost n computation) :
    StartsAtMost n (attempt computation) := by
  intro world
  rw [upon_attempt]
  exact h world

theorem discard (h : StartsAtMost n computation) :
    StartsAtMost n (discard computation) := by
  intro world
  rw [upon_discard]
  exact h world

theorem of_silent
    (h : ∀ world : World ρ ε, starts (world.upon computation).history = starts world.history) :
    StartsAtMost 0 computation :=
  fun world ↦ Nat.le_of_eq (h world)

theorem requireCalibration : StartsAtMost 0 (requireCalibration : NodeM ρ ε Calibration) :=
  of_silent fun world ↦ by rw [upon_requireCalibration]

theorem schedule (delay : UInt32) : StartsAtMost 0 (schedule delay : NodeM ρ ε Unit) := by
  refine of_silent fun world ↦ ?_
  change starts (world.scheduling delay).history = _
  simp [scheduling, Happening.isStart]

theorem prepare : StartsAtMost 0 (prepare : NodeM ρ ε Frame) := by
  refine of_silent fun world ↦ ?_
  cases present : world.node.calibration with
  | none =>
      have habsent : (world.recalibrating
          (·.prepare world.node.shortAddress.toUInt64)).node.calibration = none := by
        simp [present]
      rw [Node.prepare, upon_get_bind, upon_bind_of_ok (updateCalibration_eq world _),
        upon_bind_of_error (requireCalibration_of_none _ habsent)]
      rfl
  | some calibration =>
      rw [upon_of_ok (prepare_eq present)]
      rfl

variable [Radio ρ ε]

/-- Any other request is none. -/
theorem ask (call : Call) (h : call ≠ .startTransmission) :
    StartsAtMost 0 (ask call : NodeM ρ ε call.Answer) := by
  refine of_silent fun world ↦ ?_
  rw [upon_ask]
  cases call <;> simp [Happening.isStart] at h ⊢

/-- A request to start is one. -/
theorem askStart : StartsAtMost 1 (Node.ask .startTransmission : NodeM ρ ε StartOutcome) := by
  intro world
  rw [upon_ask]
  simp [Happening.isStart]

/-- Programming the radio requests one start at its end. -/
theorem arm (payload : Bytes) (instant : UInt64) :
    StartsAtMost 1 (arm payload instant : NodeM ρ ε StartOutcome) :=
  bind (ask (.writeTransmitBuffer payload 0) nofun) fun _ ↦
    bind (ask (.configureTransmit _ true) nofun) fun _ ↦
      bind (ask (.setWaitForResponse false) nofun) fun _ ↦
        bind (ask (.setDelayedStart instant) nofun) fun _ ↦ askStart

theorem awaitCompletion : StartsAtMost 0 (awaitCompletion : NodeM ρ ε Unit) :=
  of_silent fun world ↦ starts_of_reactions (reactions_awaitCompletion world)

omit [Radio ρ ε] in
/-- Changing the node requests nothing. -/
theorem update (change : Node → Node) : StartsAtMost 0 (update change : NodeM ρ ε Unit) :=
  of_silent fun _ ↦ rfl

omit [Radio ρ ε] in
/-- Neither does writing to the log. -/
theorem log (message : Message) : StartsAtMost 0 (log message : NodeM ρ ε Unit) := by
  refine of_silent fun world ↦ ?_
  change starts (world.noting _).history = _
  simp [Happening.isStart]

/-- What becomes of a blink does not request another. -/
theorem conclude (mode : BlinkMode) (frame : Frame) (outcome : StartOutcome) :
    StartsAtMost 0 (conclude mode frame outcome : NodeM ρ ε Unit) := by
  cases outcome with
  | rejected => exact bind (update _) fun _ ↦ log _
  | started =>
      have hwait : StartsAtMost 0
          (if mode = .blocking then Node.awaitCompletion else Pure.pure () : NodeM ρ ε Unit) := by
        cases mode with
        | blocking => exact awaitCompletion
        | nonBlocking => exact pure ()
      exact bind (update _) fun _ ↦ bind (log _) fun _ ↦ hwait

/-- An attempt to blink requests at most one start. -/
theorem attemptBlink (mode : BlinkMode) :
    StartsAtMost 1 (attemptBlink mode : NodeM ρ ε Status) := by
  refine bind (m := 1) prepare fun frame ↦ ?_
  have harm : StartsAtMost 1 (Node.arm (Wire.encode frame) frame.sent : NodeM ρ ε _) := arm _ _
  refine bind (m := 0) harm.attempt fun result ↦ ?_
  cases result with
  | ok outcome =>
      exact bind (conclude mode frame outcome) fun _ ↦ bind requireCalibration fun _ ↦ pure _
  | error error => exact bind (update _) fun _ ↦ throw error

/-- So does a blink, since it requests none while it waits for the older one. -/
theorem blink (mode : BlinkMode) : StartsAtMost 1 (blink mode : NodeM ρ ε Status) := by
  rw [blink_eq]
  exact bind requireCalibration.discard fun _ ↦ bind awaitCompletion fun _ ↦ attemptBlink mode

/-- So does a blink that the timer sets off. -/
theorem timedBlink (mode : BlinkMode) (delay : UInt32) :
    StartsAtMost 1 (timedBlink mode delay : NodeM ρ ε Unit) := by
  have hblink : StartsAtMost 1 (Node.blink mode : NodeM ρ ε Status) := blink mode
  refine bind (m := 0) hblink.attempt fun result ↦ ?_
  cases result with
  | ok status =>
      cases h : status.startError with
      | false => simpa [h] using pure ()
      | true => simpa [h] using schedule delay
  | error error => exact bind (schedule delay) fun _ ↦ throw error

/-- So does the expiry of the timer. -/
theorem timerExpired : StartsAtMost 1 (timerExpired : NodeM ρ ε Unit) := by
  intro world
  rw [Node.timerExpired, upon_get_bind]
  cases world.node.calibration with
  | none => exact Nat.le_succ _
  | some calibration =>
      dsimp only
      rw [upon_bind_of_ok (updateCalibration_eq world _)]
      split
      · exact timedBlink _ _ (world.recalibrating (·.timerFired))
      · exact Nat.le_succ _

end StartsAtMost

end Node

end ClockCalibration
