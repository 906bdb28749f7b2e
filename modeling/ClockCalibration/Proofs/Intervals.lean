import ClockCalibration.Proofs.Clock
import ClockCalibration.Proofs.Node.Move
import ClockCalibration.Proofs.Run
import ClockCalibration.Radio.Scripted

/-!
# The intervals of the schedule

Three computations make intervals of a configuration and check nothing: the delay of the timer is a
difference of words, an epoch is cut off to the bits of the clock, and a broadcast is due two epochs
after another one on a clock that wraps around.  With some configurations they would go wrong, and
a broadcast be due when the one before it was.

The check is made once, when an instance is created.  `Config.Exact` is what it is good for.  An
instance keeps its configuration, so every instance is exact, and since a node has no other delays
than those of its instance, the timer has never been told another one.
-/

namespace ClockCalibration

/-! ## Valid configurations -/

namespace Config

variable {config : Config}

/-- The interval that is checked is computed without an overflow. -/
theorem toNat_interval (config : Config) :
    ((config.period.toUInt64 <<< periodShift) * 2).toNat = config.period.toNat * 2 ^ 16 := by
  have hlt := config.period.toNat_lt
  have htwo : (2 : UInt64).toNat = 2 := rfl
  rw [UInt64.toNat_mul, toNat_shiftLeft_periodShift, htwo]
  omega

/-- A configuration is valid just if its latency is shorter than its period, and the period is
between zero and `2 ^ 24` microseconds. -/
theorem isValid_iff : config.isValid = true ↔
    config.latency.toNat < config.period.toNat ∧ 0 < config.period.toNat ∧
      config.period.toNat < 2 ^ 24 := by
  have hinterval := toNat_interval config
  have hzero : (0 : UInt32).toNat = 0 := rfl
  rw [isValid, Bool.and_eq_true, Bool.and_eq_true, decide_eq_true_iff, decide_eq_true_iff,
    decide_eq_true_iff, le_timeMax_iff, hinterval, UInt32.lt_iff_toNat_lt, UInt32.lt_iff_toNat_lt,
    hzero]
  constructor
  · rintro ⟨⟨hperiod, hlatency⟩, hlt⟩
    exact ⟨hlatency, hperiod, by omega⟩
  · rintro ⟨hlatency, hperiod, hlt⟩
    exact ⟨⟨hperiod, hlatency⟩, by omega⟩

/-- The intervals of a configuration are what they are meant to be. -/
structure Exact (config : Config) : Prop where
  /-- The timer expires the latency before a period is over, and its delay does not underflow. -/
  timerDelay : config.timerDelay.toNat + config.latency.toNat = config.period.toNat
  /-- It expires neither at once nor later than a period from now. -/
  timerDelay_mem : 1 ≤ config.timerDelay.toNat ∧ config.timerDelay.toNat ≤ config.period.toNat
  /-- Nothing is cut off of an epoch. -/
  epoch : (Duration.ofPeriod config.period).ticks.toNat = config.period.toNat * 2 ^ 15
  /-- Two epochs move every instant on by a broadcast interval. -/
  interval : ∀ instant : Instant,
    (instant + Duration.ofPeriod config.period + Duration.ofPeriod config.period).ticks.toNat =
      (instant.ticks.toNat + config.period.toNat * 2 ^ 16 % 2 ^ 40) % 2 ^ 40
  /-- That is no round of the clock. -/
  interval_ne : config.period.toNat * 2 ^ 16 % 2 ^ 40 ≠ 0
  /-- So no broadcast is due when the one before it was. -/
  moved : ∀ instant : Instant,
    instant + Duration.ofPeriod config.period + Duration.ofPeriod config.period ≠ instant

/-- Valid configurations are exact. -/
theorem exact_of_isValid (valid : config.isValid = true) : config.Exact := by
  obtain ⟨hlatency, hpositive, hlt⟩ := isValid_iff.mp valid
  have hdelay : config.timerDelay.toNat = config.period.toNat - config.latency.toNat :=
    UInt32.toNat_sub_of_le _ _ (UInt32.le_iff_toNat_le.mpr (Nat.le_of_lt hlatency))
  have hepoch : (Duration.ofPeriod config.period).ticks.toNat = config.period.toNat * 2 ^ 15 := by
    rw [Duration.toNat_ofPeriod, Nat.mod_eq_of_lt (by omega)]
  have hinterval (instant : Instant) :
      (instant + Duration.ofPeriod config.period + Duration.ofPeriod config.period).ticks.toNat =
        (instant.ticks.toNat + config.period.toNat * 2 ^ 16 % 2 ^ 40) % 2 ^ 40 := by
    rw [Instant.toNat_add, Instant.toNat_add, hepoch]
    omega
  exact {
    timerDelay := by omega
    timerDelay_mem := by omega
    epoch := hepoch
    interval := hinterval
    interval_ne := by omega
    moved := by
      intro instant h
      have hsame := hinterval instant
      rw [h] at hsame
      omega }

end Config

/-! ## Delays -/

variable {ρ ε : Type}

/-- The delay with which a happening schedules an expiry of the timer, if it does. -/
def Happening.delay? : Happening ε → Option UInt32
  | .schedule delay _ => some delay
  | _ => none

/-- The delays that the timer was told, in the order in which it was. -/
def delays (history : List (Entry ε)) : List UInt32 := history.filterMap (·.happening.delay?)

@[simp] theorem delays_append (before after : List (Entry ε)) :
    delays (before ++ after) = delays before ++ delays after :=
  List.filterMap_append

@[simp] theorem delays_singleton (entry : Entry ε) :
    delays [entry] = entry.happening.delay?.toList := by
  cases h : entry.happening.delay? <;> simp [delays, h]

/-- A quiet happening tells the timer nothing. -/
theorem Happening.IsQuiet.delay? {happening : Happening ε} (h : happening.IsQuiet) :
    happening.delay? = none := by
  cases happening with
  | schedule => exact h.elim
  | _ => rfl

namespace World

variable {allowed : Operation → Prop} {world later : World ρ ε} {config : Config}

/-- A reaction tells the timer one of the two delays of the instance, if anything. -/
theorem Reaction.delays (step : Reaction world later) :
    delays later.history = delays world.history ∨
      ∃ calibration delay, world.node.calibration = some calibration ∧
        (delay = calibration.config.startDelay ∨ delay = calibration.config.timerDelay) ∧
        delays later.history = delays world.history ++ [delay] := by
  cases step with
  | surroundings | disown | close | correct => exact .inl rfl
  | note quiet => exact .inl (by simp [quiet.delay?])
  | offer | complete | receive => exact .inl (by simp [Happening.delay?])
  | @schedule calibration present enabled delay due =>
      exact .inr ⟨calibration, delay, present, due, by simp [scheduling, Happening.delay?]⟩

/-- Programming the radio tells the timer nothing. -/
theorem Arming.delays (step : Arming world later) :
    delays later.history = delays world.history := by
  cases step with
  | release => rfl
  | attempt | request | time | reject | accept => simp [Happening.delay?]

/-- Setting an instance up, starting it and stopping it tells the timer nothing. -/
theorem Control.delays (step : Control allowed world later) :
    delays later.history = delays world.history := by
  cases step with
  | remaster | halt | timerFired | withSink => rfl
  | create | restart | stopped => simp [Happening.delay?]

/-- A step tells the timer one of the two delays of the instance, if anything. -/
theorem Step.delays (step : Step allowed world later) :
    delays later.history = delays world.history ∨
      ∃ calibration delay, world.node.calibration = some calibration ∧
        (delay = calibration.config.startDelay ∨ delay = calibration.config.timerDelay) ∧
        delays later.history = delays world.history ++ [delay] := by
  cases step with
  | turn turn =>
      cases turn with
      | reaction _ step => exact step.delays
      | arming step => exact .inl step.delays
  | control _ step => exact .inl step.delays
  | callbacks => exact .inl rfl

/-! ## Every run -/

/-- A node that has been run with a configuration.  An instance is there only if that is valid. -/
structure Configured (config : Config) (world : World ρ ε) : Prop where
  node : world.node.config = config
  /-- An instance has it too, and it is valid. -/
  created : ∀ calibration, world.node.calibration = some calibration →
    calibration.config = config ∧ config.isValid = true
  /-- The timer has been told the two delays of a valid configuration only. -/
  told : ∀ delay ∈ delays world.history,
    config.isValid = true ∧ (delay = config.startDelay ∨ delay = config.timerDelay)

namespace Configured

theorem fresh (config : Config) (address : UInt16) (radio : ρ) (platform : Platform) :
    (World.fresh config address radio platform : World ρ ε).Configured config where
  node := rfl
  created _ present := nomatch present
  told _ hmem := nomatch hmem

/-- A step keeps to the configuration. -/
theorem step (h : world.Configured config) (step : Step allowed world later) :
    later.Configured config where
  node := step.config.trans h.node
  created := by
    intro calibration present
    cases step.moves with
    | absent before after => cases after.symm.trans present
    | created before valid sized after =>
        cases after.symm.trans present
        exact ⟨h.node, h.node ▸ valid⟩
    | moved before after move =>
        cases after.symm.trans present
        obtain ⟨hconfig, hvalid⟩ := h.created _ before
        exact ⟨move.config.trans hconfig, hvalid⟩
  told := by
    intro delay hmem
    rcases step.delays with hsame | ⟨calibration, last, present, due, hlast⟩
    · rw [hsame] at hmem
      exact h.told delay hmem
    · rw [hlast, List.mem_append, List.mem_singleton] at hmem
      obtain ⟨rfl, hvalid⟩ := h.created calibration present
      rcases hmem with hmem | rfl
      · exact h.told delay hmem
      · exact ⟨hvalid, due⟩

end Configured

variable [Radio ρ ε]

/-- **The intervals of the schedule are exact.**  A configuration is valid just if its latency is
shorter than its period, and that is between zero and `2 ^ 24`.  However a node is run, in every
world it gets to the configuration of the instance is valid, hence exact: the delay of the timer
does not underflow and is at most a period, an epoch keeps all its bits, and two of them move every
instant by a broadcast interval, which is no round of the clock.  And the timer has never been told
any delay but that of the start or the period less the latency. -/
theorem exact_intervals {config : Config} {address : UInt16} {radio : ρ} {platform : Platform}
    {world : World ρ ε}
    (reached : Reaches (fun _ ↦ True) (.fresh config address radio platform) world) :
    (∀ other : Config, other.isValid = true ↔
      other.latency.toNat < other.period.toNat ∧ 0 < other.period.toNat ∧
        other.period.toNat < 2 ^ 24) ∧
    (∀ calibration, world.node.calibration = some calibration →
      calibration.config = config ∧ config.isValid = true ∧ config.Exact) ∧
    ∀ delay ∈ delays world.history, config.isValid = true ∧
      (delay = config.startDelay ∨
        delay.toNat = config.period.toNat - config.latency.toNat) := by
  have hconfigured : world.Configured config :=
    reached.invariant (calm_fresh config address radio platform)
      (.fresh config address radio platform) fun h step ↦ h.step step
  refine ⟨fun _ ↦ Config.isValid_iff, ?_, ?_⟩
  · intro calibration present
    obtain ⟨hconfig, hvalid⟩ := hconfigured.created calibration present
    exact ⟨hconfig, hvalid, Config.exact_of_isValid hvalid⟩
  · intro delay hmem
    obtain ⟨hvalid, hdelay⟩ := hconfigured.told delay hmem
    refine ⟨hvalid, hdelay.imp_right ?_⟩
    rintro rfl
    exact Nat.eq_sub_of_add_eq (Config.exact_of_isValid hvalid).timerDelay

/-- With the longest period that is valid and the longest latency that it leaves room for, the
timer is told the delay of the start, and a microsecond once the first blink was sent.  The second
one is due `2 ^ 16` ticks before the instant of the first comes round. -/
theorem exact_intervals_of_longest_period :
    let config : Config := { period := 16777215, latency := 16777214 }
    let world := (fresh config 7 {} {} : World Radio.Scripted Radio.Failure).run
      [.init 2 0, .start .nonBlocking, .dispatch .timerExpired, .poll]
    config.isValid = true ∧ delays world.history = [10000, 1] ∧
    (∃ calibration, world.node.calibration = some calibration ∧ calibration.config = config) ∧
    (∀ instant : Instant,
      (instant + Duration.ofPeriod config.period + Duration.ofPeriod config.period).ticks.toNat =
        (instant.ticks.toNat + (2 ^ 40 - 2 ^ 16)) % 2 ^ 40) ∧
    (1 : UInt32).toNat = config.period.toNat - config.latency.toNat := by
  intro config world
  have hreached : Reaches (fun _ ↦ True) (.fresh config 7 {} {}) world :=
    Reaches.refl.run fun _ _ ↦ trivial
  have hdelays : delays world.history = [10000, 1] := by decide +kernel
  have hpresent : world.node.calibration.isSome = true := by decide +kernel
  obtain ⟨calibration, present⟩ := Option.isSome_iff_exists.mp hpresent
  obtain ⟨-, hinstance, htold⟩ := exact_intervals hreached
  obtain ⟨hconfig, hvalid, hexact⟩ := hinstance calibration present
  obtain ⟨-, hlast⟩ := htold 1 (by rw [hdelays]; decide)
  have hturn : config.period.toNat * 2 ^ 16 % 2 ^ 40 = 2 ^ 40 - 2 ^ 16 := by decide +kernel
  refine ⟨hvalid, hdelays, ⟨calibration, present, hconfig⟩, ?_, hlast.resolve_left (by decide)⟩
  intro instant
  rw [hexact.interval, hturn]

end World

end ClockCalibration
