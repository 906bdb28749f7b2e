import ClockCalibration.Proofs.Completion
import ClockCalibration.Proofs.Time
import ClockCalibration.Proofs.Wire.Layout

/-!
# The cadence of the broadcast

As long as nothing is received, the blinks of a stream are armed for instants that the
history determines.  The schedule begins at a system time.  It moves on by two epochs
with every blink that is accepted and by one with every blink that is rejected, and
attempts that fail leave it where it is; every attempt uses up a sequence number.

The schedule is not stored anywhere.  It is the time of sending in the slot before the
current one while no blink is pending, and in the current slot while one is: there
`World.OnSchedule` follows it through the cycle, and when the cycle is completed the
ring moves on and the two agree.  That would go wrong only at the wrap of the index,
where the slot before the next one need not be the current one.
-/

namespace ClockCalibration

variable {ρ ε : Type}

/-- The device time so many epochs after a system time. -/
def Config.epochsAfter (config : Config) (time : UInt64) (epochs : Nat) : Nat :=
  (time.toNat + epochs * (config.period.toNat * 2 ^ 15)) % 2 ^ 40

/-- How many epochs the schedule has moved on since it began. -/
def elapsed (since : List Landmark) : Nat := 2 * since.count .accepted + since.count .rejected

namespace Calibration

variable (calibration : Calibration) {time : UInt64} {epochs : Nat}

/-- The next blink is due two epochs after the previous one. -/
theorem nextInstant_eq
    (h : calibration.ring.previous.sent.toNat = calibration.config.epochsAfter time epochs) :
    calibration.nextInstant.ticks.toNat = calibration.config.epochsAfter time (epochs + 2) := by
  rw [nextInstant, epoch, Instant.toNat_add, Instant.toNat_add, Instant.toNat_truncate,
    Duration.toNat_ofPeriod, h, Config.epochsAfter, Config.epochsAfter, Nat.add_mul]
  omega

/-- A rejection moves the previous slot on by one epoch. -/
theorem rejected_eq
    (h : calibration.ring.previous.sent.toNat = calibration.config.epochsAfter time epochs) :
    (Instant.truncate calibration.ring.previous.sent + calibration.epoch).ticks.toNat =
      calibration.config.epochsAfter time (epochs + 1) := by
  rw [epoch, Instant.toNat_add, Instant.toNat_truncate, Duration.toNat_ofPeriod, h,
    Config.epochsAfter, Config.epochsAfter, Nat.add_mul]
  omega

/-- An instance whose slots and sequence number are as the landmarks since the schedule
began would have them.  The index must not have wrapped around. -/
structure OnSchedule (calibration : Calibration) (time : UInt64) (since : List Landmark) :
    Prop where
  /-- Every attempt used up a sequence number. -/
  sequence : calibration.sequence.toNat = since.count .attempted % 256
  /-- Without receptions the index counts completions. -/
  index : calibration.ring.index.toNat = since.count .completed % 2 ^ 32
  /-- The schedule is in the previous slot while no blink is pending. -/
  basis : since.count .completed < 2 ^ 32 → calibration.phase ≠ .pending →
    calibration.ring.previous.sent.toNat = calibration.config.epochsAfter time (elapsed since)
  /-- A blink that is armed is due two epochs later. -/
  due : since.count .completed < 2 ^ 32 → calibration.phase = .armed →
    calibration.ring.current.sent.toNat =
      calibration.config.epochsAfter time (elapsed since + 2)
  /-- The schedule is in the current slot while a blink is pending. -/
  sent : since.count .completed < 2 ^ 32 → calibration.phase = .pending →
    calibration.ring.current.sent.toNat = calibration.config.epochsAfter time (elapsed since)

namespace OnSchedule

variable {calibration later : Calibration} {since : List Landmark}

/-- The schedule of a stream begins at the system time that is put into the previous slot. -/
theorem of_began (hsequence : later.sequence = 0) (hindex : later.ring.index = 0)
    (hphase : later.phase = .idle)
    (hsent : later.ring.previous.sent = (Instant.truncate time).ticks) :
    later.OnSchedule time [] where
  sequence := by simp [hsequence]
  index := by simp [hindex]
  basis _ _ := by simp [hsent, Config.epochsAfter, elapsed]
  due _ harmed := by simp [hphase] at harmed
  sent _ hpending := by simp [hphase] at hpending

variable (h : calibration.OnSchedule time since)

include h

/-- A move that is neither a start nor a reception keeps to the schedule, unless it closes a
cycle by force. -/
theorem move {node : Node} {landmark : Option Landmark}
    (move : Move node calibration landmark later)
    (hbegan : ∀ other, landmark ≠ some (.began other)) (hreceived : landmark ≠ some .received)
    (standard : calibration.phase = .pending →
      node.onTransmission = some .transmission ∧ node.outgoing = some .calibration) :
    later.OnSchedule time (since ++ landmark.toList) := by
  have hsequence := h.sequence
  have hindex := h.index
  have hbasis := h.basis
  have hdue := h.due
  have hsent := h.sent
  cases move with
  | manage idle config ring phase sequence =>
      rcases idle with rfl | rfl <;> constructor <;>
        simpa [elapsed, config, ring, phase, sequence]
  | time armed => constructor <;> simpa [elapsed]
  | restart _ other => exact absurd rfl (hbegan other)
  | prepare idle =>
      refine ⟨?_, ?_, fun few _ ↦ ?_, fun few _ ↦ ?_, by simp [Calibration.prepare]⟩
      · simp [Calibration.prepare, hsequence]
      · simpa [Calibration.prepare] using hindex
      · simp only [Option.toList_some, List.count_append, List.count_singleton] at few
        simpa [elapsed, Calibration.prepare] using hbasis few (by simp [idle])
      · simp only [Option.toList_some, List.count_append, List.count_singleton] at few
        have hnext := calibration.nextInstant_eq (hbasis few (by simp [idle]))
        simpa [elapsed, Calibration.prepare] using hnext
  | release armed =>
      refine ⟨by simpa, by simpa, fun few _ ↦ ?_, by simp [Calibration.release],
        by simp [Calibration.release]⟩
      simpa [Calibration.release] using hbasis (by simpa using few) (by simp [armed])
  | reject armed =>
      refine ⟨by simpa, by simpa, fun few _ ↦ ?_, by simp [Calibration.reject],
        by simp [Calibration.reject]⟩
      have hrejected := calibration.rejected_eq (hbasis (by simpa using few) (by simp [armed]))
      simpa [elapsed, Calibration.reject, Frame.sentAt, Nat.add_assoc] using hrejected
  | accept armed =>
      refine ⟨by simpa, by simpa, fun _ hidle ↦ absurd rfl hidle, by simp [Calibration.accept],
        fun few _ ↦ ?_⟩
      have haccepted := hdue (by simpa using few) armed
      simpa [elapsed, Calibration.accept, Nat.mul_add, Nat.add_right_comm] using haccepted
  | complete pending =>
      refine ⟨by simpa, ?_, fun few _ ↦ ?_, by simp [Calibration.complete],
        by simp [Calibration.complete]⟩
      · simp [Calibration.complete, hindex, UInt32.toNat_add]
      · simp only [Option.toList_some, List.count_append, List.count_singleton_self] at few
        have hlast : calibration.ring.index.toNat + 1 < 2 ^ 32 := by
          rw [hindex]
          omega
        have hcurrent := hsent (by omega) pending
        simpa [elapsed, Calibration.complete, FrameRing.previous_advance _ (.inr hlast)] using hcurrent
  | close pending foreign => exact absurd (standard pending).2 (foreign (standard pending).1)
  | receive => exact absurd rfl hreceived
  | correct valid correction =>
      constructor <;> simpa [Calibration.correct]

/-- The frame of the next attempt tells how many were made before it and when it is due. -/
theorem prepared (idle : calibration.phase = .idle) (few : since.count .completed < 2 ^ 32)
    (address : UInt64) :
    (calibration.prepare address).ring.current.header.sequence.toNat =
        since.count .attempted % 256 ∧
      (calibration.prepare address).ring.current.sent.toNat =
        calibration.config.epochsAfter time (elapsed since + 2) := by
  refine ⟨by simpa [Calibration.prepare] using h.sequence, ?_⟩
  simpa [Calibration.prepare] using calibration.nextInstant_eq (h.basis few (by simp [idle]))

end OnSchedule

end Calibration

/-! ## Undisturbed runs -/

instance (landmark : Option Landmark) : Decidable (∀ time, landmark ≠ some (.began time)) :=
  match landmark with
  | some (.began time) => isFalse fun h ↦ h time rfl
  | none | some .attempted | some .timed | some .accepted | some .rejected
  | some .acknowledged | some .completed | some .received => isTrue nofun

/-- Nothing is received in a history, and the schedule does not begin anew while a blink is
pending. -/
def Undisturbed (history : List (Entry ε)) : Prop :=
  ∀ entry ∈ history, entry.happening.landmark? ≠ some .received ∧
    (entry.phase = some .pending → ∀ time, entry.happening.landmark? ≠ some (.began time))

instance (history : List (Entry ε)) : Decidable (Undisturbed history) :=
  inferInstanceAs (Decidable (∀ entry ∈ history, _ ∧ _))

/-- What came first in an undisturbed history was undisturbed. -/
theorem Undisturbed.of_append {before after : List (Entry ε)} (h : Undisturbed (before ++ after)) :
    Undisturbed before :=
  fun entry hentry ↦ h entry (List.mem_append_left after hentry)

/-- What was passed last in an undisturbed history is no reception, and not a start while a
blink is pending. -/
theorem Undisturbed.of_passed {before added : List (Entry ε)} {landmark : Option Landmark}
    (h : Undisturbed (before ++ added)) (passed : landmarks added = landmark.toList) :
    landmark ≠ some .received ∧
      ∀ time, landmark = some (.began time) → ∃ entry ∈ added, entry.phase ≠ some .pending := by
  have hadded : ∀ {other}, landmark = some other →
      ∃ entry ∈ added, entry.happening.landmark? = some other := by
    rintro other rfl
    exact mem_landmarks.mp (passed ▸ List.mem_singleton_self other)
  refine ⟨fun hreceived ↦ ?_, fun time hbegan ↦ ?_⟩
  · obtain ⟨entry, hentry, hlandmark⟩ := hadded hreceived
    exact (h entry (List.mem_append_right before hentry)).1 hlandmark
  · obtain ⟨entry, hentry, hlandmark⟩ := hadded hbegan
    refine ⟨entry, hentry, fun hpending ↦ ?_⟩
    exact (h entry (List.mem_append_right before hentry)).2 hpending time hlandmark

/-- When and with which frame the radio is programmed, given the entries before. -/
structure Punctual (config : Config) (before : List (Entry ε)) (entry : Entry ε) : Prop where
  /-- The frame of an attempt tells how many were made before it and when it is due. -/
  attempt : ∀ payload offset reply,
    entry.happening = .exchange (.writeTransmitBuffer payload offset) reply →
    ∃ time since, Since (landmarks before) time since ∧
      (since.count .completed < 2 ^ 32 →
        offset = 0 ∧ ∃ frame : Frame, Wire.decode payload = .ok (frame, 30) ∧
          frame.header.sequence.toNat = since.count .attempted % 256 ∧
          frame.sent.toNat = config.epochsAfter time (elapsed since + 2))
  /-- The radio is told that instant. -/
  instant : ∀ instant reply, entry.happening = .exchange (.setDelayedStart instant) reply →
    ∃ time since, Since (landmarks before) time since ∧
      (since.count .completed < 2 ^ 32 →
        instant.toNat = config.epochsAfter time (elapsed since + 2))

/-- Nothing is asked of entries that do not program the radio. -/
theorem Punctual.of_idle (config : Config) (before : List (Entry ε)) {entry : Entry ε}
    (idle : ¬ entry.happening.IsArming) : Punctual config before entry where
  attempt _ _ _ h := absurd (h ▸ trivial : entry.happening.IsArming) idle
  instant _ _ h := absurd (h ▸ trivial : entry.happening.IsArming) idle

namespace World

variable {world later : World ρ ε} {config : Config}

/-- A world whose instance is on schedule. -/
structure Paced (config : Config) (world : World ρ ε) : Prop where
  configured : world.node.config = config
  /-- The instance is on the schedule that the history tells. -/
  schedule : ∀ calibration, world.node.calibration = some calibration →
    calibration.config = config ∧
      ∃ time since, Since (landmarks world.history) time since ∧ calibration.OnSchedule time since
  punctual : Always (Punctual config) world.history

namespace Paced

theorem fresh (config : Config) (address : UInt16) (radio : ρ) (platform : Platform) :
    (World.fresh config address radio platform : World ρ ε).Paced config :=
  ⟨rfl, fun _ h ↦ (nomatch h), .nil⟩

variable (h : world.Paced config)

include h

/-- A step keeps the instance on schedule if it does not disturb it. -/
theorem schedule_moves (standard : world.Standard) (undisturbed : Undisturbed later.history)
    (moves : Moves world later) {calibration : Calibration}
    (present : later.node.calibration = some calibration) :
    calibration.config = config ∧
      ∃ time since, Since (landmarks later.history) time since ∧
        calibration.OnSchedule time since := by
  cases moves with
  | absent before after => cases after.symm.trans present
  | created before valid sized after passed =>
      cases after.symm.trans present
      rw [passed]
      refine ⟨h.configured, _, [], .began _ _, .of_began rfl ?_ rfl ?_⟩
      · simp [Calibration.create, FrameRing.index_of_ofSize? _ sized]
      · simp [Calibration.create, Frame.sentAt]
  | @moved earlier latest landmark before after move added history passed phases =>
      cases after.symm.trans present
      obtain ⟨hconfig, time, since, hsince, hschedule⟩ := h.schedule earlier before
      refine ⟨move.config.trans hconfig, ?_⟩
      obtain ⟨hreceived, hrest⟩ := Undisturbed.of_passed (history ▸ undisturbed) passed
      rw [history, landmarks_append, passed]
      by_cases hbegan : ∀ other, landmark ≠ some (.began other)
      · refine ⟨time, _, hsince.append hbegan,
          hschedule.move move hbegan hreceived fun hpending ↦ ?_⟩
        have hphase : world.node.phase? = some .pending := by
          simp [Node.phase?, before, hpending]
        exact ⟨standard.callback _ before, standard.outgoing hphase⟩
      · cases move with
        | manage idle => exact absurd (by rcases idle with rfl | rfl <;> simp) hbegan
        | restart calm began mode =>
            refine ⟨began, [], .began _ _, .of_began rfl rfl ?_ ?_⟩
            · obtain ⟨entry, hentry, hcalm⟩ := hrest began rfl
              have hphase : entry.phase = some earlier.phase := (phases entry hentry).elim id id
              cases hearlier : earlier.phase with
              | idle => exact hearlier
              | armed => exact absurd hearlier calm
              | pending => exact absurd (hphase.trans (congrArg some hearlier)) hcalm
            · simp [Calibration.restart, Frame.sentAt]
        | _ => simp at hbegan

/-- The radio is programmed with what the schedule says. -/
theorem punctual_arming (step : Arming world later) {entry : Entry ε}
    (hentry : later.history = world.history ++ [entry]) :
    Punctual config world.history entry := by
  cases step with
  | @attempt calibration present idle =>
      obtain rfl := List.singleton_inj.mp (List.append_cancel_left hentry)
      obtain ⟨rfl, time, since, hsince, hschedule⟩ := h.schedule calibration present
      refine ⟨fun payload offset reply hwrite ↦ ⟨time, since, hsince, fun few ↦ ?_⟩,
        by simp⟩
      cases hwrite
      exact ⟨rfl, _, Wire.decode_encode_frame _, hschedule.prepared idle few _⟩
  | request armed reply radio minor futile =>
      obtain rfl := List.singleton_inj.mp (List.append_cancel_left hentry)
      rcases minor with rfl | rfl | rfl <;> exact ⟨by simp, by simp⟩
  | @time calibration present armed =>
      obtain rfl := List.singleton_inj.mp (List.append_cancel_left hentry)
      obtain ⟨rfl, time, since, hsince, hschedule⟩ := h.schedule calibration present
      refine ⟨by simp, fun instant reply hinstant ↦ ⟨time, since, hsince, fun few ↦ ?_⟩⟩
      cases hinstant
      exact hschedule.due few armed
  | release => exact absurd hentry (by simp)
  | reject | accept =>
      obtain rfl := List.singleton_inj.mp (List.append_cancel_left hentry)
      exact ⟨by simp, by simp⟩

/-- A step that does not disturb the schedule keeps to it. -/
theorem step {allowed : Operation → Prop} (standard : world.Standard)
    (undisturbed : Undisturbed later.history) (step : Step allowed world later) :
    later.Paced config :=
  ⟨step.config.trans h.configured, fun _ ↦ h.schedule_moves standard undisturbed step.moves,
    step.always h.punctual (fun _ ↦ .of_idle config world.history)
      fun arming _ ↦ h.punctual_arming arming⟩

end Paced

/-! ## Every run -/

variable [Radio ρ ε]

/-- **The cadence.**  However a node is run with the standard transmit callback, as long as it
accepts no frames and is not started while a blink is pending: with `since` being what has
been passed since the schedule began at `time`, the frame of every attempt carries the number
of attempts before it, and it and the instant that the radio is told are two epochs for every
accepted blink, and one for every rejected one, after the first instant of the stream. -/
theorem cadence {address : UInt16} {radio : ρ} {platform : Platform}
    (reached : Reaches Operation.KeepsTransmission (.fresh config address radio platform) world)
    (undisturbed : Undisturbed world.history) :
    (∀ before phase payload offset reply after, world.history = before ++
        ⟨phase, .exchange (.writeTransmitBuffer payload offset) reply⟩ :: after →
      ∃ time since, Since (landmarks before) time since ∧
        (since.count .completed < 2 ^ 32 →
          offset = 0 ∧ ∃ frame : Frame, Wire.decode payload = .ok (frame, 30) ∧
            frame.header.sequence.toNat = since.count .attempted % 256 ∧
            frame.sent.toNat = (time.toNat +
              (2 * (since.count .accepted + 1) + since.count .rejected) *
                (config.period.toNat * 2 ^ 15)) % 2 ^ 40)) ∧
    (∀ before phase instant reply after, world.history = before ++
        ⟨phase, .exchange (.setDelayedStart instant) reply⟩ :: after →
      ∃ time since, Since (landmarks before) time since ∧
        (since.count .completed < 2 ^ 32 →
          instant.toNat = (time.toNat +
            (2 * (since.count .accepted + 1) + since.count .rejected) *
              (config.period.toNat * 2 ^ 15)) % 2 ^ 40)) := by
  have h : world.Standard ∧ (Undisturbed world.history → world.Paced config) := by
    refine reached.invariant (P := fun world ↦
      world.Standard ∧ (Undisturbed world.history → world.Paced config))
      (calm_fresh config address radio platform)
      ⟨.fresh config address radio platform, fun _ ↦ .fresh config address radio platform⟩ ?_
    rintro world later ⟨standard, paced⟩ step
    refine ⟨standard.step step, fun undisturbed ↦ (paced ?_).step standard undisturbed step⟩
    rcases step.history with hhistory | ⟨entry, hhistory, -⟩
    · exact hhistory ▸ undisturbed
    · exact Undisturbed.of_append (hhistory ▸ undisturbed)
  have hpunctual := (h.2 undisturbed).punctual
  have hepochs (since : List Landmark) : elapsed since + 2 =
      2 * (since.count .accepted + 1) + since.count .rejected := by
    rw [elapsed, Nat.mul_add, Nat.add_right_comm]
  simp only [← hepochs]
  exact ⟨fun before phase payload offset reply after hsplit ↦
      (hpunctual before _ after hsplit).attempt payload offset reply rfl,
    fun before phase instant reply after hsplit ↦
      (hpunctual before _ after hsplit).instant instant reply rfl⟩

/-- The second of two blinks, of which the radio rejects the first, is armed one epoch later
than the first was. -/
theorem cadence_of_rejected_blink :
    let config : Config := {}
    let world := (fresh config 7 { systemTime := 5, starts := [.rejected] } {} :
      World Radio.Scripted Radio.Failure).run [.init 3 0, .blink .blocking, .blink .blocking]
    instants world.history = [5 + 2 * 32768000000, 5 + 3 * 32768000000] ∧
    ∀ before phase instant reply after, world.history = before ++
        ⟨phase, .exchange (.setDelayedStart instant) reply⟩ :: after →
      ∃ time since, Since (landmarks before) time since ∧
        (since.count .completed < 2 ^ 32 →
          instant.toNat = (time.toNat +
            (2 * (since.count .accepted + 1) + since.count .rejected) *
              (config.period.toNat * 2 ^ 15)) % 2 ^ 40) := by
  intro config world
  have hreached : Reaches Operation.KeepsTransmission
      (fresh config 7 { systemTime := 5, starts := [.rejected] } {}) world :=
    Reaches.refl.run (by simp [Operation.KeepsTransmission])
  have hundisturbed : Undisturbed world.history := by decide +kernel
  have hinstants : instants world.history = [5 + 2 * 32768000000, 5 + 3 * 32768000000] := by
    decide +kernel
  have hcadence := (cadence hreached hundisturbed).2
  exact ⟨hinstants, hcadence⟩

end World

end ClockCalibration
