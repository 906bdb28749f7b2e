import ClockCalibration.Proofs.FrameRing
import ClockCalibration.Proofs.Node.Move
import ClockCalibration.Proofs.Run
import ClockCalibration.Radio.Scripted

/-!
# Completion

With the standard transmit callback every blink that the radio accepts is claimed to
have been completed exactly once, and before the next one starts, whoever reports it:
an interrupt, a direct call of the callback or a poll.  The index counts the claims
and the frames received.

Two flags tell that a blink is pending, the phase and the kind of the outgoing frame,
and different functions set and clear them.  The callback looks at both, so it would
miss a blink for which they disagree.  `World.Standard` says that they do not.
-/

namespace ClockCalibration

variable {ρ ε : Type}

/-- Whether an operation leaves the standard transmit callback in place. -/
def Operation.KeepsTransmission : Operation → Prop
  | setCallbacks _ onTransmission => onTransmission = .transmission
  | _ => True

namespace World

variable {world later : World ρ ε}

/-! ## The standard callback -/

/-- A world with the standard transmit callback, in which a calibration frame is being
sent whenever a blink is pending. -/
structure Standard (world : World ρ ε) : Prop where
  /-- The callback of a node with an instance is the standard one. -/
  callback : ∀ calibration, world.node.calibration = some calibration →
    world.node.onTransmission = some .transmission
  /-- The outgoing frame of a pending blink is known to be a calibration frame. -/
  outgoing : world.node.phase? = some .pending → world.node.outgoing = some .calibration

namespace Standard

theorem fresh (config : Config) (address : UInt16) (radio : ρ) (platform : Platform) :
    (World.fresh config address radio platform : World ρ ε).Standard :=
  ⟨fun _ present ↦ (nomatch present), fun pending ↦ (nomatch pending)⟩

variable (h : world.Standard)

include h

/-- Reactions keep the outgoing frame known: the kind of one is forgotten only when no
blink is pending, and no cycle is left open for a poll to close. -/
theorem outgoing_reaction (step : Reaction world later)
    (pending : later.node.phase? = some .pending) :
    later.node.outgoing = some .calibration := by
  cases step with
  | surroundings | note | offer => exact h.outgoing pending
  | schedule | receive | correct =>
      refine h.outgoing (Eq.trans (Eq.symm ?_) pending)
      exact phase?_recalibrating _ fun _ ↦ rfl
  | complete present =>
      simp [Node.phase?, present, Calibration.complete] at pending
  | disown taken =>
      obtain ⟨calibration, present, -⟩ := Option.map_eq_some_iff.mp pending
      exact absurd pending (taken (h.callback calibration present))
  | close => exact absurd pending (Node.phase?_closeCycle world.node)

/-- A blink becomes pending together with its outgoing frame becoming known. -/
theorem outgoing_arming (step : Arming world later)
    (pending : later.node.phase? = some .pending) :
    later.node.outgoing = some .calibration := by
  cases step with
  | attempt present =>
      rw [node_exchanging, Node.phase?, node_recalibrating, present] at pending
      cases pending
  | request | time => exact h.outgoing pending
  | release armed | reject armed =>
      obtain ⟨calibration, present, -⟩ := Option.map_eq_some_iff.mp armed
      simp [Node.phase?, present, Calibration.release, Calibration.reject] at pending
  | accept => rfl

/-- A control step leaves the outgoing frame alone, and makes no blink pending. -/
theorem outgoing_control {allowed : Operation → Prop} (step : Control allowed world later)
    (pending : later.node.phase? = some .pending) :
    later.node.outgoing = some .calibration := by
  cases step with
  | create => cases pending
  | remaster | stopped => exact h.outgoing pending
  | restart | halt | timerFired | withSink =>
      refine h.outgoing (Eq.trans (Eq.symm ?_) pending)
      exact phase?_recalibrating _ fun _ ↦ rfl

/-- A control step leaves the callbacks alone, or installs the standard ones with a new
instance. -/
theorem callback_control {allowed : Operation → Prop} (step : Control allowed world later)
    {calibration : Calibration} (present : later.node.calibration = some calibration) :
    later.node.onTransmission = some .transmission := by
  cases step with
  | create => rfl
  | remaster | stopped => exact h.callback calibration present
  | restart | halt | timerFired | withSink =>
      obtain ⟨_, hpresent, -⟩ := Option.map_eq_some_iff.mp present
      exact h.callback _ hpresent

/-- A turn leaves the callbacks alone, and makes no instance. -/
theorem callback_turn (step : Turn world later) {calibration : Calibration}
    (present : later.node.calibration = some calibration) :
    later.node.onTransmission = some .transmission := by
  have hsame := step.sameSetup
  have hsettings := hsame.settings
  rw [Node.settings?, present] at hsettings
  obtain ⟨_, hpresent, -⟩ := Option.map_eq_some_iff.mp hsettings.symm
  exact hsame.callback.trans (h.callback _ hpresent)

/-- Every step that leaves the standard transmit callback in place keeps the invariant. -/
theorem step (step : Step Operation.KeepsTransmission world later) : later.Standard := by
  cases step with
  | turn step =>
      refine ⟨fun _ ↦ h.callback_turn step, ?_⟩
      cases step with
      | reaction _ step => exact h.outgoing_reaction step
      | arming step => exact h.outgoing_arming step
  | control _ step => exact ⟨fun _ ↦ h.callback_control step, h.outgoing_control step⟩
  | callbacks _ permitted => exact ⟨fun _ _ ↦ congrArg some permitted, h.outgoing⟩

/-- So does every path of such steps. -/
theorem steps (steps : Relation.ReflTransGen (World.Step Operation.KeepsTransmission) world later) :
    later.Standard := by
  induction steps with
  | refl => exact h
  | tail _ step ih => exact ih.step step

end Standard

/-! ## Counting -/

/-- A world in which every accepted blink but the pending one has been completed, and in
which the index counts completions and receptions. -/
structure Counted (world : World ρ ε) : Prop where
  /-- One more blink was accepted than completed exactly while one is pending. -/
  balance : (landmarks world.history).count .accepted =
    (landmarks world.history).count .completed +
      if world.node.phase? = some .pending then 1 else 0
  /-- The index counts the events since the schedule began. -/
  index : ∀ calibration, world.node.calibration = some calibration →
    ∃ time since, Since (landmarks world.history) time since ∧
      calibration.ring.index.toNat = (since.count .completed + since.count .received) % 2 ^ 32
  /-- A start is requested only once every accepted blink has been completed. -/
  once : Always (fun before entry ↦ ∀ reply,
    entry.happening = .exchange .startTransmission reply →
      (landmarks before).count .accepted = (landmarks before).count .completed) world.history

namespace Counted

theorem fresh (config : Config) (address : UInt16) (radio : ρ) (platform : Platform) :
    (World.fresh config address radio platform : World ρ ε).Counted :=
  ⟨rfl, fun _ present ↦ (nomatch present), .nil⟩

variable (h : world.Counted)

include h

/-- Acceptance makes the difference of the two counts one, and completion none again.
With the standard callback a poll never closes a cycle by force. -/
theorem balance_moves (standard : world.Standard) (moves : Moves world later) :
    (landmarks later.history).count .accepted = (landmarks later.history).count .completed +
      if later.node.phase? = some .pending then 1 else 0 := by
  have hbalance := h.balance
  cases moves with
  | absent before after idle passed =>
      rw [passed]
      rw [Node.phase?, before] at hbalance
      rcases idle with rfl | rfl <;> simp [Node.phase?, after, hbalance]
  | created before valid sized after passed =>
      rw [passed]
      rw [Node.phase?, before] at hbalance
      simp [Node.phase?, after, Calibration.create, hbalance]
  | moved before after move history passed =>
      rw [history, landmarks_append, passed]
      rw [Node.phase?, before] at hbalance
      rw [Node.phase?, after]
      cases move with
      | manage idle _ _ phase =>
          rcases idle with rfl | rfl <;> simp [hbalance, phase]
      | time => simp [hbalance]
      | restart => simp [hbalance, Calibration.restart]
      | prepare idle => simp [hbalance, Calibration.prepare, idle]
      | release armed => simp [hbalance, Calibration.release, armed]
      | reject armed => simp [hbalance, Calibration.reject, armed]
      | accept armed => simp [hbalance, Calibration.accept, armed]
      | complete pending => simp [hbalance, Calibration.complete, pending]
      | close pending foreign =>
          have hpending : world.node.phase? = some .pending := by
            simp [Node.phase?, before, pending]
          exact absurd (standard.outgoing hpending) (foreign (standard.callback _ before))
      | receive => simp [hbalance, Calibration.receive]
      | correct => simp [hbalance, Calibration.correct]

/-- An event moves the index on by one, and the beginning of the schedule sets it back. -/
theorem index_moves (moves : Moves world later) {calibration : Calibration}
    (present : later.node.calibration = some calibration) :
    ∃ time since, Since (landmarks later.history) time since ∧
      calibration.ring.index.toNat = (since.count .completed + since.count .received) % 2 ^ 32 := by
  cases moves with
  | absent before after => cases after.symm.trans present
  | created before valid sized after passed =>
      cases after.symm.trans present
      rw [passed]
      refine ⟨_, [], .began _ _, ?_⟩
      simp [Calibration.create, FrameRing.index_of_ofSize? _ sized]
  | moved before after move history passed =>
      cases after.symm.trans present
      rw [history, landmarks_append, passed]
      obtain ⟨time, since, hsince, hindex⟩ := h.index _ before
      cases move with
      | restart _ time mode => exact ⟨time, [], .began _ _, by simp [Calibration.restart]⟩
      | manage idle _ ring =>
          refine ⟨time, _, hsince.append ?_, ?_⟩
          · rcases idle with rfl | rfl <;> simp
          · rcases idle with rfl | rfl <;> simp [ring, hindex]
      | time | prepare | release | reject | accept | close | correct =>
          refine ⟨time, _, hsince.append (by simp), ?_⟩
          simp [hindex, Calibration.prepare, Calibration.release, Calibration.reject,
            Calibration.accept, Calibration.correct]
      | complete | receive =>
          refine ⟨time, _, hsince.append (by simp), ?_⟩
          simp [hindex, Calibration.complete, Calibration.receive, UInt32.toNat_add]
          omega

/-- Every step of a world with the standard callback keeps the counts. -/
theorem step {allowed : Operation → Prop} (standard : world.Standard)
    (step : Step allowed world later) : later.Counted := by
  refine ⟨h.balance_moves standard step.moves, fun _ ↦ h.index_moves step.moves,
    step.always h.once ?_ ?_⟩
  · intro entry hidle reply hstart
    exact absurd (hstart ▸ trivial : entry.happening.IsArming) hidle
  · intro arming _ _ _ _
    have hbalance := h.balance
    rwa [if_neg arming.not_pending] at hbalance

/-- So does every path of steps that leave the standard callback in place. -/
theorem steps (standard : world.Standard)
    (steps : Relation.ReflTransGen (Step Operation.KeepsTransmission) world later) :
    later.Counted := by
  suffices hboth : later.Standard ∧ later.Counted from hboth.2
  induction steps with
  | refl => exact ⟨standard, h⟩
  | tail _ step ih => exact ⟨ih.1.step step, ih.2.step ih.1 step⟩

end Counted

/-! ## Every run -/

variable [Radio ρ ε]

/-- **Exactly once.**  However a node is run with the standard transmit callback, in every
world it gets to: as many blinks were completed as accepted, but for the one that is
pending; whenever the radio was asked to start, all of those accepted before had been
completed; and the index is the number of completions and receptions since the schedule
began.  Completions are what calls of the standard callback claim. -/
theorem completed_once {config : Config} {address : UInt16} {radio : ρ} {platform : Platform}
    (reached : Reaches Operation.KeepsTransmission (.fresh config address radio platform) world) :
    (landmarks world.history).count .accepted =
      (landmarks world.history).count .completed +
        (if world.node.phase? = some .pending then 1 else 0) ∧
    (∀ before entry after reply, world.history = before ++ entry :: after →
      entry.happening = .exchange .startTransmission reply →
      (landmarks before).count .accepted = (landmarks before).count .completed) ∧
    (∀ calibration, world.node.calibration = some calibration →
      ∃ time since, Since (landmarks world.history) time since ∧
        calibration.ring.index.toNat = (since.count .completed + since.count .received) % 2 ^ 32) ∧
    (∀ called : World ρ ε, ∃ claimed later,
      (Node.transmissionComplete : NodeM ρ ε Bool) called = .ok claimed later ∧
      landmarks later.history =
        landmarks called.history ++ if claimed then [.completed] else []) := by
  have hsteps := (reached.leads (calm_fresh config address radio platform)).2
  obtain ⟨balance, index, once⟩ := (Counted.fresh config address radio platform).steps
    (.fresh config address radio platform) hsteps
  exact ⟨balance, fun before entry after reply hsplit ↦ once before entry after hsplit reply,
    index, Node.transmissionComplete_claims⟩

/-- Two interrupts are reported for the first of two blinks, and a poll that fails for the
second. -/
theorem completed_once_of_two_interrupts :
    let world := (fresh {} 7 { polls := [.error .pollFailed] } {} :
      World Radio.Scripted Radio.Failure).run
        [.init 2 0, .start .nonBlocking, .blink .nonBlocking, .transmissionInterrupt,
          .transmissionInterrupt, .blink .nonBlocking, .poll]
    world.node.phase? = some .pending ∧
      (landmarks world.history).count .accepted =
        (landmarks world.history).count .completed + 1 := by
  intro world
  have hpending : world.node.phase? = some .pending := by decide +kernel
  have hreached : Reaches Operation.KeepsTransmission
      (.fresh {} 7 { polls := [.error .pollFailed] } {}) world :=
    Reaches.refl.run (by simp [Operation.KeepsTransmission])
  have hbalance := (completed_once hreached).1
  rw [if_pos hpending] at hbalance
  exact ⟨hpending, hbalance⟩

end World

end ClockCalibration
