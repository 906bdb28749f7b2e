import ClockCalibration.Proofs.Run
import ClockCalibration.Radio.Scripted

/-!
# The blink cycle

A blink is armed while the radio is being programmed and pending from the accepted
start to its completion.  Nobody outside of a blink ever sees a cycle that is armed:
neither the operation that comes next, nor a callback, nor a sink, even one that
blinks itself.  A start is requested only if no blink is pending, and a cycle is
pending only since a start that the radio accepted.

That a pending cycle is never overtaken rests on the polls that a blink begins with.
They go on until no blink is pending, closing by force a cycle that its callback left
open, whatever callback that is.
-/

namespace ClockCalibration

variable {ρ ε : Type}

/-! ## Orderly histories -/

/-- The latest start was accepted, and the cycle has been pending ever since. -/
def PendingSince (history : List (Entry ε)) : Prop :=
  ∃ past transfers since,
    history =
      past ++ ⟨some .armed, .exchange .startTransmission ⟨.ok .started, transfers⟩⟩ :: since ∧
      ∀ entry ∈ since, entry.phase = some .pending

theorem PendingSince.snoc {history : List (Entry ε)} (h : PendingSince history)
    {entry : Entry ε} (pending : entry.phase = some .pending) :
    PendingSince (history ++ [entry]) := by
  obtain ⟨past, transfers, since, rfl, hsince⟩ := h
  refine ⟨past, transfers, since ++ [entry], List.append_assoc _ _ _, fun other hother ↦ ?_⟩
  rcases List.mem_append.mp hother with hother | hother
  · exact hsince other hother
  · rw [List.mem_singleton.mp hother]
    exact pending

/-- What an entry may be, as far as the blink cycle goes. -/
structure Orderly (before : List (Entry ε)) (entry : Entry ε) : Prop where
  /-- While the cycle is armed the radio is being programmed, and nothing else happens. -/
  armed : entry.phase = some .armed → entry.happening.IsArming
  /-- A start is requested only if no blink is pending or under way. -/
  start : ∀ reply, entry.happening = .exchange .startTransmission reply →
    entry.phase = some .armed ∧ underway (landmarks before) = false
  /-- The cycle is pending only since an accepted start. -/
  pending : entry.phase = some .pending → PendingSince before

/-- Only the answer that it was started makes a blink go under way. -/
theorem underway_of_futile {history : List (Entry ε)}
    (finished : underway (landmarks history) = false) {entry : Entry ε}
    (futile : entry.happening.landmark? ≠ some .accepted) :
    underway (landmarks (history ++ [entry])) = false := by
  rw [landmarks_append, landmarks_singleton]
  cases hlandmark : entry.happening.landmark? with
  | none => simpa using finished
  | some landmark =>
      rw [Option.toList_some, underway_snoc, finished]
      cases landmark with
      | accepted => exact absurd hlandmark futile
      | _ => rfl

/-! ## The invariant -/

namespace World

/-- A world whose cycle is as the history says, and a history that is orderly. -/
structure Cyclic (world : World ρ ε) : Prop where
  orderly : Always Orderly world.history
  /-- A pending cycle is so since an accepted start. -/
  pending : world.node.phase? = some .pending → PendingSince world.history
  /-- No blink is under way unless the cycle is pending. -/
  clear : world.node.phase? ≠ some .pending → underway (landmarks world.history) = false

namespace Cyclic

variable {world later : World ρ ε}

theorem fresh (config : Config) (address : UInt16) (radio : ρ) (platform : Platform) :
    (World.fresh config address radio platform : World ρ ε).Cyclic :=
  ⟨.nil, by simp [World.fresh, Node.phase?, Node.fresh], fun _ ↦ rfl⟩

/-- A step that adds nothing to the history and leaves the phase alone keeps the
invariant. -/
theorem of_eq (h : world.Cyclic) (hphase : later.node.phase? = world.node.phase?)
    (hhistory : later.history = world.history) : later.Cyclic := by
  refine ⟨?_, ?_, ?_⟩ <;> rw [hhistory]
  · exact h.orderly
  · exact hphase ▸ h.pending
  · exact hphase ▸ h.clear

/-- So does one that adds an entry, in a calm world, which is no start. -/
theorem of_entry (h : world.Cyclic) (calm : world.Calm) {happening : Happening ε}
    (hstart : ∀ reply, happening ≠ .exchange .startTransmission reply)
    (hphase : later.node.phase? = world.node.phase?)
    (hhistory : later.history = world.history ++ [⟨world.node.phase?, happening⟩]) :
    later.Cyclic := by
  refine ⟨?_, fun hpending ↦ ?_, fun hpending ↦ ?_⟩ <;> rw [hhistory]
  · refine h.orderly.snoc ⟨fun harmed ↦ absurd harmed calm, fun reply hreply ↦ ?_, h.pending⟩
    exact absurd hreply (hstart reply)
  · rw [hphase] at hpending
    exact (h.pending hpending).snoc hpending
  · rw [hphase] at hpending
    refine underway_of_futile (h.clear hpending) fun haccepted ↦ ?_
    obtain ⟨transfers, hlandmark⟩ := Happening.of_landmark?_accepted haccepted
    exact hstart _ hlandmark

/-- So does a request made while the radio is being programmed, unless it starts
something, whether or not the instance changes with it. -/
theorem of_request (h : world.Cyclic) (hphase : world.node.phase? ≠ some .pending)
    {phase : Option Phase} {call : Call} {reply : Reply ε call}
    (hhistory : later.history = world.history ++ [⟨phase, .exchange call reply⟩])
    (hentry : phase = some .armed) (arming : call.IsArming)
    (futile : (Happening.exchange call reply).landmark? ≠ some .accepted)
    (hlater : later.node.phase? = some .armed ∨ later.node.phase? = some .idle) :
    later.Cyclic := by
  have hclear := h.clear hphase
  refine ⟨?_, fun hpending ↦ ?_, fun _ ↦ ?_⟩
  · rw [hhistory, hentry]
    exact h.orderly.snoc ⟨fun _ ↦ arming, fun _ _ ↦ ⟨rfl, hclear⟩, by simp⟩
  · rcases hlater with hlater | hlater <;> cases hlater.symm.trans hpending
  · rw [hhistory]
    exact underway_of_futile hclear futile

/-- A step after which the cycle is not pending keeps the invariant if it adds nothing to
the history and no blink is under way. -/
theorem of_finished (h : world.Cyclic) (hphase : later.node.phase? ≠ some .pending)
    (hhistory : later.history = world.history)
    (finished : underway (landmarks world.history) = false) : later.Cyclic := by
  refine ⟨?_, fun hpending ↦ absurd hpending hphase, fun _ ↦ ?_⟩ <;> rw [hhistory]
  · exact h.orderly
  · exact finished

/-- Reactions keep the invariant. -/
theorem reaction (h : world.Cyclic) (calm : world.Calm) (step : Reaction world later) :
    later.Cyclic := by
  cases step with
  | surroundings | disown => exact h.of_eq rfl rfl
  | correct => exact h.of_eq (phase?_recalibrating _ fun _ ↦ rfl) rfl
  | note quiet =>
      refine h.of_entry calm ?_ rfl rfl
      rintro reply rfl
      exact quiet trivial
  | schedule => exact h.of_entry calm (by simp) (phase?_recalibrating _ fun _ ↦ rfl) rfl
  | offer => exact h.of_entry calm (by simp) rfl rfl
  | receive => exact h.of_entry calm (by simp) (phase?_recalibrating _ fun _ ↦ rfl) rfl
  | @complete calibration present =>
      have hidle : (world.recalibrating (·.complete)).node.phase? = some .idle := by
        simp [Node.phase?, present, Calibration.complete]
      refine ⟨h.orderly.snoc ?_, fun hpending ↦ ?_, fun _ ↦ ?_⟩
      · rw [hidle]
        exact ⟨by simp, by simp, by simp⟩
      · cases hidle.symm.trans hpending
      · simp [Happening.landmark?, Landmark.underway]
  | close pending finished => exact h.of_finished (Node.phase?_closeCycle world.node) rfl finished

/-- Programming the radio keeps the invariant. -/
theorem arming (h : world.Cyclic) (step : Arming world later) : later.Cyclic := by
  cases step with
  | @attempt calibration present idle =>
      have hidle : world.node.phase? = some .idle := by rw [Node.phase?, present, ← idle]; rfl
      have harmed : (world.recalibrating
          (·.prepare world.node.shortAddress.toUInt64)).node.phase? = some .armed := by
        rw [Node.phase?, node_recalibrating, present]
        rfl
      exact h.of_request (by simp [hidle]) rfl harmed trivial (by simp [Happening.landmark?])
        (.inl harmed)
  | request armed reply radio minor futile =>
      refine h.of_request (by simp [armed]) rfl armed ?_ (by simp [futile]) (.inl armed)
      rcases minor with rfl | rfl | rfl <;> trivial
  | @time calibration present armed =>
      have harmed : world.node.phase? = some .armed := by simp [Node.phase?, present, armed]
      exact h.of_request (by simp [harmed]) rfl harmed trivial (by simp [Happening.landmark?])
        (.inl harmed)
  | release armed =>
      obtain ⟨calibration, present, -⟩ := Option.map_eq_some_iff.mp armed
      refine h.of_finished ?_ rfl (h.clear (by simp [armed]))
      simp [Node.phase?, present, Calibration.release]
  | reject armed =>
      obtain ⟨calibration, present, -⟩ := Option.map_eq_some_iff.mp armed
      refine h.of_request (by simp [armed]) rfl armed trivial (by simp [Happening.landmark?])
        (.inr ?_)
      simp [Node.phase?, present, Calibration.reject]
  | accept armed transfers radio =>
      obtain ⟨calibration, present, -⟩ := Option.map_eq_some_iff.mp armed
      have hclear := h.clear (by simp [armed])
      refine ⟨h.orderly.snoc ?_, fun _ ↦ ?_, fun hidle ↦ absurd ?_ hidle⟩
      · exact armed ▸ ⟨fun _ ↦ trivial, fun _ _ ↦ ⟨rfl, hclear⟩, by simp⟩
      · exact ⟨world.history, transfers, [], armed ▸ rfl, by simp⟩
      · simp [Node.phase?, present, Calibration.accept]

/-- Setting an instance up, starting it and stopping it keeps the invariant. -/
theorem control {allowed : Operation → Prop} (h : world.Cyclic) (calm : world.Calm)
    (step : Control allowed world later) : later.Cyclic := by
  cases step with
  | create absent =>
      have habsent : world.node.phase? = none := by rw [Node.phase?, absent]; rfl
      refine ⟨h.orderly.snoc ?_, fun hpending ↦ ?_, fun _ ↦ ?_⟩
      · exact habsent ▸ ⟨by simp, by simp, by simp⟩
      · cases hpending
      · exact underway_of_futile (h.clear (by simp [habsent])) (by simp [Happening.landmark?])
  | restart => exact h.of_entry calm (by simp) (phase?_recalibrating _ fun _ ↦ rfl) rfl
  | stopped => exact h.of_entry calm (by simp) rfl rfl
  | remaster => exact h.of_eq rfl rfl
  | halt | timerFired | withSink =>
      exact h.of_eq (phase?_recalibrating _ fun _ ↦ rfl) rfl

/-- Every step keeps the invariant. -/
theorem step {allowed : Operation → Prop} (h : world.Cyclic) (step : Step allowed world later) :
    later.Cyclic := by
  cases step with
  | turn turn =>
      cases turn with
      | reaction calm step => exact h.reaction calm step
      | arming step => exact h.arming step
  | control calm step => exact h.control calm step
  | callbacks => exact h.of_eq rfl rfl

end Cyclic

/-! ## Every run -/

variable [Radio ρ ε]

/-- **The blink cycle.**  However a node is run, with whatever radio, callbacks and sinks:
no operation and neither callback nor sink finds the cycle armed; the radio is asked to
start only if no blink is pending, nor under way because its cycle was left too early;
and the cycle is pending only since an accepted start. -/
theorem cycle_of_reaches {config : Config} {address : UInt16} {radio : ρ} {platform : Platform}
    {world : World ρ ε}
    (reached : Reaches (fun _ ↦ True) (.fresh config address radio platform) world) :
    world.node.phase? ≠ some .armed ∧
    (∀ entry ∈ world.history,
      (∃ callback, entry.happening = .callback callback) ∨
        (∃ sink record, entry.happening = .sink sink record) →
      entry.phase ≠ some .armed) ∧
    (∀ before entry after reply, world.history = before ++ entry :: after →
      entry.happening = .exchange .startTransmission reply →
      entry.phase ≠ some .pending ∧ underway (landmarks before) = false) ∧
    (∀ before entry after, world.history = before ++ entry :: after →
      entry.phase = some .pending → PendingSince before) ∧
    (world.node.phase? = some .pending → PendingSince world.history) := by
  have hcalm : (World.fresh config address radio platform : World ρ ε).Calm :=
    calm_fresh config address radio platform
  have h : world.Cyclic := reached.invariant hcalm (.fresh config address radio platform) .step
  refine ⟨(reached.leads hcalm).1, fun entry hentry hcalled harmed ↦ ?_,
    fun before entry after reply hsplit hstart ↦ ?_, fun before entry after hsplit ↦ ?_, h.pending⟩
  · obtain ⟨before, after, hsplit⟩ := List.append_of_mem hentry
    have hrequest := (h.orderly before entry after hsplit).armed harmed
    rcases hcalled with ⟨callback, hcalled⟩ | ⟨sink, record, hcalled⟩ <;>
      exact absurd hrequest (by simp [hcalled, Happening.IsArming])
  · obtain ⟨harmed, hclear⟩ := (h.orderly before entry after hsplit).start reply hstart
    exact ⟨by simp [harmed], hclear⟩
  · exact (h.orderly before entry after hsplit).pending

/-- A callback that claims the first of two blinks without completing it leaves it to the
second to poll for it, which is then pending on its own account. -/
theorem cycle_of_claimed_blink :
    let world := (fresh {} 7 {} {} : World Radio.Scripted Radio.Failure).run
      [.init 2 0, .setCallbacks .claim .claim, .blink .nonBlocking, .transmissionInterrupt,
        .blink .nonBlocking]
    world.node.phase? = some .pending ∧ PendingSince world.history := by
  intro world
  have hpending : world.node.phase? = some .pending := by decide +kernel
  exact ⟨hpending, (cycle_of_reaches (Reaches.refl.run (by simp))).2.2.2.2 hpending⟩

end World

end ClockCalibration
