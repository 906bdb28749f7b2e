import ClockCalibration.Proofs.Node.Trace
import ClockCalibration.Proofs.Run
import ClockCalibration.Radio.Scripted

/-!
# Acknowledged blinks

A poll that finds the blink sent acknowledges its completion at the radio, which does not report
it again.  Then the transmit callback is called, and whatever it answers the cycle is closed
afterwards.  A callback that fails ends the poll before that: the blink stays pending, and the
next one waits for a completion that the radio has reported already.

Of the callbacks only two can fail, the one that always does and the standard receive callback
in the place of the transmit callback, when the radio fails it.  Neither touches the blink that
is pending.
-/

namespace ClockCalibration

open Relation (ReflTransGen)

variable {ρ ε : Type}

/-! ## The transmit callback -/

/-- The transmit callback fails: it is the one that always does, or it is the standard receive
callback and the radio fails. -/
def World.CallbackFails [Radio ρ ε] (world : World ρ ε) : Prop :=
  world.node.onTransmission = some .fail ∨
    world.node.onTransmission = some .reception ∧
      ∃ error later, Node.receptionComplete (world.noting (.callback .reception)) =
        .error error later

namespace Node

open World

variable [Radio ρ ε] {world : World ρ ε}

/-- The transmit interrupt fails exactly if the callback does, and then leaves the blink alone. -/
theorem transmissionInterrupt_outcome (world : World ρ ε) :
    (world.CallbackFails ∧ ∃ error later,
      (transmissionInterrupt : NodeM ρ ε Bool) world = .error error later ∧
        SamePulse world later) ∨
    (¬ world.CallbackFails ∧ ∃ claimed later,
      (transmissionInterrupt : NodeM ρ ε Bool) world = .ok claimed later) := by
  unfold CallbackFails
  rw [transmissionInterrupt, get_bind]
  cases hcallback : world.node.onTransmission with
  | none => exact .inr ⟨by simp, false, world, rfl⟩
  | some callback =>
      -- a callback that succeeds is followed by nothing that could fail
      have hclaimed {claimed : Bool} {later : World ρ ε}
          (h : (invoke callback : NodeM ρ ε Bool) world = .ok claimed later) :
          ∃ claimed later, (do
            let claimed ← invoke callback
            if claimed then
              update fun node ↦ { node with outgoing := none }
            return claimed : NodeM ρ ε Bool) world = .ok claimed later := by
        rw [bind_of_ok h]
        cases claimed <;> exact ⟨_, _, rfl⟩
      cases callback with
      | claim | ignore => exact .inr ⟨by simp, hclaimed rfl⟩
      | fail => exact .inl ⟨.inl rfl, _, _, rfl, rfl⟩
      | transmission =>
          obtain ⟨claimed, later, h, -⟩ :=
            transmissionComplete_claims (world.noting (.callback .transmission))
          exact .inr ⟨by simp, hclaimed h⟩
      | transmissionUnclaimed =>
          obtain ⟨claimed, later, h, -⟩ :=
            transmissionComplete_claims (world.noting (.callback .transmissionUnclaimed))
          exact .inr ⟨by simp, hclaimed (bind_of_ok (discard_of_ok h) _)⟩
      | reception =>
          have hsame := samePulse_receptionComplete (world.noting (.callback .reception))
          cases h : (receptionComplete : NodeM ρ ε Bool) (world.noting (.callback .reception)) with
          | ok claimed later => exact .inr ⟨by simp, hclaimed h⟩
          | error error later =>
              rw [upon_of_error h] at hsame
              exact .inl ⟨.inr ⟨rfl, error, later, rfl⟩, error, later, bind_of_error h _,
                hsame⟩

/-- After the acknowledgement no blink is pending unless the callback failed, which leaves the
blink alone. -/
theorem acknowledge_outcome (world : World ρ ε) :
    (world.CallbackFails ∧ ∃ error later,
      (acknowledge : NodeM ρ ε Unit) world = .error error later ∧ SamePulse world later) ∨
    (¬ world.CallbackFails ∧ ∃ later,
      (acknowledge : NodeM ρ ε Unit) world = .ok () later ∧
        later.node.phase? ≠ some .pending) := by
  rcases transmissionInterrupt_outcome world with
    ⟨hfails, error, later, h, hsame⟩ | ⟨hsucceeds, claimed, later, h⟩
  · exact .inl ⟨hfails, error, later, bind_of_error (discard_of_error h) _, hsame⟩
  · exact .inr ⟨hsucceeds, _, bind_of_ok (discard_of_ok h) _, phase?_closeCycle later.node⟩

/-! ## Waiting -/

omit [Radio ρ ε] in
/-- A world from which another is led to is in its history. -/
theorem history_of_leads {later : World ρ ε} (calm : world.Calm) (h : Leads Turn world later) :
    ∃ added, later.history = world.history ++ added := by
  have hsteps : Leads (Step fun _ ↦ True) world later := leads_of_turns h
  exact history_of_steps (hsteps calm).2

/-- Waiting for a pending blink goes on from where the radio was asked for its completion. -/
theorem reactions_of_asked (pending : world.node.phase? = some .pending) :
    ∃ reply radio, ReflTransGen Reaction (world.exchanging .pollTransmission reply radio)
      (world.upon (awaitCompletion : NodeM ρ ε Unit)) := by
  have hpoll : (poll : NodeM ρ ε Completion) world = pollPending world := if_pos pending
  rcases ask_cases world .pollTransmission with
    ⟨completion, transfers, radio, -, h⟩ | ⟨failure, transfers, radio, -, h⟩
  · let asked := world.exchanging .pollTransmission ⟨.ok completion, transfers⟩ radio
    have hanswered := hpoll.trans (bind_of_ok h _)
    refine ⟨⟨.ok completion, transfers⟩, radio, ?_⟩
    cases completion with
    | wouldBlock =>
        have hwait := reactions_awaitCompletion asked
        unfold upon at hwait ⊢
        rwa [awaitCompletion_of_blocked hanswered]
    | done =>
        have hfinished : underway (landmarks asked.history) = false := by
          simp [asked, Happening.landmark?, Landmark.underway]
        have hacknowledge := reactions_acknowledge hfinished
        cases hresult : (acknowledge : NodeM ρ ε Unit) asked with
        | ok _ later =>
            have hdone := hanswered.trans (bind_of_ok hresult _)
            rw [upon_of_ok hresult] at hacknowledge
            rwa [upon_of_ok (awaitCompletion_of_done hdone)]
        | error error later =>
            have hfailed := hanswered.trans (bind_of_error hresult _)
            rw [upon_of_error hresult] at hacknowledge
            rwa [upon_of_error (awaitCompletion_of_error hfailed)]
  · refine ⟨⟨.error failure, transfers⟩, radio, ?_⟩
    rw [upon_of_error (awaitCompletion_of_error (hpoll.trans (bind_of_error h _)))]

/-- The first thing that happens between two worlds is that the radio is asked for the completion
of the blink that is pending. -/
def AsksFirst (world later : World ρ ε) : Prop :=
  ∃ reply after, later.history =
    world.history ++ ⟨some .pending, .exchange .pollTransmission reply⟩ :: after

/-- Waiting for a pending blink begins by asking for its completion. -/
theorem asksFirst_awaitCompletion (pending : world.node.phase? = some .pending) :
    AsksFirst world (world.upon (awaitCompletion : NodeM ρ ε Unit)) := by
  obtain ⟨reply, radio, hwait⟩ := reactions_of_asked pending
  have hcalm : (world.exchanging .pollTransmission reply radio).Calm := by simp [Calm, pending]
  obtain ⟨added, hadded⟩ := history_of_leads hcalm (leads_of_reactions hwait)
  exact ⟨reply, added, by simp [hadded, pending]⟩

/-- So does a blink that finds another one pending. -/
theorem asksFirst_blink (pending : world.node.phase? = some .pending) (mode : BlinkMode) :
    AsksFirst world (world.upon (blink mode : NodeM ρ ε Status)) := by
  obtain ⟨calibration, present, hphase⟩ := Option.map_eq_some_iff.mp pending
  have hasks := asksFirst_awaitCompletion pending
  rw [blink_eq, upon_discard_bind, upon_bind_of_ok (requireCalibration_of_some world present)]
  cases h : (awaitCompletion : NodeM ρ ε Unit) world with
  | error error later =>
      rw [upon_of_error h] at hasks
      rwa [upon_bind_of_error h]
  | ok _ later =>
      rw [upon_of_ok h] at hasks
      rw [upon_bind_of_ok h]
      have hcalm : world.Calm := by simp [Calm, pending]
      obtain ⟨waited, hpresent, hidle⟩ := idle_of_awaitCompletion hcalm present h
      have hlater : later.Calm := by simp [Calm, phase?, hpresent, hidle]
      obtain ⟨reply, after, hasked⟩ := hasks
      obtain ⟨added, hadded⟩ := history_of_leads hlater (leads_attemptBlink mode hpresent hidle)
      exact ⟨reply, after ++ added, by rw [hadded, hasked, List.append_assoc, List.cons_append]⟩

end Node

namespace World

variable [Radio ρ ε] {world : World ρ ε}

/-- **Acknowledged blinks.**  When a poll is answered that the pending blink was sent, the blink
stays pending exactly if the transmit callback fails.  If it does not, the poll succeeds and there
is nothing left to wait for.  If it does, the poll fails and leaves the blink as it was, and every
blink from then on begins by asking the radio for the completion again. -/
theorem acknowledged_cycle (pending : world.node.phase? = some .pending)
    {transfers : List Bus.Transfer} {radio : ρ}
    (acknowledged : Radio.perform .pollTransmission world.radio = (⟨.ok .done, transfers⟩, radio)) :
    let asked := world.exchanging .pollTransmission ⟨.ok .done, transfers⟩ radio
    let later := world.after .poll
    (later.node.phase? = some .pending ↔ asked.CallbackFails) ∧
    (¬ asked.CallbackFails →
      Node.poll world = .ok .done later ∧ Node.awaitCompletion later = .ok () later) ∧
    (asked.CallbackFails →
      (∃ error, Node.poll world = .error error later) ∧
      later.node.outgoing = world.node.outgoing ∧
      ∀ mode, Node.AsksFirst later (later.after (.blink mode))) := by
  intro asked later
  have hlater : later = world.upon Node.poll := after_eq_upon world .poll
  have hask : Node.ask .pollTransmission world = .ok .done asked := by
    rw [Node.ask, asking, acknowledged]
    rfl
  have hpoll : Node.poll world =
      (Node.acknowledge >>= fun _ ↦ pure .done : NodeM ρ ε Completion) asked :=
    (if_pos pending).trans (bind_of_ok hask _)
  rcases Node.acknowledge_outcome asked with
    ⟨hfails, error, after, h, hsame⟩ | ⟨hsucceeds, after, h, hidle⟩
  · have hresult := hpoll.trans (bind_of_error h _)
    obtain rfl : later = after := hlater.trans (upon_of_error hresult)
    have hpending : later.node.phase? = some .pending := hsame.phase?.trans pending
    refine ⟨iff_of_true hpending hfails, fun hsucceeds ↦ absurd hfails hsucceeds, fun _ ↦
      ⟨⟨error, hresult⟩, hsame.outgoing, fun mode ↦ ?_⟩⟩
    rw [after_eq_upon]
    exact Node.asksFirst_blink hpending mode
  · have hresult := hpoll.trans (bind_of_ok h _)
    obtain rfl : later = after := hlater.trans (upon_of_ok hresult)
    exact ⟨iff_of_false hidle hsucceeds, fun _ ↦
      ⟨hresult, Node.awaitCompletion_of_not_pending hidle⟩, fun hfails ↦ absurd hfails hsucceeds⟩

/-- The receive callback stands in for the transmit callback, and the radio has nothing to read:
the blink is acknowledged, stays pending, and is waited for again. -/
theorem acknowledged_cycle_of_failed_reading :
    let blinking := (fresh { period := 1000, latency := 100 } 66
      { systemTime := 1048576, failing := ["read_rx_payload"] } {} :
        World Radio.Scripted Radio.Failure).run
        [.init 2 anyMaster, .setCallbacks .reception .reception, .blink .nonBlocking]
    let polled := blinking.after .poll
    blinking.node.phase? = some .pending ∧
      (Radio.perform .pollTransmission blinking.radio).1.answer = .ok .done ∧
      polled.node.phase? = some .pending ∧
      ∀ mode, Node.AsksFirst polled (polled.after (.blink mode)) := by
  intro blinking polled
  have hpending : blinking.node.phase? = some .pending := by decide +kernel
  have hdone : (Radio.perform .pollTransmission blinking.radio).1.answer.toOption = some .done := by
    decide +kernel
  have hpolled : polled.node.phase? = some .pending := by decide +kernel
  rcases hperform : Radio.perform .pollTransmission blinking.radio with
    ⟨⟨failure | completion, transfers⟩, radio⟩
  · rw [hperform] at hdone
    cases hdone
  · rw [hperform] at hdone
    obtain rfl := Option.some.inj hdone
    obtain ⟨hfails, -, hagain⟩ := acknowledged_cycle hpending hperform
    exact ⟨hpending, rfl, hpolled, (hagain (hfails.mp hpolled)).2.2⟩

/-- With a callback that fails the radio acknowledges the blink, and it stays pending. -/
theorem pending_of_acknowledged_blink :
    let blinking := (fresh { period := 1000, latency := 100 } 66 { systemTime := 1048576 } {} :
      World Radio.Scripted Radio.Failure).run
        [.init 2 anyMaster, .setCallbacks .reception .fail, .blink .nonBlocking]
    let polled := blinking.after .poll
    blinking.node.phase? = some .pending ∧
      (Radio.perform .pollTransmission blinking.radio).1.answer.toOption = some .done ∧
      landmarks polled.history = landmarks blinking.history ++ [.acknowledged] ∧
      polled.node.phase? = some .pending := by
  decide +kernel

end World

end ClockCalibration
