import ClockCalibration.Proofs.FrameRing
import ClockCalibration.Proofs.Node.Broadcast
import ClockCalibration.Proofs.Node.Trace

/-!
# Requests in a row

Programming the radio is a row of five requests, of which each is made once the one before it has
been answered.  Which of them are made, and what comes of them, is up to the radio alone: given
its state, `Radio.FailsAt` tells which of a row is the first to fail, `Radio.through` where a row
leads, and `Radio.exchanges` what it adds to a history.

The row begins with the payload of the next blink.  So whatever comes of the blink of an idle
instance, its history goes on with that payload.
-/

namespace ClockCalibration

open Relation (ReflTransGen)

variable {ρ ε : Type}

namespace Calibration

/-- The frame of the next blink: the one in the current slot, with another sequence number, sender
and time of sending. -/
def nextFrame (calibration : Calibration) (address : UInt64) : Frame :=
  { calibration.ring.current with
    header :=
      { calibration.ring.current.header with
        sequence := calibration.sequence
        source := address }
    sent := calibration.nextInstant.ticks }

theorem current_prepare (calibration : Calibration) (address : UInt64) :
    (calibration.prepare address).ring.current = calibration.nextFrame address :=
  FrameRing.current_modifyCurrent ..

end Calibration

/-! ## What a radio makes of them -/

namespace Radio

variable [Radio ρ ε]

/-- The state that a row of requests leads a radio to. -/
def through : List Call → ρ → ρ
  | [], radio => radio
  | call :: calls, radio => through calls (perform call radio).2

/-- What happens as a radio is asked for one thing after the other. -/
def exchanges : List Call → ρ → List (Happening ε)
  | [], _ => []
  | call :: calls, radio =>
    .exchange call (perform call radio).1 :: exchanges calls (perform call radio).2

/-- A radio that answers a row of requests throughout. -/
def answersAll : List Call → ρ → Bool
  | [], _ => true
  | call :: calls, radio =>
    (perform call radio).1.answer.isOk && answersAll calls (perform call radio).2

/-- The first of a row of requests to fail is the one after some that are answered. -/
structure FailsAt (calls : List Call) (radio : ρ) (before : List Call) (call : Call)
    (failure : ε) : Prop where
  requests : before ++ [call] <+: calls
  answered : answersAll before radio = true
  failed : (perform call (through before radio)).1.answer = .error failure

variable {calls before : List Call} {first call : Call} {radio : ρ} {failure : ε}

/-- The first request fails. -/
theorem FailsAt.here (failed : (perform call radio).1.answer = .error failure) :
    FailsAt (call :: calls) radio [] call failure :=
  ⟨⟨calls, rfl⟩, rfl, failed⟩

/-- The first request is answered, and one of the others fails. -/
theorem FailsAt.cons {answer : first.Answer}
    (answered : (perform first radio).1.answer = .ok answer)
    (h : FailsAt calls (perform first radio).2 before call failure) :
    FailsAt (first :: calls) radio (first :: before) call failure := by
  obtain ⟨after, hafter⟩ := h.requests
  refine ⟨⟨after, congrArg (first :: ·) hafter⟩, ?_, h.failed⟩
  rw [answersAll, answered, h.answered]
  rfl

/-- A row of requests of which one fails begins with that or with one that is answered. -/
theorem FailsAt.cases_cons (h : FailsAt (first :: calls) radio before call failure) :
    before = [] ∧ call = first ∨
    ∃ answer rest, before = first :: rest ∧ (perform first radio).1.answer = .ok answer ∧
      FailsAt calls (perform first radio).2 rest call failure := by
  obtain ⟨after, hafter⟩ := h.requests
  cases before with
  | nil => exact .inl ⟨rfl, (List.cons.inj hafter).1⟩
  | cons other rest =>
      obtain ⟨rfl, hrest⟩ := List.cons.inj hafter
      obtain ⟨hother, hanswered⟩ := Bool.and_eq_true_iff.mp h.answered
      cases hanswer : (perform other radio).1.answer with
      | error _ => simp [hanswer, Except.isOk, Except.toBool] at hother
      | ok answer => exact .inr ⟨answer, rest, rfl, rfl, ⟨after, hrest⟩, hanswered, h.failed⟩

end Radio

namespace World

variable [Radio ρ ε]

/-- A world in which the radio was asked for one thing after the other. -/
def askedAll (world : World ρ ε) (calls : List Call) : World ρ ε :=
  { world with
    radio := Radio.through calls world.radio
    history := world.history ++ (Radio.exchanges calls world.radio).map (⟨world.node.phase?, ·⟩) }

theorem askedAll_cons (world : World ρ ε) (call : Call) (calls : List Call) :
    world.askedAll (call :: calls) = (world.asking call).askedAll calls := by
  simp [askedAll, asking, noting, Radio.through, Radio.exchanges]

end World

namespace Node

open World

variable [Radio ρ ε] {world : World ρ ε}

/-! ## Making them -/

theorem ask_of_answered {call : Call} {answer : call.Answer}
    (answered : (Radio.perform call world.radio).1.answer = .ok answer) :
    (ask call : NodeM ρ ε call.Answer) world = .ok answer (world.asking call) := by
  rw [ask, answered]

theorem ask_of_failed {call : Call} {failure : ε}
    (failed : (Radio.perform call world.radio).1.answer = .error failure) :
    (ask call : NodeM ρ ε call.Answer) world = .error (.radio failure) (world.asking call) := by
  rw [ask, failed]

/-- Asks the radio for one thing after the other. -/
def askAll : List Call → NodeM ρ ε Unit
  | [] => pure ()
  | call :: calls => do
    discard (ask call)
    askAll calls

/-- A row of requests ends at the first that fails. -/
theorem askAll_of_failsAt {calls before : List Call} {call : Call} {failure : ε}
    (h : Radio.FailsAt calls world.radio before call failure) :
    (askAll calls : NodeM ρ ε Unit) world =
      .error (.radio failure) (world.askedAll (before ++ [call])) := by
  induction calls generalizing world before with
  | nil => exact absurd (List.prefix_nil.mp h.requests) (by simp)
  | cons first calls ih =>
      rcases h.cases_cons with ⟨rfl, rfl⟩ | ⟨answer, rest, rfl, answered, hrest⟩
      · exact bind_of_error (discard_of_error (ask_of_failed h.failed)) _
      · rw [askAll, bind_of_ok (discard_of_ok (ask_of_answered answered)), List.cons_append,
          askedAll_cons]
        exact ih hrest

/-! ## Programming the radio -/

/-- The requests by which the radio is programmed with a frame. -/
def programming (frame : Frame) : List Call :=
  [.writeTransmitBuffer (Wire.encode frame) 0, .configureTransmit 30 true,
    .setWaitForResponse false, .setDelayedStart frame.sent, .startTransmission]

theorem discard_arm (frame : Frame) :
    (discard (arm (Wire.encode frame) frame.sent) : NodeM ρ ε Unit) =
      askAll (programming frame) := by
  rw [arm_eq]
  simp only [programming, askAll, program, discard_bind, bind_discard]
  rw [discard_eq_bind]

/-- Programming the radio fails with the first request that does. -/
theorem arm_of_failsAt {frame : Frame} {before : List Call} {call : Call} {failure : ε}
    (h : Radio.FailsAt (programming frame) world.radio before call failure) :
    (arm (Wire.encode frame) frame.sent : NodeM ρ ε StartOutcome) world =
      .error (.radio failure) (world.askedAll (before ++ [call])) := by
  have hall := askAll_of_failsAt h
  rw [← discard_arm] at hall
  cases harm : (arm (Wire.encode frame) frame.sent : NodeM ρ ε StartOutcome) world with
  | ok outcome later => cases (discard_of_ok harm).symm.trans hall
  | error error later =>
      cases (discard_of_error harm).symm.trans hall
      rfl

/-- A blink of an idle instance begins with handing its payload to the radio. -/
theorem history_of_blink {calibration : Calibration} (mode : BlinkMode)
    (present : world.node.calibration = some calibration) (idle : calibration.phase = .idle) :
    ∃ reply added, (world.upon (blink mode)).history =
      world.history ++ ⟨some .armed, .exchange (.writeTransmitBuffer
        (Wire.encode (calibration.prepare world.node.shortAddress.toUInt64).ring.current) 0)
          reply⟩ :: added := by
  have hblink : (blink mode : NodeM ρ ε Status) world = attemptBlink mode world :=
    blink_eq_attemptBlink mode present (by simp [idle])
  obtain ⟨middle, hsteps, hmiddle, -, hrest⟩ := attemptBlink_path mode present idle
  obtain ⟨reply, added, history⟩ := written_of_arming hsteps present idle (by rw [hmiddle]; rfl)
  have hlater : ReflTransGen (Step fun _ ↦ True) middle (world.upon (attemptBlink mode)) :=
    hrest.lift id fun _ _ ↦ .turn
  obtain ⟨rest, hrest⟩ := history_of_steps hlater
  refine ⟨reply, added ++ rest, ?_⟩
  rw [upon, hblink, ← upon, hrest, history, List.append_assoc, List.cons_append]

end Node

end ClockCalibration
