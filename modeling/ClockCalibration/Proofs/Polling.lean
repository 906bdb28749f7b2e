import ClockCalibration.Proofs.Run
import ClockCalibration.Radio.Scripted

/-!
# Waiting by polling

A node that waits for a blink polls until it is answered that the blink is no longer under way.
The same can be had from the outside, by polling the node just as often:
`Node.awaitCompletion_polled` cuts a wait into polls.

All that the mode of a blink decides is whether it waits for itself once the radio has accepted
it.  So a blocking blink is a non-blocking one that is waited for, and from there on it is the
polls that count.
-/

namespace ClockCalibration

variable {ρ ε : Type} [Radio ρ ε]

/-! ## Polls -/

namespace World

variable {world later : World ρ ε}

/-- A world after so many polls. -/
def polled (world : World ρ ε) (count : Nat) : World ρ ε :=
  world.run (List.replicate count .poll)

theorem polled_succ (world : World ρ ε) (count : Nat) :
    world.polled (count + 1) = (world.after .poll).polled count := rfl

/-- The last of several polls is made where the others have led. -/
theorem polled_succ_last (world : World ρ ε) (count : Nat) :
    world.polled (count + 1) = (world.polled count).upon (Node.poll : NodeM ρ ε Completion) := by
  rw [polled, List.replicate_succ', run, List.foldl_append]
  exact after_eq_upon (world.polled count) .poll

/-- A poll is answered that the blink is still under way. -/
def Blocks (world : World ρ ε) : Prop :=
  ∃ later, (Node.poll : NodeM ρ ε Completion) world = .ok .wouldBlock later

/-- So many polls in a row are answered that the blink is still under way, and the next one is
not. -/
structure BlocksFor (world : World ρ ε) (count : Nat) : Prop where
  blocked : ∀ earlier < count, (world.polled earlier).Blocks
  free : ¬ (world.polled count).Blocks

theorem BlocksFor.zero (h : ¬ world.Blocks) : world.BlocksFor 0 :=
  ⟨nofun, h⟩

theorem BlocksFor.succ {count : Nat} (h : later.BlocksFor count)
    (blocked : (Node.poll : NodeM ρ ε Completion) world = .ok .wouldBlock later) :
    world.BlocksFor (count + 1) := by
  have hafter : world.after .poll = later :=
    (after_eq_upon world .poll).trans (upon_of_ok blocked)
  constructor
  · intro earlier hlt
    cases earlier with
    | zero => exact ⟨later, blocked⟩
    | succ earlier =>
        rw [polled_succ, hafter]
        exact h.blocked earlier (Nat.lt_of_succ_lt_succ hlt)
  · rw [polled_succ, hafter]
    exact h.free

end World

namespace Node

open World

variable {world later : World ρ ε}

/-- A wait comes to polls that block and one more, and ends as that one does. -/
theorem awaitCompletion_polled (world : World ρ ε) :
    ∃ count, world.BlocksFor count ∧
      (awaitCompletion : NodeM ρ ε Unit) world = discard poll (world.polled count) := by
  induction world using awaitCompletion.induct with
  | case1 world later blocked ih =>
      obtain ⟨count, hcount, hwait⟩ := ih
      have hafter : world.after .poll = later :=
        (after_eq_upon world .poll).trans (upon_of_ok blocked)
      refine ⟨count + 1, hcount.succ blocked, ?_⟩
      rw [awaitCompletion_of_blocked blocked, hwait, polled_succ, hafter]
  | case2 world later done =>
      have hfree : ¬ world.Blocks := by
        rintro ⟨_, blocked⟩
        cases done.symm.trans blocked
      exact ⟨0, .zero hfree, (awaitCompletion_of_done done).trans (discard_of_ok done).symm⟩
  | case3 world error later failed =>
      have hfree : ¬ world.Blocks := by
        rintro ⟨_, blocked⟩
        cases failed.symm.trans blocked
      exact ⟨0, .zero hfree,
        (awaitCompletion_of_error failed).trans (discard_of_error failed).symm⟩

/-! ## Blinks that are waited for -/

omit [Radio ρ ε] in
/-- The status is that of the instance that there is, and telling it changes nothing. -/
theorem of_tellStatus {status : Status}
    (h : (tellStatus : NodeM ρ ε Status) world = .ok status later) :
    later = world ∧ ∃ calibration, world.node.calibration = some calibration ∧
      calibration.status = status := by
  cases present : world.node.calibration with
  | none => cases (bind_of_error (requireCalibration_of_none world present) _).symm.trans h
  | some calibration =>
      cases (tellStatus_of_some present).symm.trans h
      exact ⟨rfl, calibration, rfl, rfl⟩

/-- Telling the status before the wait makes no difference to the wait and what is told
afterwards. -/
theorem tellStatus_awaitCompletion (world : World ρ ε) :
    (do discard tellStatus; awaitCompletion; tellStatus : NodeM ρ ε Status) world =
      (do awaitCompletion; tellStatus : NodeM ρ ε Status) world := by
  cases present : world.node.calibration with
  | some calibration => exact bind_of_ok (discard_of_ok (tellStatus_of_some present)) _
  | none =>
      have hidle : world.node.phase? ≠ some .pending := by simp [phase?, present]
      have habsent : (tellStatus : NodeM ρ ε Status) world = .error .notInitialized world :=
        bind_of_error (requireCalibration_of_none world present) _
      rw [bind_of_error (discard_of_error habsent),
        bind_of_ok (awaitCompletion_of_not_pending hidle), habsent]

/-- A blink that blocks is one that does not, and is waited for. -/
theorem blink_blocking (world : World ρ ε) :
    (blink .blocking : NodeM ρ ε Status) world =
      (do discard (blink .nonBlocking); awaitCompletion; tellStatus) world := by
  rcases blink_cases world with ⟨error, later, h⟩ | ⟨frame, outcome, answered, h⟩
  · rw [h, bind_of_error (discard_of_error (h .nonBlocking))]
  · rw [h, bind_congr (discard_congr (h .nonBlocking))]
    cases outcome with
    | rejected =>
        -- there is nothing to wait for, so the polls end at once
        have hidle : (answered.rejecting frame).node.phase? ≠ some .pending := by
          cases hanswered : answered.node.calibration <;>
            simp [rejecting, phase?, hanswered, Calibration.reject]
        have hconclude : (conclude .nonBlocking frame .rejected : NodeM ρ ε Unit) answered =
            .ok () (answered.rejecting frame) := conclude_rejected ..
        rw [bind_of_ok (conclude_rejected .blocking frame),
          bind_congr (discard_congr (bind_of_ok hconclude _))]
        exact ((tellStatus_awaitCompletion _).trans
          (bind_of_ok (awaitCompletion_of_not_pending hidle) _)).symm
    | started =>
        have hconclude : (conclude .nonBlocking frame .started : NodeM ρ ε Unit) answered =
            .ok () (answered.accepting frame) := conclude_started ..
        rw [bind_congr (conclude_started .blocking frame),
          bind_congr (discard_congr (bind_of_ok hconclude _))]
        exact (tellStatus_awaitCompletion _).symm

/-- A blink that succeeds tells the status of the instance that it leaves. -/
theorem status_of_blink {mode : BlinkMode} {status : Status}
    (h : (blink mode : NodeM ρ ε Status) world = .ok status later) :
    ∃ calibration, later.node.calibration = some calibration ∧ calibration.status = status := by
  rcases blink_cases world with ⟨error, later, hfailed⟩ | ⟨frame, outcome, answered, hanswered⟩
  · cases (hfailed mode).symm.trans h
  · obtain ⟨_, concluded, -, htell⟩ := of_bind_eq_ok ((hanswered mode).symm.trans h)
    obtain ⟨rfl, hstatus⟩ := of_tellStatus htell
    exact hstatus

end Node

namespace World

/-- **Waiting by polling.**  A blocking blink fails where a non-blocking one does, and in the same
way.  Where that succeeds it is followed by polls, as long as they are answered that the blink is
still under way.  The blocking blink leaves the world that the last of these polls does, and with
it everything that was asked of the radio, the timer and the queue on the way; it fails if that
poll does, and tells the status of the instance if not. -/
theorem blocking_eq_polling (world : World ρ ε) :
    (∃ error later, Node.blink .nonBlocking world = .error error later ∧
      Node.blink .blocking world = .error error later) ∨
    (∃ status later count, Node.blink .nonBlocking world = .ok status later ∧
      later.BlocksFor count ∧
      let ended := later.polled (count + 1)
      ((∃ error, Node.poll (later.polled count) = .error error ended ∧
        Node.blink .blocking world = .error error ended) ∨
      (∃ calibration, Node.poll (later.polled count) = .ok .done ended ∧
        ended.node.calibration = some calibration ∧
        Node.blink .blocking world = .ok calibration.status ended))) := by
  have hblocking := Node.blink_blocking world
  cases h : (Node.blink .nonBlocking : NodeM ρ ε Status) world with
  | error error later =>
      exact .inl ⟨error, later, rfl, hblocking.trans (bind_of_error (Node.discard_of_error h) _)⟩
  | ok status later =>
      obtain ⟨calibration, present, -⟩ := Node.status_of_blink h
      obtain ⟨count, hcount, hwait⟩ := Node.awaitCompletion_polled later
      have hwaited : Node.blink .blocking world =
          (do discard Node.poll; Node.tellStatus : NodeM ρ ε Status) (later.polled count) :=
        hblocking.trans ((bind_of_ok (Node.discard_of_ok h) _).trans (bind_congr hwait _))
      refine .inr ⟨status, later, count, rfl, hcount, ?_⟩
      rw [polled_succ_last]
      cases hpoll : (Node.poll : NodeM ρ ε Completion) (later.polled count) with
      | error error ended =>
          rw [upon_of_error hpoll]
          exact .inl ⟨error, rfl, hwaited.trans (bind_of_error (Node.discard_of_error hpoll) _)⟩
      | ok completion ended =>
          cases completion with
          | wouldBlock => exact absurd ⟨ended, hpoll⟩ hcount.free
          | done =>
              obtain ⟨latest, hlatest⟩ :=
                Node.present_of_awaitCompletion present (hwait.trans (Node.discard_of_ok hpoll))
              rw [upon_of_ok hpoll]
              refine .inr ⟨latest, rfl, hlatest, hwaited.trans ?_⟩
              rw [bind_of_ok (Node.discard_of_ok hpoll)]
              exact Node.tellStatus_of_some hlatest

/-- Two polls are answered that the blink is still under way, and the third that it was sent. -/
example :
    let world := (fresh { period := 1000, latency := 100 } 66
      { polls := [.ok .wouldBlock, .ok .wouldBlock] } {} :
        World Radio.Scripted Radio.Failure).run [.init 2 anyMaster]
    let armed := world.after (.blink .nonBlocking)
    let waited := world.after (.blink .blocking)
    (armed.polled 2).node.phase? = some .pending ∧ (armed.polled 3).node.phase? = some .idle ∧
      waited.node.phase? = some .idle ∧
      waited.history.length = (armed.polled 3).history.length ∧
      landmarks waited.history = landmarks (armed.polled 3).history := by
  decide +kernel

end World

end ClockCalibration
