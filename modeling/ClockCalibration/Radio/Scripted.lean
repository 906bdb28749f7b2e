import ClockCalibration.Radio.Basic
/-!
# A scripted radio

A radio that answers from a script, for nodes that are run without hardware.
Clock and registers have fixed values until the script is changed, starts and
polls are answered from queues, and calls that are named as failing fail.  A
failing call takes nothing off a queue.
-/

namespace ClockCalibration

/-- The name under which a script lists a call. -/
def Call.name : Call → String
  | readSystemTime => "read_system_time"
  | readReceptionTime => "read_rx_timestamp"
  | writeTransmitBuffer _ _ => "write_tx_payload"
  | readReceiveBuffer _ _ => "read_rx_payload"
  | configureTransmit _ _ => "configure_tx_frame_control"
  | setWaitForResponse _ => "set_wait_for_response"
  | setDelayedStart _ => "set_delayed_start"
  | startTransmission => "start_tx"
  | pollTransmission => "poll_tx_done"
  | readRegister register _ =>
    if register = .trackingInterval then "read_ttcki"
    else if register = .trackingOffset then "read_ttcko"
    else "read_register"

namespace Radio

/-- Why a scripted radio does not answer. -/
inductive Failure
  | refused (call : String)
  | pollFailed
  deriving DecidableEq

/-- The text of a failure: the name of the call. -/
def Failure.text : Failure → String
  | refused call => call
  | pollFailed => Call.pollTransmission.name

/-- A radio that answers from a script. -/
structure Scripted where
  systemTime : UInt64 := 0
  receptionTime : UInt64 := 0
  trackingInterval : UInt64 := 0x01000000
  trackingOffset : UInt64 := 0
  received : Bytes := []
  /-- What the next starts come to.  Once the queue is empty they succeed. -/
  starts : List StartOutcome := []
  /-- What the next polls come to.  Once the queue is empty they succeed. -/
  polls : List (Except Failure Completion) := []
  failing : List String := []

namespace Scripted

def register (radio : Scripted) (register : Register) : UInt64 :=
  if register = .trackingInterval then radio.trackingInterval
  else if register = .trackingOffset then radio.trackingOffset
  else 0

def start (radio : Scripted) : StartOutcome × Scripted :=
  match radio.starts with
  | [] => (.started, radio)
  | outcome :: starts => (outcome, { radio with starts })

def poll (radio : Scripted) : Except Failure Completion × Scripted :=
  match radio.polls with
  | [] => (.ok .done, radio)
  | outcome :: polls => (outcome, { radio with polls })

/-- Carries out a call that the script does not let fail. -/
def answer : (call : Call) → Scripted → Except Failure call.Answer × Scripted
  | .readSystemTime, radio => (.ok radio.systemTime, radio)
  | .readReceptionTime, radio => (.ok radio.receptionTime, radio)
  | .writeTransmitBuffer _ _, radio => (.ok (), radio)
  | .readReceiveBuffer _ offset, radio =>
    (.ok (Vector.ofFn fun i ↦ radio.received.getD (offset.toNat + i) 0), radio)
  | .configureTransmit _ _, radio => (.ok (), radio)
  | .setWaitForResponse _, radio => (.ok (), radio)
  | .setDelayedStart _, radio => (.ok (), radio)
  | .startTransmission, radio => (.ok radio.start.1, radio.start.2)
  | .pollTransmission, radio => radio.poll
  | .readRegister register _, radio => (.ok (radio.register register), radio)

def perform (call : Call) (radio : Scripted) : Reply Failure call × Scripted :=
  if radio.failing.contains call.name then
    (⟨.error (.refused call.name), []⟩, radio)
  else
    (⟨(answer call radio).1, []⟩, (answer call radio).2)

/-- A poll that blocks takes its answer off the queue. -/
theorem length_polls_lt {radio : Scripted} (h : radio.poll.1 = .ok .wouldBlock) :
    radio.poll.2.polls.length < radio.polls.length := by
  unfold poll at h ⊢
  split at h
  · cases h
  · next heq => simp [heq]

instance : Radio Scripted Failure where
  perform := perform
  backlog radio := radio.polls.length
  backlog_lt_of_wouldBlock := by
    intro radio h
    unfold perform at h ⊢
    split at h
    · cases h
    · next hanswers =>
      rw [if_neg hanswers]
      exact length_polls_lt h

end Scripted

end Radio

end ClockCalibration
