import ClockCalibration.Proofs.Time
import ClockCalibration.Proofs.Wire.LittleEndian
import ClockCalibration.Transceiver.Radio
import Mathlib.Data.Nat.Bitwise

/-!
# What is done on the bus

A request to the transceiver is a few accesses to its bus, of which each may depend on what the
ones before it were answered with.  A `Bus.Plan` is such a tree of accesses, with headers and data
spelled out.  `Plan.carryOut` says what comes of it on a bus, which answers as it likes and may
fail at any access: the accesses are made one after the other, and the first that fails ends them.

`Transceiver.conduct` is the same as an action of the driver.  It turns sequences of plans into
sequences of actions, so a request is traced back to its plan access by access.
-/

namespace ClockCalibration

variable {σ φ α β : Type}

namespace Bus

/-- What is to be done on a bus. -/
inductive Plan (α : Type)
  | /-- Nothing is left to be done. -/
    done (value : α)
  | /-- An access is made, and its answer tells what is to be done next. -/
    access (access : Access) (next : access.Answer → Plan α)

/-- What comes of a plan. -/
structure Course (σ φ α : Type) where
  /-- The value of the plan, or the failure of its last access. -/
  answer : Except φ α
  transfers : List Transfer
  bus : σ

/-- What comes of a plan when some transfers have been made before. -/
def Course.after (course : Course σ φ α) (made : List Transfer) : Course σ φ α :=
  { course with transfers := made ++ course.transfers }

theorem Course.after_after (course : Course σ φ α) (first second : List Transfer) :
    (course.after second).after first = course.after (first ++ second) := by
  simp [after]

namespace Plan

/-- A plan that is followed by another. -/
def bind : Plan α → (α → Plan β) → Plan β
  | done value, next => next value
  | access first rest, next => access first fun answer ↦ (rest answer).bind next

instance : Monad Plan where
  pure := done
  bind := bind

theorem access_bind (first : Access) (rest : first.Answer → Plan α) (next : α → Plan β) :
    access first rest >>= next = access first fun answer ↦ rest answer >>= next := rfl

/-- Reads so many bytes behind a header. -/
def read (header : Bytes) (length : Nat) : Plan (Vector UInt8 length) :=
  access (.read header length) done

/-- Writes data behind a header. -/
def write (header data : Bytes) : Plan Unit := access (.write header data) done

section

variable [Bus σ φ]

/-- Makes the accesses of a plan, up to the first that fails. -/
def carryOut : Plan α → σ → Course σ φ α
  | done value, bus => ⟨.ok value, [], bus⟩
  | access first next, bus =>
    match (transact first bus).1 with
    | .ok answer => ((next answer).carryOut (transact first bus).2).after [⟨first, false⟩]
    | .error failure => ⟨.error failure, [⟨first, true⟩], (transact first bus).2⟩

section

variable {first : Access} {rest : first.Answer → Plan α} {bus : σ}

theorem carryOut_access_of_ok {answer : first.Answer} (h : (transact first bus).1 = .ok answer) :
    (access first rest).carryOut bus =
      ((rest answer).carryOut (transact first bus).2).after [⟨first, false⟩] := by
  rw [carryOut, h]

theorem carryOut_access_of_error {failure : φ} (h : (transact first bus).1 = .error failure) :
    (access first rest).carryOut bus =
      ⟨.error failure, [⟨first, true⟩], (transact first bus).2⟩ := by
  rw [carryOut, h]

end

variable {plan : Plan α} {next : α → Plan β} {bus : σ}

/-- A plan that succeeds is followed by the other. -/
theorem carryOut_bind_of_ok {value : α} (h : (plan.carryOut bus).answer = .ok value) :
    (plan >>= next).carryOut bus =
      ((next value).carryOut (plan.carryOut bus).bus).after (plan.carryOut bus).transfers := by
  induction plan generalizing bus with
  | done => cases h; rfl
  | access first rest ih =>
      cases hfirst : (transact first bus).1 with
      | error failure =>
          rw [carryOut_access_of_error hfirst] at h
          cases h
      | ok answer =>
          rw [carryOut_access_of_ok hfirst] at h
          rw [access_bind, carryOut_access_of_ok hfirst, carryOut_access_of_ok hfirst, ih answer h,
            Course.after_after]
          rfl

/-- One that fails is not. -/
theorem carryOut_bind_of_error {failure : φ} (h : (plan.carryOut bus).answer = .error failure) :
    (plan >>= next).carryOut bus =
      ⟨.error failure, (plan.carryOut bus).transfers, (plan.carryOut bus).bus⟩ := by
  induction plan generalizing bus with
  | done => cases h
  | access first rest ih =>
      cases hfirst : (transact first bus).1 with
      | error other =>
          rw [carryOut_access_of_error hfirst] at h ⊢
          cases h
          exact carryOut_access_of_error hfirst
      | ok answer =>
          rw [carryOut_access_of_ok hfirst] at h
          rw [access_bind, carryOut_access_of_ok hfirst, carryOut_access_of_ok hfirst, ih answer h]
          rfl

/-- All accesses of a plan that succeeds were answered. -/
theorem answered_of_ok {plan : Plan α} {bus : σ} {value : α}
    (h : (plan.carryOut bus).answer = .ok value) :
    ∀ transfer ∈ (plan.carryOut bus).transfers, transfer.failed = false := by
  induction plan generalizing bus with
  | done => exact nofun
  | access first rest ih =>
      cases hfirst : (transact first bus).1 with
      | error failure =>
          rw [carryOut_access_of_error hfirst] at h
          cases h
      | ok answer =>
          rw [carryOut_access_of_ok hfirst] at h ⊢
          exact List.forall_mem_cons.mpr ⟨rfl, ih answer h⟩

/-- If a plan fails, its last access did, and all accesses before it were answered. -/
theorem failed_of_error {plan : Plan α} {bus : σ} {failure : φ}
    (h : (plan.carryOut bus).answer = .error failure) :
    ∃ made access, (plan.carryOut bus).transfers = made ++ [⟨access, true⟩] ∧
      ∀ transfer ∈ made, transfer.failed = false := by
  induction plan generalizing bus with
  | done => cases h
  | access first rest ih =>
      cases hfirst : (transact first bus).1 with
      | error other =>
          rw [carryOut_access_of_error hfirst]
          exact ⟨[], first, rfl, nofun⟩
      | ok answer =>
          rw [carryOut_access_of_ok hfirst] at h ⊢
          obtain ⟨made, access, hmade, hanswered⟩ := ih answer h
          exact ⟨⟨first, false⟩ :: made, access, congrArg (_ :: ·) hmade,
            List.forall_mem_cons.mpr ⟨rfl, hanswered⟩⟩

end

end Plan

end Bus

namespace Transceiver

open Bus (Plan)

/-! ## Plans of the driver -/

section

variable [Bus σ φ]

/-- Makes the accesses of a plan. -/
def conduct : Plan α → Action σ φ α
  | .done value => pure value
  | .access first next => do conduct (next (← transfer first))

/-- Following one plan with another is following what the driver does by what it does then. -/
theorem conduct_bind (plan : Plan α) (next : α → Plan β) :
    (conduct (plan >>= next) : Action σ φ β) =
      conduct plan >>= fun value ↦ conduct (next value) := by
  induction plan with
  | done => rfl
  | access first rest ih =>
      rw [Plan.access_bind]
      simp only [conduct, ih, bind_assoc]

/-- How a session ends that carries out a plan. -/
def Session.conducted (session : Session σ) (course : Bus.Course σ φ α) :
    EStateM.Result (Fault φ) (Session σ) α :=
  let later : Session σ :=
    ⟨{ session.driver with bus := course.bus }, session.transfers ++ course.transfers⟩
  match course.answer with
  | .ok value => .ok value later
  | .error failure => .error (.bus failure) later

theorem Session.after_eq (session : Session σ) (access : Bus.Access) :
    session.after access =
      ⟨{ session.driver with bus := (Bus.transact access session.driver.bus).2 },
        session.transfers ++ [⟨access, !(Bus.transact access session.driver.bus).1.isOk⟩]⟩ :=
  rfl

theorem transfer_of_ok {access : Bus.Access} {session : Session σ} {answer : access.Answer}
    (h : (Bus.transact access session.driver.bus).1 = .ok answer) :
    (transfer access : Action σ φ access.Answer) session =
      .ok answer ⟨{ session.driver with bus := (Bus.transact access session.driver.bus).2 },
        session.transfers ++ [⟨access, false⟩]⟩ := by
  rw [transfer, Session.after_eq, h]
  rfl

theorem transfer_of_error {access : Bus.Access} {session : Session σ} {failure : φ}
    (h : (Bus.transact access session.driver.bus).1 = .error failure) :
    (transfer access : Action σ φ access.Answer) session =
      .error (.bus failure) ⟨{ session.driver with
        bus := (Bus.transact access session.driver.bus).2 },
        session.transfers ++ [⟨access, true⟩]⟩ := by
  rw [transfer, Session.after_eq, h]
  rfl

/-- What the driver makes of a plan is what comes of it on the bus. -/
theorem conduct_eq (plan : Plan α) (session : Session σ) :
    (conduct plan : Action σ φ α) session =
      session.conducted (plan.carryOut session.driver.bus) := by
  induction plan generalizing session with
  | done value =>
      rw [Plan.carryOut, Session.conducted, List.append_nil]
      rfl
  | access first next ih =>
      change EStateM.bind (transfer first) _ session = _
      cases hfirst : (Bus.transact first session.driver.bus).1 with
      | error failure =>
          rw [EStateM.bind, transfer_of_error hfirst, Plan.carryOut_access_of_error hfirst]
          rfl
      | ok answer =>
          rw [EStateM.bind, transfer_of_ok hfirst, Plan.carryOut_access_of_ok hfirst]
          dsimp only
          rw [ih, Session.conducted, Session.conducted, Bus.Course.after, List.append_assoc]

/-! ## Accesses to registers -/

theorem read_eq (register : Register) (length : Nat) :
    (read register length : Action σ φ _) = conduct (.read (header false register) length) :=
  (bind_pure (transfer _)).symm

theorem write_eq (register : Register) (data : Bytes) :
    (write register data : Action σ φ Unit) = conduct (.write (header true register) data) :=
  (bind_pure (transfer _)).symm

section

variable {length : Nat} (h : length ≤ 8)

include h

/-- Bytes of which a word has room are read as a number. -/
theorem readValue_eq (register : Register) :
    (readValue register length : Action σ φ UInt64) = do
      let bytes ← conduct (.read (header false register) length)
      return UInt64.ofNat (Wire.ofLittleEndian bytes.toList) := by
  rw [readValue, if_neg (Nat.not_lt.mpr h), read_eq]

/-- So many bytes of a number are written. -/
theorem writeValue_eq (register : Register) (value : UInt64) :
    (writeValue register value length : Action σ φ Unit) =
      conduct (.write (header true register) (Wire.littleEndian length value.toNat)) := by
  rw [writeValue, if_neg (Nat.not_lt.mpr h), write_eq]

end

/-- A time register is read as a number. -/
theorem readValue_time (register : Register) :
    (readValue register timeLength : Action σ φ UInt64) = do
      let bytes ← conduct (.read (header false register) timeLength)
      return UInt64.ofNat (Wire.ofLittleEndian bytes.toList) :=
  readValue_eq (by decide) register

/-- A number is written to a time register. -/
theorem writeValue_time (register : Register) (value : UInt64) :
    (writeValue register value timeLength : Action σ φ Unit) =
      conduct (.write (header true register) (Wire.littleEndian timeLength value.toNat)) :=
  writeValue_eq (by decide) register value

/-! ## Requests -/

/-- The plan of the request that sets the length of the next frame: the control register is read
and written back. -/
def configuring (length : UInt16) (ranging : Bool) : Plan Unit := do
  let control ← Plan.read [0x08] 5
  let value := UInt64.ofNat (Wire.ofLittleEndian control.toList)
  Plan.write [0x88] (Wire.littleEndian 5 (withFrame value length ranging).toNat)

theorem configureTransmit_eq (length : UInt16) (ranging : Bool) :
    (configureTransmit length ranging : Action σ φ Unit) =
      conduct (configuring length ranging) := by
  simp only [configureTransmit, configuring, readValue_time, writeValue_time, conduct_bind,
    bind_assoc, pure_bind]
  rfl

/-- The plan of the request for the instant is to write the five bytes that it keeps. -/
theorem setDelayedStart_eq (instant : UInt64) :
    (setDelayedStart instant : Action σ φ Unit) =
      conduct (.write [0x8a] (Wire.littleEndian 5 instant.toNat)) := by
  have hticks : (instant &&& timeMax).toNat = instant.toNat % 256 ^ 5 :=
    Instant.toNat_truncate instant
  rw [setDelayedStart, writeValue_time, hticks, timeLength, Wire.littleEndian_mod]
  rfl

/-- The status tells that a delayed start cannot be met: its bit 27 or its bit 34 is set. -/
def startFailed (status : Vector UInt8 5) : Bool :=
  (Wire.ofLittleEndian status.toList).testBit 27 || (Wire.ofLittleEndian status.toList).testBit 34

/-- The plan of the request to start: the status is read right after the command, and if the start
has failed the transceiver is switched off and the flags that say so are cleared. -/
def starting (wait : Bool) : Plan StartOutcome := do
  Plan.write [0x8d] [if wait then 0x86 else 0x06]
  let status ← Plan.read [0x0f] 5
  if startFailed status then
    Plan.write [0x8d] [0x40]
    Plan.write [0x8f] [0, 0, 0, 8, 4]
    return .rejected
  return .started

omit [Bus σ φ] in
/-- The bytes of a status stand for a word that has all of its bits. -/
theorem toNat_status (status : Vector UInt8 5) :
    (UInt64.ofNat (Wire.ofLittleEndian status.toList)).toNat =
      Wire.ofLittleEndian status.toList := by
  have hlt := Wire.ofLittleEndian_lt status.toList
  rw [Vector.length_toList] at hlt
  rw [UInt64.toNat_ofNat', Nat.mod_eq_of_lt (by omega)]

omit [Bus σ φ] in
theorem startFailed_eq_false_iff (status : Vector UInt8 5) :
    UInt64.ofNat (Wire.ofLittleEndian status.toList) &&& statusStartFailed = 0 ↔
      startFailed status = false := by
  have hflags : statusStartFailed.toNat = 2 ^ 27 ||| 2 ^ 34 := by decide
  rw [← UInt64.toNat_inj, UInt64.toNat_and, toNat_status, hflags, Nat.and_or_distrib_left,
    Nat.and_two_pow, Nat.and_two_pow]
  unfold startFailed
  generalize (Wire.ofLittleEndian status.toList).testBit 27 = warning
  generalize (Wire.ofLittleEndian status.toList).testBit 34 = unpowered
  cases warning <;> cases unpowered <;> decide

theorem startTransmission_eq (session : Session σ) :
    (startTransmission : Action σ φ StartOutcome) session =
      conduct (starting session.driver.waitsForResponse) session := by
  let start := controlStart ||| controlDelay
  have hcontrol : header true .systemControl = [0x8d] := rfl
  have hstatus : header false .systemStatus = [0x0f] := rfl
  have hflags : Wire.littleEndian timeLength statusStartFailed.toNat = [0, 0, 0, 8, 4] := by decide
  have hbody (wait : Bool) : (do
      write .systemControl [if wait then start ||| controlWait else start]
      let status ← readValue .systemStatus timeLength
      if status &&& statusStartFailed = 0 then
        return .started
      write .systemControl [controlOff]
      writeValue .systemStatus statusStartFailed timeLength
      return .rejected : Action σ φ StartOutcome) = conduct (starting wait) := by
    have hcommand : (if wait then start ||| controlWait else start) =
        if wait then 0x86 else 0x06 := by
      revert wait
      decide
    simp only [starting, hcommand, write_eq, hcontrol, readValue_time, hstatus, writeValue_time,
      conduct_bind, bind_assoc, pure_bind]
    refine bind_congr (m := Action σ φ) fun _ ↦ bind_congr (m := Action σ φ) fun status ↦ ?_
    split
    · next h =>
      rw [(startFailed_eq_false_iff status).mp h]
      rfl
    · next h =>
      rw [Bool.eq_true_of_not_eq_false (mt (startFailed_eq_false_iff status).mpr h), if_pos rfl,
        hflags]
      simp only [conduct_bind]
      rfl
  exact congrFun (hbody session.driver.waitsForResponse) session

/-- An action with a plan comes to what comes of the plan. -/
theorem run_eq {action : Action σ φ α} {plan : Plan α} {driver : Transceiver σ}
    (h : ∀ session : Session σ, session.driver = driver → action session = conduct plan session) :
    let course : Bus.Course σ φ α := plan.carryOut driver.bus
    run action driver =
      (course.answer.mapError .bus, course.transfers, { driver with bus := course.bus }) := by
  have haction := (h ⟨driver, []⟩ rfl).trans (conduct_eq plan ⟨driver, []⟩)
  rcases hcourse : plan.carryOut driver.bus with ⟨failure | value, transfers, bus⟩ <;>
  · rw [hcourse] at haction
    rw [run, EStateM.run, haction]
    rfl

/-- A request with a plan is replied to with what comes of the plan. -/
theorem perform_eq {call : Call} {plan : Plan call.Answer} {driver : Transceiver σ}
    (h : ∀ session : Session σ, session.driver = driver →
      (request call : Action σ φ call.Answer) session = conduct plan session) :
    let course : Bus.Course σ φ call.Answer := plan.carryOut driver.bus
    perform call driver =
      (⟨course.answer.mapError .bus, course.transfers⟩, { driver with bus := course.bus }) := by
  rw [perform, run_eq h]

end

end Transceiver

end ClockCalibration
