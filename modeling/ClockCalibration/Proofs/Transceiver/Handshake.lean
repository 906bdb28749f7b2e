import ClockCalibration.Proofs.Transceiver.Latch

/-!
# Starting and polling

Two requests hang on flags of the status register.  A start is commanded first, and the flags that
the register then tells decide whether it holds or is taken back; a poll reads the flags first, and
is over once the flag that the frame was sent is set.  In both cases the driver clears the flags
that it went by, and writes to the register in no other.

As flags are cleared by writing ones, what is written decides which events get lost.  The request
to start clears the two flags that reject it, and a poll the four of the transmission in its lowest
byte, so those of a reception stay.
-/

namespace ClockCalibration

open Bus (Exchange Exchanged Plan Breaks Latched raisedDuring)

variable {σ φ α : Type}

namespace Transceiver

/-! ## Starting -/

/-- A start is commanded, and the status is told. -/
def asked (wait : Bool) (status : Vector UInt8 5) : List (Exchange φ) :=
  [⟨.write [0x8d] [if wait then 0x86 else 0x06], .ok ()⟩, ⟨.read [0x0f] 5, .ok status⟩]

/-- A start is taken back: the transceiver is switched off, and its flags are cleared. -/
def takenBack : List (Exchange φ) :=
  [⟨.write [0x8d] [0x40], .ok ()⟩, ⟨.write [0x8f] [0, 0, 0, 8, 4], .ok ()⟩]

/-- The accesses of a start that is taken back. -/
def startAccesses (wait : Bool) : List Bus.Access :=
  [.write [0x8d] [if wait then 0x86 else 0x06], .read [0x0f] 5, .write [0x8d] [0x40],
    .write [0x8f] [0, 0, 0, 8, 4]]

theorem starting_eq (wait : Bool) :
    starting wait =
      .access (.write [0x8d] [if wait then 0x86 else 0x06]) fun _ ↦
      .access (.read [0x0f] 5) fun status ↦
      if startFailed status then
        .access (.write [0x8d] [0x40]) fun _ ↦
        .access (.write [0x8f] [0, 0, 0, 8, 4]) fun _ ↦ .done .rejected
      else .done .started :=
  rfl

section

variable {exchanges : List (Exchange φ)} {wait : Bool}

/-- How a request to start can end. -/
theorem starting_cases {outcome : Except φ StartOutcome}
    (h : (starting wait).Path exchanges outcome) :
    (∃ status, startFailed status = true ∧ exchanges = asked wait status ++ takenBack ∧
      outcome = .ok .rejected) ∨
    (∃ status, startFailed status = false ∧ exchanges = asked wait status ∧
      outcome = .ok .started) ∨
    ∃ failure, outcome = .error failure ∧ exchanges.map (·.access) <+: startAccesses wait := by
  rw [starting_eq] at h
  cases h with
  | failed failure => exact .inr (.inr ⟨failure, rfl, _, rfl⟩)
  | answered told others =>
      cases others with
      | failed failure => exact .inr (.inr ⟨failure, rfl, _, rfl⟩)
      | answered status others =>
          dsimp only at others
          split at others
          · next hfailed =>
            cases others with
            | failed failure => exact .inr (.inr ⟨failure, rfl, _, rfl⟩)
            | answered off others =>
                cases others with
                | failed failure => exact .inr (.inr ⟨failure, rfl, _, rfl⟩)
                | answered cleared others =>
                    cases others
                    exact .inl ⟨status, hfailed, rfl, rfl⟩
          · next hheld =>
            cases others
            exact .inr (.inl ⟨status, Bool.eq_false_of_not_eq_true hheld, rfl, rfl⟩)

/-- A command to the transceiver spares the status register. -/
theorem spares_command (data : Bytes) : (⟨.write [0x8d] data, .ok ()⟩ : Exchange φ).Spares :=
  ⟨rfl, rfl⟩

/-- So does what is asked at first. -/
theorem spares_asked (status : Vector UInt8 5) :
    ∀ exchange ∈ (asked wait status : List (Exchange φ)), exchange.Spares :=
  List.forall_mem_cons.mpr ⟨spares_command _, List.forall_mem_singleton.mpr ⟨rfl, rfl⟩⟩

/-- All that is answered in a start that is taken back. -/
theorem answered_takenBack (status : Vector UInt8 5) :
    ∀ exchange ∈ (asked wait status ++ takenBack : List (Exchange φ)), exchange.failed = false := by
  rw [List.forall_mem_append]
  exact ⟨fun exchange hmem ↦ (spares_asked status exchange hmem).1,
    List.forall_mem_cons.mpr ⟨rfl, List.forall_mem_singleton.mpr rfl⟩⟩

variable {outcome : Except φ StartOutcome} (h : (starting wait).Path exchanges outcome)

include h

/-- A start is rejected if the status tells so, and everything is answered. -/
theorem starting_rejected_iff :
    outcome = .ok .rejected ↔
      ∃ status, startFailed status = true ∧ exchanges = asked wait status ++ takenBack := by
  rcases starting_cases h with ⟨status, hfailed, rfl, rfl⟩ | ⟨status, hheld, rfl, rfl⟩ |
    ⟨failure, rfl, -⟩
  · exact iff_of_true rfl ⟨status, hfailed, rfl⟩
  · exact iff_of_false nofun fun ⟨_, _, hsame⟩ ↦ by simp [asked, takenBack] at hsame
  · refine iff_of_false nofun ?_
    rintro ⟨status, -, rfl⟩
    exact Bus.not_breaks (answered_takenBack status) failure h.breaks_of_error

/-- It holds if the status does not, and the first two accesses are answered. -/
theorem starting_started_iff :
    outcome = .ok .started ↔
      ∃ status, startFailed status = false ∧ exchanges = asked wait status := by
  rcases starting_cases h with ⟨status, hfailed, rfl, rfl⟩ | ⟨status, hheld, rfl, rfl⟩ |
    ⟨failure, rfl, -⟩
  · exact iff_of_false nofun fun ⟨_, _, hsame⟩ ↦ by simp [asked, takenBack] at hsame
  · exact iff_of_true rfl ⟨status, hheld, rfl⟩
  · refine iff_of_false nofun ?_
    rintro ⟨status, -, rfl⟩
    exact Bus.not_breaks (fun exchange hmem ↦ (spares_asked status exchange hmem).1) failure
      h.breaks_of_error

/-- Whatever happens, the accesses are the first of these four. -/
theorem starting_accesses_prefix : exchanges.map (·.access) <+: startAccesses wait := by
  rcases starting_cases h with ⟨status, -, rfl, -⟩ | ⟨status, -, rfl, -⟩ | ⟨failure, -, hprefix⟩
  · exact ⟨[], rfl⟩
  · exact ⟨_, rfl⟩
  · exact hprefix

end

/-! ## Polling -/

/-- The status tells that the frame was sent: its bit 7 is set. -/
def frameSent (status : Vector UInt8 5) : Bool :=
  (Wire.ofLittleEndian status.toList).testBit 7

/-- The plan of a poll: the status is read, and if the frame was sent the flags of its transmission
are cleared. -/
def polling : Plan Completion := do
  let status ← Plan.read [0x0f] 5
  if frameSent status then
    Plan.write [0x8f] [0xf0]
    return .done
  return .wouldBlock

theorem polling_eq :
    polling =
      .access (.read [0x0f] 5) fun status ↦
      if frameSent status then .access (.write [0x8f] [0xf0]) fun _ ↦ .done .done
      else .done .wouldBlock :=
  rfl

theorem frameSent_eq_false_iff (status : Vector UInt8 5) :
    UInt64.ofNat (Wire.ofLittleEndian status.toList) &&& statusFrameSent = 0 ↔
      frameSent status = false := by
  have hflag : statusFrameSent.toNat = 2 ^ 7 := by decide
  rw [← UInt64.toNat_inj, UInt64.toNat_and, toNat_status, hflag, Nat.and_two_pow, frameSent]
  generalize (Wire.ofLittleEndian status.toList).testBit 7 = sent
  cases sent <;> decide

theorem pollTransmission_eq [Bus σ φ] :
    (pollTransmission : Action σ φ Completion) = conduct polling := by
  have hstatus : header false .systemStatus = [0x0f] := rfl
  have hclear : header true .systemStatus = [0x8f] := rfl
  simp only [pollTransmission, polling, readValue_time, write_eq, hstatus, hclear, conduct_bind,
    bind_assoc, pure_bind]
  refine bind_congr (m := Action σ φ) fun status ↦ ?_
  split
  · next h =>
    rw [(frameSent_eq_false_iff status).mp h]
    rfl
  · next h =>
    rw [Bool.eq_true_of_not_eq_false (mt (frameSent_eq_false_iff status).mpr h), if_pos rfl]
    simp only [conduct_bind]
    rfl

/-- How a poll can end. -/
theorem polling_cases {exchanges : List (Exchange φ)} {outcome : Except φ Completion}
    (h : polling.Path exchanges outcome) :
    (∃ status, frameSent status = true ∧ outcome = .ok .done ∧
      exchanges = [⟨.read [0x0f] 5, .ok status⟩, ⟨.write [0x8f] [0xf0], .ok ()⟩]) ∨
    (∃ status, frameSent status = false ∧ outcome = .ok .wouldBlock ∧
      exchanges = [⟨.read [0x0f] 5, .ok status⟩]) ∨
    (∃ status failure, frameSent status = true ∧ outcome = .error failure ∧
      exchanges = [⟨.read [0x0f] 5, .ok status⟩, ⟨.write [0x8f] [0xf0], .error failure⟩]) ∨
    ∃ failure, outcome = .error failure ∧ exchanges = [⟨.read [0x0f] 5, .error failure⟩] := by
  rw [polling_eq] at h
  cases h with
  | failed failure => exact .inr (.inr (.inr ⟨failure, rfl, rfl⟩))
  | answered status others =>
      dsimp only at others
      split at others
      · next hsent =>
        cases others with
        | failed failure => exact .inr (.inr (.inl ⟨status, failure, hsent, rfl, rfl⟩))
        | answered cleared others =>
            cases others
            exact .inl ⟨status, hsent, rfl, rfl⟩
      · next hwaits =>
        cases others
        exact .inr (.inl ⟨status, Bool.eq_false_of_not_eq_true hwaits, rfl, rfl⟩)

section

variable {exchanges : List (Exchange φ)} {outcome : Except φ Completion}
  (h : polling.Path exchanges outcome)

include h

/-- A poll is over if the status tells so, and the flags are cleared. -/
theorem polling_done_iff :
    outcome = .ok .done ↔ ∃ status, frameSent status = true ∧
      exchanges = [⟨.read [0x0f] 5, .ok status⟩, ⟨.write [0x8f] [0xf0], .ok ()⟩] := by
  rcases polling_cases h with ⟨status, hsent, rfl, rfl⟩ | ⟨status, hwaits, rfl, rfl⟩ |
    ⟨status, failure, hsent, rfl, rfl⟩ | ⟨failure, rfl, rfl⟩
  · exact iff_of_true rfl ⟨status, hsent, rfl⟩
  all_goals exact iff_of_false nofun fun ⟨_, _, hsame⟩ ↦ by simp at hsame

/-- It has to wait if the status does not. -/
theorem polling_wouldBlock_iff :
    outcome = .ok .wouldBlock ↔ ∃ status, frameSent status = false ∧
      exchanges = [⟨.read [0x0f] 5, .ok status⟩] := by
  rcases polling_cases h with ⟨status, hsent, rfl, rfl⟩ | ⟨status, hwaits, rfl, rfl⟩ |
    ⟨status, failure, hsent, rfl, rfl⟩ | ⟨failure, rfl, rfl⟩
  case inr.inl => exact iff_of_true rfl ⟨status, hwaits, rfl⟩
  all_goals exact iff_of_false nofun fun ⟨_, _, hsame⟩ ↦ by simp at hsame

/-- The flags are to be cleared if the status tells that the frame was sent. -/
theorem polling_clears_iff :
    (∃ answer, ⟨.write [0x8f] [0xf0], answer⟩ ∈ exchanges) ↔
      ∃ status, frameSent status = true ∧ ⟨.read [0x0f] 5, .ok status⟩ ∈ exchanges := by
  rcases polling_cases h with ⟨status, hsent, rfl, rfl⟩ | ⟨status, hwaits, rfl, rfl⟩ |
    ⟨status, failure, hsent, rfl, rfl⟩ | ⟨failure, rfl, rfl⟩
  · exact iff_of_true ⟨.ok (), by simp⟩ ⟨status, hsent, by simp⟩
  · simp [hwaits]
  · exact iff_of_true ⟨.error failure, by simp⟩ ⟨status, hsent, by simp⟩
  · simp

end

/-! ## What becomes of the flags -/

section

variable [Bus σ φ] {driver : Transceiver σ}

theorem makes_starting (driver : Transceiver σ) :
    ∃ (exchanges : List (Exchange φ)) (outcome : Except φ StartOutcome),
      Makes .startTransmission driver exchanges ∧
      (starting driver.waitsForResponse).Path exchanges outcome ∧
      (perform .startTransmission driver).1.answer = outcome.mapError .bus :=
  makes_of_plan .startTransmission _ driver fun session hsession ↦
    hsession ▸ startTransmission_eq session

theorem makes_polling (driver : Transceiver σ) :
    ∃ (exchanges : List (Exchange φ)) (outcome : Except φ Completion),
      Makes .pollTransmission driver exchanges ∧ polling.Path exchanges outcome ∧
      (perform .pollTransmission driver).1.answer = outcome.mapError .bus :=
  makes_of_plan .pollTransmission _ driver fun session _ ↦ congrFun pollTransmission_eq session

/-- What takes place over the bus when a start is rejected. -/
theorem exchanged_of_rejected (h : (perform .startTransmission driver).1.answer = .ok .rejected) :
    ∃ status, startFailed status = true ∧
      Exchanged driver.bus (asked driver.waitsForResponse status ++ takenBack : List (Exchange φ))
        (perform .startTransmission driver).2.bus := by
  obtain ⟨exchanges, outcome, hmakes, hpath, hanswer⟩ := makes_starting driver
  rw [hanswer, mapError_eq_ok_iff, starting_rejected_iff hpath] at h
  obtain ⟨status, hfailed, rfl⟩ := h
  exact ⟨status, hfailed, hmakes.1⟩

variable {flags : σ → BitVec 40} {raised : Bus.Access → σ → BitVec 40}

/-- A start that is rejected clears the flags that reject it. -/
theorem flags_of_rejected (latched : Latched flags raised)
    (h : (perform .startTransmission driver).1.answer = .ok .rejected) (i : Fin 40) :
    (flags (perform .startTransmission driver).2.bus).getLsbD i =
      ((flags driver.bus ||| raisedDuring raised driver.bus
        (startAccesses driver.waitsForResponse)).getLsbD i && !decide (i = 27 ∨ i = 34)) := by
  obtain ⟨status, -, hexchanged⟩ := exchanged_of_rejected h
  have hmask (i : Fin 40) : (BitVec.ofNat 40 (Wire.ofLittleEndian [0, 0, 0, 8, 4])).getLsbD i =
      decide (i = 27 ∨ i = 34) := by
    revert i
    decide
  have haccesses : startAccesses driver.waitsForResponse =
      ((asked driver.waitsForResponse status ++ [⟨.write [0x8d] [0x40], .ok ()⟩] :
        List (Exchange φ)).map (·.access) ++ [.write [0x8f] [0, 0, 0, 8, 4]]) := rfl
  rw [haccesses, ← hmask]
  exact latched.cleared_last _ hexchanged (List.forall_mem_append.mpr
    ⟨spares_asked status, List.forall_mem_singleton.mpr (spares_command _)⟩) i

/-- A start is rejected by flags that were set, or that are raised before the status is told. -/
theorem exists_flag_of_rejected (latched : Latched flags raised)
    (h : (perform .startTransmission driver).1.answer = .ok .rejected) :
    ∃ i ∈ [27, 34], (flags driver.bus ||| raisedDuring raised driver.bus
      ((startAccesses driver.waitsForResponse).take 2)).getLsbD i = true := by
  obtain ⟨status, hfailed, hexchanged⟩ := exchanged_of_rejected h
  obtain ⟨middle, hasked, -⟩ := hexchanged.exists_of_append
  have htold := latched.told_last
    [⟨.write [0x8d] [if driver.waitsForResponse then 0x86 else 0x06], .ok ()⟩] hasked
    (List.forall_mem_singleton.mpr (spares_command _))
  change _ = flags driver.bus ||| raisedDuring raised driver.bus
    ((startAccesses driver.waitsForResponse).take 2) at htold
  rw [← htold]
  rcases Bool.or_eq_true_iff.mp hfailed with warning | unpowered
  · exact ⟨27, by simp, by rw [BitVec.getLsbD_ofNat, warning]; rfl⟩
  · exact ⟨34, by simp, by rw [BitVec.getLsbD_ofNat, unpowered]; rfl⟩

/-- A poll that is over clears the flags of the transmission. -/
theorem flags_of_done (latched : Latched flags raised)
    (h : (perform .pollTransmission driver).1.answer = .ok .done) (i : Fin 40) :
    (flags (perform .pollTransmission driver).2.bus).getLsbD i =
      ((flags driver.bus ||| raisedDuring raised driver.bus
        [.read [0x0f] 5, .write [0x8f] [0xf0]]).getLsbD i && !decide (4 ≤ i ∧ i ≤ 7)) := by
  obtain ⟨exchanges, outcome, hmakes, hpath, hanswer⟩ := makes_polling driver
  rw [hanswer, mapError_eq_ok_iff, polling_done_iff hpath] at h
  obtain ⟨status, -, rfl⟩ := h
  have hmask (i : Fin 40) : (BitVec.ofNat 40 (Wire.ofLittleEndian [0xf0])).getLsbD i =
      decide (4 ≤ i ∧ i ≤ 7) := by
    revert i
    decide
  rw [← hmask]
  exact latched.cleared_last [⟨.read [0x0f] 5, .ok status⟩] hmakes.1
    (List.forall_mem_singleton.mpr ⟨rfl, rfl⟩) i

/-- The flags that rejected a start do not reject another: if one is rejected after accesses that
spare the register, a flag has been raised since. -/
theorem raised_of_rejected_again (latched : Latched flags raised)
    (h : (perform .startTransmission driver).1.answer = .ok .rejected)
    {next : Transceiver σ} {between : List (Exchange φ)}
    (follows : Exchanged (perform .startTransmission driver).2.bus between next.bus)
    (spare : ∀ exchange ∈ between, exchange.Spares)
    (again : (perform .startTransmission next).1.answer = .ok .rejected) :
    ∃ i ∈ [27, 34], (raisedDuring raised (perform .startTransmission driver).2.bus
      (between.map (·.access) ++ (startAccesses next.waitsForResponse).take 2)).getLsbD i = true := by
  obtain ⟨i, hmem, hset⟩ := exists_flag_of_rejected latched again
  rw [latched.spared follows spare, BitVec.getLsbD_or] at hset
  refine ⟨i, hmem, (Bool.or_eq_true_iff.mp hset).resolve_left ?_⟩
  rw [Bool.not_eq_true]
  rcases List.mem_cons.mp hmem with rfl | hlast
  · exact (flags_of_rejected latched h 27).trans (Bool.and_false _)
  · rw [List.mem_singleton.mp hlast]
    exact (flags_of_rejected latched h 34).trans (Bool.and_false _)

end

/-- **The handshake with the transceiver.**  A request to start is rejected exactly if the status
that is read has its bit 27 or 34 set and all four accesses are answered, and it holds exactly if the
status has neither and both accesses are answered; otherwise it fails with the first access that
does, which is the last one.  A poll writes to the status register exactly if the status that it
read has bit 7 set, has to wait exactly if that is clear, and is over exactly if the write is
answered as well; otherwise it fails likewise.

Behind a bus that latches the flags of the status register, a start that is rejected clears flags 27
and 34 and no others, and a poll that is over flags 4 to 7 and no others.  So if a start is rejected
after another, with only accesses in between that spare the register, one of the flags 27 and 34 has
been raised since. -/
theorem handshake [Bus σ φ] (driver : Transceiver σ) :
    let start : Reply (Fault φ) .startTransmission × Transceiver σ :=
      perform .startTransmission driver
    let poll : Reply (Fault φ) .pollTransmission × Transceiver σ := perform .pollTransmission driver
    let wait := driver.waitsForResponse
    (∃ exchanges : List (Exchange φ), Makes .startTransmission driver exchanges ∧
      exchanges.map (·.access) <+: startAccesses wait ∧
      (start.1.answer = .ok .rejected ↔ ∃ status, startFailed status = true ∧
        exchanges = asked wait status ++ takenBack) ∧
      (start.1.answer = .ok .started ↔ ∃ status, startFailed status = false ∧
        exchanges = asked wait status) ∧
      ∀ fault, start.1.answer = .error fault ↔
        ∃ failure, fault = .bus failure ∧ Breaks exchanges failure) ∧
    (∃ exchanges : List (Exchange φ), Makes .pollTransmission driver exchanges ∧
      ((∃ answer, ⟨.write [0x8f] [0xf0], answer⟩ ∈ exchanges) ↔
        ∃ status, frameSent status = true ∧ ⟨.read [0x0f] 5, .ok status⟩ ∈ exchanges) ∧
      (poll.1.answer = .ok .wouldBlock ↔ ∃ status, frameSent status = false ∧
        exchanges = [⟨.read [0x0f] 5, .ok status⟩]) ∧
      (poll.1.answer = .ok .done ↔ ∃ status, frameSent status = true ∧
        exchanges = [⟨.read [0x0f] 5, .ok status⟩, ⟨.write [0x8f] [0xf0], .ok ()⟩]) ∧
      ∀ fault, poll.1.answer = .error fault ↔
        ∃ failure, fault = .bus failure ∧ Breaks exchanges failure) ∧
    ∀ (flags : σ → BitVec 40) (raised : Bus.Access → σ → BitVec 40), Latched flags raised →
      (start.1.answer = .ok .rejected →
        (∀ i : Fin 40, (flags start.2.bus).getLsbD i =
          ((flags driver.bus ||| raisedDuring raised driver.bus (startAccesses wait)).getLsbD i &&
            !decide (i = 27 ∨ i = 34))) ∧
        ∀ (between : List (Exchange φ)) (next : Transceiver σ),
          Exchanged start.2.bus between next.bus → (∀ exchange ∈ between, exchange.Spares) →
          (perform .startTransmission next).1.answer = .ok .rejected →
          ∃ i ∈ [27, 34], (raisedDuring raised start.2.bus (between.map (·.access) ++
            (startAccesses next.waitsForResponse).take 2)).getLsbD i = true) ∧
      (poll.1.answer = .ok .done → ∀ i : Fin 40, (flags poll.2.bus).getLsbD i =
        ((flags driver.bus ||| raisedDuring raised driver.bus
          [.read [0x0f] 5, .write [0x8f] [0xf0]]).getLsbD i && !decide (4 ≤ i ∧ i ≤ 7))) := by
  intro start poll wait
  refine ⟨?_, ?_, fun flags raised latched ↦ ⟨fun rejected ↦
    ⟨flags_of_rejected latched rejected, fun _ _ follows spare again ↦
      raised_of_rejected_again latched rejected follows spare again⟩, flags_of_done latched⟩⟩
  · obtain ⟨exchanges, outcome, hmakes, hpath, hanswer⟩ := makes_starting driver
    change start.1.answer = _ at hanswer
    refine ⟨exchanges, hmakes, starting_accesses_prefix hpath, ?_⟩
    rw [hanswer, mapError_eq_ok_iff, mapError_eq_ok_iff]
    exact ⟨starting_rejected_iff hpath, starting_started_iff hpath,
      fun _ ↦ mapError_eq_error_iff hpath⟩
  · obtain ⟨exchanges, outcome, hmakes, hpath, hanswer⟩ := makes_polling driver
    change poll.1.answer = _ at hanswer
    refine ⟨exchanges, hmakes, polling_clears_iff hpath, ?_⟩
    rw [hanswer, mapError_eq_ok_iff, mapError_eq_ok_iff]
    exact ⟨polling_wouldBlock_iff hpath, polling_done_iff hpath,
      fun _ ↦ mapError_eq_error_iff hpath⟩

/-- A frame was received (flag 13) and one was sent (flag 7).  A start is rejected because flag 27 is
raised before the status is told; afterwards the first two are still set and the next start is not
rejected.  A poll instead clears flag 7. -/
theorem handshake_of_late_start :
    let driver : Transceiver Bus.Latch :=
      { bus := { flags := 0x2080, raises := [0, 0x8000000], reads := 2 } }
    let start : Reply (Fault Bus.Fault) .startTransmission × Transceiver Bus.Latch :=
      perform .startTransmission driver
    let poll : Reply (Fault Bus.Fault) .pollTransmission × Transceiver Bus.Latch :=
      perform .pollTransmission driver
    start.1.answer = .ok .rejected ∧
    (∀ i : Fin 40, start.2.bus.flags.getLsbD i = decide (i = 7 ∨ i = 13)) ∧
    (perform .startTransmission start.2).1.answer ≠ .ok .rejected ∧
    poll.1.answer = .ok .done ∧
    ∀ i : Fin 40, poll.2.bus.flags.getLsbD i = decide (i = 13 ∨ i = 27) := by
  intro driver start poll
  have hrejected : start.1.answer = .ok .rejected := by decide +kernel
  have hdone : poll.1.answer = .ok .done := by decide +kernel
  obtain ⟨-, -, hlatched⟩ := handshake driver
  obtain ⟨hstart, hpoll⟩ := hlatched Bus.Latch.flags Bus.Latch.raised Bus.Latch.latched
  obtain ⟨hflags, hagain⟩ := hstart hrejected
  refine ⟨hrejected, fun i ↦ (hflags i).trans ?_, fun again ↦ ?_, hdone,
    fun i ↦ (hpoll hdone i).trans ?_⟩
  · revert i
    decide +kernel
  · have hraised := hagain [] start.2 (.nil _) nofun again
    exact absurd hraised (by decide +kernel)
  · revert i
    decide +kernel

end Transceiver

end ClockCalibration
