import ClockCalibration.Bus.Scripted
import ClockCalibration.Proofs.Transceiver.Exchange

/-!
# Latched flags

The flags of the status register are latched.  The transceiver raises a flag when something happens
and leaves it set until a one is written to it.  What the driver sees of that depends on when the
flags are raised, so a register is `Latched` whatever the transceiver raises, and whenever: all that
is raised between two accesses is counted towards the later one.

Accesses that do not write to the register only add to its flags.  So after any number of them it
has the flags that were set and those that were raised meanwhile, and a write at the end clears of
these what it has ones for, up to its width.
-/

namespace ClockCalibration.Bus

variable {σ φ : Type}

/-! ## The status register -/

/-- Whether an access writes to the status register, whose index is in the low bits of the first
byte of the header. -/
def Access.writesStatus : Access → Bool
  | read _ _ => false
  | write header _ => header.head?.any fun byte ↦ byte &&& 0x3f == 0x0f

/-- An access is answered, and does not write to the status register. -/
def Exchange.Spares (exchange : Exchange φ) : Prop :=
  exchange.failed = false ∧ exchange.access.writesStatus = false

section

variable [Bus σ φ]

/-- Some flags are those of the status register behind a bus, given which flags are raised before
an access is answered. -/
structure Latched (flags : σ → BitVec 40) (raised : Access → σ → BitVec 40) : Prop where
  /-- The register tells all flags that are set. -/
  told : ∀ (bus : σ) (status : Vector UInt8 5),
    (transact (.read [0x0f] 5) bus).1 = .ok status →
    .ofNat 40 (Wire.ofLittleEndian status.toList) = flags bus ||| raised (.read [0x0f] 5) bus
  /-- A flag stays set unless the register is written to. -/
  kept : ∀ (access : Access) (bus : σ), (transact access bus).1.isOk = true →
    access.writesStatus = false →
    flags (transact access bus).2 = flags bus ||| raised access bus
  /-- Writing ones to the register clears their flags. -/
  cleared : ∀ (data : Bytes) (bus : σ), (transact (.write [0x8f] data) bus).1.isOk = true →
    flags (transact (.write [0x8f] data) bus).2 =
      (flags bus ||| raised (.write [0x8f] data) bus) &&& ~~~.ofNat 40 (Wire.ofLittleEndian data)

/-- The flags that are raised during some accesses. -/
def raisedDuring (raised : Access → σ → BitVec 40) : σ → List Access → BitVec 40
  | _, [] => 0#40
  | bus, access :: rest => raised access bus ||| raisedDuring raised (transact access bus).2 rest

variable {flags : σ → BitVec 40} {raised : Access → σ → BitVec 40}
variable {bus later : σ} {exchanges : List (Exchange φ)}

theorem raisedDuring_singleton (access : Access) :
    raisedDuring raised bus [access] = raised access bus :=
  BitVec.or_zero

/-- Exchanges that spare the register add the flags that are raised during them, by induction on
the exchanges; what comes after begins where they end. -/
theorem Latched.spared (latched : Latched flags raised) (h : Exchanged bus exchanges later)
    (spare : ∀ exchange ∈ exchanges, exchange.Spares) (rest : List Access) :
    flags later ||| raisedDuring raised later rest =
      flags bus ||| raisedDuring raised bus (exchanges.map (·.access) ++ rest) := by
  induction h with
  | nil => rfl
  | cons access others ih =>
      obtain ⟨⟨answered, reads⟩, spare⟩ := List.forall_mem_cons.mp spare
      rw [ih spare, latched.kept access _ (Bool.not_eq_eq_eq_not.mp answered) reads,
        BitVec.or_assoc]
      rfl

/-- What the register tells at last are the flags that were set or have been raised. -/
theorem Latched.told_last (latched : Latched flags raised) (exchanges : List (Exchange φ))
    {status : Vector UInt8 5}
    (h : Exchanged bus (exchanges ++ [⟨.read [0x0f] 5, .ok status⟩]) later)
    (spare : ∀ exchange ∈ exchanges, exchange.Spares) :
    .ofNat 40 (Wire.ofLittleEndian status.toList) =
      flags bus ||| raisedDuring raised bus (exchanges.map (·.access) ++ [.read [0x0f] 5]) := by
  obtain ⟨middle, hexchanged, hanswer, -⟩ := h.exists_of_concat
  rw [← latched.spared hexchanged spare, latched.told middle status hanswer.symm,
    raisedDuring_singleton]

/-- A write at last clears of those the ones that it has. -/
theorem Latched.cleared_last (latched : Latched flags raised) (exchanges : List (Exchange φ))
    {data : Bytes} (h : Exchanged bus (exchanges ++ [⟨.write [0x8f] data, .ok ()⟩]) later)
    (spare : ∀ exchange ∈ exchanges, exchange.Spares) (i : Fin 40) :
    (flags later).getLsbD i =
      ((flags bus ||| raisedDuring raised bus
        (exchanges.map (·.access) ++ [.write [0x8f] data])).getLsbD i &&
        !(BitVec.ofNat 40 (Wire.ofLittleEndian data)).getLsbD i) := by
  obtain ⟨middle, hexchanged, hanswer, rfl⟩ := h.exists_of_concat
  have answered : (transact (.write [0x8f] data) middle).1.isOk = true := by
    rw [← hanswer]
    rfl
  rw [← latched.spared hexchanged spare, latched.cleared data middle answered,
    raisedDuring_singleton, BitVec.getLsbD_and, BitVec.getLsbD_not, decide_eq_true i.isLt,
    Bool.true_and]

end

/-! ## A bus with a status register -/

/-- A bus with nothing but a status register behind it. -/
structure Latch where
  flags : BitVec 40
  /-- The flags that are raised before the next accesses. -/
  raises : List (BitVec 40) := []
  reads : Nat

namespace Latch

/-- The flags that are raised before an access. -/
def raised (_ : Access) (latch : Latch) : BitVec 40 := latch.raises.headD 0

/-- The flags that an access finds. -/
def found (access : Access) (latch : Latch) : BitVec 40 := latch.flags ||| raised access latch

/-- The flags that an access leaves. -/
def left : Access → Latch → BitVec 40
  | .read header length, latch => latch.found (.read header length)
  | .write header data, latch =>
    if header = [0x8f] then
      latch.found (.write header data) &&& ~~~.ofNat 40 (Wire.ofLittleEndian data)
    else latch.found (.write header data)

/-- Carries out an access.  Writes are never refused, and reads are of the flags. -/
def transact (access : Access) (latch : Latch) : Except Fault access.Answer × Latch :=
  let next (reads : Nat) : Latch :=
    { flags := latch.left access, raises := latch.raises.tail, reads }
  match access, latch.reads with
  | .read _ _, 0 => (.error .other, next 0)
  | .read header length, reads + 1 =>
    let bytes := Wire.littleEndian length (latch.found (.read header length)).toNat
    (.ok ⟨bytes.toArray, Wire.length_littleEndian length _⟩, next reads)
  | .write _ _, reads => (.ok (), next reads)

instance : Bus Latch Fault where
  transact := transact
  backlog latch := latch.reads
  backlog_lt_of_read := by
    rintro header length ⟨flags, raises, _ | reads⟩ answer h
    · cases h
    · exact Nat.lt_succ_self reads

theorem flags_transact (access : Access) (latch : Latch) :
    (Bus.transact access latch).2.flags = latch.left access := by
  obtain ⟨flags, raises, _ | reads⟩ := latch <;> cases access <;> rfl

/-- Its flags are latched. -/
theorem latched : Latched flags raised where
  told := by
    rintro ⟨flags, raises, _ | reads⟩ status h
    · cases h
    · cases h
      have hfits (word : BitVec 40) : word.toNat % 256 ^ 5 = word.toNat :=
        Nat.mod_eq_of_lt word.isLt
      change BitVec.ofNat 40 (Wire.ofLittleEndian (Wire.littleEndian 5 _)) = _
      rw [Wire.ofLittleEndian_littleEndian, hfits, BitVec.ofNat_toNat, BitVec.setWidth_eq]
      rfl
  kept := by
    intro access latch _ spare
    rw [flags_transact]
    cases access with
    | read header length => rfl
    | write header data =>
        refine if_neg ?_
        rintro rfl
        cases spare
  cleared := by
    intro data latch _
    rw [flags_transact, left, if_pos rfl]
    rfl

end Latch

end ClockCalibration.Bus
