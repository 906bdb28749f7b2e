import ClockCalibration.Proofs.Transceiver.Plan

/-!
# Exchanges over the bus

An exchange is an access together with what the bus answered it with.  The exchanges of a request
say all that can be said of it from the bus: `Bus.Exchanged` that the bus answered so, access by
access, and `Bus.Plan.Path` that the driver went on from each answer as its plan has it and ended
with some outcome.

A path ends at the first exchange that fails, and it fails only there.
-/

namespace ClockCalibration

variable {σ φ α : Type}

namespace Bus

/-- An access and its answer. -/
structure Exchange (φ : Type) where
  access : Access
  answer : Except φ access.Answer

namespace Exchange

/-- Whether an access failed. -/
def failed (exchange : Exchange φ) : Bool := !exchange.answer.isOk

/-- An exchange as an observer of the bus sees it. -/
def transfer (exchange : Exchange φ) : Transfer := ⟨exchange.access, exchange.failed⟩

end Exchange

/-- Some exchanges take place on a bus, one after the other. -/
inductive Exchanged [Bus σ φ] : σ → List (Exchange φ) → σ → Prop
  | /-- Nothing takes place. -/
    nil (bus : σ) : Exchanged bus [] bus
  | /-- An access is answered by the bus, and the others follow. -/
    cons {bus later : σ} {rest : List (Exchange φ)} (access : Access)
      (others : Exchanged (transact access bus).2 rest later) :
      Exchanged bus (⟨access, (transact access bus).1⟩ :: rest) later

section

variable [Bus σ φ] {bus later latest : σ} {first second : List (Exchange φ)}

/-- The first of some exchanges take place before the others do. -/
theorem Exchanged.exists_of_append (h : Exchanged bus (first ++ second) latest) :
    ∃ later, Exchanged bus first later ∧ Exchanged later second latest := by
  induction first generalizing bus with
  | nil => exact ⟨bus, .nil bus, h⟩
  | cons exchange first ih =>
      cases h with
      | cons access others =>
          obtain ⟨later, hfirst, hsecond⟩ := ih others
          exact ⟨later, .cons access hfirst, hsecond⟩

/-- The last of some exchanges is with the bus that the others left. -/
theorem Exchanged.exists_of_concat {access : Access} {answer : Except φ access.Answer}
    (h : Exchanged bus (first ++ [⟨access, answer⟩]) latest) :
    ∃ later, Exchanged bus first later ∧ answer = (transact access later).1 ∧
      latest = (transact access later).2 := by
  obtain ⟨later, hfirst, hlast⟩ := h.exists_of_append
  cases hlast with
  | cons _ others =>
      cases others
      exact ⟨later, hfirst, rfl, rfl⟩

end

/-- Exchanges break off with a failure: it is that of the last, and all before it were answered. -/
def Breaks (exchanges : List (Exchange φ)) (failure : φ) : Prop :=
  ∃ made access, exchanges = made ++ [⟨access, .error failure⟩] ∧
    ∀ exchange ∈ made, exchange.failed = false

theorem Breaks.cons {exchanges : List (Exchange φ)} {failure : φ} (h : Breaks exchanges failure)
    {exchange : Exchange φ} (answered : exchange.failed = false) :
    Breaks (exchange :: exchanges) failure := by
  obtain ⟨made, access, rfl, hmade⟩ := h
  exact ⟨exchange :: made, access, rfl, List.forall_mem_cons.mpr ⟨answered, hmade⟩⟩

/-- Exchanges that are all answered do not break off. -/
theorem not_breaks {exchanges : List (Exchange φ)}
    (answered : ∀ exchange ∈ exchanges, exchange.failed = false) (failure : φ) :
    ¬ Breaks exchanges failure := by
  rintro ⟨made, access, rfl, -⟩
  exact absurd (answered _ (List.mem_append_right made (List.mem_singleton_self _))) nofun

/-- They break off with one failure. -/
theorem Breaks.unique {exchanges : List (Exchange φ)} {first second : φ}
    (h : Breaks exchanges first) (h' : Breaks exchanges second) : first = second := by
  obtain ⟨made, access, rfl, -⟩ := h
  obtain ⟨made', access', hsame, -⟩ := h'
  have hlast := (List.append_inj' hsame rfl).2
  cases hlast
  rfl

namespace Plan

/-- By way of some exchanges a plan comes to an outcome. -/
inductive Path : Plan α → List (Exchange φ) → Except φ α → Prop
  | /-- Nothing is left to be done. -/
    done (value : α) : Path (.done value) [] (.ok value)
  | /-- An answer tells how to go on. -/
    answered {first : Access} {next : first.Answer → Plan α} {rest : List (Exchange φ)}
      {outcome : Except φ α} (answer : first.Answer) (others : Path (next answer) rest outcome) :
      Path (.access first next) (⟨first, .ok answer⟩ :: rest) outcome
  | /-- A failure ends the plan. -/
    failed {first : Access} {next : first.Answer → Plan α} (failure : φ) :
      Path (.access first next) [⟨first, .error failure⟩] (.error failure)

section

variable {plan : Plan α} {exchanges : List (Exchange φ)} {outcome : Except φ α}

/-- A plan that ends well was answered throughout. -/
theorem Path.answered_of_ok {value : α} (h : plan.Path exchanges (.ok value)) :
    ∀ exchange ∈ exchanges, exchange.failed = false := by
  generalize houtcome : Except.ok value = outcome at h
  induction h with
  | done => exact nofun
  | answered answer others ih => exact List.forall_mem_cons.mpr ⟨rfl, ih houtcome⟩
  | failed => cases houtcome

/-- A plan that fails breaks off. -/
theorem Path.breaks_of_error {failure : φ} (h : plan.Path exchanges (.error failure)) :
    Breaks exchanges failure := by
  generalize houtcome : Except.error failure = outcome at h
  induction h with
  | done => cases houtcome
  | answered answer others ih => exact (ih houtcome).cons rfl
  | failed failure =>
      cases houtcome
      exact ⟨[], _, rfl, nofun⟩

/-- A plan fails exactly if it breaks off. -/
theorem Path.eq_error_iff (h : plan.Path exchanges outcome) {failure : φ} :
    outcome = .error failure ↔ Breaks exchanges failure := by
  constructor
  · rintro rfl
    exact h.breaks_of_error
  · intro breaks
    cases outcome with
    | ok value => exact absurd breaks (not_breaks h.answered_of_ok failure)
    | error other => rw [h.breaks_of_error.unique breaks]

variable [Bus σ φ]

/-- What comes of a plan on a bus is what a path of it comes to. -/
theorem exists_path (plan : Plan α) (bus : σ) :
    ∃ exchanges : List (Exchange φ), Exchanged bus exchanges (plan.carryOut bus).bus ∧
      (plan.carryOut bus).transfers = exchanges.map (·.transfer) ∧
      plan.Path exchanges (plan.carryOut bus).answer := by
  induction plan generalizing bus with
  | done value => exact ⟨[], .nil bus, rfl, .done value⟩
  | access first next ih =>
      cases hfirst : (transact first bus).1 with
      | error failure =>
          rw [carryOut_access_of_error hfirst]
          exact ⟨[⟨first, .error failure⟩], hfirst ▸ .cons first (.nil _), rfl, .failed failure⟩
      | ok answer =>
          obtain ⟨exchanges, hexchanged, htransfers, hpath⟩ := ih answer (transact first bus).2
          rw [carryOut_access_of_ok hfirst]
          exact ⟨⟨first, .ok answer⟩ :: exchanges, hfirst ▸ .cons first hexchanged,
            congrArg (_ :: ·) htransfers, .answered answer hpath⟩

end

end Plan

end Bus

namespace Transceiver

variable [Bus σ φ]

/-- A request makes some exchanges over the bus. -/
def Makes (call : Call) (driver : Transceiver σ) (exchanges : List (Bus.Exchange φ)) : Prop :=
  Bus.Exchanged driver.bus exchanges (perform call driver).2.bus ∧
    (perform call driver).1.transfers = exchanges.map (·.transfer)

/-- A request with a plan makes the exchanges of a path of it, and is replied to with its
outcome. -/
theorem makes_of_plan (call : Call) (plan : Bus.Plan call.Answer) (driver : Transceiver σ)
    (h : ∀ session : Session σ, session.driver = driver →
      (request call : Action σ φ call.Answer) session = conduct plan session) :
    ∃ (exchanges : List (Bus.Exchange φ)) (outcome : Except φ call.Answer),
      Makes call driver exchanges ∧ plan.Path exchanges outcome ∧
      (perform call driver).1.answer = outcome.mapError .bus := by
  obtain ⟨exchanges, hexchanged, htransfers, hpath⟩ := plan.exists_path driver.bus
  have hperform := perform_eq h
  refine ⟨exchanges, _, ⟨?_, ?_⟩, hpath, ?_⟩ <;> rw [hperform]
  · exact hexchanged
  · exact htransfers

/-- A request is answered as its plan is. -/
theorem mapError_eq_ok_iff {outcome : Except φ α} {value : α} :
    outcome.mapError Fault.bus = .ok value ↔ outcome = .ok value := by
  cases outcome <;> simp [Except.mapError]

/-- It fails with the failure at which its exchanges break off. -/
theorem mapError_eq_error_iff {plan : Bus.Plan α} {exchanges : List (Bus.Exchange φ)}
    {outcome : Except φ α} (h : plan.Path exchanges outcome) {fault : Fault φ} :
    outcome.mapError Fault.bus = .error fault ↔
      ∃ failure, fault = .bus failure ∧ Bus.Breaks exchanges failure := by
  simp only [← h.eq_error_iff]
  cases outcome <;> simp [Except.mapError, eq_comm]

end Transceiver

end ClockCalibration
