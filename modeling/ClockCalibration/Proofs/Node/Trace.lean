import ClockCalibration.Proofs.Node.Move

/-!
# Tracing entries back

A path of steps can be cut at every entry that it added to the history.  The entry tells in
what state the instance was at the cut and what became of it there: `World.Tells` says so
for the entries that events are traced back to, which are the attempt of a blink and the
instant told for it, its completion, a reception, and the event that either queues.  From
there on the instance is followed by `World.instance_invariant`.
-/

namespace ClockCalibration

open Relation (ReflTransGen)

variable {ρ ε : Type}

namespace World

/-- What a happening tells of the step that it was noted in. -/
def Tells (prior later : World ρ ε) : Happening ε → Prop
  | .exchange (.writeTransmitBuffer payload offset) _ =>
      ∃ calibration, prior.node.calibration = some calibration ∧ calibration.phase = .idle ∧
        offset = 0 ∧
        payload =
          Wire.encode (calibration.prepare prior.node.shortAddress.toUInt64).ring.current ∧
        later.node.calibration = some (calibration.prepare prior.node.shortAddress.toUInt64)
  | .exchange (.setDelayedStart instant) _ =>
      ∃ calibration, prior.node.calibration = some calibration ∧ calibration.phase = .armed ∧
        instant = calibration.ring.current.sent
  | .exchange .readReceptionTime ⟨.ok time, _⟩ =>
      ∃ calibration header, prior.node.calibration = some calibration ∧
        Heard prior.history header ∧
        later.node.calibration = some (calibration.receive header time)
  | .log (.blinkSent index) =>
      ∃ calibration, prior.node.calibration = some calibration ∧ calibration.phase = .pending ∧
        index = calibration.ring.index ∧ later.node.calibration = some calibration.complete
  | .enqueue event _ => prior.Prompts event ∧ later.node = prior.node
  | _ => True

variable {prior later : World ρ ε} {entry : Entry ε}

/-- A quiet happening tells nothing. -/
theorem tells_of_isQuiet {happening : Happening ε} (quiet : happening.IsQuiet) :
    Tells prior later happening := by
  unfold Tells
  split
  · exact absurd trivial quiet
  · exact absurd trivial quiet
  · exact quiet.elim
  · exact quiet.elim
  · exact quiet.elim
  · trivial

/-- An entry of a reaction tells what it does. -/
theorem Reaction.tells (step : Reaction prior later)
    (h : later.history = prior.history ++ [entry]) : Tells prior later entry.happening := by
  cases step with
  | surroundings | disown | close | correct => exact absurd h (by simp)
  | note quiet =>
      obtain rfl := List.singleton_inj.mp (List.append_cancel_left h)
      exact tells_of_isQuiet quiet
  | schedule =>
      obtain rfl := List.singleton_inj.mp (List.append_cancel_left h)
      trivial
  | offer present wanted prompted =>
      obtain rfl := List.singleton_inj.mp (List.append_cancel_left h)
      exact ⟨prompted, rfl⟩
  | complete present pending =>
      obtain rfl := List.singleton_inj.mp (List.append_cancel_left h)
      exact ⟨_, present, pending, rfl, congrArg (Option.map _) present⟩
  | receive present heard =>
      obtain rfl := List.singleton_inj.mp (List.append_cancel_left h)
      exact ⟨_, _, present, heard, congrArg (Option.map _) present⟩

/-- So does an entry of a step that programs the radio. -/
theorem Arming.tells (step : Arming prior later)
    (h : later.history = prior.history ++ [entry]) : Tells prior later entry.happening := by
  cases step with
  | release => exact absurd h (by simp)
  | attempt present idle =>
      obtain rfl := List.singleton_inj.mp (List.append_cancel_left h)
      exact ⟨_, present, idle, rfl, rfl, congrArg (Option.map _) present⟩
  | request armed reply radio minor futile =>
      obtain rfl := List.singleton_inj.mp (List.append_cancel_left h)
      rcases minor with rfl | rfl | rfl <;> trivial
  | time present armed =>
      obtain rfl := List.singleton_inj.mp (List.append_cancel_left h)
      exact ⟨_, present, armed, rfl⟩
  | reject | accept =>
      obtain rfl := List.singleton_inj.mp (List.append_cancel_left h)
      trivial

/-- Every entry tells what was done in the step that made it. -/
theorem Step.tells {allowed : Operation → Prop} (step : Step allowed prior later)
    (h : later.history = prior.history ++ [entry]) : Tells prior later entry.happening := by
  cases step with
  | turn turn =>
      cases turn with
      | reaction _ step => exact step.tells h
      | arming step => exact step.tells h
  | control _ step =>
      cases step with
      | create | restart | stopped =>
          obtain rfl := List.singleton_inj.mp (List.append_cancel_left h)
          trivial
      | remaster | halt | timerFired | withSink => exact absurd h (by simp)
  | callbacks => exact absurd h (by simp)

/-! ## Paths -/

variable {allowed : Operation → Prop} {start world : World ρ ε}

/-- Steps only add to the history. -/
theorem history_of_steps (steps : ReflTransGen (Step allowed) start world) :
    ∃ added, world.history = start.history ++ added := by
  induction steps with
  | refl => exact ⟨[], (List.append_nil _).symm⟩
  | tail _ step ih =>
      obtain ⟨added, hadded⟩ := ih
      rcases step.history with hhistory | ⟨entry, hhistory, -⟩
      · exact ⟨added, hhistory.trans hadded⟩
      · exact ⟨added ++ [entry], by rw [hhistory, hadded, List.append_assoc]⟩

/-- What they add is what is left of the history after that at the start. -/
theorem history_eq_append_drop (steps : ReflTransGen (Step allowed) start world) :
    world.history = start.history ++ world.history.drop start.history.length := by
  obtain ⟨added, history⟩ := history_of_steps steps
  rw [history, List.drop_left]

/-- To get from an idle instance to an armed one the radio has to be handed the next blink. -/
theorem written_of_arming (steps : ReflTransGen Arming start world) {calibration : Calibration}
    (present : start.node.calibration = some calibration) (idle : calibration.phase = .idle)
    (armed : world.node.phase? = some .armed) :
    ∃ reply added, world.history = start.history ++ ⟨some .armed, .exchange (.writeTransmitBuffer
      (Wire.encode (calibration.prepare start.node.shortAddress.toUInt64).ring.current) 0)
        reply⟩ :: added := by
  have hidle : start.node.phase? = some .idle := by
    rw [Node.phase?, present, Option.map_some, idle]
  rcases ReflTransGen.cases_head steps with rfl | ⟨next, step, hsteps⟩
  · cases hidle.symm.trans armed
  · have hrest : ReflTransGen (Step fun _ ↦ True) next world :=
      hsteps.lift id fun _ _ step ↦ .turn (.arming step)
    obtain ⟨rest, history⟩ := history_of_steps hrest
    cases step with
    | attempt present' _ reply radio =>
        cases present.symm.trans present'
        refine ⟨reply, rest, ?_⟩
        rw [history, history_exchanging, history_recalibrating, List.append_assoc,
          node_recalibrating, present]
        rfl
    | time present' armed =>
        cases present.symm.trans present'
        cases idle.symm.trans armed
    | request armed | release armed | reject armed | accept armed =>
        cases hidle.symm.trans armed

/-- Every entry that steps add to the history is added by one of them, and tells what that did. -/
theorem exists_step_of_entry (steps : ReflTransGen (Step allowed) start world)
    {before after : List (Entry ε)} {entry : Entry ε} (later : start.history <+: before)
    (h : world.history = before ++ entry :: after) :
    ∃ prior next, ReflTransGen (Step allowed) start prior ∧ Step allowed prior next ∧
      ReflTransGen (Step allowed) next world ∧ prior.history = before ∧
      next.history = before ++ [entry] ∧ Tells prior next entry.happening := by
  induction steps generalizing after with
  | refl =>
      have hle := later.length_le
      rw [h, List.length_append, List.length_cons] at hle
      omega
  | @tail prior next steps step ih =>
      rcases step.history with hhistory | ⟨last, hhistory, -⟩
      · obtain ⟨prior', next', hbefore, hstep, hafter, hrest⟩ := ih (hhistory.symm.trans h)
        exact ⟨prior', next', hbefore, hstep, hafter.tail step, hrest⟩
      · have hsplit := hhistory.symm.trans h
        rcases cut_snoc hsplit with ⟨rfl, hprior, rfl⟩ | ⟨rest, -, hprior⟩
        · -- the entry is the last one, so the last step adds it
          exact ⟨prior, next, steps, step, .refl, hprior, h, step.tells hhistory⟩
        · obtain ⟨prior', next', hbefore, hstep, hafter, hrest⟩ := ih hprior
          exact ⟨prior', next', hbefore, hstep, hafter.tail step, hrest⟩

/-- What is said of an instance and the landmarks passed since a world holds as long as only
such landmarks are passed by which it is kept. -/
theorem instance_invariant (steps : ReflTransGen (Step allowed) start world)
    {P : List Landmark → Calibration → Prop} {Q : Landmark → Prop}
    {calibration : Calibration} (present : start.node.calibration = some calibration)
    (hstart : P [] calibration)
    (hmove : ∀ {prior : World ρ ε} {course earlier later landmark},
      ReflTransGen (Step allowed) start prior → prior.node.calibration = some earlier →
      P course earlier → Move prior.node earlier landmark later →
      (∀ other ∈ landmark, Q other) → P (course ++ landmark.toList) later)
    {added : List (Entry ε)} (history : world.history = start.history ++ added)
    (hpassed : ∀ landmark ∈ landmarks added, Q landmark) :
    ∃ later, world.node.calibration = some later ∧ P (landmarks added) later := by
  induction steps generalizing added with
  | refl =>
      have hadded : added = [] := by simpa using history
      exact ⟨calibration, present, hadded ▸ hstart⟩
  | @tail prior world steps step ih =>
      obtain ⟨past, hpast⟩ := history_of_steps steps
      obtain ⟨latest, hlatest⟩ := history_of_steps (.single step)
      obtain rfl : added = past ++ latest := by
        rw [history, hpast, List.append_assoc] at hlatest
        exact List.append_cancel_left hlatest
      rw [landmarks_append] at hpassed ⊢
      obtain ⟨earlier, hearlier, h⟩ := ih hpast fun landmark hmem ↦
        hpassed landmark (List.mem_append_left _ hmem)
      cases step.moves with
      | absent before => cases before.symm.trans hearlier
      | created before => cases before.symm.trans hearlier
      | moved before after move hadded passed =>
          cases before.symm.trans hearlier
          obtain rfl := List.append_cancel_left (hlatest.symm.trans hadded)
          rw [passed] at hpassed ⊢
          exact ⟨_, after, hmove steps hearlier h move fun other hother ↦
            hpassed other (List.mem_append_right _ (Option.mem_toList.mpr hother))⟩

end World

end ClockCalibration
