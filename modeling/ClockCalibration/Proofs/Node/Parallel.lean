import ClockCalibration.Proofs.Node.Execution

/-!
# Parallel worlds

What a node makes of its radio shows when the same computation is carried out with two radios.  Two
worlds are `Parallel` if they are the same but for the radio and for what it has replied; that the
radios have been asked for the same is part of it.

From parallel worlds a computation can only come to something else through an answer.  So it ends
alike if every answer of one radio agrees with that of the other as far as it matters, which is
shown along the computation: `EndAlike.bind` for what follows, and `EndAlike.ask_bind` for a
request.
-/

namespace ClockCalibration

variable {ρ ε α β : Type}

/-! ## Parallel worlds -/

/-- Something that happened, but for what the radio replied. -/
def Happening.withoutReply : Happening ε → Call ⊕ Happening ε
  | .exchange call _ => .inl call
  | happening => .inr happening

/-- A history, but for what the radio replied. -/
def withoutReplies (history : List (Entry ε)) : List (Option Phase × (Call ⊕ Happening ε)) :=
  history.map fun entry ↦ (entry.phase, entry.happening.withoutReply)

theorem withoutReplies_append (first second : List (Entry ε)) :
    withoutReplies (first ++ second) = withoutReplies first ++ withoutReplies second :=
  List.map_append

/-- Two answers agree: in what they are, up to a relation, or in why there is none. -/
inductive Radio.Agree (R : α → α → Prop) : Except ε α → Except ε α → Prop
  | /-- Both are given. -/
    answered {answer answer' : α} (h : R answer answer') : Agree R (.ok answer) (.ok answer')
  | /-- Neither is. -/
    failed (failure : ε) : Agree R (.error failure) (.error failure)

theorem Radio.Agree.of_eq {answer answer' : Except ε α} (h : answer' = answer) :
    Agree Eq answer answer' := by
  subst h
  cases answer' with
  | ok value => exact .answered rfl
  | error failure => exact .failed failure

namespace World

/-- Two worlds are the same but for the radio and for what it has replied. -/
structure Parallel (world twin : World ρ ε) : Prop where
  node : twin.node = world.node
  platform : twin.platform = world.platform
  history : withoutReplies twin.history = withoutReplies world.history

namespace Parallel

variable {world twin : World ρ ε} (h : world.Parallel twin)

include h

/-- Whatever is noted in both is the same but for the replies. -/
theorem noting_of_eq {happening happening' : Happening ε}
    (same : happening'.withoutReply = happening.withoutReply) :
    (world.noting happening).Parallel (twin.noting happening') := by
  refine ⟨h.node, h.platform, ?_⟩
  rw [history_noting, history_noting, withoutReplies_append, withoutReplies_append, h.history,
    h.node]
  exact congrArg (fun seen ↦ _ ++ [(world.node.phase?, seen)]) same

theorem noting (happening : Happening ε) :
    (world.noting happening).Parallel (twin.noting happening) :=
  h.noting_of_eq rfl

/-- The radios are asked for the same, whatever they reply. -/
theorem asking [Radio ρ ε] (call : Call) : (world.asking call).Parallel (twin.asking call) := by
  -- the reply is what `withoutReply` leaves out of the note
  let asked (world : World ρ ε) : World ρ ε :=
    { world with radio := (Radio.perform call world.radio).2 }
  have hasked : (asked world).Parallel (asked twin) := ⟨h.node, h.platform, h.history⟩
  exact hasked.noting_of_eq rfl

theorem recalibrating (change : Calibration → Calibration) :
    (world.recalibrating change).Parallel (twin.recalibrating change) := by
  refine ⟨?_, h.platform, h.history⟩
  rw [node_recalibrating, node_recalibrating, h.node]

theorem offering (event : Event) : (world.offering event).Parallel (twin.offering event) := by
  let enqueued (world : World ρ ε) : World ρ ε :=
    { world with platform := world.platform.enqueue event }
  have henqueued : (enqueued world).Parallel (enqueued twin) :=
    ⟨h.node, congrArg (·.enqueue event) h.platform, h.history⟩
  have hroom : twin.platform.hasRoom = world.platform.hasRoom := congrArg _ h.platform
  unfold World.offering
  rw [hroom]
  dsimp only
  split
  · exact henqueued.noting _
  · exact (henqueued.noting _).noting _

end Parallel

/-! ## Computations that end alike -/

/-- Two computations have come to the same: to the same value or the same error, in parallel
worlds. -/
inductive EndAlike : EStateM.Result (Error ε) (World ρ ε) α →
    EStateM.Result (Error ε) (World ρ ε) α → Prop
  | /-- Both end with a value. -/
    ok {world twin : World ρ ε} (value : α) (h : world.Parallel twin) :
      EndAlike (.ok value world) (.ok value twin)
  | /-- Both fail. -/
    error {world twin : World ρ ε} (error : Error ε) (h : world.Parallel twin) :
      EndAlike (.error error world) (.error error twin)

variable {world twin : World ρ ε}

/-- Sequences end alike if their first parts do, and what follows does whenever these succeed. -/
theorem EndAlike.bind {computation : NodeM ρ ε α} {next : α → NodeM ρ ε β}
    (first : EndAlike (computation world) (computation twin))
    (rest : ∀ value later latest, later.Parallel latest →
      EndAlike (next value later) (next value latest)) :
    EndAlike ((computation >>= next) world) ((computation >>= next) twin) := by
  change EndAlike (EStateM.bind computation next world) (EStateM.bind computation next twin)
  unfold EStateM.bind
  generalize computation world = result, computation twin = result' at first
  cases first with
  | ok value h => exact rest value _ _ h
  | error error h => exact .error error h

/-- A sequence that begins with a request ends alike if the answers agree and what is done with
them does. -/
theorem EndAlike.ask_bind [Radio ρ ε] (call : Call) {R : call.Answer → call.Answer → Prop}
    {next : call.Answer → NodeM ρ ε β} (h : world.Parallel twin)
    (agree : Radio.Agree R (Radio.perform call world.radio).1.answer
      (Radio.perform call twin.radio).1.answer)
    (rest : ∀ answer answer', R answer answer' →
      EndAlike (next answer (world.asking call)) (next answer' (twin.asking call))) :
    EndAlike ((Node.ask call >>= next) world) ((Node.ask call >>= next) twin) := by
  change EndAlike (EStateM.bind (Node.ask call) next world) (EStateM.bind (Node.ask call) next twin)
  unfold EStateM.bind Node.ask
  generalize (Radio.perform call world.radio).1.answer = answer,
    (Radio.perform call twin.radio).1.answer = answer' at agree
  cases agree with
  | answered hanswer => exact rest _ _ hanswer
  | failed failure => exact .error _ (h.asking call)

/-- Ending with a value does not change whether computations end alike. -/
theorem EndAlike.bind_pure {computation : NodeM ρ ε α}
    (first : EndAlike (computation world) (computation twin)) (result : β) :
    EndAlike ((computation >>= fun _ ↦ pure result : NodeM ρ ε β) world)
      ((computation >>= fun _ ↦ pure result : NodeM ρ ε β) twin) :=
  first.bind fun _ _ _ h ↦ .ok result h

/-- Computations that end alike leave parallel worlds behind. -/
theorem EndAlike.parallel {computation : NodeM ρ ε α}
    (alike : EndAlike (computation world) (computation twin)) :
    (world.upon computation).Parallel (twin.upon computation) := by
  unfold upon
  generalize computation world = result, computation twin = result' at alike
  cases alike with
  | ok value h => exact h
  | error error h => exact h

end World

end ClockCalibration
