import ClockCalibration.Node.Operation

/-!
# What a computation leaves behind

A node computation ends with a value or with an error, and in both cases with a
world: what it did before it failed stays done.  `World.upon` is that world, and
the theory of runs is a theory of it, since a run goes on from there either way.

The building blocks of the node — noting, asking, scheduling, offering — are
total functions on worlds.  This file names those functions and says of each
block that it ends in the corresponding world, so that later files compute with
worlds and never open a block again.  A computation made of blocks is taken
apart by `World.upon_bind_of`, whose second premise keeps the equation of the
first part: whatever the value it ended with tells about the world is read off
that equation.
-/

namespace ClockCalibration

variable {ρ ε α β : Type}

namespace World

/-! ## The world that is left -/

/-- The world that a computation leaves behind, in whatever way it ends. -/
def upon (world : World ρ ε) (computation : NodeM ρ ε α) : World ρ ε :=
  match computation world with
  | .ok _ later => later
  | .error _ later => later

theorem upon_of_ok {world later : World ρ ε} {computation : NodeM ρ ε α} {value : α}
    (h : computation world = .ok value later) : world.upon computation = later := by
  rw [upon, h]

theorem upon_of_error {world later : World ρ ε} {computation : NodeM ρ ε α} {error : Error ε}
    (h : computation world = .error error later) : world.upon computation = later := by
  rw [upon, h]

/-- Computations that come to the same leave the same world behind. -/
theorem upon_congr {world world' : World ρ ε} {computation computation' : NodeM ρ ε α}
    (h : computation world = computation' world') :
    world.upon computation = world'.upon computation' := by
  rw [upon, upon, h]

/-- An operation leaves the world behind that its computation does. -/
theorem after_eq_upon [Radio ρ ε] (world : World ρ ε) (operation : Operation) :
    world.after operation = world.upon (operation.perform : NodeM ρ ε _) := by
  unfold after upon
  cases operation.perform world <;> rfl

theorem bind_of_ok {world later : World ρ ε} {computation : NodeM ρ ε α} {value : α}
    (h : computation world = .ok value later) (next : α → NodeM ρ ε β) :
    (computation >>= next) world = next value later := by
  change EStateM.bind computation next world = _
  rw [EStateM.bind, h]

theorem bind_of_error {world later : World ρ ε} {computation : NodeM ρ ε α} {error : Error ε}
    (h : computation world = .error error later) (next : α → NodeM ρ ε β) :
    (computation >>= next) world = .error error later := by
  change EStateM.bind computation next world = _
  rw [EStateM.bind, h]

/-- What a sequence comes to depends on what its first part comes to alone. -/
theorem bind_congr {world world' : World ρ ε} {computation computation' : NodeM ρ ε α}
    (h : computation world = computation' world') (next : α → NodeM ρ ε β) :
    (computation >>= next) world = (computation' >>= next) world' := by
  change EStateM.bind computation next world = EStateM.bind computation' next world'
  rw [EStateM.bind, EStateM.bind, h]

/-- A sequence of computations that succeeds is one of which both succeed. -/
theorem of_bind_eq_ok {world latest : World ρ ε} {computation : NodeM ρ ε α}
    {next : α → NodeM ρ ε β} {result : β}
    (h : (computation >>= next) world = .ok result latest) :
    ∃ value later, computation world = .ok value later ∧ next value later = .ok result latest := by
  cases hfirst : computation world with
  | ok value later => exact ⟨value, later, rfl, bind_of_ok hfirst next ▸ h⟩
  | error error later => cases (bind_of_error hfirst next).symm.trans h

/-- A sequence that ends with a value can only fail in its first part. -/
theorem of_bind_pure_eq_error {world later : World ρ ε} {computation : NodeM ρ ε α} {result : β}
    {error : Error ε} (h : (computation >>= fun _ ↦ pure result) world = .error error later) :
    computation world = .error error later := by
  cases hfirst : computation world with
  | ok value latest => cases (bind_of_ok hfirst _).symm.trans h
  | error other latest =>
      cases (bind_of_error hfirst _).symm.trans h
      rfl

theorem upon_bind_of_ok {world later : World ρ ε} {computation : NodeM ρ ε α} {value : α}
    (h : computation world = .ok value later) (next : α → NodeM ρ ε β) :
    world.upon (computation >>= next) = later.upon (next value) := by
  rw [upon, bind_of_ok h]
  rfl

theorem upon_bind_of_error {world later : World ρ ε} {computation : NodeM ρ ε α}
    {error : Error ε} (h : computation world = .error error later) (next : α → NodeM ρ ε β) :
    world.upon (computation >>= next) = later :=
  upon_of_error (bind_of_error h next)

/-- Ending with a value does not change where a computation ends. -/
theorem upon_bind_pure (world : World ρ ε) (computation : NodeM ρ ε α) (result : β) :
    world.upon (computation >>= fun _ ↦ pure result) = world.upon computation := by
  cases h : computation world with
  | ok value later => rw [upon_bind_of_ok h, upon_of_ok h]; rfl
  | error error later => rw [upon_bind_of_error h, upon_of_error h]

/-- Looking at the world goes on with it. -/
theorem get_bind (world : World ρ ε) (next : World ρ ε → NodeM ρ ε β) :
    (get >>= next) world = next world world := rfl

theorem upon_get_bind (world : World ρ ε) (next : World ρ ε → NodeM ρ ε β) :
    world.upon (get >>= next) = world.upon (next world) := rfl

/-- A transitive relation between the worlds before and after holds of a sequence of
two computations if it holds of the first and, from where that ended, of the second. -/
theorem upon_bind_of {R : World ρ ε → World ρ ε → Prop}
    (htrans : ∀ {first second third}, R first second → R second third → R first third)
    {world : World ρ ε} {computation : NodeM ρ ε α} {next : α → NodeM ρ ε β}
    (hfirst : R world (world.upon computation))
    (hnext : ∀ value later, computation world = .ok value later →
      R later (later.upon (next value))) :
    R world (world.upon (computation >>= next)) := by
  cases h : computation world with
  | ok value later =>
      rw [upon_of_ok h] at hfirst
      rw [upon_bind_of_ok h]
      exact htrans hfirst (hnext value later h)
  | error error later =>
      rw [upon_of_error h] at hfirst
      rw [upon_bind_of_error h]
      exact hfirst

/-- It holds of a list of computations, one after the other, if it holds of each and of
nothing being done. -/
theorem upon_mapM_of {R : World ρ ε → World ρ ε → Prop} (hrefl : ∀ world, R world world)
    (htrans : ∀ {first second third}, R first second → R second third → R first third)
    {computation : α → NodeM ρ ε β} {items : List α}
    (h : ∀ item ∈ items, ∀ world, R world (world.upon (computation item))) (world : World ρ ε) :
    R world (world.upon (items.mapM computation)) := by
  induction items generalizing world with
  | nil => exact hrefl world
  | cons item items ih =>
      rw [List.mapM_cons]
      have hrest := ih fun other hother ↦ h other (List.mem_cons_of_mem item hother)
      refine upon_bind_of (R := R) htrans (h item List.mem_cons_self world) fun _ later _ ↦ ?_
      exact upon_bind_of (R := R) htrans (hrest later) fun _ latest _ ↦ hrefl latest

/-! ## Changes of a world -/

/-- A world whose node was changed. -/
def updating (world : World ρ ε) (change : Node → Node) : World ρ ε :=
  { world with node := change world.node }

/-- A world whose calibration instance, if it has one, was changed. -/
def recalibrating (world : World ρ ε) (change : Calibration → Calibration) : World ρ ε :=
  world.updating fun node ↦ { node with calibration := node.calibration.map change }

/-- A world in whose history the radio was asked for something, replied, and is in some
state since. -/
def exchanging (world : World ρ ε) (call : Call) (reply : Reply ε call) (radio : ρ) :
    World ρ ε :=
  { world with radio }.noting (.exchange call reply)

/-- A world that offered an event to its queue. -/
def offering (world : World ρ ε) (event : Event) : World ρ ε :=
  let offered := { world with platform := world.platform.enqueue event }.noting
    (.enqueue event world.platform.hasRoom)
  if world.platform.hasRoom then offered else offered.noting (.log (.eventDropped event))

/-- A world that scheduled an expiry of its timer. -/
def scheduling (world : World ρ ε) (delay : UInt32) : World ρ ε :=
  ({ world with platform := world.platform.schedule.2 }.noting
    (.schedule delay world.platform.schedule.1)).recalibrating
      (·.scheduled world.platform.schedule.1)

section Projections

variable (world : World ρ ε)

@[simp] theorem node_noting (happening : Happening ε) :
    (world.noting happening).node = world.node := rfl

@[simp] theorem history_noting (happening : Happening ε) :
    (world.noting happening).history = world.history ++ [⟨world.node.phase?, happening⟩] := rfl

@[simp] theorem node_updating (change : Node → Node) :
    (world.updating change).node = change world.node := rfl

@[simp] theorem history_updating (change : Node → Node) :
    (world.updating change).history = world.history := rfl

@[simp] theorem node_recalibrating (change : Calibration → Calibration) :
    (world.recalibrating change).node =
      { world.node with calibration := world.node.calibration.map change } := rfl

@[simp] theorem history_recalibrating (change : Calibration → Calibration) :
    (world.recalibrating change).history = world.history := rfl

@[simp] theorem node_exchanging (call : Call) (reply : Reply ε call) (radio : ρ) :
    (world.exchanging call reply radio).node = world.node := rfl

@[simp] theorem history_exchanging (call : Call) (reply : Reply ε call) (radio : ρ) :
    (world.exchanging call reply radio).history =
      world.history ++ [⟨world.node.phase?, .exchange call reply⟩] := rfl

@[simp] theorem node_offering (event : Event) : (world.offering event).node = world.node := by
  unfold offering
  split <;> rfl

@[simp] theorem node_scheduling (delay : UInt32) :
    (world.scheduling delay).node =
      { world.node with
        calibration := world.node.calibration.map (·.scheduled world.platform.schedule.1) } := rfl

/-- A change of the instance that leaves its phase alone leaves that of the node alone. -/
theorem phase?_recalibrating {change : Calibration → Calibration}
    (h : ∀ calibration, (change calibration).phase = calibration.phase) :
    (world.recalibrating change).node.phase? = world.node.phase? := by
  rw [node_recalibrating, Node.phase?, Node.phase?, Option.map_map]
  exact congrArg (Option.map · world.node.calibration) (funext h)

end Projections

end World

namespace Node

open World

/-! ## Blocks -/

variable (world : World ρ ε)

theorem log_eq (message : Message) :
    (log message : NodeM ρ ε Unit) world = .ok () (world.noting (.log message)) := rfl

theorem update_eq (change : Node → Node) :
    (update change : NodeM ρ ε Unit) world = .ok () (world.updating change) := rfl

theorem updateCalibration_eq (change : Calibration → Calibration) :
    (updateCalibration change : NodeM ρ ε Unit) world = .ok () (world.recalibrating change) := rfl

theorem offer_eq (event : Event) :
    (offer event : NodeM ρ ε Unit) world = .ok () (world.offering event) := by
  rw [offer, get_bind, offering]
  cases world.platform.hasRoom <;> rfl

/-- The radio answers, or it fails.  Either way the exchange is in the history. -/
theorem ask_cases [Radio ρ ε] (call : Call) :
    (∃ answer transfers radio, Radio.perform call world.radio = (⟨.ok answer, transfers⟩, radio) ∧
      ask call world = .ok answer (world.exchanging call ⟨.ok answer, transfers⟩ radio)) ∨
    (∃ failure transfers radio,
      Radio.perform call world.radio = (⟨.error failure, transfers⟩, radio) ∧
      ask call world =
        .error (.radio failure) (world.exchanging call ⟨.error failure, transfers⟩ radio)) := by
  rcases hperform : Radio.perform call world.radio with ⟨⟨answer | answer, transfers⟩, radio⟩
  · refine .inr ⟨answer, transfers, radio, rfl, ?_⟩
    simp only [ask, asking, hperform, exchanging]
  · refine .inl ⟨answer, transfers, radio, rfl, ?_⟩
    simp only [ask, asking, hperform, exchanging]

/-- Whatever the radio replies, it is asked once. -/
theorem upon_ask [Radio ρ ε] (call : Call) :
    world.upon (ask call) = world.exchanging call (Radio.perform call world.radio).1
      (Radio.perform call world.radio).2 := by
  unfold upon ask
  cases (Radio.perform call world.radio).1.answer <;> rfl

/-- A sequence that begins with a request goes on from the answer or ends with the failure. -/
theorem upon_ask_bind [Radio ρ ε] {P : World ρ ε → Prop} {call : Call}
    {next : call.Answer → NodeM ρ ε β}
    (answered : ∀ answer transfers radio,
      P ((world.exchanging call ⟨.ok answer, transfers⟩ radio).upon (next answer)))
    (failed : ∀ failure transfers radio,
      P (world.exchanging call ⟨.error failure, transfers⟩ radio)) :
    P (world.upon (ask call >>= next)) := by
  rcases ask_cases world call with
    ⟨answer, transfers, radio, -, h⟩ | ⟨failure, transfers, radio, -, h⟩
  · rw [upon_bind_of_ok h]
    exact answered answer transfers radio
  · rw [upon_bind_of_error h]
    exact failed failure transfers radio

theorem requireCalibration_of_some {calibration : Calibration}
    (h : world.node.calibration = some calibration) :
    (requireCalibration : NodeM ρ ε Calibration) world = .ok calibration world := by
  rw [requireCalibration, get_bind, h]
  rfl

theorem requireCalibration_of_none (h : world.node.calibration = none) :
    (requireCalibration : NodeM ρ ε Calibration) world = .error .notInitialized world := by
  rw [requireCalibration, get_bind, h]
  rfl

/-- Requiring the instance changes nothing, whether there is one or not. -/
theorem upon_requireCalibration :
    world.upon (requireCalibration : NodeM ρ ε Calibration) = world := by
  cases h : world.node.calibration with
  | none => rw [upon_of_error (requireCalibration_of_none world h)]
  | some calibration => rw [upon_of_ok (requireCalibration_of_some world h)]

/-! ## Outcomes as values -/

section

variable {world} {later : World ρ ε} {operation : NodeM ρ ε α}

theorem attempt_of_ok {value : α} (h : operation world = .ok value later) :
    attempt operation world = .ok (.ok value) later := by
  rw [attempt, h]

theorem attempt_of_error {error : Error ε} (h : operation world = .error error later) :
    attempt operation world = .ok (.error error) later := by
  rw [attempt, h]

/-- Giving the outcome of a computation as a value does not change where it ends. -/
theorem upon_attempt : world.upon (attempt operation) = world.upon operation := by
  unfold upon attempt
  cases operation world <;> rfl

theorem discard_of_ok {value : α} (h : operation world = .ok value later) :
    discard operation world = .ok () later := by
  change EStateM.map (fun _ ↦ ()) operation world = _
  rw [EStateM.map, h]

theorem discard_of_error {error : Error ε} (h : operation world = .error error later) :
    discard operation world = .error error later := by
  change EStateM.map (fun _ ↦ ()) operation world = _
  rw [EStateM.map, h]

/-- What a computation comes to without its value depends on what it comes to alone. -/
theorem discard_congr {world' : World ρ ε} {operation' : NodeM ρ ε α}
    (h : operation world = operation' world') :
    discard operation world = discard operation' world' := by
  change EStateM.map (fun _ ↦ ()) operation world = EStateM.map (fun _ ↦ ()) operation' world'
  rw [EStateM.map, EStateM.map, h]

theorem discard_eq_bind (operation : NodeM ρ ε α) :
    discard operation = (operation >>= fun _ ↦ pure ()) := by
  rw [bind_pure_comp]
  rfl

/-- A sequence does not need a value that it forgets. -/
theorem discard_bind (operation : NodeM ρ ε α) (next : NodeM ρ ε β) :
    (do discard operation; next) = (operation >>= fun _ ↦ next) := by
  simp only [discard_eq_bind, bind_assoc, pure_bind]

/-- Forgetting the value of a sequence is forgetting that of its last part. -/
theorem bind_discard (operation : NodeM ρ ε α) (next : α → NodeM ρ ε β) :
    discard (operation >>= next) = (operation >>= fun value ↦ discard (next value)) := by
  simp only [discard_eq_bind, bind_assoc]

theorem upon_discard_bind (next : NodeM ρ ε β) :
    world.upon (do discard operation; next) = world.upon (operation >>= fun _ ↦ next) := by
  rw [discard_bind]

/-- Forgetting the value of a computation does not change where it ends. -/
theorem upon_discard : world.upon (discard operation) = world.upon operation := by
  change world.upon (EStateM.map (fun _ ↦ ()) operation) = _
  unfold upon EStateM.map
  cases operation world <;> rfl

end

end Node

end ClockCalibration
