import ClockCalibration.Calibration
import ClockCalibration.Error
import ClockCalibration.Message
import ClockCalibration.Radio.Basic
/-!
# Nodes

A node is a calibration instance, once it has been created, and the few things
that outlive it.  It acts in a `World`: itself, a radio, a platform and the
history of what has happened between them.

The history is part of the state because the order in which a node turns to
its radio, its timer, its queue and its log is what the rest of the system
sees of it.  Each entry also tells how far the blink under way had got.

An operation of a node is a `NodeM` computation.  It may fail, and what it did
before it failed stays done.
-/

namespace ClockCalibration

/-- What is called when a frame has been received or sent.  A callback tells
whether the frame was meant for it. -/
inductive Callback
  | reception
  | transmission
  /-- Takes every frame. -/
  | claim
  | fail
  /-- Handles the completed transmission of a blink, and does not own up to
  it. -/
  | transmissionUnclaimed
  /-- Takes no frame. -/
  | ignore
  deriving DecidableEq

/-- The clock master that stands for any sender. -/
def anyMaster : UInt64 := 0xffffffffffffffff

/-- The state of a node. -/
structure Node where
  /-- The configuration of instances that are yet to be created. -/
  config : Config := {}
  shortAddress : UInt16 := 0
  /-- The address of the sender whose frames are processed. -/
  clockMaster : UInt64 := 0
  /-- The kind of the frame that is being sent. -/
  outgoing : Option FrameControl := none
  calibration : Option Calibration := none
  onReception : Option Callback := none
  onTransmission : Option Callback := none

def Node.fresh (config : Config) (shortAddress : UInt16) : Node := { config, shortAddress }

/-- How far the blink under way of a node has got. -/
def Node.phase? (node : Node) : Option Phase := node.calibration.map (·.phase)

/-! ## Histories -/

/-- Something that happened, for a radio that fails with `ε`. -/
inductive Happening (ε : Type)
  | exchange (call : Call) (reply : Reply ε call)
  | schedule (delay : UInt32) (handle : TimerHandle)
  | cancel (handle : TimerHandle)
  /-- An event was offered to the queue. -/
  | enqueue (event : Event) (accepted : Bool)
  | log (message : Message)
  | callback (callback : Callback)
  | sink (sink : Sink) (record : Record)
  | sinkBlink (outcome : Except (Error ε) Status)
  | sinkStop (outcome : Except (Error ε) Unit)

/-- An entry of a history: something that happened, and how far the blink under way had got. -/
structure Entry (ε : Type) where
  phase : Option Phase
  happening : Happening ε

/-- A node with everything it acts upon: a radio with state `ρ` that fails with
`ε`, a platform, and the history so far. -/
structure World (ρ ε : Type) where
  node : Node
  radio : ρ
  platform : Platform := {}
  /-- What has happened, the latest last. -/
  history : List (Entry ε) := []

/-- What a node does. -/
abbrev NodeM (ρ ε α : Type) := EStateM (Error ε) (World ρ ε) α

/-- A world with one more entry in its history. -/
def World.noting {ρ ε : Type} (world : World ρ ε) (happening : Happening ε) : World ρ ε :=
  { world with history := world.history ++ [⟨world.node.phase?, happening⟩] }

/-- A world after its radio was asked for something. -/
def World.asking {ρ ε : Type} [Radio ρ ε] (world : World ρ ε) (call : Call) : World ρ ε :=
  let (reply, radio) := Radio.perform call world.radio
  { world with radio }.noting (.exchange call reply)

namespace Node

variable {ρ ε α : Type}

/-! ## Turning to the world -/

def note (happening : Happening ε) : NodeM ρ ε Unit := modify (·.noting happening)

def log (message : Message) : NodeM ρ ε Unit := note (.log message)

def ask [Radio ρ ε] (call : Call) : NodeM ρ ε call.Answer := fun world ↦
  match (Radio.perform call world.radio).1.answer with
  | .ok answer => .ok answer (world.asking call)
  | .error failure => .error (.radio failure) (world.asking call)

/-- Offers an event to the queue.  An event that finds no room is lost. -/
def offer (event : Event) : NodeM ρ ε Unit := do
  let accepted := (← get).platform.hasRoom
  modify fun world ↦ { world with platform := world.platform.enqueue event }
  note (.enqueue event accepted)
  unless accepted do
    log (.eventDropped event)

/-- Carries out an operation and goes on with its outcome, also if it fails. -/
def attempt (operation : NodeM ρ ε α) : NodeM ρ ε (Except (Error ε) α) := fun world ↦
  match operation world with
  | .ok value world => .ok (.ok value) world
  | .error error world => .ok (.error error) world

/-! ## The state of the node -/

def update (change : Node → Node) : NodeM ρ ε Unit :=
  modify fun world ↦ { world with node := change world.node }

/-- The calibration instance, which must have been created. -/
def requireCalibration : NodeM ρ ε Calibration := do
  match (← get).node.calibration with
  | some calibration => return calibration
  | none => throw .notInitialized

/-- Changes the calibration instance, if there is one. -/
def updateCalibration (change : Calibration → Calibration) : NodeM ρ ε Unit :=
  update fun node ↦ { node with calibration := node.calibration.map change }

def schedule (delay : UInt32) : NodeM ρ ε Unit := do
  let (handle, platform) := (← get).platform.schedule
  modify fun world ↦ { world with platform }
  note (.schedule delay handle)
  updateCalibration (·.scheduled handle)

end Node

end ClockCalibration
