import ClockCalibration.Proofs.Node.Operation

/-!
# Runs

A run takes a world from operation to operation.  In between, the radio and the
platform may change in any way: frames arrive, time passes, answers are scripted.  A
world that can be reached like this is reached by steps, so what every step preserves
holds in it, and because the history is part of the world it says of everything that
ever happened in the run.
-/

namespace ClockCalibration

open Relation (ReflTransGen)

variable {ρ ε : Type}

namespace World

/-- A world in which nothing has happened yet. -/
def fresh (config : Config) (address : UInt16) (radio : ρ) (platform : Platform) : World ρ ε :=
  { node := .fresh config address, radio, platform }

variable [Radio ρ ε]

/-- The worlds that runs of operations that are allowed can get to. -/
inductive Reaches (allowed : Operation → Prop) (start : World ρ ε) : World ρ ε → Prop
  | /-- Nothing is done. -/
    refl : Reaches allowed start start
  | /-- An operation is carried out. -/
    operation {world : World ρ ε} (reached : Reaches allowed start world)
      {operation : Operation} (permitted : allowed operation) :
      Reaches allowed start (world.after operation)
  | /-- The radio or the platform changes. -/
    surroundings {world : World ρ ε} (reached : Reaches allowed start world) (radio : ρ)
      (platform : Platform) : Reaches allowed start { world with radio, platform }

variable {allowed : Operation → Prop} {start world : World ρ ε}

/-- A run of operations that are allowed reaches where it ends. -/
theorem Reaches.run (reached : Reaches allowed start world) {operations : List Operation}
    (permitted : ∀ operation ∈ operations, allowed operation) :
    Reaches allowed start (world.run operations) := by
  induction operations generalizing world with
  | nil => exact reached
  | cons operation operations ih =>
      exact ih (reached.operation (permitted operation List.mem_cons_self))
        fun other hother ↦ permitted other (List.mem_cons_of_mem operation hother)

/-- What is reached from where a run ends is reached by a longer run. -/
theorem Reaches.trans {later : World ρ ε} (reached : Reaches allowed start world)
    (continued : Reaches allowed world later) : Reaches allowed start later := by
  induction continued with
  | refl => exact reached
  | operation _ permitted ih => exact ih.operation permitted
  | surroundings _ radio platform ih => exact ih.surroundings radio platform

/-- From a calm world, what is reached is a calm world, and it is reached by steps. -/
theorem Reaches.leads (reached : Reaches allowed start world) :
    Leads (Step allowed) start world := by
  induction reached with
  | refl => exact .refl _ start
  | operation _ permitted ih => exact ih.trans (leads_after _ permitted)
  | surroundings _ radio platform ih =>
      exact ih.trans (steps_of_reactions (.single (.surroundings radio platform)))

/-- What holds at the start and is kept by every step holds in every world that is
reached. -/
theorem Reaches.invariant {P : World ρ ε → Prop} (reached : Reaches allowed start world)
    (calm : start.Calm) (hstart : P start)
    (hstep : ∀ {world later}, P world → Step allowed world later → P later) : P world := by
  have hsteps := (reached.leads calm).2
  clear reached
  induction hsteps with
  | refl => exact hstart
  | tail _ step ih => exact hstep ih step

omit [Radio ρ ε] in
/-- A world in which nothing has happened yet is calm. -/
theorem calm_fresh (config : Config) (address : UInt16) (radio : ρ) (platform : Platform) :
    (fresh config address radio platform : World ρ ε).Calm := by
  simp [Calm, fresh, Node.fresh, Node.phase?]

end World

end ClockCalibration
