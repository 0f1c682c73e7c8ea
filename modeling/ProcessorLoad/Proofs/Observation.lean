import ProcessorLoad.Machine.Basic
import ProcessorLoad.Proofs.Action

/-!
# Observed machines

An observed machine is a machine that also writes down what it was asked for and what it answered:
the looks at the clock and the readings of ticks and of its own load. It answers as the machine
itself does, so what is found out about a run of the observed machine holds of the run as it is.
-/

set_option autoImplicit false

namespace ProcessorLoad

/-- What a machine was asked for, with its answer. -/
inductive Event where
  | clock (now : Binary64)
  | totalTicks (answer : Except Fault (List Counter))
  | tickTable (answer : Except Fault (List (List Counter)))
  | ownLoad (answer : Except Fault (Option Binary64))
  deriving DecidableEq

structure Observed (σ : Type) where
  machine : σ
  events : List Event

namespace Observed
variable {σ α : Type}

def start (s : σ) : Observed σ := ⟨s, []⟩

def unnoted (a : Action σ α) : Action (Observed σ) α :=
  a.on machine fun s o => { o with machine := s }

def noted (event : Except Fault α → Event) (a : Action σ α) : Action (Observed σ) α := fun o =>
  let outcome := a.run o.machine
  ⟨outcome.result, ⟨outcome.state, o.events ++ [event outcome.result]⟩, outcome.log⟩

def readClock (clock : σ → Binary64 × σ) (o : Observed σ) : Binary64 × Observed σ :=
  ((clock o.machine).1, ⟨(clock o.machine).2, o.events ++ [.clock (clock o.machine).1]⟩)

end Observed

/-- The machine that writes down what it is asked for. -/
def Machine.observed {σ : Type} (m : Machine σ) : Machine (Observed σ) where
  clock := Observed.readClock m.clock
  totalTicks := Observed.noted .totalTicks m.totalTicks
  tickTable := Observed.noted .tickTable m.tickTable
  ownLoad := Observed.noted .ownLoad m.ownLoad
  logicalProcessors := Observed.unnoted m.logicalProcessors
  physicalProcessors := Observed.unnoted m.physicalProcessors
  averages := Observed.unnoted m.averages
  identify := Observed.unnoted m.identify

namespace Observed
variable {σ α : Type}

theorem mirrors_unnoted (a : Action σ α) : Action.Mirrors machine id (unnoted a) a := by
  intro o
  simp only [Except.map_id, id]
  rfl

theorem mirrors_noted (event : Except Fault α → Event) (a : Action σ α) :
    Action.Mirrors machine id (noted event a) a := by
  intro o
  simp only [Except.map_id, id]
  rfl

theorem mirrors_clock (m : Machine σ) :
    Action.Mirrors machine id (.ofState m.observed.clock) (.ofState m.clock) := fun _ => rfl

theorem ends_noted (event : Except Fault α → Event) (a : Action σ α) (o : Observed σ) :
    (noted event a).Ends o fun r t => ∃ s, t = ⟨s, o.events ++ [event r]⟩ := ⟨_, rfl⟩

theorem ends_unnoted (a : Action σ α) (o : Observed σ) :
    (unnoted a).Ends o fun _ t => ∃ s, t = ⟨s, o.events⟩ := ⟨_, rfl⟩

end Observed

end ProcessorLoad
