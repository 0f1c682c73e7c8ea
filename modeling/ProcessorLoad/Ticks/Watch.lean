import ProcessorLoad.Machine.Basic
import ProcessorLoad.Ticks.Load

/-!
# Watching ticks

A watch keeps, for the system and for the processors, the last two accepted readings and the time
of the newer one. A reading that is all zero says that the source is not ready, and is not accepted.
-/

set_option autoImplicit false

namespace ProcessorLoad

/-- Two consecutive readings and the time of the newer one, in milliseconds. -/
structure TickPair (α : Type) where
  previous : α
  current : α
  time : Binary64
  deriving DecidableEq

namespace TickPair
variable {α : Type}

def constant (a : α) : TickPair α := ⟨a, a, 0⟩

def push (p : TickPair α) (a : α) (time : Binary64) : TickPair α := ⟨p.current, a, time⟩

end TickPair

def TickPair.load (p : TickPair Ticks) : Except Fault Binary64 := Ticks.load p.previous p.current

def TickPair.loads (p : TickPair TickTable) : Except Fault (List Binary64) :=
  TickTable.loads p.previous p.current

inductive Scope where
  | system
  | processors
  deriving DecidableEq

structure TickWatch (σ : Type) where
  machine : σ
  rows : Nat
  system : TickPair Ticks
  processors : TickPair TickTable

namespace TickWatch
variable {σ α : Type}

def defaultInterval : Binary64 := 950

def new (machine : σ) (processors : Int) : TickWatch σ :=
  let rows := (max 1 processors).toNat
  { machine, rows, system := .constant Ticks.zero, processors := .constant (TickTable.zero rows) }

def onMachine (a : Action σ α) : Action (TickWatch σ) α :=
  a.on machine fun s watch => { watch with machine := s }

/-- One record of whole numbers: the counters that are kept are truncated, missing ones are zero. -/
def ticksOf (counters : List Counter) : Except Fault Ticks :=
  Ticks.fit <$> (counters.take TickKind.count).mapM Counter.truncate

def tableOf (rows : Nat) (table : List (List Counter)) : Except Fault TickTable := do
  let kept ← (table.take rows).mapM ticksOf
  return kept ++ TickTable.zero (rows - kept.length)

def fetchTotal (m : Machine σ) : Action (TickWatch σ) Ticks := do
  Action.ofExcept (ticksOf (← onMachine m.totalTicks))

def fetchTable (m : Machine σ) : Action (TickWatch σ) TickTable := do
  let table ← onMachine m.tickTable
  Action.ofExcept (tableOf (← Action.get).rows table)

def readClock (m : Machine σ) : Action (TickWatch σ) Binary64 := onMachine (.ofState m.clock)

/-- Makes one reading of each kind both the previous and the current one. While a source is not
ready its time stays as it is. -/
def prime (m : Machine σ) : Action (TickWatch σ) Unit := do
  let table ← fetchTable m
  Action.modify fun s =>
    { s with processors := { s.processors with previous := table, current := table } }
  unless TickTable.isZero table do
    let time ← readClock m
    Action.modify fun s => { s with processors := { s.processors with time := time } }
  let ticks ← fetchTotal m
  Action.modify fun s => { s with system := { s.system with previous := ticks, current := ticks } }
  unless Ticks.isZero ticks do
    let time ← readClock m
    Action.modify fun s => { s with system := { s.system with time := time } }

def start (m : Machine σ) (processors : Int) : Action σ (TickWatch σ) := fun machine =>
  let o := (prime m).run (new machine processors)
  ⟨o.result.map fun _ => o.state, o.state.machine, o.log⟩

def readTotal (m : Machine σ) : Action (TickWatch σ) Bool := do
  let ticks ← fetchTotal m
  if Ticks.isZero ticks then return false
  let time ← readClock m
  Action.modify fun s => { s with system := s.system.push ticks time }
  return true

/-- Reads the processors' ticks; true if the reading was accepted. One counter that is not zero is
enough to accept the whole table. -/
def readTable (m : Machine σ) : Action (TickWatch σ) Bool := do
  let table ← fetchTable m
  if TickTable.isZero table then return false
  let time ← readClock m
  Action.modify fun s => { s with processors := s.processors.push table time }
  return true

def refresh (m : Machine σ) : Scope → Action (TickWatch σ) Bool
  | .system => readTotal m
  | .processors => readTable m

def timeOf (s : TickWatch σ) : Scope → Binary64
  | .system => s.system.time
  | .processors => s.processors.time

/-- Refreshes a kind if more than `interval` milliseconds have gone by since its current reading;
true if a reading was accepted. -/
def refreshIfDue (m : Machine σ) (kind : Scope) (interval : Binary64) :
    Action (TickWatch σ) Bool := do
  let now ← readClock m
  let last := (← Action.get).timeOf kind
  if (now - last).le interval then return false
  refresh m kind

end TickWatch

end ProcessorLoad
