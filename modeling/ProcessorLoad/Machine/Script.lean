import ProcessorLoad.Machine.Basic
import ProcessorLoad.Machine.CpuTimes
import ProcessorLoad.Machine.StatFile
import ProcessorLoad.Machine.Statistics

/-!
# Scripted machines

A machine whose every reading is known in advance, for rehearsing a run: each interface answers from
a sequence of its own, and the clock moves only as told.
-/

set_option autoImplicit false

namespace ProcessorLoad

structure Feed (α : Type) where
  answer : Nat → Except Fault α
  used : Nat := 0

namespace Feed
variable {α : Type}

/-- The answers of a list, one after the other; the last one repeats for ever. -/
def replay (first : Except Fault α) (rest : List (Except Fault α)) : Feed α where
  answer n := if n = 0 then first else rest[n - 1]?.getD (rest.getLastD first)

def next : Action (Feed α) α := fun f => ⟨f.answer f.used, { f with used := f.used + 1 }, []⟩

end Feed

structure ScriptedClock where
  now : Binary64
  step : Binary64 := 0
  looks : Nat := 0

namespace ScriptedClock

def read (c : ScriptedClock) : Binary64 × ScriptedClock :=
  (c.now, { c with now := c.now + c.step, looks := c.looks + 1 })

def advance (span : Binary64) (c : ScriptedClock) : ScriptedClock := { c with now := c.now + span }

def set (time : Binary64) (c : ScriptedClock) : ScriptedClock := { c with now := time }

end ScriptedClock

structure Script where
  clock : ScriptedClock
  system : Feed (List Counter)
  processors : Feed (List (List Counter))
  systemTimes : Feed CpuTimes
  processorTimes : Feed (List CpuTimes)
  statFile : FileState
  /-- Loads or percentages of the whole system. -/
  own : Feed (Option Binary64)
  averages : Feed (List Binary64)
  processorFile : FileState
  processorName : Text
  architecture : Text

inductive TickOrigin where
  | counters
  | statFile
  | times
  deriving DecidableEq

inductive LoadOrigin where
  | loads
  | percentages
  deriving DecidableEq

/-- The processor counts: given, or worked out from what the statistics know. -/
inductive CountOrigin where
  | given (logical physical : Int)
  | statistics (logical physical : Option Int)
  deriving DecidableEq

namespace Script
variable {α : Type}

def next (feed : Script → Feed α) (put : Feed α → Script → Script) : Action Script α :=
  Feed.next.on feed put

def readClock (s : Script) : Binary64 × Script :=
  let (now, clock) := s.clock.read
  (now, { s with clock })

def totalTicks : TickOrigin → Action Script (List Counter)
  | .counters => next system fun f s => { s with system := f }
  | .statFile => .reading fun s => Counter.ofTicks <$> StatFile.totalTicks s.statFile
  | .times =>
    Counter.ofTicks <$>
      CpuTimes.totalTicks (next systemTimes fun f s => { s with systemTimes := f })

def tickTable : TickOrigin → Action Script (List (List Counter))
  | .counters => next processors fun f s => { s with processors := f }
  | .statFile => .reading fun s => List.map Counter.ofTicks <$> StatFile.tickTable s.statFile
  | .times =>
    List.map Counter.ofTicks <$>
      CpuTimes.tickTable (next processorTimes fun f s => { s with processorTimes := f })

def ownLoad : LoadOrigin → Action Script (Option Binary64)
  | .loads => next own fun f s => { s with own := f }
  | .percentages => Statistics.loadNow (next own fun f s => { s with own := f })

def logicalProcessors : CountOrigin → Logged Int
  | .given logical _ => pure logical
  | .statistics logical _ => Statistics.logicalProcessors logical

def physicalProcessors : CountOrigin → Logged Int
  | .given _ physical => pure physical
  | .statistics logical physical => Statistics.physicalProcessors logical physical

def machine (ticks : TickOrigin) (load : LoadOrigin) (counts : CountOrigin) : Machine Script where
  clock := readClock
  totalTicks := totalTicks ticks
  tickTable := tickTable ticks
  ownLoad := ownLoad load
  logicalProcessors := .ofLogged (logicalProcessors counts)
  physicalProcessors := .ofLogged (physicalProcessors counts)
  averages := next averages fun f s => { s with averages := f }
  identify := .reading fun s => return .ofMachine s.processorFile s.processorName s.architecture

end Script

end ProcessorLoad
