import ProcessorLoad.Action
import ProcessorLoad.Number.Binary64
import ProcessorLoad.Ticks.Basic

/-!
# Ticks from times in seconds

Process statistics give the time spent on each kind of work in seconds, by name, and names differ
between systems. Ticks are whole milliseconds.
-/

set_option autoImplicit false

namespace ProcessorLoad

/-- Seconds by the name of the work. -/
abbrev CpuTimes := List (Text × Binary64)

namespace CpuTimes

/-- The names of a kind of work; the first that is present counts. -/
def names : TickKind → List Text
  | .user => ["user".toList]
  | .nice => ["nice".toList]
  | .system => ["system".toList]
  | .idle => ["idle".toList]
  | .iowait => ["iowait".toList]
  | .irq => ["irq".toList, "interrupt".toList]
  | .softirq => ["softirq".toList, "dpc".toList]

def seconds (times : CpuTimes) (k : TickKind) : Binary64 :=
  ((names k).findSome? fun name => List.lookup name times).getD 0

def milliseconds (times : CpuTimes) (k : TickKind) : Except Fault Int :=
  (times.seconds k * 1000).round

def ticks (times : CpuTimes) : Except Fault Ticks := TickKind.all.mapM times.milliseconds

def isAbsorbed (f : Failure) : Bool := f.isStatistics || f.isSystem

variable {σ α β : Type}

/-- Converts what the statistics answer; an absorbed failure is logged and gives `empty`. -/
def convert (ask : Action σ α) (f : α → Except Fault β) (empty : β) : Action σ β := do
  match ← ask.attempt with
  | .ok times => Action.ofExcept (f times)
  | .error (.machine failure message) =>
    if isAbsorbed failure then do
      Action.note .error
      return empty
    else Action.fail (.machine failure message)
  | .error fault => Action.fail fault

def totalTicks (ask : Action σ CpuTimes) : Action σ Ticks := convert ask ticks Ticks.zero

def tickTable (ask : Action σ (List CpuTimes)) : Action σ TickTable :=
  convert ask (·.mapM ticks) []

end CpuTimes

end ProcessorLoad
