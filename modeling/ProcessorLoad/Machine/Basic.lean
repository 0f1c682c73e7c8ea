import ProcessorLoad.Identification
import ProcessorLoad.Ticks.Basic

/-!
# Machines

What the load engine asks of the machine that it runs on. A machine has a state `σ`; every reading
may change it, and all but the clock may fail.
-/

set_option autoImplicit false

namespace ProcessorLoad

inductive Counter where
  | whole (n : Int)
  | real (x : Binary64)
  deriving DecidableEq

def Counter.truncate : Counter → Except Fault Int
  | whole n => .ok n
  | real x => x.truncate

def Counter.ofTicks (ticks : Ticks) : List Counter := ticks.map whole

structure Machine (σ : Type) where
  /-- The time in milliseconds, on a clock that only tells time spans. -/
  clock : σ → Binary64 × σ
  /-- The ticks of the whole system; all zero while there is no data. -/
  totalTicks : Action σ (List Counter)
  /-- The ticks of each processor; all zero while there is no data. -/
  tickTable : Action σ (List (List Counter))
  /-- The load that the machine itself works out, if it does. -/
  ownLoad : Action σ (Option Binary64)
  logicalProcessors : Action σ Int
  physicalProcessors : Action σ Int
  /-- The system's load averages over 1, 5 and 15 minutes. -/
  averages : Action σ (List Binary64)
  identify : Action σ Identification

end ProcessorLoad
