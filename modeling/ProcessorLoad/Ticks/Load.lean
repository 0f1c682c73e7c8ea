import ProcessorLoad.Fault
import ProcessorLoad.Number.Binary64
import ProcessorLoad.Ticks.Basic

/-!
# Loads from ticks

The load between two readings is the share of the elapsed ticks that was neither idle nor waiting
for input and output.
-/

set_option autoImplicit false

namespace ProcessorLoad

namespace Ticks

def counter (t : Ticks) (k : TickKind) : Except Fault Int :=
  match t[k.index]? with
  | some n => .ok n
  | none => .error .shortRecord

def idle (t : Ticks) : Except Fault Int := do
  let waiting ← t.counter .idle
  return waiting + (← t.counter .iowait)

/-- The ticks between two readings, over the kinds that both have. -/
def elapsed (previous current : Ticks) : Int :=
  (List.zipWith (fun before after => after - before) previous current).foldr (· + ·) 0

def share (part : Int) (whole : Nat) : Except Fault Binary64 :=
  let x := Binary64.quotient part whole
  if x.isFinite then .ok x else .error .quotientOverflow

/-- The load between two readings: 0 where no tick went by or idle time ran backwards. -/
def load (previous current : Ticks) : Except Fault Binary64 := do
  let total := elapsed previous current
  let idleNow ← current.idle
  let idle := idleNow - (← previous.idle)
  if 0 < total ∧ 0 ≤ idle then share (total - idle) total.toNat else return 0

end Ticks

def TickTable.loads (previous current : TickTable) : Except Fault (List Binary64) :=
  (List.zip previous current).mapM fun (before, after) => Ticks.load before after

end ProcessorLoad
