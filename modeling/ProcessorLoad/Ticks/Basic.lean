import ProcessorLoad.Text.Basic

/-!
# Ticks

A processor's cumulative counters, one for each kind of time, and the table of one such record for
each logical processor. Records keep the order of `TickKind.all`.
-/

set_option autoImplicit false

namespace ProcessorLoad

inductive TickKind where
  | user
  | nice
  | system
  | idle
  | iowait
  | irq
  | softirq
  deriving DecidableEq

namespace TickKind

def all : List TickKind := [user, nice, system, idle, iowait, irq, softirq]

def count : Nat := all.length

def index : TickKind → Nat
  | user => 0
  | nice => 1
  | system => 2
  | idle => 3
  | iowait => 4
  | irq => 5
  | softirq => 6

def name : TickKind → Text
  | user => "USER".toList
  | nice => "NICE".toList
  | system => "SYSTEM".toList
  | idle => "IDLE".toList
  | iowait => "IOWAIT".toList
  | irq => "IRQ".toList
  | softirq => "SOFTIRQ".toList

end TickKind

/-- Counters in the order of `TickKind.all`. -/
abbrev Ticks := List Int

abbrev TickTable := List Ticks

namespace Ticks

def zero : Ticks := List.replicate TickKind.count 0

/-- Whether every counter is zero: no data yet. -/
def isZero (t : Ticks) : Bool := t.all (· == 0)

/-- Exactly one counter for each kind: what is missing is zero, what is too much is dropped. -/
def fit (t : Ticks) : Ticks :=
  t.take TickKind.count ++ List.replicate (TickKind.count - t.length) 0

@[simp] theorem length_fit (t : Ticks) : (fit t).length = TickKind.count := by
  simp only [fit, List.length_append, List.length_take, List.length_replicate]
  omega

end Ticks

namespace TickTable

def zero (rows : Nat) : TickTable := List.replicate rows Ticks.zero

def isZero (m : TickTable) : Bool := m.all Ticks.isZero

end TickTable

end ProcessorLoad
