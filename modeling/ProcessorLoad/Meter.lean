import ProcessorLoad.Settings
import ProcessorLoad.Ticks.Watch

/-!
# The load meter

One processor's loads. The instant load of the system comes from the machine's own load where the
machine had one when the meter was set up, and from ticks otherwise; the other loads always come
from ticks. Which of the two it is never changes afterwards.
-/

set_option autoImplicit false

namespace ProcessorLoad

inductive LoadBasis where
  | own
  | ticks
  deriving DecidableEq

/-- The machine's own load and the time it was read at, in milliseconds. -/
structure OwnReading where
  load : Binary64
  time : Binary64
  deriving DecidableEq

structure Meter (σ : Type) where
  settings : Settings
  logicalProcessors : Int
  physicalProcessors : Int
  /-- The last reading of the machine's own load, if it had one at the start. -/
  own : Option OwnReading
  identity : Option Identification
  watch : TickWatch σ

namespace Meter
variable {σ α : Type}

def basis (meter : Meter σ) : LoadBasis := if meter.own.isSome then .own else .ticks

def onWatch (a : Action (TickWatch σ) α) : Action (Meter σ) α :=
  a.on watch fun s meter => { meter with watch := s }

def onMachine (a : Action σ α) : Action (Meter σ) α := onWatch (TickWatch.onMachine a)

/-- The first reading of the machine's own load: none if it is not wanted or the machine has none.
Its time is read after it. -/
def probeOwnLoad (m : Machine σ) (settings : Settings) : Action σ (Option OwnReading) := do
  if !settings.useOwnLoad then return none
  match ← m.ownLoad with
  | none => return none
  | some load => return some ⟨load, ← .ofState m.clock⟩

def setUp (m : Machine σ) (settings : Settings) (identity : Option Identification) :
    Action σ (Meter σ) := do
  let logicalProcessors := max 1 (← m.logicalProcessors)
  let physicalProcessors := max 1 (← m.physicalProcessors)
  let own ← probeOwnLoad m settings
  let watch ← TickWatch.start m logicalProcessors
  return { settings, logicalProcessors, physicalProcessors, own, identity, watch }

/-- The machine's own load: the kept one within its interval, else a new reading. A reading that is
absent or not a number keeps the old load, but counts as a reading. -/
def ownLoad (m : Machine σ) (kept : OwnReading) : Action (Meter σ) Binary64 := do
  let now ← onMachine (.ofState m.clock)
  let meter ← Action.get
  if (now - kept.time).lt meter.settings.ownInterval then return kept.load
  let load :=
    match ← onMachine m.ownLoad with
    | some x => if x.isNaN then kept.load else x
    | none => kept.load
  Action.modify fun meter => { meter with own := some ⟨load, now⟩ }
  return load

def sampled (m : Machine σ) : Action (Meter σ) Binary64 := do
  let interval := (← Action.get).settings.tickInterval
  let _ ← onWatch (TickWatch.refreshIfDue m .system interval)
  Action.ofExcept (← Action.get).watch.system.load

def perProcessor (m : Machine σ) : Action (Meter σ) (List Binary64) := do
  let interval := (← Action.get).settings.tickInterval
  let _ ← onWatch (TickWatch.refreshIfDue m .processors interval)
  Action.ofExcept (← Action.get).watch.processors.loads

def instant (m : Machine σ) : Action (Meter σ) Binary64 := do
  match (← Action.get).own with
  | some kept => ownLoad m kept
  | none => sampled m

def lacksAverages (f : Failure) : Bool := f.isSystem || f = .missing

def absentAverages : List Binary64 := [-1, -1, -1]

/-- The first `n` load averages of the system, over 1, 5 and 15 minutes. -/
def averages (m : Machine σ) (n : Int) : Action (Meter σ) (List Binary64) := do
  if n < 1 ∨ 3 < n then Action.fail .averageCount
  match ← (onMachine m.averages).attempt with
  | .ok averages => return averages.take n.toNat
  | .error (.machine failure message) =>
    if lacksAverages failure then do
      Action.note .warning
      return absentAverages.take n.toNat
    else Action.fail (.machine failure message)
  | .error fault => Action.fail fault

def item (xs : List Binary64) (i : Nat) : Except Fault Binary64 :=
  match xs[i]? with
  | some x => .ok x
  | none => .error .shortList

def oneMinuteAverage (m : Machine σ) : Action (Meter σ) Binary64 := do
  Action.ofExcept (item (← averages m 1) 0)

def identify (m : Machine σ) : Action (Meter σ) Unit := do
  if (← Action.get).identity.isNone then
    let known ← onMachine m.identify
    Action.modify fun meter => { meter with identity := some known }

/-- A reading of the processor's identification, which the machine gives when it is first asked. -/
def onIdentity (m : Machine σ) (a : Action Identification α) : Action (Meter σ) α := do
  identify m
  a.on (·.identity.getD {}) fun known meter => { meter with identity := some known }

def name (m : Machine σ) : Action (Meter σ) Text := onIdentity m Identification.readName

end Meter

end ProcessorLoad
