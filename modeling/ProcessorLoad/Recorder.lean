import ProcessorLoad.Meter

/-!
# Recording loads

A recorder polls a meter. Each poll that succeeds puts a report at the end of a queue; the loads of
the processors also go into a history of bounded length.
-/

set_option autoImplicit false

namespace ProcessorLoad

structure LoadReport where
  instant : Binary64
  sampled : Binary64
  perProcessor : List Binary64
  averages : List Binary64
  basis : LoadBasis
  processors : Int
  deriving DecidableEq

structure Recorder (σ : Type) where
  meter : Meter σ
  /-- The time between two polls, in seconds. -/
  pollRate : Binary64
  /-- The most lists of loads that the history keeps. -/
  capacity : Nat
  /-- The loads of the processors, oldest first. -/
  history : List (List Binary64) := []
  /-- The reports that were not taken yet, oldest first. -/
  queue : List LoadReport := []
  running : Bool := false

namespace Recorder
variable {σ α : Type}

/-- A history cannot be bounded by this or more. -/
def capacityLimit : Nat := twoPow 63

def admitPollRate (rate : Binary64) : Binary64 := Settings.leastPollRate.max rate

def new (meter : Meter σ) (pollRate : Binary64) (historySize : Int) :
    Except Fault (Recorder σ) :=
  let capacity := (max 1 historySize).toNat
  if capacity < capacityLimit then .ok { meter, pollRate := admitPollRate pollRate, capacity }
  else .error .boundOverflow

def setPollRate (rate : Binary64) (r : Recorder σ) : Recorder σ :=
  { r with pollRate := admitPollRate rate }

def onMeter (a : Action (Meter σ) α) : Action (Recorder σ) α :=
  a.on meter fun s recorder => { recorder with meter := s }

/-- Adds a list of loads to the history, which drops its oldest one when it is full. -/
def remember (loads : List Binary64) : Action (Recorder σ) Unit :=
  Action.modify fun r =>
    let history := r.history ++ [loads]
    { r with history := history.drop (history.length - r.capacity) }

/-- A report of the loads. The loads of the processors go into the history before the rest is
read. -/
def collect (m : Machine σ) : Action (Recorder σ) LoadReport := do
  let perProcessor ← onMeter (Meter.perProcessor m)
  remember perProcessor
  let averages ← onMeter (Meter.averages m 3)
  let instant ← onMeter (Meter.instant m)
  let sampled ← onMeter (Meter.sampled m)
  let averages ← Action.ofExcept ([0, 1, 2].mapM (Meter.item averages))
  let meter := (← Action.get).meter
  return { instant, sampled, perProcessor, averages, basis := meter.basis,
           processors := meter.logicalProcessors }

/-- Collects a report into the queue; false, and logged, if that failed. -/
def poll (m : Machine σ) : Action (Recorder σ) Bool := do
  match ← (collect m).attempt with
  | .ok report =>
    Action.modify fun r => { r with queue := r.queue ++ [report] }
    return true
  | .error _ =>
    Action.note .error
    return false

def drain : Action (Recorder σ) (List LoadReport) := do
  let queue := (← Action.get).queue
  Action.modify fun r => { r with queue := [] }
  return queue

/-- Starts polling, with a first poll at once; false if it was already under way. -/
def start (m : Machine σ) : Action (Recorder σ) Bool := do
  if (← Action.get).running then return false
  Action.modify fun r => { r with running := true }
  let _ ← poll m
  return true

def stop : Action (Recorder σ) Unit := Action.modify fun r => { r with running := false }

end Recorder

end ProcessorLoad
