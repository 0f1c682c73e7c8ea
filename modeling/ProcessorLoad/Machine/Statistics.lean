import ProcessorLoad.Action
import ProcessorLoad.Number.Binary64

/-!
# The load and the counts that process statistics give

A percentage becomes a load between 0 and 1, and unknown processor counts become counts that can be
worked with.
-/

set_option autoImplicit false

namespace ProcessorLoad.Statistics

variable {σ : Type}

def ofPercent (percent : Binary64) : Binary64 := ((percent / 100).max 0).min 1

/-- Whether a failure to give a percentage means that there is none. -/
def isAbsent (f : Failure) : Bool := f.isStatistics || f.isSystem || f = .unsupported

/-- The load at this moment; none if there is no percentage or it is not a number. -/
def loadNow (ask : Action σ (Option Binary64)) : Action σ (Option Binary64) := do
  match ← ask.attempt with
  | .ok (some percent) => return if percent.isNaN then none else some (ofPercent percent)
  | .ok none => return none
  | .error (.machine failure message) =>
    if isAbsent failure then return none else Action.fail (.machine failure message)
  | .error fault => Action.fail fault

def known? : Option Int → Option Int
  | some n => if n = 0 then none else some n
  | none => none

/-- The number of logical processors; 1 with a warning if it is unknown. -/
def logicalProcessors (logical : Option Int) : Logged Int :=
  match known? logical with
  | some n => pure n
  | none => Logged.note .warning 1

def physicalProcessors (logical physical : Option Int) : Logged Int :=
  match known? physical with
  | some n => pure n
  | none => logicalProcessors logical

end ProcessorLoad.Statistics
