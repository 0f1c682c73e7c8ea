import ProcessorLoad.Text.Basic

/-!
# Log levels

The named levels of the log, from the finest to the gravest.
-/

set_option autoImplicit false

namespace ProcessorLoad

inductive LogLevel where
  | trace
  | debug
  | info
  | success
  | warning
  | error
  | critical
  deriving DecidableEq

namespace LogLevel

def all : List LogLevel := [trace, debug, info, success, warning, error, critical]

def severity : LogLevel → Nat
  | trace => 5
  | debug => 10
  | info => 20
  | success => 25
  | warning => 30
  | error => 40
  | critical => 50

def name : LogLevel → Text
  | trace => "TRACE".toList
  | debug => "DEBUG".toList
  | info => "INFO".toList
  | success => "SUCCESS".toList
  | warning => "WARNING".toList
  | error => "ERROR".toList
  | critical => "CRITICAL".toList

def ofName? (name : Text) : Option LogLevel := all.find? (·.name = name)

theorem ofName?_name (level : LogLevel) : ofName? level.name = some level := by
  cases level <;> decide

theorem name_of_ofName? {name : Text} {level : LogLevel} (h : ofName? name = some level) :
    level.name = name := by
  simpa using List.find?_some h

/-- The levels that pass a log which lets through `threshold` and what is graver. -/
def passing (threshold : LogLevel) : List LogLevel :=
  all.filter (threshold.severity ≤ ·.severity)

end LogLevel

end ProcessorLoad
