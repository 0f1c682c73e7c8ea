import ProcessorLoad.Text.Quoted

/-!
# Faults

Why a computation stopped. `Fault.message` is the one place for the wording.
-/

set_option autoImplicit false

namespace ProcessorLoad

inductive Failure where
  | system
  | permission
  /-- The machine does not offer the call. -/
  | unsupported
  /-- The call does not exist on this machine. -/
  | missing
  | runtime
  /-- The call met a value that it cannot use. -/
  | value
  | statistics
  | statisticsAccess
  deriving DecidableEq

namespace Failure

def isSystem (f : Failure) : Bool := f = system || f = permission

def isStatistics (f : Failure) : Bool := f = statistics || f = statisticsAccess

end Failure

inductive Fault where
  | notWhole (text : Text)
  /-- The text starts with a whole number of more digits than are read. -/
  | tooManyDigits (count : Nat)
  | notNumber (text : Text)
  /-- The text is a number, but no finite one. -/
  | notFinite (text : Text)
  /-- The text is none of the words for true and false. -/
  | notFlag (text : Text)
  | unknownLevel (name : Text)
  | emptySeparator
  /-- A count of load averages outside one to three. -/
  | averageCount
  | wholeOfNaN
  | wholeOfInfinity
  /-- The quotient of two whole numbers is beyond every double. -/
  | quotientOverflow
  | shortRecord
  | shortList
  /-- A bound above the largest one that a queue can have. -/
  | boundOverflow
  /-- An interface of the machine failed. -/
  | machine (failure : Failure) (message : Text)
  deriving DecidableEq

namespace Fault

/-- The most digits of a whole number that are read. -/
def digitLimit : Nat := 4300

/-- The most characters of a quoted text in a message about whole numbers. -/
def quotedLimit : Nat := 200

def message : Fault → Text
  | notWhole text =>
    "invalid literal for int() with base 10: ".toList ++ text.quoted.take quotedLimit
  | tooManyDigits count =>
    "Exceeds the limit (".toList ++ Text.numeral digitLimit
      ++ " digits) for integer string conversion: value has ".toList ++ Text.numeral count
      ++ " digits; use sys.set_int_max_str_digits() to increase the limit".toList
  | notNumber text => "could not convert string to float: ".toList ++ text.quoted
  | notFinite text => "not a finite number: ".toList ++ text.quoted
  | notFlag text => "not a boolean: ".toList ++ text.quoted
  | unknownLevel name => "Level '".toList ++ name ++ "' does not exist".toList
  | emptySeparator => "empty separator".toList
  | averageCount => "Must include from one to three elements.".toList
  | wholeOfNaN => "cannot convert float NaN to integer".toList
  | wholeOfInfinity => "cannot convert float infinity to integer".toList
  | quotientOverflow => "integer division result too large for a float".toList
  | shortRecord => "tuple index out of range".toList
  | shortList => "list index out of range".toList
  | boundOverflow => "Python int too large to convert to C ssize_t".toList
  | machine _ message => message

end Fault

end ProcessorLoad
