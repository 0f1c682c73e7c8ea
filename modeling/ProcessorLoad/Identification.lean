import ProcessorLoad.Action
import ProcessorLoad.Frequency
import ProcessorLoad.KeyValue
import ProcessorLoad.Machine.File

/-!
# Identification of a processor

Vendor, name, family, model and stepping, with an identifier text that is built from them or that
they are read back from. What is not known yet is worked out when it is first read, and kept.
-/

set_option autoImplicit false

namespace ProcessorLoad

structure Identification where
  vendor : Option Text := none
  name : Option Text := none
  is64Bit : Option Bool := none
  vendorFrequency : Option Int := none
  identifier : Option Text := none
  family : Option Text := none
  model : Option Text := none
  stepping : Option Text := none
  deriving DecidableEq

namespace Identification

/-- A field: the value that is known, or else one worked out now and kept. -/
def memo {α : Type} (known : Identification → Option α)
    (keep : α → Identification → Identification) (workOut : Action Identification α) :
    Action Identification α := do
  match known (← Action.get) with
  | some a => return a
  | none =>
    let a ← workOut
    Action.modify (keep a)
    return a

def readVendor : Action Identification Text :=
  memo vendor (fun v i => { i with vendor := some v }) (return [])

def readName : Action Identification Text :=
  memo name (fun v i => { i with name := some v }) (return [])

def readIs64Bit : Action Identification Bool :=
  memo is64Bit (fun v i => { i with is64Bit := some v }) (return false)

/-- What stands behind `@ ` at the head of a text, up to the end of the text or to a line feed that
ends it. -/
def ratedAtHead? : Text → Option Text
  | '@' :: ' ' :: r =>
    let rest := r.dropWhile (· ≠ '\n')
    if rest = [] ∨ rest = ['\n'] then some (r.takeWhile (· ≠ '\n')) else none
  | _ => none

def rated? : Text → Option Text
  | [] => none
  | c :: r => (ratedAtHead? (c :: r)).orElse fun _ => rated? r

/-- The vendor's frequency in hertz, from the end of the name; -1 if the name has none. -/
def readVendorFrequency : Action Identification Int :=
  memo vendorFrequency (fun v i => { i with vendorFrequency := some v }) do
    match rated? (← readName) with
    | some text => Action.ofExcept (Frequency.read text)
    | none => return -1

/-- The word after the first occurrence of `key` that has a word after it; empty if there is none.
-/
def wordAfter (key text : Text) : Text :=
  let words := Text.words text
  ((words.zip words.tail).lookup key).getD []

/-- A part of the identifier: the part itself if known, else what the identifier says; a question
mark, not kept, if there is no identifier either. -/
def readPart (known : Identification → Option Text)
    (keep : Text → Identification → Identification) (key : Text) : Action Identification Text := do
  let i ← Action.get
  match known i, i.identifier with
  | some v, _ => return v
  | none, none => return ['?']
  | none, some text =>
    let v := wordAfter key text
    Action.modify (keep v)
    return v

def familyKey : Text := "Family".toList

def modelKey : Text := "Model".toList

def steppingKey : Text := "Stepping".toList

def readFamily : Action Identification Text :=
  readPart family (fun v i => { i with family := some v }) familyKey

def readModel : Action Identification Text :=
  readPart model (fun v i => { i with model := some v }) modelKey

def readStepping : Action Identification Text :=
  readPart stepping (fun v i => { i with stepping := some v }) steppingKey

/-- The vendor whose processors are identified by their architecture instead. -/
def intelVendor : Text := "GenuineIntel".toList

def readIdentifierHead : Action Identification Text := do
  let vendor ← readVendor
  if vendor = intelVendor then
    return if ← readIs64Bit then "Intel64".toList else "x86".toList
  else return vendor

def identifierText (head family model stepping : Text) : Text :=
  head ++ ' ' :: familyKey ++ ' ' :: family ++ ' ' :: modelKey ++ ' ' :: model
    ++ ' ' :: steppingKey ++ ' ' :: stepping

def readIdentifier : Action Identification Text :=
  memo identifier (fun v i => { i with identifier := some v }) do
    let head ← readIdentifierHead
    let family ← readFamily
    let model ← readModel
    return identifierText head family model (← readStepping)

def firstBlock (lines : List Text) : List Text :=
  (lines.dropWhile (·.all Text.isBlank)).takeWhile (!·.all Text.isBlank)

def ofFields (fields : Fields) : Identification where
  vendor := fields.lookup "vendor_id".toList
  name := fields.lookup "model name".toList
  family := fields.lookup "cpu family".toList
  model := fields.lookup "model".toList
  stepping := fields.lookup "stepping".toList
  is64Bit :=
    some ((Text.words ((fields.lookup "flags".toList).getD [])).contains "lm".toList)

def ofLines (lines : List Text) : Identification := ofFields (.ofLines [':'] (firstBlock lines))

def names64Bit : List Text :=
  ["x86_64".toList, "amd64".toList, "arm64".toList, "aarch64".toList]

/-- The identification from the names of the processor and of its architecture. Outside the basic
alphabet no letter has one of the letters of `names64Bit` as its lower case. -/
def ofNames (processor architecture : Text) : Identification where
  name := some processor
  is64Bit := some (names64Bit.contains (architecture.map Numeral.lowerLetter))

/-- The identification of a machine: from the file with the processor table if it has lines, else
from the names that the machine gives. -/
def ofMachine (file : FileState) (processor architecture : Text) : Identification :=
  match (file.lines false).value with
  | [] => ofNames processor architecture
  | lines => ofLines lines

end Identification

end ProcessorLoad
