import ProcessorLoad.Machine.File
import ProcessorLoad.Number.Numeral
import ProcessorLoad.Ticks.Basic

/-!
# The table of processor statistics

A line `cpu` with the counters of the whole system, and a line `cpuN` for each processor. A line
that does not read is logged and left out.
-/

set_option autoImplicit false

namespace ProcessorLoad.StatFile

/-- Label and counters of a line. Missing counters are zero, further columns are not read. -/
def readRow (line : Text) : Except Fault (Text × Ticks) := do
  let columns := Text.words line
  let counters ← (columns.tail.take TickKind.count).mapM Numeral.readWhole
  match columns.head? with
  | some label => return (label, Ticks.fit counters)
  | none => .error .shortList

def labelStem : Text := "cpu".toList

def counterLines (file : FileState) : Logged (List Text) :=
  return (← file.lines true).filter labelStem.isPrefixOf

def isTotal (line : Text) : Bool := (labelStem ++ [' ']).isPrefixOf line

/-- The counters of the whole system: those of the first such line, zero where it does not read. -/
def totalTicks (file : FileState) : Logged Ticks := do
  match (← counterLines file).find? isTotal with
  | none => return Ticks.zero
  | some line =>
    match readRow line with
    | .ok (_, ticks) => return ticks
    | .error _ => Logged.note .error Ticks.zero

def readProcessorRow (line : Text) : Except Fault (Int × Ticks) := do
  let (label, ticks) ← readRow line
  return (← Numeral.readWhole (label.drop labelStem.length), ticks)

/-- One record for each number up to the largest: the last row of that number, zero without one. -/
def layOut (rows : List (Int × Ticks)) : TickTable :=
  match (rows.map Prod.fst).max? with
  | none => []
  | some top =>
    let newestFirst := rows.reverse
    (List.range (top + 1).toNat).map fun (i : Nat) => (newestFirst.lookup (i : Int)).getD Ticks.zero

def tickTable (file : FileState) : Logged TickTable := do
  let lines := (← counterLines file).filter (!isTotal ·)
  let rows := lines.filterMap fun line => (readProcessorRow line).toOption
  ⟨layOut rows, List.replicate (lines.length - rows.length) .error⟩

def platformStem : Text := "linux".toList

/-- Whether ticks are read from the file on this platform: where it has lines. -/
def serves (platform : Text) (file : FileState) : Bool :=
  platformStem.isPrefixOf platform && !(file.lines false).value.isEmpty

end ProcessorLoad.StatFile
