import ProcessorLoad.Action
import ProcessorLoad.Text.Classes

/-!
# Files

What a path holds, and its lines. A file that cannot be read has no lines.
-/

set_option autoImplicit false

namespace ProcessorLoad

inductive FileState where
  | missing
  | directory
  | holding (bytes : ByteArray)

namespace FileState

def text? : FileState → Option Text
  | holding bytes => bytes.utf8Decode?.map Array.toList
  | _ => none

def reportLevel : FileState → LogLevel
  | missing => .warning
  | _ => .error

/-- The lines of a file; `report` tells whether an unreadable one is logged. -/
def lines (file : FileState) (report : Bool) : Logged (List Text) :=
  match file.text? with
  | some t => pure (Text.lines t)
  | none => ⟨[], if report then [file.reportLevel] else []⟩

end FileState

end ProcessorLoad
