import ProcessorLoad.Fault
import ProcessorLoad.Text.Classes

/-!
# Lines of keys and values

Each line that has the separator gives a key and a value, cut at its first separator and stripped.
The first line of a key wins, and pairs keep the order in which their keys appeared.
-/

set_option autoImplicit false

namespace ProcessorLoad

/-- Pairs of distinct keys with their values, in the order of appearance. -/
abbrev Fields := List (Text × Text)

namespace Fields

def addNew (fields : Fields) (pair : Text × Text) : Fields :=
  if (fields.lookup pair.1).isSome then fields else fields ++ [pair]

def ofLine? (separator line : Text) : Option (Text × Text) :=
  (Text.splitFirst? separator line).map fun (key, value) => (Text.strip key, Text.strip value)

def ofLines (separator : Text) (lines : List Text) : Fields :=
  (lines.filterMap (ofLine? separator)).foldl addNew []

/-- The fields of the lines; no line can be cut at an empty separator. -/
def read (separator : Text) (lines : List Text) : Except Fault Fields :=
  if separator = [] ∧ lines ≠ [] then .error .emptySeparator else .ok (ofLines separator lines)

end Fields

end ProcessorLoad
