import ProcessorLoad.Screen.Gauge

/-!
# The table of processor loads

One row for each processor, keyed by its number. The table counts the rows that it has asked for,
and updates those instead of adding them again.
-/

set_option autoImplicit false

namespace ProcessorLoad

structure Column where
  heading : Text
  key : Text
  width : Nat

structure LoadRow where
  key : Text
  bar : Text
  percentage : Text
  deriving DecidableEq

/-- The rows in the order in which they were added, and how many were asked for. -/
structure LoadTable where
  rows : List LoadRow := []
  requested : Nat := 0
  deriving DecidableEq

namespace LoadTable

def columns : List Column :=
  [⟨"CPU".toList, "cpu".toList, 5⟩, ⟨"Load".toList, "bar".toList, Gauge.width + 2⟩,
    ⟨"%".toList, "pct".toList, 8⟩]

def hasRow (rows : List LoadRow) (key : Text) : Bool := rows.any (·.key = key)

def updateRow (rows : List LoadRow) (row : LoadRow) : List LoadRow :=
  rows.map fun old => if old.key = row.key then row else old

def addRow (rows : List LoadRow) (row : LoadRow) : List LoadRow :=
  if hasRow rows row.key then rows else rows ++ [row]

/-- Shows the load of one processor; a load without a bar changes nothing. -/
def showLoad (requested : Nat) (rows : List LoadRow) (load : Binary64 × Nat) : List LoadRow :=
  match Gauge.bar load.1 Gauge.green with
  | .error _ => rows
  | .ok bar =>
    let row : LoadRow := ⟨Text.numeral load.2, bar, Gauge.percentage load.1⟩
    if load.2 < requested then updateRow rows row else addRow rows row

def update (loads : List Binary64) (t : LoadTable) : LoadTable where
  rows := loads.zipIdx.foldl (showLoad t.requested) t.rows
  requested := max t.requested loads.length

end LoadTable

end ProcessorLoad
