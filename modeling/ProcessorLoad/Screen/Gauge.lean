import ProcessorLoad.Number.Decimal
import ProcessorLoad.Number.Binary64

/-!
# Gauges

A load as a bar of fixed width and as a percentage.
-/

set_option autoImplicit false

namespace ProcessorLoad.Gauge

def width : Nat := 20

def filledCell (color : Text) : Text :=
  '[' :: color ++ "]█[/".toList ++ color ++ [']']

def emptyCell : Text := "[dim]░[/dim]".toList

/-- How many cells a load fills: twenty times the load, toward zero, held between none and all. -/
def filledCells (load : Binary64) : Except Fault Nat := do
  let cells ← (load * .ofNat width).truncate
  return (min (max cells 0) width).toNat

def barOf (color : Text) (filled : Nat) : Text :=
  (List.replicate filled (filledCell color) ++ List.replicate (width - filled) emptyCell).flatten

def bar (load : Binary64) (color : Text) : Except Fault Text := barOf color <$> filledCells load

def percentage (load : Binary64) : Text := Text.padLeft 5 ((load * 100).fixed 1) ++ ['%']

def green : Text := "green".toList

def cyan : Text := "cyan".toList

end ProcessorLoad.Gauge
