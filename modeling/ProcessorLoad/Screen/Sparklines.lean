import ProcessorLoad.Number.Binary64
import ProcessorLoad.Text.Basic

/-!
# Sparklines

The recent loads of each processor, one line for each. Lines are added as processors appear and
never taken away.
-/

set_option autoImplicit false

namespace ProcessorLoad

/-- The history of loads by processor instead of by poll: as many series as the longest list has
loads, each with one value for each poll, 0 where the poll has no load of that processor. -/
def seriesByProcessor (history : List (List Binary64)) : List (List Binary64) :=
  let width := (history.map List.length).foldl max 0
  (List.range width).map fun cpu => history.map fun loads => loads.getD cpu 0

structure Sparkline where
  id : Text
  data : List Binary64
  deriving DecidableEq

def Sparkline.ofCpu (cpu : Nat) : Sparkline := ⟨"history-".toList ++ Text.numeral cpu, []⟩

/-- How the widgets take an assignment: what a line shows after it, by what it showed and the series
that it was given. -/
abbrev Assignment := List Binary64 → List Binary64 → List Binary64

namespace Assignment

def plain : Assignment := fun _ series => series

/-- A series equal to the one shown is not taken over, so the zeros keep the signs that they are
shown with. -/
def comparing : Assignment := fun shown series =>
  if shown.isEqv series Binary64.eq then shown else series

end Assignment

structure HistoryRow where
  label : Text
  line : Text
  deriving DecidableEq

structure HistoryPanel where
  lines : List Sparkline := []
  rows : List HistoryRow := []
  deriving DecidableEq

namespace HistoryPanel

def mount (panel : HistoryPanel) (cpu : Nat) : HistoryPanel :=
  let line := Sparkline.ofCpu cpu
  { lines := panel.lines ++ [line]
    rows := panel.rows ++ [⟨"cpu".toList ++ Text.numeral cpu, line.id⟩] }

def assign (assignment : Assignment) (series : List (List Binary64)) (panel : HistoryPanel) :
    HistoryPanel :=
  { panel with lines := panel.lines.mapIdx fun cpu line =>
      { line with data := series[cpu]?.elim line.data (assignment line.data) } }

/-- Shows a history: mounts the lines that are missing, then assigns the series. -/
def update (assignment : Assignment) (history : List (List Binary64)) (panel : HistoryPanel) :
    HistoryPanel :=
  let series := seriesByProcessor history
  let missing := List.range' panel.lines.length (series.length - panel.lines.length)
  (missing.foldl mount panel).assign assignment series

end HistoryPanel

end ProcessorLoad
