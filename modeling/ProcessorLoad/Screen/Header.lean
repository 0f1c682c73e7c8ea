import ProcessorLoad.Recorder
import ProcessorLoad.Screen.Gauge

/-!
# The header

The loads of the whole system, as text.
-/

set_option autoImplicit false

namespace ProcessorLoad

structure Figures where
  instant : Binary64
  sampled : Binary64
  averages : List Binary64
  basis : LoadBasis
  deriving DecidableEq

def LoadReport.figures (s : LoadReport) : Figures :=
  ⟨s.instant, s.sampled, s.averages, s.basis⟩

namespace LoadBasis

def name : LoadBasis → Text
  | own => "native".toList
  | ticks => "ticks".toList

end LoadBasis

abbrev Header := Option Figures

namespace Header

def figure (xs : List Binary64) (i : Nat) : Except Fault Binary64 :=
  match xs[i]? with
  | some x => .ok x
  | none => .error .shortRecord

/-- The load averages with two places each; a negative first one says that there are none. -/
def averagesText (averages : List Binary64) : Except Fault Text := do
  let one ← figure averages 0
  if one.lt 0 then return "n/a".toList
  let five ← figure averages 1
  let fifteen ← figure averages 2
  return one.fixed 2 ++ ' ' :: five.fixed 2 ++ ' ' :: fifteen.fixed 2

def gaugeLine (label : Text) (load : Binary64) (color : Text) : Except Fault Text := do
  return label ++ " \\[".toList ++ (← Gauge.bar load color) ++ "] ".toList ++ Gauge.percentage load

def figuresText (f : Figures) : Except Fault Text := do
  let averages ← averagesText f.averages
  let load ← gaugeLine "Load ".toList f.instant Gauge.green
  let ticks ← gaugeLine "Ticks".toList f.sampled Gauge.cyan
  return load ++ " (".toList ++ f.basis.name ++ ")\n".toList
    ++ ticks ++ "\nLoad average: ".toList ++ averages

def text : Header → Except Fault Text
  | none => .ok "Loading CPU load...".toList
  | some figures => figuresText figures

end Header

end ProcessorLoad
