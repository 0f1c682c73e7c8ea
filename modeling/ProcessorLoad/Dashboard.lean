import ProcessorLoad.Screen.Header
import ProcessorLoad.Screen.LoadTable
import ProcessorLoad.Screen.Sparklines

/-!
# The dashboard

A recorder and the screen that shows its newest report. Every check empties the queue, so the screen
never falls behind.
-/

set_option autoImplicit false

namespace ProcessorLoad

inductive Panel where
  | header
  | table
  | history
  deriving DecidableEq

structure Dashboard (σ : Type) where
  recorder : Recorder σ
  header : Header := none
  table : LoadTable := {}
  history : HistoryPanel := {}
  /-- The name of the processor, once it is shown. -/
  processorName : Text := []
  /-- The panels that are gone from the screen. -/
  lost : List Panel := []
  /-- The times between two checks that were asked for, in seconds. -/
  refreshIntervals : List Binary64 := []
  exits : Nat := 0

namespace Dashboard
variable {σ α : Type}

def title : Text := "cpuload".toList

def subject : Text := "CPU Load Monitor".toList

def subtitle (d : Dashboard σ) : Text :=
  if d.processorName = [] then subject else subject ++ " - ".toList ++ d.processorName

def refreshInterval : Binary64 := .ofDecimal false 5 1 (-1)

def new (meter : Meter σ) (settings : Settings) : Except Fault (Dashboard σ) := do
  return { recorder := ← Recorder.new meter settings.pollRate settings.historySize }

def onRecorder (a : Action (Recorder σ) α) : Action (Dashboard σ) α :=
  a.on recorder fun s dashboard => { dashboard with recorder := s }

/-- Shows the dashboard: names the processor and starts polling and checking. -/
def present (m : Machine σ) : Action (Dashboard σ) Unit := do
  let name ← onRecorder (Recorder.onMeter (Meter.name m))
  unless name = [] do
    Action.modify fun d => { d with processorName := name }
  let _ ← onRecorder (Recorder.start m)
  Action.modify fun d => { d with refreshIntervals := d.refreshIntervals ++ [refreshInterval] }

/-- The screen with a report in the panels up to the first one that is lost. -/
def showReport (assignment : Assignment) (report : LoadReport) (d : Dashboard σ) : Dashboard σ :=
  if .header ∈ d.lost then d
  else
    let d := { d with header := some report.figures }
    if .table ∈ d.lost then d
    else
      let d := { d with table := d.table.update report.perProcessor }
      if .history ∈ d.lost then d
      else { d with history := d.history.update assignment d.recorder.history }

/-- Empties the queue and shows its newest report; a lost panel is logged. -/
def check (assignment : Assignment) : Action (Dashboard σ) Unit := do
  match (← onRecorder Recorder.drain).getLast? with
  | none => return ()
  | some report =>
    Action.modify (showReport assignment report)
    unless (← Action.get).lost = [] do
      Action.note .error

def quit : Action (Dashboard σ) Unit := do
  onRecorder Recorder.stop
  Action.modify fun d => { d with exits := d.exits + 1 }

structure Launch (σ : Type) where
  settings : Settings
  dashboard : Dashboard σ
  levels : List LogLevel

/-- Starts from the environment: settings, log, meter, recorder and screen, in this order. -/
def launch (m : Machine σ) (environment : Settings.Environment) : Action σ (Launch σ) := do
  let settings ← Action.ofLogged (Settings.fromEnvironment environment)
  let levels ← Action.ofExcept (Settings.shownLevels settings.logLevel)
  let meter ← Meter.setUp m settings none
  let dashboard ← Action.ofExcept (new meter settings)
  return { settings, dashboard, levels }

end Dashboard

end ProcessorLoad
