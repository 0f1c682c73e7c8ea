import ProcessorLoad.Dashboard
import ProcessorLoad.Machine.Local

/-!
# The command line

Shows the loads of the local machine in the terminal until a line that starts with `q` comes in.
-/

set_option autoImplicit false

namespace ProcessorLoad.Terminal

def readFile (path : String) : IO FileState := do
  try
    return .holding (← IO.FS.readBinFile path)
  catch _ => return .missing

def readMachine : IO LocalReadings := do
  return {
    now := .ofNat (← IO.monoMsNow)
    statFile := ← readFile "/proc/stat"
    processorFile := ← readFile "/proc/cpuinfo"
    averageFile := ← readFile "/proc/loadavg" }

def readEnvironment : IO Settings.Environment := do
  let mut known : List (Text × Text) := []
  for v in Settings.Variable.all do
    if let some value ← IO.getEnv (String.ofList v.name) then
      known := (v.name, value.toList) :: known
  let pairs := known
  return fun name => pairs.lookup name

def report (shown log : List LogLevel) : IO Unit := do
  for level in log do
    if level ∈ shown then IO.eprintln (String.ofList level.name)

def render {σ : Type} (d : Dashboard σ) : List Text :=
  let header :=
    match Header.text d.header with
    | .ok t => t
    | .error fault => fault.message
  let rows := d.table.rows.map fun row => row.key ++ ' ' :: row.bar ++ ' ' :: row.percentage
  (Dashboard.title ++ " - ".toList ++ d.subtitle) :: header :: rows

def draw {σ : Type} (d : Dashboard σ) : IO Unit := do
  IO.print "\x1b[2J\x1b[H"
  for row in render d do
    IO.println (String.ofList row)

def withReadings (readings : LocalReadings) (d : Dashboard LocalReadings) :
    Dashboard LocalReadings :=
  { d with recorder.meter.watch.machine := readings }

/-- Whole milliseconds, a second where there is no such number. -/
def milliseconds (seconds : Binary64) : Nat :=
  match (seconds * 1000).truncate with
  | .ok n => n.toNat
  | .error _ => 1000

/-- Polls when it is time, checks, and draws, until `stop` has finished. -/
partial def run (stop : Task (Except IO.Error Unit)) (shown : List LogLevel) (lastPoll : Nat)
    (d : Dashboard LocalReadings) : IO Unit := do
  draw d
  IO.sleep (milliseconds Dashboard.refreshInterval).toUInt32
  if ← IO.hasFinished stop then
    report shown (Dashboard.quit.run d).log
    return
  let now ← IO.monoMsNow
  let mut d := withReadings (← readMachine) d
  let mut polled := lastPoll
  if lastPoll + milliseconds d.recorder.pollRate ≤ now then
    let o := (Dashboard.onRecorder (Recorder.poll LocalReadings.machine)).run d
    report shown o.log
    d := o.state
    polled := now
  let o := (Dashboard.check .plain).run d
  report shown o.log
  run stop shown polled o.state

/-- Waits for a line that starts with `q`, or for the end of the input. -/
partial def waitForQuit (input : IO.FS.Stream) : IO Unit := do
  let line ← input.getLine
  unless line.isEmpty || line.startsWith "q" do waitForQuit input

end ProcessorLoad.Terminal

open ProcessorLoad in
def main : IO UInt32 := do
  let environment ← Terminal.readEnvironment
  let o := (Dashboard.launch LocalReadings.machine environment).run (← Terminal.readMachine)
  match o.result with
  | .error fault =>
    IO.eprintln (String.ofList fault.message)
    return 1
  | .ok launched =>
    Terminal.report launched.levels o.log
    let mounted := (Dashboard.present LocalReadings.machine).run launched.dashboard
    Terminal.report launched.levels mounted.log
    let stop ← IO.asTask (Terminal.waitForQuit (← IO.getStdin))
    Terminal.run stop launched.levels (← IO.monoMsNow) mounted.state
    return 0
