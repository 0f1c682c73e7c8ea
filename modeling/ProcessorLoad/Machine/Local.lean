import ProcessorLoad.Machine.Basic
import ProcessorLoad.Machine.StatFile
import ProcessorLoad.Machine.Statistics

/-!
# The local machine

A machine that is read through files: the tables of processor statistics and of processors, and the
load averages. Its state holds what the files held at one moment. It works out no load of its own.
-/

set_option autoImplicit false

namespace ProcessorLoad

structure LocalReadings where
  now : Binary64
  statFile : FileState
  processorFile : FileState
  averageFile : FileState

namespace LocalReadings

def averages (file : FileState) : Except Fault (List Binary64) :=
  match (file.lines false).value with
  | [] => .error (.machine .system "no load averages".toList)
  | line :: _ => ((Text.words line).take 3).mapM Numeral.readReal

def processors (file : FileState) : Option Int :=
  some (StatFile.tickTable file).value.length

def machine : Machine LocalReadings where
  clock := fun s => (s.now, s)
  totalTicks := .reading fun s => Counter.ofTicks <$> StatFile.totalTicks s.statFile
  tickTable := .reading fun s => List.map Counter.ofTicks <$> StatFile.tickTable s.statFile
  ownLoad := return none
  logicalProcessors := .reading fun s => Statistics.logicalProcessors (processors s.statFile)
  physicalProcessors :=
    .reading fun s => Statistics.physicalProcessors (processors s.statFile) none
  averages := do Action.ofExcept (averages (← Action.get).averageFile)
  identify := .reading fun s => return .ofMachine s.processorFile [] []

end LocalReadings

end ProcessorLoad
