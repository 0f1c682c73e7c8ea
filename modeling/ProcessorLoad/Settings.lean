import ProcessorLoad.Action
import ProcessorLoad.Number.Numeral
import ProcessorLoad.Text.UpperCase

/-!
# Settings

Time spans, sizes and names that the engine works with, and their values from environment variables.
A variable whose text does not read is logged and leaves the default.
-/

set_option autoImplicit false

namespace ProcessorLoad

structure Settings where
  /-- The least time between two readings of ticks of a kind, in milliseconds. -/
  tickInterval : Binary64 := 950
  /-- The least time between two readings of the machine's own load, in milliseconds. -/
  ownInterval : Binary64 := 200
  /-- Whether the machine's own load is used. -/
  useOwnLoad : Bool := true
  /-- The time between two polls, in seconds. -/
  pollRate : Binary64 := 1
  /-- How many polls the history keeps. -/
  historySize : Int := 60
  /-- The name of the level from which on the log is shown. -/
  logLevel : Text := LogLevel.warning.name
  deriving DecidableEq

namespace Settings

/-- The least time between two polls, in seconds. -/
def leastPollRate : Binary64 := .tenth

def clamp (s : Settings) : Settings :=
  { s with
    tickInterval := if s.tickInterval.lt 0 then 0 else s.tickInterval
    ownInterval := if s.ownInterval.lt 0 then 0 else s.ownInterval
    pollRate := if s.pollRate.lt leastPollRate then leastPollRate else s.pollRate
    historySize := max 1 s.historySize }

def trueWords : List Text := ["1".toList, "true".toList, "yes".toList, "on".toList]

def falseWords : List Text := ["0".toList, "false".toList, "no".toList, "off".toList]

/-- A truth value, in any case. Outside the basic alphabet no letter has one of the letters of these
words as its lower case. -/
def readFlag (t : Text) : Except Fault Bool :=
  let word := (Text.strip t).map Numeral.lowerLetter
  if trueWords.contains word then .ok true
  else if falseWords.contains word then .ok false
  else .error (.notFlag t)

def readFinite (t : Text) : Except Fault Binary64 := do
  let x ← Numeral.readReal t
  if x.isFinite then return x else throw (.notFinite t)

def readLevel (t : Text) : Except Fault Text :=
  let name := Text.upper (Text.strip t)
  match LogLevel.ofName? name with
  | some _ => .ok name
  | none => .error (.unknownLevel name)

abbrev Environment := Text → Option Text

def variableStem : Text := "CPULOAD_".toList

inductive Variable where
  | tickInterval
  | ownInterval
  | useOwnLoad
  | pollRate
  | historySize
  | logLevel
  deriving DecidableEq

namespace Variable

def all : List Variable :=
  [tickInterval, ownInterval, useOwnLoad, pollRate, historySize, logLevel]

def name : Variable → Text
  | tickInterval => variableStem ++ "TICK_INTERVAL_MS".toList
  | ownInterval => variableStem ++ "NATIVE_INTERVAL_MS".toList
  | useOwnLoad => variableStem ++ "USE_NATIVE".toList
  | pollRate => variableStem ++ "POLL_RATE".toList
  | historySize => variableStem ++ "HISTORY_SIZE".toList
  | logLevel => variableStem ++ "LOG_LEVEL".toList

end Variable

/-- The value of a variable that is present and reads, else the default. -/
def override {α : Type} (environment : Environment) (v : Variable)
    (read : Text → Except Fault α) (default : α) : Logged α :=
  match environment v.name with
  | none => pure default
  | some text =>
    match read text with
    | .ok a => pure a
    | .error _ => Logged.note .warning default

def fromEnvironment (environment : Environment) : Logged Settings := do
  let default : Settings := {}
  let tickInterval ← override environment .tickInterval readFinite default.tickInterval
  let ownInterval ← override environment .ownInterval readFinite default.ownInterval
  let useOwnLoad ← override environment .useOwnLoad readFlag default.useOwnLoad
  let pollRate ← override environment .pollRate readFinite default.pollRate
  let historySize ← override environment .historySize Numeral.readWhole default.historySize
  let logLevel ← override environment .logLevel readLevel default.logLevel
  return clamp { tickInterval, ownInterval, useOwnLoad, pollRate, historySize, logLevel }

/-- The levels that a log at the level of that name shows; case matters. -/
def shownLevels (name : Text) : Except Fault (List LogLevel) :=
  match LogLevel.ofName? name with
  | some level => .ok level.passing
  | none => .error (.unknownLevel name)

end Settings

end ProcessorLoad
