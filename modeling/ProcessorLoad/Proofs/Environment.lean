import ProcessorLoad.Proofs.Number.Difference
import ProcessorLoad.Proofs.Number.Numeral
import ProcessorLoad.Proofs.Result
import ProcessorLoad.Settings

/-!
# Settings from any environment

Each field of the settings goes by a variable of its own. A text that reads gives the field its
value, brought into the range of the field; any other text gives the default and one warning. So
there is no environment whose settings are out of range.
-/

set_option autoImplicit false

namespace ProcessorLoad

namespace Settings
variable {text : Text} {fault : Fault}

theorem isFinite_of_readFinite {x : Binary64} (h : readFinite text = .ok x) :
    x.isFinite = true := by
  obtain ⟨y, -, h⟩ := ok_of_bind h
  split at h
  next hy =>
    cases h
    exact hy
  next => cases h

theorem unread_of_readFinite (h : readFinite text = .error fault) : fault.isUnread = true := by
  cases hread : Numeral.readReal text with
  | error e =>
    simp only [readFinite, hread] at h
    cases h
    exact Numeral.unread_of_readReal hread
  | ok x =>
    have hx : (if x.isFinite = true then .ok x else .error (.notFinite text))
        = Except.error fault := by
      rw [← h, readFinite, hread]
      rfl
    split at hx
    · cases hx
    · cases hx
      rfl

theorem unread_of_readFlag (h : readFlag text = .error fault) : fault.isUnread = true := by
  unfold readFlag at h
  dsimp only at h
  split at h
  · cases h
  · split at h
    · cases h
    · cases h
      rfl

theorem unread_of_readLevel (h : readLevel text = .error fault) : fault.isUnread = true := by
  unfold readLevel at h
  dsimp only at h
  split at h
  · cases h
  · cases h
    rfl

theorem level_of_readLevel {name : Text} (h : readLevel text = .ok name) :
    ∃ level : LogLevel, name = level.name := by
  unfold readLevel at h
  dsimp only at h
  split at h
  next level hlevel =>
    cases h
    exact ⟨level, (LogLevel.name_of_ofName? hlevel).symm⟩
  next => cases h

theorem shownLevels_name (level : LogLevel) : shownLevels level.name = .ok level.passing := by
  rw [shownLevels, LogLevel.ofName?_name]

/-- Every number in its range, and the name of a level that there is. -/
structure InRange (s : Settings) : Prop where
  tickInterval : s.tickInterval.isFinite = true ∧ (0 : Binary64).le s.tickInterval = true
  ownInterval : s.ownInterval.isFinite = true ∧ (0 : Binary64).le s.ownInterval = true
  pollRate : s.pollRate.isFinite = true ∧ leastPollRate.le s.pollRate = true
  historySize : 1 ≤ s.historySize
  logLevel : ∃ level : LogLevel, s.logLevel = level.name

def atLeast (least x : Binary64) : Binary64 := if x.lt least then least else x

theorem isFinite_leastPollRate : leastPollRate.isFinite = true := by decide +kernel

theorem atLeast_inRange {least x : Binary64} (hleast : least.isFinite = true)
    (hx : x.isFinite = true) :
    (atLeast least x).isFinite = true ∧ least.le (atLeast least x) = true := by
  unfold atLeast
  split
  next => exact ⟨hleast, Binary64.le_refl hleast⟩
  next h =>
    refine ⟨hx, ?_⟩
    rw [← Binary64.lt_eq_false_iff (Binary64.isNaN_of_isFinite hx)
      (Binary64.isNaN_of_isFinite hleast)]
    exact eq_false_of_ne_true h

namespace Variable

abbrev Value : Variable → Type
  | tickInterval => Binary64
  | ownInterval => Binary64
  | useOwnLoad => Bool
  | pollRate => Binary64
  | historySize => Int
  | logLevel => Text

def read : (v : Variable) → Text → Except Fault v.Value
  | tickInterval => readFinite
  | ownInterval => readFinite
  | useOwnLoad => readFlag
  | pollRate => readFinite
  | historySize => Numeral.readWhole
  | logLevel => readLevel

def field : (v : Variable) → Settings → v.Value
  | tickInterval => Settings.tickInterval
  | ownInterval => Settings.ownInterval
  | useOwnLoad => Settings.useOwnLoad
  | pollRate => Settings.pollRate
  | historySize => Settings.historySize
  | logLevel => Settings.logLevel

def clamp : (v : Variable) → v.Value → v.Value
  | tickInterval => atLeast 0
  | ownInterval => atLeast 0
  | useOwnLoad => id
  | pollRate => atLeast leastPollRate
  | historySize => max 1
  | logLevel => id

/-- What every text that reads gives, before it is brought into range. -/
def Sound : (v : Variable) → v.Value → Prop
  | tickInterval, x => x.isFinite = true
  | ownInterval, x => x.isFinite = true
  | useOwnLoad, _ => True
  | pollRate, x => x.isFinite = true
  | historySize, _ => True
  | logLevel, name => ∃ level : LogLevel, name = level.name

/-- The value of a variable: what its text reads as, if it is there and reads, else the default. -/
def chosen (environment : Environment) (v : Variable) : v.Value :=
  ((environment v.name).bind fun text => (v.read text).toOption).getD (v.field {})

/-- Whether a variable is there, with a text that does not read. -/
def unread (environment : Environment) (v : Variable) : Bool :=
  (environment v.name).any fun text => (v.read text).toOption.isNone

variable (environment : Environment) (v : Variable)

theorem unread_of_read (h : v.read text = .error fault) : fault.isUnread = true := by
  cases v with
  | useOwnLoad => exact unread_of_readFlag h
  | historySize => exact Numeral.unread_of_readWhole h
  | logLevel => exact unread_of_readLevel h
  | _ => exact unread_of_readFinite h

theorem sound_of_read {v : Variable} {x : v.Value} (h : v.read text = .ok x) : v.Sound x := by
  cases v with
  | useOwnLoad => exact trivial
  | historySize => exact trivial
  | logLevel => exact level_of_readLevel h
  | _ => exact isFinite_of_readFinite h

theorem sound_default : v.Sound (v.field {}) := by
  cases v with
  | useOwnLoad => exact trivial
  | historySize => exact trivial
  | logLevel => exact ⟨.warning, rfl⟩
  | _ =>
    change Binary64.isFinite _ = true
    decide +kernel

theorem sound_chosen : v.Sound (v.chosen environment) := by
  unfold chosen
  cases environment v.name with
  | none => exact v.sound_default
  | some text =>
    cases h : v.read text with
    | error fault => simpa [h, Except.toOption] using v.sound_default
    | ok x => simpa [h, Except.toOption] using sound_of_read h

theorem override_value :
    (override environment v v.read (v.field {})).value = v.chosen environment := by
  unfold override chosen
  cases environment v.name with
  | none => rfl
  | some text => cases h : v.read text <;> simp [h, Except.toOption, Logged.note]

theorem override_log :
    (override environment v v.read (v.field {})).log
      = if v.unread environment then [.warning] else [] := by
  unfold override unread
  cases environment v.name with
  | none => rfl
  | some text => cases h : v.read text <;> simp [h, Except.toOption, Logged.note]

end Variable

variable (environment : Environment)

theorem fromEnvironment_value :
    (fromEnvironment environment).value = clamp
      { tickInterval := Variable.tickInterval.chosen environment
        ownInterval := Variable.ownInterval.chosen environment
        useOwnLoad := Variable.useOwnLoad.chosen environment
        pollRate := Variable.pollRate.chosen environment
        historySize := Variable.historySize.chosen environment
        logLevel := Variable.logLevel.chosen environment } := by
  simp only [← Variable.override_value]
  rfl

theorem field_fromEnvironment (v : Variable) :
    v.field (fromEnvironment environment).value = v.clamp (v.chosen environment) := by
  rw [fromEnvironment_value]
  cases v <;> rfl

theorem fromEnvironment_log :
    (fromEnvironment environment).log
      = (Variable.all.filter (·.unread environment)).map fun _ => .warning := by
  have hlogs (vs : List Variable) :
      (vs.flatMap fun v => (override environment v v.read (v.field {})).log)
        = (vs.filter (·.unread environment)).map fun _ => .warning := by
    induction vs with
    | nil => rfl
    | cons v vs ih =>
      rw [List.flatMap_cons, ih, Variable.override_log, List.filter_cons]
      split <;> rfl
  exact hlogs Variable.all

theorem inRange_fromEnvironment : (fromEnvironment environment).value.InRange := by
  have hsound (v : Variable) := v.sound_chosen environment
  rw [fromEnvironment_value]
  exact
    { tickInterval := atLeast_inRange Binary64.isFinite_zero (hsound .tickInterval)
      ownInterval := atLeast_inRange Binary64.isFinite_zero (hsound .ownInterval)
      pollRate := atLeast_inRange isFinite_leastPollRate (hsound .pollRate)
      historySize := Int.le_max_left 1 _
      logLevel := hsound .logLevel }

/-- Every environment gives settings: all in range, with a level that the log can be shown at. Each
field is what its own variable reads as, brought into range, or its default if that variable is
absent or does not read; no other variable has to do with it. There is one warning for each variable
that is there and does not read, and all that stops a text from reading is a fault of the text. -/
theorem settings_from_any_environment (environment : Environment) :
    let r := fromEnvironment environment
    r.value.InRange ∧
      (∃ level : LogLevel, r.value.logLevel = level.name ∧
        shownLevels r.value.logLevel = .ok level.passing) ∧
      (∀ v : Variable, v.field r.value = v.clamp (v.chosen environment)) ∧
      (∀ (v : Variable) (other : Environment), other v.name = environment v.name →
        v.field (fromEnvironment other).value = v.field r.value) ∧
      r.log = (Variable.all.filter (·.unread environment)).map (fun _ => .warning) ∧
      ∀ (v : Variable) (text : Text) (fault : Fault), v.read text = .error fault →
        fault.isUnread = true := by
  intro r
  have hrange := inRange_fromEnvironment environment
  refine ⟨hrange, ?_, field_fromEnvironment environment, ?_, fromEnvironment_log environment, ?_⟩
  · obtain ⟨level, hlevel⟩ := hrange.logLevel
    exact ⟨level, hlevel, hlevel ▸ shownLevels_name level⟩
  · intro v other hsame
    rw [field_fromEnvironment, field_fromEnvironment, Variable.chosen, hsame]
    rfl
  · intro v text fault h
    exact v.unread_of_read h

/-- Of these variables one is beyond every double and one has an underscore too many. The others
read, in other digits and letters than usual, one of them to less than the least value. -/
def mixedEnvironment : Environment := fun name =>
  [(Variable.tickInterval.name, "-1e400".toList), (Variable.useOwnLoad.name, " oFF\t".toList),
    (Variable.pollRate.name, "٠.٠٥".toList), (Variable.historySize.name, "1__0".toList),
    (Variable.logLevel.name, "ınfo".toList)].lookup name

theorem settings_from_any_environment_mixed :
    let r := fromEnvironment mixedEnvironment
    let alone : Environment := fun name =>
      if name = Variable.pollRate.name then some "٠.٠٥".toList else none
    (r.value = { useOwnLoad := false, pollRate := leastPollRate, logLevel := "INFO".toList } ∧
        r.log = [.warning, .warning]) ∧
      (r.value.InRange ∧ ∃ level : LogLevel, shownLevels r.value.logLevel = .ok level.passing) ∧
      (alone Variable.pollRate.name = mixedEnvironment Variable.pollRate.name ∧
        (fromEnvironment alone).value.pollRate = r.value.pollRate) ∧
      (Variable.tickInterval.read "-1e400".toList = .error (.notFinite "-1e400".toList) ∧
        (Fault.notFinite "-1e400".toList).isUnread = true) := by
  intro r alone
  obtain ⟨hrange, ⟨level, -, hlevels⟩, -, hothers, -, hfaults⟩ :=
    settings_from_any_environment mixedEnvironment
  have hsame : alone Variable.pollRate.name = mixedEnvironment Variable.pollRate.name := by
    decide +kernel
  have hfault :
      Variable.tickInterval.read "-1e400".toList = .error (.notFinite "-1e400".toList) := by
    rfl
  refine ⟨?_, ⟨hrange, level, hlevels⟩, ⟨hsame, hothers .pollRate alone hsame⟩, hfault,
    hfaults _ _ _ hfault⟩
  decide +kernel

end Settings

end ProcessorLoad
