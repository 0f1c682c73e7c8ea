import ProcessorLoad.Dashboard
import ProcessorLoad.Proofs.Environment
import ProcessorLoad.Proofs.Recorder.Bookkeeping
import ProcessorLoad.Proofs.Watch.Refreshing

/-!
# Starting from any environment

On a machine whose sources work, a start comes to an end for every environment but those that ask
for a history longer than a bound can be. The recorder then polls at the rate of the settings and
keeps as long a history as they say.
-/

set_option autoImplicit false

namespace ProcessorLoad

/-- A machine all of whose sources work: the counts, the ticks, whose counters are finite, and the
load of its own. -/
structure Machine.Works {σ : Type} (m : Machine σ) : Prop where
  logicalProcessors : m.logicalProcessors.Yields fun _ => True
  physicalProcessors : m.physicalProcessors.Yields fun _ => True
  totalTicks : m.totalTicks.Yields fun counters => ∀ c ∈ counters, c.isFinite = true
  tickTable : m.tickTable.Yields fun table => ∀ row ∈ table, ∀ c ∈ row, c.isFinite = true
  ownLoad : m.ownLoad.Yields fun answer => answer.isSome = true

namespace TickWatch
variable {σ α : Type} {m : Machine σ}

theorem ticksOf_succeeds {counters : List Counter} (h : ∀ c ∈ counters, c.isFinite = true) :
    Succeeds (ticksOf counters) fun _ => True := by
  cases hticks : ticksOf counters with
  | ok ticks => exact ⟨ticks, rfl, trivial⟩
  | error fault =>
    obtain ⟨c, hc, hfinite⟩ := ticksOf_error_iff.mp ⟨fault, hticks⟩
    cases (h c (List.mem_of_mem_take hc)).symm.trans hfinite

theorem tableOf_succeeds {rows : Nat} {table : List (List Counter)}
    (h : ∀ row ∈ table, ∀ c ∈ row, c.isFinite = true) :
    Succeeds (tableOf rows table) fun _ => True := by
  cases htable : tableOf rows table with
  | ok ticks => exact ⟨ticks, rfl, trivial⟩
  | error fault =>
    obtain ⟨row, hrow, c, hc, hfinite⟩ := tableOf_error_iff.mp ⟨fault, htable⟩
    cases (h row (List.mem_of_mem_take hrow) c (List.mem_of_mem_take hc)).symm.trans hfinite

theorem yields_onMachine {a : Action σ α} {P : α → Prop} (ha : a.Yields P) :
    (onMachine a).Yields P := ha.on _ _

theorem yields_fetchTotal (hm : m.Works) : (fetchTotal m).Yields fun _ => True :=
  (yields_onMachine hm.totalTicks).bind fun _ h => .ofExcept (ticksOf_succeeds h)

theorem yields_fetchTable (hm : m.Works) : (fetchTable m).Yields fun _ => True :=
  (yields_onMachine hm.tickTable).bind fun _ h =>
    Action.Yields.get.bind fun _ _ => .ofExcept (tableOf_succeeds h)

theorem yields_install {fetch : Action (TickWatch σ) α} (hfetch : fetch.Yields fun _ => True)
    (isZero : α → Bool) (edit : Edit σ α) : (install m fetch isZero edit).Yields fun _ => True := by
  refine hfetch.bind fun a _ => (Action.Yields.modify _).bind fun _ _ => ?_
  split
  · exact .pure trivial
  · exact (yields_onMachine (.ofState m.clock)).bind fun time _ => .modify _

theorem yields_start (hm : m.Works) (processors : Int) :
    (start m processors).Yields fun _ => True := by
  have hprime : (prime m).Yields fun _ => True := by
    rw [prime_eq]
    exact (yields_install (yields_fetchTable hm) _ _).bind fun _ _ =>
      yields_install (yields_fetchTotal hm) _ _
  intro machine
  exact (hprime (.new machine processors)).map fun _ _ => trivial

end TickWatch

namespace Meter
variable {σ : Type} {m : Machine σ}

theorem yields_probeOwnLoad (hm : m.Works) (settings : Settings) :
    (probeOwnLoad m settings).Yields fun own => own.isSome = settings.useOwnLoad := by
  unfold probeOwnLoad
  cases settings.useOwnLoad with
  | false => exact .pure rfl
  | true =>
    refine hm.ownLoad.bind fun answer hanswer => ?_
    cases answer with
    | none => cases hanswer
    | some load => exact (Action.Yields.ofState m.clock).bind fun time _ => .pure rfl

/-- A meter on a machine that works goes by the machine's own load just if that is wanted. -/
theorem yields_setUp (hm : m.Works) (settings : Settings) (identity : Option Identification) :
    (setUp m settings identity).Yields fun s => s.own.isSome = settings.useOwnLoad := by
  refine hm.logicalProcessors.bind fun logical _ => ?_
  refine hm.physicalProcessors.bind fun physical _ => ?_
  refine (yields_probeOwnLoad hm settings).bind fun own hown => ?_
  exact (TickWatch.yields_start hm _).bind fun watch _ => .pure hown

end Meter

namespace Recorder

theorem admitPollRate_of_inRange {s : Settings} (h : s.InRange) :
    admitPollRate s.pollRate = s.pollRate := by
  have hpositive : (0 : Binary64).lt Settings.leastPollRate = true := by decide +kernel
  exact Binary64.max_eq_right hpositive h.pollRate.2

theorem one_lt_capacityLimit : 1 < capacityLimit := by decide +kernel

variable {σ : Type} (meter : Meter σ) (pollRate : Binary64) {historySize : Int}

theorem new_of_lt (h : historySize < capacityLimit) :
    ∃ r, Recorder.new meter pollRate historySize = .ok r := by
  have hlimit := one_lt_capacityLimit
  unfold Recorder.new
  exact ⟨_, if_pos (by omega)⟩

theorem new_of_le (h : capacityLimit ≤ historySize) :
    Recorder.new meter pollRate historySize = .error .boundOverflow := by
  unfold Recorder.new
  exact if_neg (by omega)

end Recorder

namespace Dashboard
variable {σ : Type}

/-- What a start leaves behind: the settings, a log at their level, a recorder that polls at their
rate and whose history is always the newest of the loads that were collected, as many as they say.
The meter goes by ticks just if the environment says that the machine's own load is not used. -/
structure Launched (m : Machine σ) (environment : Settings.Environment) (settings : Settings)
    (launch : Launch σ) : Prop where
  settings_eq : launch.settings = settings
  levels : Settings.shownLevels settings.logLevel = .ok launch.levels
  pollRate : launch.dashboard.recorder.pollRate = settings.pollRate
  history : ∀ operations : List Recorder.Operation,
    let run := Recorder.journal m operations launch.dashboard.recorder
    run.2.history = (run.1.filterMap Recorder.Entry.loads).rtake settings.historySize.toNat
  basis : launch.dashboard.recorder.meter.basis = .ticks ↔
    ∃ text, environment Settings.Variable.useOwnLoad.name = some text ∧
      Settings.readFlag text = .ok false

/-- The environment asks for a history that is longer than a bound can be. -/
def Overlong (environment : Settings.Environment) : Prop :=
  ∃ text n, environment Settings.Variable.historySize.name = some text ∧
    Numeral.readWhole text = .ok n ∧ Recorder.capacityLimit ≤ n

section Launch
variable {m : Machine σ} (hm : m.Works) (environment : Settings.Environment) (machine : σ)

include hm in
/-- Nothing but the bound of the history can stop a start. -/
theorem launch_result :
    let settings := (Settings.fromEnvironment environment).value
    ∃ levels meter, Settings.shownLevels settings.logLevel = .ok levels ∧
      meter.own.isSome = settings.useOwnLoad ∧
      ((launch m environment).run machine).result
        = (new meter settings).map fun dashboard => ⟨settings, dashboard, levels⟩ := by
  intro settings
  obtain ⟨level, hlevel⟩ := (Settings.inRange_fromEnvironment environment).logLevel
  have hlevels : Settings.shownLevels settings.logLevel = .ok level.passing :=
    hlevel ▸ Settings.shownLevels_name level
  obtain ⟨meter, hmeter, hown⟩ := Meter.yields_setUp hm settings none machine
  refine ⟨level.passing, meter, hlevels, hown, ?_⟩
  generalize ho : (Meter.setUp m settings none).run machine = o at hmeter
  obtain ⟨result, s, log⟩ := o
  cases hmeter
  have hsettings : (Action.ofLogged (Settings.fromEnvironment environment)).run machine
      = ⟨.ok settings, machine, (Settings.fromEnvironment environment).log⟩ := rfl
  have hshown : (Action.ofExcept (Settings.shownLevels settings.logLevel)).run machine
      = ⟨.ok level.passing, machine, []⟩ := by
    rw [hlevels]
    rfl
  rw [launch, Action.run_bind_ok hsettings, Action.run_bind_ok hshown, Action.run_bind_ok ho,
    Action.run_map]
  rfl

theorem overlong_iff : Overlong environment ↔
    Recorder.capacityLimit ≤ (Settings.fromEnvironment environment).value.historySize := by
  have hlimit : 60 < Recorder.capacityLimit := by decide +kernel
  have hfield : (Settings.fromEnvironment environment).value.historySize
      = max 1 (((environment Settings.Variable.historySize.name).bind fun text =>
          (Numeral.readWhole text).toOption).getD 60) :=
    Settings.field_fromEnvironment environment .historySize
  rw [hfield, Overlong]
  cases environment Settings.Variable.historySize.name with
  | none =>
    refine ⟨fun ⟨_, _, h, _⟩ => (nomatch h), fun h => ?_⟩
    rw [Option.bind_none, Option.getD_none] at h
    omega
  | some text =>
    rw [Option.bind_some]
    cases hread : Numeral.readWhole text with
    | error fault =>
      refine ⟨fun ⟨_, n, h, hn, _⟩ => ?_, fun h => ?_⟩
      · cases h
        cases hread.symm.trans hn
      · rw [Except.toOption, Option.getD_none] at h
        omega
    | ok n =>
      rw [Except.toOption, Option.getD_some]
      refine ⟨fun ⟨_, k, h, hk, hle⟩ => ?_, fun h => ⟨text, n, rfl, hread, by omega⟩⟩
      cases h
      cases hread.symm.trans hk
      omega

theorem useOwnLoad_eq_false_iff : (Settings.fromEnvironment environment).value.useOwnLoad = false ↔
    ∃ text, environment Settings.Variable.useOwnLoad.name = some text ∧
      Settings.readFlag text = .ok false := by
  have hfield : (Settings.fromEnvironment environment).value.useOwnLoad
      = ((environment Settings.Variable.useOwnLoad.name).bind fun text =>
          (Settings.readFlag text).toOption).getD true :=
    Settings.field_fromEnvironment environment .useOwnLoad
  rw [hfield]
  cases environment Settings.Variable.useOwnLoad.name with
  | none => simp
  | some text => cases h : Settings.readFlag text <;> simp [h, Except.toOption]

include hm in
theorem launched_of_lt
    (h : (Settings.fromEnvironment environment).value.historySize < Recorder.capacityLimit) :
    Succeeds ((launch m environment).run machine).result
      (Launched m environment (Settings.fromEnvironment environment).value) := by
  obtain ⟨levels, meter, hlevels, hown, hresult⟩ := launch_result hm environment machine
  have hrange := Settings.inRange_fromEnvironment environment
  have hsize := hrange.historySize
  obtain ⟨recorder, hnew⟩ :=
    Recorder.new_of_lt meter (Settings.fromEnvironment environment).value.pollRate h
  obtain ⟨hmeter, hpollRate, hcapacity, hhistory, -⟩ := Recorder.fields_of_new hnew
  rw [hresult, new, hnew]
  refine ⟨_, rfl, rfl, hlevels, ?_, ?_, ?_⟩
  · exact hpollRate.trans (Recorder.admitPollRate_of_inRange hrange)
  · intro operations run
    have hfits : recorder.history.length ≤ recorder.capacity := hhistory ▸ Nat.zero_le _
    have hrun : run.2.history = _ := (Recorder.balanced_journal m hfits operations).history_eq
    rw [hrun, hhistory, hcapacity, List.nil_append, Int.max_eq_right hsize]
  · rw [← useOwnLoad_eq_false_iff, ← hown]
    change recorder.meter.basis = .ticks ↔ _
    rw [hmeter, Meter.basis]
    cases meter.own <;> simp

include hm in
theorem launch_of_overlong (h : Overlong environment) :
    ((launch m environment).run machine).result = .error .boundOverflow := by
  obtain ⟨levels, meter, -, -, hresult⟩ := launch_result hm environment machine
  rw [hresult, new, Recorder.new_of_le _ _ ((overlong_iff environment).mp h)]
  rfl

end Launch

/-- On a machine that works, a start comes to an end for every environment whose history size is
within the bound, and all it leaves behind is as the settings say. With a history size above the
bound it fails, once the recorder is to be set up. -/
theorem launched_unless_overlong {m : Machine σ} (hm : m.Works) (environment : Settings.Environment)
    (machine : σ) :
    let settings := (Settings.fromEnvironment environment).value
    let r := ((launch m environment).run machine).result
    (¬Overlong environment → Succeeds r (Launched m environment settings)) ∧
      (Overlong environment → r = .error .boundOverflow) := by
  intro settings r
  refine ⟨fun h => launched_of_lt hm environment machine ?_,
    launch_of_overlong hm environment machine⟩
  rw [overlong_iff] at h
  exact Int.not_le.mp h

def idling : Machine Nat := Meter.counting fun _ => some 0

theorem works_idling : idling.Works where
  logicalProcessors _ := ⟨2, rfl, trivial⟩
  physicalProcessors _ := ⟨1, rfl, trivial⟩
  totalTicks n := by
    refine ⟨[.whole n, .whole 0, .whole 0, .whole n], rfl, ?_⟩
    simp [Counter.isFinite]
  tickTable n := by
    refine ⟨[[.whole n], [.whole n, .whole n]], rfl, ?_⟩
    simp [Counter.isFinite]
  ownLoad _ := ⟨some 0, rfl, rfl⟩

/-- A poll rate below the least one, and a history size in other digits than usual. -/
def modestEnvironment : Settings.Environment := fun name =>
  [(Settings.Variable.useOwnLoad.name, "Off".toList),
    (Settings.Variable.pollRate.name, "1e-3".toList),
    (Settings.Variable.historySize.name, "٧".toList)].lookup name

/-- The least history size that no bound can have. -/
def overlongEnvironment : Settings.Environment := fun name =>
  [(Settings.Variable.historySize.name, "9223372036854775808".toList)].lookup name

theorem overlong_overlongEnvironment : Overlong overlongEnvironment :=
  ⟨"9223372036854775808".toList, 9223372036854775808, by decide +kernel, by decide +kernel,
    by decide +kernel⟩

theorem launched_unless_overlong_idling :
    let settings : Settings :=
      { useOwnLoad := false, pollRate := Settings.leastPollRate, historySize := 7 }
    ¬Overlong modestEnvironment ∧
      Succeeds ((launch idling modestEnvironment).run 0).result
        (Launched idling modestEnvironment settings) ∧
      Overlong overlongEnvironment ∧
      ((launch idling overlongEnvironment).run 0).result = .error .boundOverflow := by
  intro settings
  have hsettings : (Settings.fromEnvironment modestEnvironment).value = settings := by
    decide +kernel
  have hfits : ¬Overlong modestEnvironment := by
    rw [overlong_iff, hsettings]
    decide +kernel
  obtain ⟨hlaunched, -⟩ := launched_unless_overlong works_idling modestEnvironment 0
  obtain ⟨-, hfails⟩ := launched_unless_overlong works_idling overlongEnvironment 0
  rw [hsettings] at hlaunched
  exact ⟨hfits, hlaunched hfits, overlong_overlongEnvironment, hfails overlong_overlongEnvironment⟩

/-- A start that fails though all sources of the machine work. -/
theorem overlong_not_launched : idling.Works ∧
    (Settings.fromEnvironment overlongEnvironment).value.historySize = 9223372036854775808 ∧
    ((launch idling overlongEnvironment).run 0).result = .error .boundOverflow :=
  ⟨works_idling, by decide +kernel,
    launch_of_overlong works_idling overlongEnvironment 0 overlong_overlongEnvironment⟩

end Dashboard

end ProcessorLoad
