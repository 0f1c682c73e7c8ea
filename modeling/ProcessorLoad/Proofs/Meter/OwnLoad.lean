import ProcessorLoad.Proofs.Meter.Steps
import ProcessorLoad.Proofs.Watch.Fetches

/-!
# The machine's own load over a run

What a meter keeps of the machine's own load is worked out from the events of a run alone: the load
of the last reading that is a number, and the time of the last reading that was completed.
-/

set_option autoImplicit false

namespace ProcessorLoad

def Series.ownLoads : Series (Option Binary64) where
  fetched?
    | .ownLoad answer => some answer
    | _ => none
  isZero := Option.isNone

namespace Series

theorem totals_apart_ownLoads : totals.Apart ownLoads := by
  intro e r h
  cases e with
  | totalTicks answer => rfl
  | _ => cases h

theorem tables_apart_ownLoads (rows : Nat) : (tables rows).Apart ownLoads := by
  intro e r h
  cases e with
  | tickTable answer => rfl
  | _ => cases h

end Series

theorem TickPairs.Primes.silent {p q : TickPairs} {es : List Event} {r : Except Fault Unit}
    (h : p.Primes q es r) : Series.ownLoads.Silent es := by
  cases h with
  | table h _ => exact h.silent (Series.tables_apart_ownLoads _)
  | both h hs =>
    exact (h.silent (Series.tables_apart_ownLoads _)).append
      (hs.silent Series.totals_apart_ownLoads)

namespace OwnReading

/-- The completed readings of the machine's own load, each with the look at the clock right before
it. -/
def completed (es : List Event) : List (Binary64 × Option Binary64) :=
  (es.zip es.tail).filterMap fun
    | (.clock now, .ownLoad (.ok answer)) => some (now, answer)
    | _ => none

/-- The last load that is a number, and the time of the last reading. -/
def latest (first : OwnReading) (reads : List (Binary64 × Option Binary64)) : OwnReading where
  load := (reads.filterMap fun read => read.2.filter (!·.isNaN)).getLast?.getD first.load
  time := (reads.map Prod.fst).getLast?.getD first.time

variable {own : OwnReading} {now : Binary64} {es : List Event}

@[simp] theorem latest_nil (own : OwnReading) : own.latest [] = own := rfl

theorem latest_append (own : OwnReading) (reads more : List (Binary64 × Option Binary64)) :
    own.latest (reads ++ more) = (own.latest reads).latest more := by
  simp only [latest, List.filterMap_append, List.map_append, List.getLast?_append, Option.getD_or]

theorem update_eq_latest (own : OwnReading) (answer : Option Binary64) (now : Binary64) :
    own.update answer now = own.latest [(now, answer)] := by
  cases answer with
  | none => rfl
  | some x => cases h : x.isNaN <;> simp [update, latest, Option.filter, h]

theorem completed_silent (h : Series.ownLoads.Silent es) : completed es = [] := by
  rw [completed, List.filterMap_eq_nil_iff]
  rintro ⟨e, f⟩ hmem
  have hf := h f (List.mem_of_mem_tail (List.of_mem_zip hmem).2)
  cases f with
  | ownLoad answer => cases hf
  | _ => cases e <;> rfl

end OwnReading

namespace Held
variable {p q : Held} {query : Meter.Query} {r : Except Fault Meter.Reply} {es : List Event}
variable {own : OwnReading}

theorem Answers.settings_eq (hq : p.Answers query r es q) : q.settings = p.settings := by
  induction hq with
  | byTicks _ _ ih => exact ih
  | _ => rfl

theorem Answers.other_own (hq : p.Answers query r es q) (hquery : query ≠ .instant) :
    q.own = p.own ∧ Series.ownLoads.Silent es := by
  cases hq with
  | sampled h => exact ⟨rfl, h.silent Series.totals_apart_ownLoads⟩
  | perProcessor h => exact ⟨rfl, h.silent (Series.tables_apart_ownLoads _)⟩
  | quiet _ => exact ⟨rfl, Series.silent_nil _⟩
  | _ => exact absurd rfl hquery

/-- How a query about the instant load is answered from the machine's own load: within its interval
from what is kept, else after one reading. -/
def AnswersOwn (own : OwnReading) (interval : Binary64) (r : Except Fault Meter.Reply)
    (es : List Event) : Prop :=
  ∃ now, if (now - own.time).lt interval = true then
      es = [.clock now] ∧ r = .ok (.load own.load)
    else ∃ answer, es = [.clock now, .ownLoad answer] ∧
      r = answer.map fun _ => .load (own.latest (OwnReading.completed es)).load

theorem Answers.instant_own (hq : p.Answers .instant r es q) (hown : p.own = some own) :
    AnswersOwn own p.settings.ownInterval r es ∧
      q.own = some (own.latest (OwnReading.completed es)) := by
  cases hq with
  | @kept kept now hkept h =>
    cases hown.symm.trans hkept
    refine ⟨⟨now, ?_⟩, hown⟩
    rw [if_pos h]
    exact ⟨rfl, rfl⟩
  | @read kept now answer hkept h =>
    cases hown.symm.trans hkept
    refine ⟨⟨now, ?_⟩, ?_⟩
    · rw [if_neg (by simp [h])]
      exact ⟨.ok answer, rfl, by rw [own.update_eq_latest]; rfl⟩
    · exact congrArg some (own.update_eq_latest answer now)
  | @lost kept now fault hkept h =>
    cases hown.symm.trans hkept
    refine ⟨⟨now, ?_⟩, hown⟩
    rw [if_neg (by simp [h])]
    exact ⟨.error fault, rfl, rfl⟩
  | byTicks hnone _ => cases hown.symm.trans hnone
  | quiet h => exact h.elim

theorem Answers.own_latest (hq : p.Answers query r es q) (hown : p.own = some own) :
    q.own = some (own.latest (OwnReading.completed es)) := by
  by_cases hquery : query = .instant
  · subst hquery
    exact (hq.instant_own hown).2
  · obtain ⟨hkeep, hsilent⟩ := hq.other_own hquery
    rw [hkeep, hown, OwnReading.completed_silent hsilent, OwnReading.latest_nil]

theorem Begins.settings_eq {settings : Settings} (h : Begins settings es p) :
    p.settings = settings := by
  cases h
  rfl

theorem Begins.own_some {settings : Settings} (h : Begins settings es p) (hown : p.own = some own) :
    settings.useOwnLoad = true ∧ ∃ fs,
      es = .ownLoad (.ok (some own.load)) :: .clock own.time :: fs ∧ Series.ownLoads.Silent fs := by
  cases h with
  | intro hprobe hrows hpairs =>
    cases hprobe with
    | unwanted _ => cases hown
    | absent _ => cases hown
    | found huse =>
      cases hown
      exact ⟨huse, _, rfl, hpairs.silent⟩

theorem Begins.unwanted {settings : Settings} (h : Begins settings es p)
    (huse : settings.useOwnLoad = false) : p.own = none ∧ Series.ownLoads.Silent es := by
  cases h with
  | intro hprobe hrows hpairs =>
    cases hprobe with
    | unwanted _ => exact ⟨rfl, hpairs.silent⟩
    | absent h => cases huse.symm.trans h
    | found h => cases huse.symm.trans h

theorem Answers.sampled_of_instant (hq : p.Answers .instant r es q) (hown : p.own = none) :
    p.Answers .sampled r es q := by
  cases hq with
  | byTicks _ h => exact h
  | kept hsome _ => cases hown.symm.trans hsome
  | read hsome _ => cases hown.symm.trans hsome
  | lost hsome _ => cases hown.symm.trans hsome
  | quiet h => exact h.elim

theorem Answers.own_none (hq : p.Answers query r es q) (hown : p.own = none) :
    q.own = none ∧ Series.ownLoads.Silent es := by
  by_cases hquery : query = .instant
  · subst hquery
    obtain ⟨hkeep, hsilent⟩ := (hq.sampled_of_instant hown).other_own nofun
    exact ⟨hkeep.trans hown, hsilent⟩
  · obtain ⟨hkeep, hsilent⟩ := hq.other_own hquery
    exact ⟨hkeep.trans hown, hsilent⟩

end Held

namespace Meter

def ownReads (steps : List Step) : List (Binary64 × Option Binary64) :=
  steps.flatMap fun step => OwnReading.completed step.events

theorem ownReads_append (steps : List Step) (step : Step) :
    ownReads (steps ++ [step]) = ownReads steps ++ OwnReading.completed step.events := by
  simp [ownReads]

variable {σ : Type} (m : Machine σ)

/-- What holds after a run of a meter that goes by the machine's own load, as first read. -/
structure KeepsOwn (settings : Settings) (first : OwnReading) (steps : List Step) (s : Meter σ) :
    Prop where
  basis_eq : s.basis = .own
  own_eq : s.own = some (first.latest (ownReads steps))
  /-- The next query about the instant load. -/
  instant : Held.AnswersOwn (first.latest (ownReads steps)) settings.ownInterval
    (stepOf m .instant s).result (stepOf m .instant s).events
  /-- Any other next query. -/
  other : ∀ query ≠ .instant, ((ask m query).run s).state.own = s.own ∧
    Series.ownLoads.Silent (stepOf m query s).events

/-- What holds after a run of a meter that goes by ticks. -/
structure KeepsTicks (steps : List Step) (s : Meter σ) : Prop where
  basis_eq : s.basis = .ticks
  silent : ∀ step ∈ steps, Series.ownLoads.Silent step.events
  instant : (ask m .instant).run s = (ask m .sampled).run s

theorem settings_run (queries : List Query) (s : Meter σ) :
    (run m queries s).2.settings = s.settings := by
  refine Action.runAll_induction (ask m) (stepOf m)
    (P := fun _ (t : Meter σ) => t.settings = s.settings) rfl ?_ queries
  intro steps t query ht
  exact (answers_stepOf m query t).settings_eq.trans ht

theorem own_run {s : Meter σ} {first : OwnReading} (hown : s.own = some first)
    (queries : List Query) :
    (run m queries s).2.own = some (first.latest (ownReads (run m queries s).1)) := by
  refine Action.runAll_induction (ask m) (stepOf m)
    (P := fun steps (t : Meter σ) => t.own = some (first.latest (ownReads steps))) hown ?_ queries
  intro steps t query ht
  rw [ownReads_append, OwnReading.latest_append]
  exact (answers_stepOf m query t).own_latest ht

theorem ticks_run {s : Meter σ} (hown : s.own = none) (queries : List Query) :
    (run m queries s).2.own = none ∧
      ∀ step ∈ (run m queries s).1, Series.ownLoads.Silent step.events := by
  refine Action.runAll_induction (ask m) (stepOf m)
    (P := fun steps (t : Meter σ) => t.own = none ∧
      ∀ step ∈ steps, Series.ownLoads.Silent step.events) ?_ ?_ queries
  · exact ⟨hown, List.forall_mem_nil _⟩
  · rintro steps t query ⟨ht, hsteps⟩
    obtain ⟨hkeep, hsilent⟩ := (answers_stepOf m query t).own_none ht
    refine ⟨hkeep, List.forall_mem_append.mpr ⟨hsteps, ?_⟩⟩
    exact List.forall_mem_singleton.mpr hsilent

theorem keepsOwn_run {s : Meter σ} {first : OwnReading} (hown : s.own = some first)
    (queries : List Query) :
    KeepsOwn m s.settings first (run m queries s).1 (run m queries s).2 := by
  have hlatest := own_run m hown queries
  have hinstant := (answers_stepOf m .instant (run m queries s).2).instant_own hlatest
  refine ⟨basis_of_own_some hlatest, hlatest, ?_, ?_⟩
  · rw [← settings_run m queries s]
    exact hinstant.1
  · intro query hquery
    exact (answers_stepOf m query _).other_own hquery

theorem ask_instant_eq {s : Meter σ} (hown : s.own = none) :
    (ask m .instant).run s = (ask m .sampled).run s := by
  have hinstant : (instant m).run s = (sampled m).run s := by
    have hget : (Action.get : Action (Meter σ) (Meter σ)).run s = ⟨.ok s, s, []⟩ := rfl
    rw [instant, Action.run_bind_ok hget, hown]
    rfl
  exact Action.run_bind_congr hinstant _

theorem keepsTicks_run {s : Meter σ} (hown : s.own = none) (queries : List Query) :
    KeepsTicks m (run m queries s).1 (run m queries s).2 := by
  obtain ⟨hnone, hsilent⟩ := ticks_run m hown queries
  exact ⟨basis_of_own_none hnone, hsilent, ask_instant_eq m hnone⟩

/-- Over every run of queries. A meter that goes by the machine's own load keeps the last load that
is a number, and the time of the last completed reading; the first ones are from the set-up. It
looks at the machine's own load in no other way. A meter that goes by ticks never looks at it again.
Which of the two it is does not change. -/
theorem own_load_follows_readings (settings : Settings) (identity : Option Identification)
    (machine : σ) {s : Meter σ} (hsetUp : ((setUp m settings identity).run machine).result = .ok s)
    (queries : List Query) :
    (s.basis = .own → ∃ (first : OwnReading) (fs : List Event),
      setUpEvents m settings identity machine
        = .ownLoad (.ok (some first.load)) :: .clock first.time :: fs ∧
      Series.ownLoads.Silent fs ∧
      KeepsOwn m settings first (run m queries s).1 (run m queries s).2) ∧
    (s.basis = .ticks → KeepsTicks m (run m queries s).1 (run m queries s).2) ∧
    (settings.useOwnLoad = false → s.basis = .ticks ∧
      Series.ownLoads.Silent (setUpEvents m settings identity machine)) := by
  have hbegins := begins_setUp m settings identity machine hsetUp
  cases hown : s.own with
  | none =>
    have hbasis : s.basis = .ticks := by
      rw [basis, hown]
      rfl
    refine ⟨?_, ?_, ?_⟩
    · intro h
      rw [hbasis] at h
      cases h
    · exact fun _ => keepsTicks_run m hown queries
    · exact fun huse => ⟨hbasis, (hbegins.unwanted huse).2⟩
  | some first =>
    have hbasis : s.basis = .own := by
      rw [basis, hown]
      rfl
    obtain ⟨huse, fs, hes, hfs⟩ := hbegins.own_some hown
    refine ⟨?_, ?_, ?_⟩
    · intro _
      have hsettings : s.settings = settings := hbegins.settings_eq
      refine ⟨first, fs, hes, hfs, ?_⟩
      rw [← hsettings]
      exact keepsOwn_run m hown queries
    · intro h
      rw [hbasis] at h
      cases h
    · intro hnot
      cases huse.symm.trans hnot

def everyThird (n : Nat) : Option Binary64 :=
  if n % 3 = 0 then some (.quotient n 100) else if n % 3 = 1 then some .nan else none

def thirdsMeter : Meter Nat where
  settings := {}
  logicalProcessors := 2
  physicalProcessors := 1
  own := some ⟨0, .ofNat 1000⟩
  identity := none
  watch :=
    { machine := 6
      rows := 2
      system := ⟨[4, 0, 0, 4, 0, 0, 0], [4, 0, 0, 4, 0, 0, 0], .ofNat 5000⟩
      processors :=
        ⟨[[2, 0, 0, 0, 0, 0, 0], [2, 2, 0, 0, 0, 0, 0]],
          [[2, 0, 0, 0, 0, 0, 0], [2, 2, 0, 0, 0, 0, 0]], .ofNat 3000⟩ }

theorem own_load_follows_readings_thirds :
    let m := counting everyThird
    let queries : List Query := [.instant, .instant, .sampled, .instant]
    ((setUp m {} none).run 0).result = .ok thirdsMeter ∧
      (∃ first, KeepsOwn m {} first (run m queries thirdsMeter).1 (run m queries thirdsMeter).2) ∧
      (run m queries thirdsMeter).2.own = some ⟨.quotient 9 100, .ofNat 13000⟩ := by
  intro m queries
  have hsetUp : ((setUp m {} none).run 0).result = .ok thirdsMeter := by decide +kernel
  obtain ⟨first, _, _, _, hkeeps⟩ := (own_load_follows_readings m {} none 0 hsetUp queries).1 rfl
  exact ⟨hsetUp, ⟨first, hkeeps⟩, by decide +kernel⟩

end Meter

end ProcessorLoad
