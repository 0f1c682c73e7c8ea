import ProcessorLoad.Machine.Statistics
import ProcessorLoad.Proofs.Meter.OwnLoad
import ProcessorLoad.Proofs.Number.Difference

/-!
# A load of its own from percentages

A percentage that is a number becomes a load from 0 to 1, however far out it is. What is not a
number, no percentage and a failure that means that there is none leave the load that is kept. So a
meter that goes by such a load always answers, with a number from 0 to 1.
-/

set_option autoImplicit false

namespace ProcessorLoad

namespace Binary64
variable {x y : Binary64} {a b : Int}

theorem position_max (hx : x.position = some a) (hy : y.position = some b) :
    (x.max y).position = some (Max.max a b) := by
  unfold max
  split
  next h =>
    rw [lt_iff_of_position hx hy] at h
    rw [hy, Int.max_eq_right (by omega)]
  next h =>
    rw [lt_iff_of_position hx hy] at h
    rw [hx, Int.max_eq_left (by omega)]

theorem position_min (hx : x.position = some a) (hy : y.position = some b) :
    (x.min y).position = some (Min.min a b) := by
  unfold min
  split
  next h =>
    rw [lt_iff_of_position hy hx] at h
    rw [hy, Int.min_eq_right (by omega)]
  next h =>
    rw [lt_iff_of_position hy hx] at h
    rw [hx, Int.min_eq_left (by omega)]

theorem inUnit_clamp (h : x.isNaN = false) : ((x.max 0).min 1).InUnit := by
  rcases position_of_isNaN h with ⟨a, ha⟩
  have hclamp := position_min (position_max ha position_zero) position_one
  constructor
  · rw [le_iff_of_position position_zero hclamp]
    omega
  · rw [le_iff_of_position hclamp position_one]
    omega

theorem InUnit.isNaN (h : x.InUnit) : x.isNaN = false := isNaN_of_le h.1

theorem isNaN_ofRatio (negative : Bool) (num den : Nat) :
    (ofRatio negative num den).isNaN = false := by
  unfold ofRatio
  split <;> rfl

theorem isNaN_div (hx : x.isNaN = false) (hy : y.isFinite = true) (hzero : y.position ≠ some 0) :
    (x / y).isNaN = false := by
  rcases isFinite_iff.mp hy with ⟨t, n, rfl⟩
  have hunits : n.units ≠ 0 := by
    intro h
    apply hzero
    cases t <;> simp [position, Magnitude.signed, h]
  cases x with
  | nan => cases hx
  | infinity s => rfl
  | finite s m =>
    change (div (finite s m) (finite t n)).isNaN = false
    rw [div, if_neg hunits]
    exact isNaN_ofRatio _ _ _

end Binary64

namespace Statistics
variable {σ : Type}

theorem inUnit_ofPercent {percent : Binary64} (h : percent.isNaN = false) :
    (ofPercent percent).InUnit := by
  have hfinite : (100 : Binary64).isFinite = true := by decide +kernel
  have hzero : (100 : Binary64).position ≠ some 0 := by decide +kernel
  exact Binary64.inUnit_clamp (Binary64.isNaN_div h hfinite hzero)

def InUnit (answer : Option Binary64) : Prop := ∀ x, answer = some x → x.InUnit

theorem inUnit_none : InUnit none := by
  intro x hx
  cases hx

theorem inUnit_load (percent : Binary64) :
    InUnit (if percent.isNaN then none else some (ofPercent percent)) := by
  intro x hx
  split at hx
  next => cases hx
  next h =>
    rw [← Option.some.inj hx]
    exact inUnit_ofPercent (eq_false_of_ne_true h)

theorem yields_loadNow {ask : Action σ (Option Binary64)}
    (hask : ∀ s fault, (ask.run s).result = .error fault → fault.isFailure isAbsent = true) :
    (loadNow ask).Yields InUnit := by
  have hattempt : ask.attempt.Yields fun r =>
      ∀ fault, r = .error fault → fault.isFailure isAbsent = true := by
    intro s
    exact ⟨_, rfl, hask s⟩
  have hnone : (pure none : Action σ (Option Binary64)).Yields InUnit := .pure inUnit_none
  apply hattempt.bind
  intro r hr
  rcases r with fault | percent
  · have hkind := hr fault rfl
    cases fault with
    | machine failure message =>
      have hfailure : isAbsent failure = true := hkind
      simp only [hfailure, if_true]
      exact hnone
    | _ => cases hkind
  · cases percent with
    | none => exact hnone
    | some percent => exact Action.Yields.pure (inUnit_load percent)

end Statistics

theorem Binary64.InUnit.update {own : OwnReading} {answer : Option Binary64} (h : own.load.InUnit)
    (hanswer : Statistics.InUnit answer) (now : Binary64) :
    (own.update answer now).load.InUnit := by
  unfold OwnReading.update
  cases answer with
  | none => exact h
  | some x =>
    dsimp only
    split
    next => exact h
    next => exact hanswer x rfl

namespace Meter
variable {σ : Type}

/-- The meter goes by a load of the machine's own, and keeps a number from 0 to 1. -/
def OwnInUnit (s : Meter σ) : Prop := ∃ own, s.own = some own ∧ own.load.InUnit

def Step.InstantInUnit (step : Step) : Prop := step.query = .instant →
  ∃ x, step.result = .ok (.load x) ∧ x.isNaN = false ∧ x.InUnit

section Steps
variable {m : Machine σ} {s : Meter σ} {kept : OwnReading}

theorem onMachine_own {α : Type} {a : Action σ α} {P : α → Prop} (ha : a.Yields P) :
    (onMachine a).Ends s fun r t => (∃ x, r = .ok x ∧ P x) ∧ t.own = s.own := by
  refine ⟨?_, rfl⟩
  exact ha s.watch.machine

/-- What is kept and what is read are numbers from 0 to 1, so the answer is one too, and so is what
is kept afterwards. -/
theorem ownLoad_inUnit (hown : s.own = some kept) (hkept : kept.load.InUnit)
    (hread : m.ownLoad.Yields Statistics.InUnit) :
    (ownLoad m kept).Ends s fun r t => (∃ x, r = .ok x ∧ x.InUnit) ∧ t.OwnInUnit := by
  have hclock : (Action.ofState m.clock).Yields fun _ => True := .ofState m.clock
  apply (onMachine_own hclock).bind
  · rintro now t ⟨-, ht⟩
    apply Action.ends_get_bind.mpr
    split
    · refine ⟨⟨kept.load, rfl, hkept⟩, kept, ?_, hkept⟩
      exact ht.trans hown
    · apply (onMachine_own hread).bind
      · rintro answer u ⟨⟨_, ⟨⟩, hanswer⟩, -⟩
        have hload := hkept.update hanswer now
        apply Action.ends_modify_bind.mpr
        exact ⟨⟨_, rfl, hload⟩, _, rfl, hload⟩
      · rintro fault u ⟨⟨_, h, -⟩, -⟩
        cases h
  · rintro fault t ⟨⟨_, h, -⟩, -⟩
    cases h

theorem instant_inUnit (hs : s.OwnInUnit) (hread : m.ownLoad.Yields Statistics.InUnit) :
    (ask m .instant).Ends s fun r t => (∃ x, r = .ok (.load x) ∧ x.InUnit) ∧ t.OwnInUnit := by
  rcases hs with ⟨kept, hown, hkept⟩
  apply Action.ends_map.mpr
  apply Action.ends_get_bind.mpr
  rw [hown]
  apply (ownLoad_inUnit hown hkept hread).mono
  rintro r t ⟨⟨x, rfl, hx⟩, ht⟩
  exact ⟨⟨x, rfl, hx⟩, ht⟩

theorem ownInUnit_ask (query : Query) (hs : s.OwnInUnit)
    (hread : m.ownLoad.Yields Statistics.InUnit) :
    ((ask m query).run s).state.OwnInUnit ∧ (stepOf m query s).InstantInUnit := by
  by_cases hquery : query = .instant
  · subst hquery
    rcases instant_inUnit hs hread with ⟨⟨x, hx, hunit⟩, ht⟩
    exact ⟨ht, fun _ => ⟨x, hx, hunit.isNaN, hunit⟩⟩
  · rcases hs with ⟨kept, hown, hkept⟩
    have hsame := ((answers_stepOf m query s).other_own hquery).1
    refine ⟨⟨kept, hsame.trans hown, hkept⟩, ?_⟩
    intro h
    exact absurd h hquery

theorem ownInUnit_run (hs : s.OwnInUnit) (hread : m.ownLoad.Yields Statistics.InUnit)
    (queries : List Query) :
    (run m queries s).2.OwnInUnit ∧ ∀ step ∈ (run m queries s).1, step.InstantInUnit := by
  refine Action.runAll_induction (ask m) (stepOf m)
    (P := fun steps (t : Meter σ) => t.OwnInUnit ∧ ∀ step ∈ steps, step.InstantInUnit) ?_ ?_ queries
  · exact ⟨hs, List.forall_mem_nil _⟩
  · rintro steps t query ⟨ht, hsteps⟩
    rcases ownInUnit_ask query ht hread with ⟨hkeep, hstep⟩
    refine ⟨hkeep, List.forall_mem_append.mpr ⟨hsteps, ?_⟩⟩
    exact List.forall_mem_singleton.mpr hstep

end Steps

section SetUp
variable {m : Machine σ} (settings : Settings) (identity : Option Identification) (machine : σ)

theorem probeOwnLoad_inUnit (hread : m.ownLoad.Yields Statistics.InUnit) {own : OwnReading}
    (h : ((probeOwnLoad m settings).run machine).result = .ok (some own)) : own.load.InUnit := by
  unfold probeOwnLoad at h
  split at h
  next => cases h
  next =>
    rcases Action.ok_of_run_bind h with ⟨answer, hanswer, h⟩
    rcases hread machine with ⟨read, hreadAnswer, hunit⟩
    cases hanswer.symm.trans hreadAnswer
    cases answer with
    | none => cases h
    | some load =>
      cases h
      exact hunit load rfl

theorem ownInUnit_setUp (hread : m.ownLoad.Yields Statistics.InUnit) {s : Meter σ}
    (hsetUp : ((setUp m settings identity).run machine).result = .ok s) (hbasis : s.basis = .own) :
    s.OwnInUnit := by
  rcases Action.ok_of_run_bind hsetUp with ⟨logical, -, h⟩
  rcases Action.ok_of_run_bind h with ⟨physical, -, h⟩
  rcases Action.ok_of_run_bind h with ⟨own, hprobe, h⟩
  rcases Action.ok_of_run_bind h with ⟨watch, -, h⟩
  cases h
  cases own with
  | none => cases hbasis
  | some own => exact ⟨own, rfl, probeOwnLoad_inUnit settings _ hread hprobe⟩

/-- A meter that goes by a load from percentages answers every query about the instant load with a
number from 0 to 1, over every run of queries: whatever the percentages, the clock and the other
sources of the machine do, as long as percentages fail only to say that there are none. -/
theorem percentages_in_unit {ask : Action σ (Option Binary64)}
    (hm : m.ownLoad = Statistics.loadNow ask)
    (hask : ∀ s fault, (ask.run s).result = .error fault →
      fault.isFailure Statistics.isAbsent = true)
    {s : Meter σ} (hsetUp : ((setUp m settings identity).run machine).result = .ok s)
    (hbasis : s.basis = .own) (queries : List Query) :
    ∀ step ∈ (run m queries s).1, step.InstantInUnit := by
  have hread : m.ownLoad.Yields Statistics.InUnit := hm ▸ Statistics.yields_loadNow hask
  have hstart := ownInUnit_setUp settings identity machine hread hsetUp hbasis
  exact (ownInUnit_run hstart hread queries).2

def wildPercentages (n : Nat) : Except Fault (Option Binary64) :=
  match n % 6 with
  | 0 => .ok (some (.ofNat 250))
  | 1 => .ok (some (.ofInt (-3)))
  | 2 => .ok (some .nan)
  | 3 => .ok none
  | 4 => .ok (some (.infinity true))
  | _ => .error (.machine .unsupported [])

theorem isAbsent_wildPercentages {n : Nat} {fault : Fault} (h : wildPercentages n = .error fault) :
    fault.isFailure Statistics.isAbsent = true := by
  unfold wildPercentages at h
  split at h <;> cases h
  rfl

def wild : Machine Nat where
  __ := counting fun _ => none
  ownLoad := Statistics.loadNow fun n => ⟨wildPercentages n, n + 1, []⟩

theorem percentages_in_unit_wild :
    let queries : List Query := [.instant, .sampled, .instant, .instant, .perProcessor, .instant]
    let s : Meter Nat := { thirdsMeter with own := some ⟨1, .ofNat 1000⟩ }
    ((setUp wild {} none).run 0).result = .ok s ∧ s.basis = .own ∧
      ∀ step ∈ (run wild queries s).1, step.InstantInUnit := by
  intro queries s
  have hsetUp : ((setUp wild {} none).run 0).result = .ok s := by decide +kernel
  refine ⟨hsetUp, rfl, percentages_in_unit {} none 0 rfl ?_ hsetUp rfl queries⟩
  intro n fault h
  exact isAbsent_wildPercentages h

end SetUp

end Meter

end ProcessorLoad
