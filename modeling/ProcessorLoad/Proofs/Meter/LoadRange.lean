import ProcessorLoad.Proofs.Meter.Steps
import ProcessorLoad.Proofs.Watch.Growth

/-!
# Loads from growing counters

A meter whose ticks come from counters that only grow answers every query about ticks with numbers
from 0 to 1. Readings that are not ready, and processors that go and come back, do no harm.
-/

set_option autoImplicit false

namespace ProcessorLoad

namespace Meter
variable {σ : Type}

/-- The queries about ticks are answered, with numbers from 0 to 1, one for each processor. -/
structure Step.InRange (rows : Nat) (step : Step) : Prop where
  sampled : step.query = .sampled → ∃ x, step.result = .ok (.load x) ∧ x.InUnit
  perProcessor : step.query = .perProcessor →
    ∃ xs, step.result = .ok (.loads xs) ∧ xs.length = rows ∧ ∀ x ∈ xs, x.InUnit

def eventsOf (steps : List Step) : List Event := steps.flatMap Step.events

theorem eventsOf_append (steps : List Step) (step : Step) :
    eventsOf (steps ++ [step]) = eventsOf steps ++ step.events := by
  simp [eventsOf]

end Meter

namespace Held
variable {p q : Held} {es fs : List Event} {rows : Nat}

theorem Begins.drawn {settings : Settings} (h : Begins settings es p) : p.pairs.Drawn es := by
  cases h with
  | @intro es fs own _ _ hown hrows hpairs => exact (hpairs.drawn hrows).prepend es

theorem drawn_system {interval : Binary64} {r : Except Fault Bool} {a : TickPair Ticks}
    (ha : Series.totals.Refreshes interval p.pairs.system fs r a)
    (hg : Growing p.pairs.rows (es ++ fs)) (h : p.pairs.Drawn es) :
    (p.withSystem a).pairs.Drawn (es ++ fs) ∧
      Succeeds (r.bind fun _ => a.load) Binary64.InUnit := by
  obtain ⟨hdrawn, accepted, rfl⟩ := h.refreshes_system (q := (p.withSystem a).pairs) rfl hg ha rfl
  exact ⟨hdrawn, hdrawn.load_inUnit hg⟩

theorem drawn_processors {interval : Binary64} {r : Except Fault Bool} {a : TickPair TickTable}
    (ha : (Series.tables p.pairs.rows).Refreshes interval p.pairs.processors fs r a)
    (hg : Growing p.pairs.rows (es ++ fs)) (h : p.pairs.Drawn es) :
    (p.withProcessors a).pairs.Drawn (es ++ fs) ∧ Succeeds (r.bind fun _ => a.loads)
      fun xs => xs.length = p.pairs.rows ∧ ∀ x ∈ xs, x.InUnit := by
  obtain ⟨hdrawn, accepted, rfl⟩ :=
    h.refreshes_processors (q := (p.withProcessors a).pairs) rfl hg ha rfl
  exact ⟨hdrawn, hdrawn.loads_inUnit hg⟩

theorem Answers.drawn {query : Meter.Query} {r : Except Fault Meter.Reply}
    (hq : p.Answers query r fs q) (hg : Growing p.pairs.rows (es ++ fs)) (h : p.pairs.Drawn es) :
    q.pairs.rows = p.pairs.rows ∧ q.pairs.Drawn (es ++ fs) ∧
      Meter.Step.InRange p.pairs.rows ⟨query, r, fs⟩ := by
  cases hq with
  | sampled ha =>
    obtain ⟨hdrawn, x, hx, hunit⟩ := drawn_system ha hg h
    refine ⟨rfl, hdrawn, ?_, nofun⟩
    intro _
    exact ⟨x, congrArg (Meter.Reply.load <$> ·) hx, hunit⟩
  | perProcessor ha =>
    obtain ⟨hdrawn, xs, hxs, hunit⟩ := drawn_processors ha hg h
    refine ⟨rfl, hdrawn, nofun, ?_⟩
    intro _
    exact ⟨xs, congrArg (Meter.Reply.loads <$> ·) hxs, hunit⟩
  | kept hown hlt => exact ⟨rfl, h.append _, nofun, nofun⟩
  | read hown hlt => exact ⟨rfl, h.append _, nofun, nofun⟩
  | lost hown hlt => exact ⟨rfl, h.append _, nofun, nofun⟩
  | byTicks hown ha =>
    cases ha with
    | sampled ha => exact ⟨rfl, (drawn_system ha hg h).1, nofun, nofun⟩
    | quiet hquery => exact hquery.elim
  | quiet hquery =>
    refine ⟨rfl, h.append _, ?_, ?_⟩
    · rintro rfl
      exact hquery.elim
    · rintro rfl
      exact hquery.elim

end Held

namespace Meter
variable {σ : Type} (m : Machine σ) (settings : Settings) (identity : Option Identification)
  (machine : σ)

/-- The run lemma: both pairs stay drawn from the readings so far, and all answers are in range. -/
theorem drawn_run {es : List Event} {s : Meter σ} (hs : s.held.pairs.Drawn es)
    (queries : List Query) (hgrow : Growing s.watch.rows (es ++ eventsOf (run m queries s).1)) :
    (run m queries s).2.watch.rows = s.watch.rows ∧
      (run m queries s).2.held.pairs.Drawn (es ++ eventsOf (run m queries s).1) ∧
      ∀ step ∈ (run m queries s).1, step.InRange s.watch.rows := by
  revert hgrow
  refine Action.runAll_induction (ask m) (stepOf m)
    (P := fun steps (t : Meter σ) => Growing s.watch.rows (es ++ eventsOf steps) →
      t.watch.rows = s.watch.rows ∧ t.held.pairs.Drawn (es ++ eventsOf steps) ∧
        ∀ step ∈ steps, step.InRange s.watch.rows) ?_ ?_ queries
  · intro _
    refine ⟨rfl, by simpa [eventsOf] using hs, ?_⟩
    intro step hmem
    cases hmem
  · intro steps t query ih hgrow
    rw [eventsOf_append, ← List.append_assoc] at hgrow ⊢
    obtain ⟨hrows, hdrawn, hrange⟩ := ih hgrow.left
    rw [← hrows] at hgrow hrange ⊢
    obtain ⟨hrows', hdrawn', hstep⟩ := (answers_stepOf m query t).drawn hgrow hdrawn
    refine ⟨hrows', hdrawn', ?_⟩
    intro step hmem
    rcases List.mem_append.mp hmem with hmem | hmem
    · exact hrange step hmem
    · rw [List.mem_singleton.mp hmem]
      exact hstep

/-- Where the counters only grow from the set-up on, every query about ticks is answered, and with
numbers from 0 to 1. -/
theorem growing_loads_in_range {s : Meter σ}
    (hsetUp : ((setUp m settings identity).run machine).result = .ok s) (queries : List Query)
    (hgrow : Growing s.watch.rows
      (setUpEvents m settings identity machine ++ eventsOf (run m queries s).1)) :
    ∀ step ∈ (run m queries s).1, step.InRange s.watch.rows := by
  have hbegins := begins_setUp m settings identity machine hsetUp
  exact (drawn_run m hbegins.drawn queries hgrow).2.2

/-- A meter on a counting machine after the set-up, when the table was not ready yet. -/
def countingMeter : Meter Nat where
  settings := { useOwnLoad := false }
  logicalProcessors := 2
  physicalProcessors := 1
  own := none
  identity := none
  watch :=
    { machine := 3
      rows := 2
      system := ⟨[1, 0, 0, 1, 0, 0, 0], [1, 0, 0, 1, 0, 0, 0], .ofNat 2000⟩
      processors := .constant (TickTable.zero 2) }

theorem growing_loads_in_range_counting :
    let m := counting fun _ => none
    let queries : List Query := [.sampled, .perProcessor, .sampled]
    ((setUp m { useOwnLoad := false } none).run 0).result = .ok countingMeter ∧
      Growing 2 (setUpEvents m { useOwnLoad := false } none 0 ++
        eventsOf (run m queries countingMeter).1) ∧
      ∀ step ∈ (run m queries countingMeter).1, step.InRange 2 := by
  intro m queries
  have hsetUp : ((setUp m { useOwnLoad := false } none).run 0).result = .ok countingMeter := by
    decide +kernel
  have hgrow : Growing 2 (setUpEvents m { useOwnLoad := false } none 0 ++
      eventsOf (run m queries countingMeter).1) := by
    decide +kernel
  exact ⟨hsetUp, hgrow, growing_loads_in_range m _ none 0 hsetUp queries hgrow⟩

end Meter

end ProcessorLoad
