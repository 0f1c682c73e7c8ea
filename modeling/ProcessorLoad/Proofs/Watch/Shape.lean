import ProcessorLoad.Proofs.Ticks.Shape
import ProcessorLoad.Proofs.Watch.Runs

/-!
# The shape of what a watch holds

In every state that a watch gets into, whatever its machine answers, each record has an entry for
each kind of time and each table has a record for each processor.
-/

set_option autoImplicit false

namespace ProcessorLoad

def TickPair.All {α : Type} (P : α → Prop) (p : TickPair α) : Prop := P p.previous ∧ P p.current

namespace Series
variable {α : Type} {S : Series α} {P : α → Prop} {p q : TickPair α} {es : List Event}

/-- Every reading of the kind is as asked, if there is one. -/
def Gives (S : Series α) (P : α → Prop) : Prop := ∀ e a, S.fetched? e = some (.ok a) → P a

theorem totals_gives : totals.Gives Ticks.Shaped := by
  intro e t h
  cases e with
  | totalTicks answer =>
    obtain ⟨counters, -, hcounters⟩ := ok_of_bind (Option.some.inj h)
    exact TickWatch.shaped_ticksOf hcounters
  | _ => cases h

theorem tables_gives (rows : Nat) : (tables rows).Gives (TickTable.Full rows Ticks.Shaped) := by
  intro e t h
  cases e with
  | tickTable answer =>
    obtain ⟨table, -, htable⟩ := ok_of_bind (Option.some.inj h)
    exact TickWatch.full_tableOf htable
  | _ => cases h

theorem Accepts.all {r : Except Fault Bool} (h : S.Accepts p es r q) (hS : S.Gives P)
    (hp : p.All P) : q.All P := by
  cases h with
  | failed _ => exact hp
  | skipped _ _ => exact hp
  | accepted he _ => exact ⟨hp.2, hS _ _ he⟩

theorem Refreshes.all {interval : Binary64} {r : Except Fault Bool}
    (h : S.Refreshes interval p es r q) (hS : S.Gives P) (hp : p.All P) : q.All P := by
  cases h with
  | early _ => exact hp
  | due _ hq => exact hq.all hS hp

theorem Installs.all {r : Except Fault Unit} (h : S.Installs p es r q) (hS : S.Gives P)
    (hp : p.All P) : q.All P := by
  cases h with
  | failed _ => exact hp
  | unready he _ => exact ⟨hS _ _ he, hS _ _ he⟩
  | ready he _ => exact ⟨hS _ _ he, hS _ _ he⟩

end Series

namespace TickPairs
variable {p q : TickPairs}

structure Shaped (p : TickPairs) : Prop where
  system : p.system.All Ticks.Shaped
  processors : p.processors.All (TickTable.Full p.rows Ticks.Shaped)

theorem Shaped.concerns {kind : Scope}
    {R : {α : Type} → Series α → TickPair α → TickPair α → Prop}
    (h : p.Shaped) (hrows : q.rows = p.rows)
    (hall : ∀ {α : Type} {S : Series α} {P : α → Prop} {p q : TickPair α}, R S p q → S.Gives P →
      p.All P → q.All P)
    (hq : p.Concerns R q kind) : q.Shaped := by
  cases kind with
  | system =>
    refine ⟨hall hq.1 Series.totals_gives h.system, ?_⟩
    rw [hq.2, hrows]
    exact h.processors
  | processors =>
    refine ⟨?_, ?_⟩
    · rw [hq.2]
      exact h.system
    · rw [hrows]
      exact hall hq.1 (Series.tables_gives _) h.processors

theorem Shaped.step {step : TickWatch.Step} (h : p.Shaped) (hrows : q.rows = p.rows)
    (hq : p.Performs q step) : q.Shaped := by
  cases hq with
  | prime hq =>
    cases hq with
    | table ht hs =>
      refine ⟨hs ▸ h.system, ?_⟩
      rw [hrows]
      exact ht.all (Series.tables_gives _) h.processors
    | both ht hs =>
      refine ⟨hs.all Series.totals_gives h.system, ?_⟩
      rw [hrows]
      exact ht.all (Series.tables_gives _) h.processors
  | refresh hq => exact h.concerns hrows Series.Accepts.all hq
  | refreshIfDue hq => exact h.concerns hrows Series.Refreshes.all hq
  | snapshot hq => exact hq ▸ h

end TickPairs

namespace TickWatch
variable {σ : Type}

theorem shaped_run (m : Machine σ) (operations : List Operation) {s : TickWatch σ}
    (h : s.pairs.Shaped) :
    (run m operations s).2.rows = s.rows ∧ (run m operations s).2.pairs.Shaped := by
  refine Action.runAll_induction (perform m) (stepOf m)
    (P := fun _ (t : TickWatch σ) => t.rows = s.rows ∧ t.pairs.Shaped) ⟨rfl, h⟩ ?_ operations
  rintro steps t operation ⟨hrows, ht⟩
  obtain ⟨hrows', hq⟩ := performs_stepOf m operation t
  exact ⟨hrows'.trans hrows, ht.step hrows' hq⟩

theorem shaped_new (machine : σ) (processors : Int) : (new machine processors).pairs.Shaped :=
  have hzero := TickTable.full_zero (max 1 processors).toNat Ticks.shaped_zero
  ⟨⟨Ticks.shaped_zero, Ticks.shaped_zero⟩, hzero, hzero⟩

end TickWatch

end ProcessorLoad
