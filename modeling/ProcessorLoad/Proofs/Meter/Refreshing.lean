import ProcessorLoad.Proofs.Meter.Steps
import ProcessorLoad.Proofs.Watch.Refreshing

/-!
# Which queries refresh ticks

A query refreshes the ticks of one kind or of none. Whatever else it does, to the ticks it does what
a refresh of that kind does that waits for the interval of the settings.
-/

set_option autoImplicit false

namespace ProcessorLoad

namespace Held
variable {p q : Held} {query : Meter.Query} {r : Except Fault Meter.Reply} {es : List Event}
variable {kind : Scope}

/-- The kind of ticks that a query refreshes if it is time. -/
def kind? (p : Held) : Meter.Query → Option Scope
  | .sampled => some .system
  | .perProcessor => some .processors
  | .instant => if p.own.isSome then none else some .system
  | _ => none

theorem kind?_of_quiet (p : Held) (h : query.Quiet) : p.kind? query = none := by
  cases query <;> first | rfl | exact h.elim

theorem kind?_instant {own : OwnReading} (hown : p.own = some own) : p.kind? .instant = none := by
  simp [kind?, hown]

theorem Answers.rows_eq (hq : p.Answers query r es q) : q.pairs.rows = p.pairs.rows := by
  induction hq with
  | byTicks _ _ ih => exact ih
  | _ => rfl

/-- What the ticks of a kind are to a query that refreshes them. -/
theorem Answers.refreshesIfDue (hq : p.Answers query r es q) (hkind : p.kind? query = some kind) :
    (∃ refreshed, p.pairs.RefreshesIfDue kind p.settings.tickInterval es refreshed q.pairs) ∧
      q.settings = p.settings ∧ q.own = p.own := by
  induction hq with
  | sampled h =>
    cases hkind
    exact ⟨⟨_, TickPairs.refreshesIfDue_of_concerns rfl ⟨h, rfl⟩⟩, rfl, rfl⟩
  | perProcessor h =>
    cases hkind
    exact ⟨⟨_, TickPairs.refreshesIfDue_of_concerns rfl ⟨h, rfl⟩⟩, rfl, rfl⟩
  | byTicks hown h ih =>
    apply ih
    simpa [kind?, hown] using hkind
  | kept hown _ => cases (kind?_instant hown).symm.trans hkind
  | read hown _ => cases (kind?_instant hown).symm.trans hkind
  | lost hown _ => cases (kind?_instant hown).symm.trans hkind
  | quiet h => cases (kind?_of_quiet p h).symm.trans hkind

theorem Answers.pairs_eq (hq : p.Answers query r es q) (hkind : p.kind? query = none) :
    q.pairs = p.pairs ∧ ∀ kind : Scope, ∀ e ∈ es, kind.reads e = false := by
  induction hq with
  | sampled h => cases hkind
  | perProcessor h => cases hkind
  | byTicks hown h => simp [kind?, hown] at hkind
  | kept hown _ =>
    refine ⟨rfl, fun kind => ?_⟩
    simp [Scope.reads_clock]
  | read hown _ =>
    refine ⟨rfl, fun kind => ?_⟩
    cases kind <;> simp [Scope.reads]
  | lost hown _ =>
    refine ⟨rfl, fun kind => ?_⟩
    cases kind <;> simp [Scope.reads]
  | quiet h => exact ⟨rfl, fun kind => List.forall_mem_nil _⟩

end Held

end ProcessorLoad
