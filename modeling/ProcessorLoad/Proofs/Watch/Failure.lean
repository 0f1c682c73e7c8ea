import ProcessorLoad.Proofs.Watch.Refreshing

/-!
# Refreshes that come to nothing

A refresh that fails, or whose reading holds no data, leaves both pairs and both times as they were.
As the time is the same, a refresh that looks at the clock again at the same time reads again.
-/

set_option autoImplicit false

namespace ProcessorLoad

/-- If the kind was read, then a later step that begins with the same look at the clock reads it
too. -/
def Scope.ReadsAgain (kind : Scope) (es next : List Event) : Prop :=
  (∃ e ∈ es, kind.reads e = true) → next.head? = es.head? → ∃ e ∈ next, kind.reads e = true

namespace TickPairs
variable {p q : TickPairs} {kind : Scope} {es : List Event} {r : Except Fault Bool}

/-- A refresh of a kind takes a reading with data up or changes nothing, and it fails just on a
reading that cannot be used. -/
structure AllOrNothing (p : TickPairs) (kind : Scope) (es : List Event) (r : Except Fault Bool)
    (q : TickPairs) : Prop where
  unchanged : r ≠ .ok true → q = p
  failed : (∃ fault, r = .error fault) ↔ ∃ e ∈ es, kind.reads e = true ∧ e.Unusable p.rows
  empty : (∃ e ∈ es, kind.outcome? p.rows e = some (.ok false)) → r = .ok false
  taken : ∀ e ∈ es, kind.outcome? p.rows e = some (.ok true) →
    r = .ok true ∧ ∃ now, p.Takes kind e now q

theorem exists_error_iff {e : Event} (h : kind.outcome? p.rows e = some r) :
    (∃ fault, r = .error fault) ↔ kind.reads e = true ∧ e.Unusable p.rows := by
  rw [← Scope.outcome?_error_iff, h]
  simp

theorem outcome?_clock (kind : Scope) (rows : Nat) (now : Binary64) :
    kind.outcome? rows (.clock now) = none :=
  Scope.outcome?_of_not_reads (Scope.reads_clock kind now)

theorem Refreshes.allOrNothing (h : p.Refreshes kind es r q) : p.AllOrNothing kind es r q := by
  have htaken := fun e (he : e ∈ es) => h.takes he
  cases h with
  | left h hr =>
    refine ⟨fun _ => rfl, ?_, ?_, htaken⟩
    · rw [exists_error_iff h]
      simp
    · simp only [List.mem_singleton, exists_eq_left, h, Option.some.injEq]
      exact id
  | taken h hq =>
    refine ⟨fun hr => absurd rfl hr, ?_, ?_, htaken⟩
    · rw [exists_error_iff h]
      simp [Scope.reads_clock]
    · simp [h, outcome?_clock]

theorem RefreshesIfDue.allOrNothing {interval : Binary64}
    (h : p.RefreshesIfDue kind interval es r q) :
    p.AllOrNothing kind es r q := by
  have htaken := fun e (he : e ∈ es) => h.takes he
  cases h with
  | early h =>
    refine ⟨fun _ => rfl, ?_, fun _ => rfl, htaken⟩
    simp [Scope.reads_clock]
  | due h hq =>
    obtain ⟨hunchanged, hfailed, hempty, -⟩ := hq.allOrNothing
    refine ⟨hunchanged, ?_, ?_, htaken⟩
    · rw [hfailed]
      simp [Scope.reads_clock]
    · simpa [outcome?_clock] using hempty

/-- What comes to nothing leaves the interval over. -/
theorem RefreshesIfDue.readsAgain {interval : Binary64} {next : List Event} {q' : TickPairs}
    {r r' : Except Fault Bool} (h : p.RefreshesIfDue kind interval es r q) (hq : q = p)
    (hnext : q.RefreshesIfDue kind interval next r' q') : kind.ReadsAgain es next := by
  intro hreads hhead
  obtain ⟨now, hnow⟩ := h.exists_head?
  rw [h.reads_iff hnow] at hreads
  rw [hnext.reads_iff (hhead.trans hnow), hq]
  exact hreads

theorem RefreshesIfDue.eq_of_unready {interval : Binary64}
    (h : p.RefreshesIfDue kind interval es r q) (hes : kind.Unready p.rows es) : q = p := by
  cases h with
  | early h => rfl
  | due h hq =>
    cases hq with
    | left h hr => rfl
    | taken h hq => exact absurd h (hes _ (List.mem_cons_of_mem _ List.mem_cons_self))

end TickPairs

end ProcessorLoad
