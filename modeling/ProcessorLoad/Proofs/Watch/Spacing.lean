import ProcessorLoad.Proofs.Clock
import ProcessorLoad.Proofs.Watch.Ledger
import ProcessorLoad.Proofs.Watch.Refreshing

/-!
# The times of refreshes

A refresh that may wait decides by one look at the clock and takes the time of its reading from a
later one. It reads its kind once at most, and moves on the time of no other kind.
-/

set_option autoImplicit false

namespace ProcessorLoad

namespace Series
variable {α : Type} {S : Series α} {e : Event}

theorem stamps_of_outcome? (h : S.outcome? e = some (.ok true)) (now : Binary64) :
    S.stamps [e, .clock now] = [now] := by
  unfold outcome? at h
  cases he : S.fetched? e with
  | none => simp [he] at h
  | some r =>
    cases r with
    | error fault => simp [he, Except.map] at h
    | ok a =>
      have hz : S.isZero a = false := by simpa [he, Except.map] using h
      simp [stamp?, fetches_ok he, hz]

theorem fetched?_of_outcome? (h : S.outcome? e = none) : S.fetched? e = none :=
  Option.map_eq_none_iff.mp h

end Series

namespace Scope
variable {rows : Nat} {kind : Scope} {e : Event} {es : List Event}

def stamps (rows : Nat) : Scope → List Event → List Binary64
  | system => Series.totals.stamps
  | processors => (Series.tables rows).stamps

theorem stamps_clock (kind : Scope) (now : Binary64) (es : List Event) :
    kind.stamps rows (.clock now :: es) = kind.stamps rows es := by
  cases kind with
  | system => exact Series.totals.stamps_clock now es
  | processors => exact (Series.tables rows).stamps_clock now es

theorem stamps_singleton (kind : Scope) (e : Event) : kind.stamps rows [e] = [] := by
  cases kind with
  | system => exact Series.totals.stamps_singleton e
  | processors => exact (Series.tables rows).stamps_singleton e

theorem stamps_of_outcome? (h : kind.outcome? rows e = some (.ok true)) (now : Binary64) :
    kind.stamps rows [e, .clock now] = [now] := by
  cases kind with
  | system => exact Series.stamps_of_outcome? h now
  | processors => exact Series.stamps_of_outcome? h now

theorem stamps_of_not_reads (h : ∀ e ∈ es, kind.reads e = false) : kind.stamps rows es = [] := by
  have hnone (e : Event) (he : e ∈ es) : kind.outcome? rows e = none :=
    outcome?_of_not_reads (h e he)
  cases kind with
  | system =>
    have hsilent : Series.totals.Silent es := fun e he => Series.fetched?_of_outcome? (hnone e he)
    exact hsilent.stamps
  | processors =>
    have hsilent : (Series.tables rows).Silent es :=
      fun e he => Series.fetched?_of_outcome? (hnone e he)
    exact hsilent.stamps

end Scope

namespace TickPairs
variable {p q : TickPairs} {kind other : Scope} {es : List Event} {r : Except Fault Bool}
variable {interval : Binary64} {e : Event}

/-- What becomes of the time of a kind: it stays, or a reading with data moves it on, if more than
the interval had gone by at an earlier look at the clock. -/
inductive MovesOn (p : TickPairs) (kind : Scope) (interval : Binary64) (es : List Event)
    (q : TickPairs) : Prop where
  | stays (hstamps : kind.stamps p.rows es = []) (htime : q.timeOf kind = p.timeOf kind)
  | moves {now later : Binary64} (hdue : (now - p.timeOf kind).le interval = false)
    (hlooks : looks es = [now, later]) (hstamps : kind.stamps p.rows es = [later])
    (htime : q.timeOf kind = later)

theorem looks_of_reads (h : kind.reads e = true) (es : List Event) :
    looks (e :: es) = looks es := by
  cases e with
  | clock now => cases (Scope.reads_clock kind now).symm.trans h
  | _ => rfl

theorem Refreshes.reads_other (h : p.Refreshes kind es r q) (hne : other ≠ kind) :
    ∀ e ∈ es, other.reads e = false := by
  cases h with
  | left he hr => simpa using Scope.reads_other (Scope.reads_of_outcome? he) hne
  | taken he hq =>
    simpa [Scope.reads_clock] using Scope.reads_other (Scope.reads_of_outcome? he) hne

theorem RefreshesIfDue.reads_other (h : p.RefreshesIfDue kind interval es r q)
    (hne : other ≠ kind) :
    ∀ e ∈ es, other.reads e = false := by
  cases h with
  | early h => simp [Scope.reads_clock]
  | due h hq => simpa [Scope.reads_clock] using hq.reads_other hne

theorem Refreshes.countP_reads (h : p.Refreshes kind es r q) : es.countP kind.reads = 1 := by
  cases h with
  | left he hr => simp [Scope.reads_of_outcome? he]
  | taken he hq => simp [Scope.reads_of_outcome? he, Scope.reads_clock]

theorem RefreshesIfDue.countP_reads_le (h : p.RefreshesIfDue kind interval es r q) (other : Scope) :
    es.countP other.reads ≤ 1 := by
  by_cases hkind : other = kind
  · subst hkind
    cases h with
    | early h => simp [Scope.reads_clock]
    | due h hq => simp [Scope.reads_clock, hq.countP_reads]
  · have hnone := List.countP_eq_zero.mpr fun e he => ne_true_of_eq_false (h.reads_other hkind e he)
    omega

theorem RefreshesIfDue.due_of_reads (h : p.RefreshesIfDue kind interval es r q) (he : e ∈ es)
    (hreads : other.reads e = true) :
    other = kind ∧ ∃ now, es.head? = some (.clock now) ∧
      (now - p.timeOf kind).le interval = false := by
  have hkind : other = kind := by
    by_contra hne
    cases (h.reads_other hne e he).symm.trans hreads
  subst hkind
  obtain ⟨now, hnow⟩ := h.exists_head?
  exact ⟨rfl, now, hnow, (h.reads_iff hnow).mp ⟨e, he, hreads⟩⟩

theorem RefreshesIfDue.timeOf_other (h : p.RefreshesIfDue kind interval es r q)
    (hne : other ≠ kind) :
    q.timeOf other = p.timeOf other := by
  cases h with
  | early h => rfl
  | due h hq =>
    cases hq with
    | left he hr => rfl
    | taken he hq => exact hq.timeOf_other hne

theorem RefreshesIfDue.movesOn (h : p.RefreshesIfDue kind interval es r q) (other : Scope) :
    p.MovesOn other interval es q := by
  by_cases hkind : other = kind
  · subst hkind
    cases h with
    | early h => exact .stays (Scope.stamps_singleton other _) rfl
    | due h hq =>
      cases hq with
      | left he hr =>
        refine .stays ?_ rfl
        rw [Scope.stamps_clock, Scope.stamps_singleton]
      | @taken e later _ he hq =>
        refine .moves h ?_ ?_ hq.timeOf
        · rw [looks_clock, looks_of_reads (Scope.reads_of_outcome? he)]
          rfl
        · rw [Scope.stamps_clock, Scope.stamps_of_outcome? he]
  · exact .stays (Scope.stamps_of_not_reads (h.reads_other hkind)) (h.timeOf_other hkind)

theorem MovesOn.timeOf_mem (h : p.MovesOn kind interval es q) :
    q.timeOf kind ∈ p.timeOf kind :: looks es := by
  cases h with
  | stays hstamps htime => exact htime ▸ List.mem_cons_self
  | moves hdue hlooks hstamps htime => simp [htime, hlooks]

/-- The time that a reading gets is at least as late as the one that it was due at. -/
theorem MovesOn.spaced {shown : List Binary64} (h : p.MovesOn kind interval es q)
    (htime : p.timeOf kind ∈ 0 :: shown) (hsteady : Steady (shown ++ looks es))
    (hinterval : interval.isNaN = false) :
    Spaced interval.lt (p.timeOf kind) (kind.stamps p.rows es) (q.timeOf kind) := by
  cases h with
  | stays hstamps hsame =>
    rw [hstamps, hsame]
    exact .refl _
  | @moves now later hdue hlooks hstamps hlater =>
    have hlast : (p.timeOf kind).isFinite = true := hsteady.left.cons_zero.finite _ htime
    have hshown : Steady ([now] ++ [later]) := by
      have h := hsteady.right
      rwa [hlooks] at h
    have hnow : now.isFinite = true := hshown.left.finite now (List.mem_singleton_self now)
    have hfinite : later.isFinite = true :=
      hshown.right.finite later (List.mem_singleton_self later)
    have hle : now.le later = true :=
      hshown.le (List.mem_singleton_self now) (List.mem_singleton_self later)
    rw [hstamps, hlater]
    apply Spaced.single
    apply Binary64.lt_sub_of_le hlast hnow hfinite hle
    exact (Binary64.le_eq_false_iff (Binary64.isNaN_sub hnow hlast) hinterval).mp hdue

end TickPairs

end ProcessorLoad
