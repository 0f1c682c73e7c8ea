import ProcessorLoad.Proofs.Result
import ProcessorLoad.Proofs.Watch.Runs

/-!
# Refreshing either kind

What is the same for both kinds of readings: whether an event is a reading of the kind, what a
refresh makes of it, and what becomes of the pairs and their times. A law about refreshes is proved
once, from `TickPairs.Refreshes` and `TickPairs.RefreshesIfDue`, for whichever kind is refreshed.
-/

set_option autoImplicit false

namespace ProcessorLoad

namespace Counter

def isFinite : Counter → Bool
  | whole _ => true
  | real x => x.isFinite

theorem isFinite_eq_false_iff {c : Counter} :
    c.isFinite = false ↔ ∃ fault, c.truncate = .error fault := by
  cases c with
  | whole n => simp [isFinite, truncate]
  | real x =>
    cases x <;> simp [isFinite, Binary64.isFinite, truncate, Binary64.truncate, Binary64.toWhole]

end Counter

namespace Event

/-- A reading that cannot be used: the source failed, or a counter that is kept is not finite. -/
def Unusable (rows : Nat) : Event → Prop
  | totalTicks (.ok counters) => ∃ c ∈ counters.take TickKind.count, c.isFinite = false
  | tickTable (.ok table) =>
    ∃ row ∈ table.take rows, ∃ c ∈ row.take TickKind.count, c.isFinite = false
  | totalTicks (.error _) => True
  | tickTable (.error _) => True
  | _ => False

end Event

/-- What a refresh makes of an event: whether the reading holds data, or the fault that there is
none. Nothing if the event is no reading of the kind. -/
def Series.outcome? {α : Type} (S : Series α) (e : Event) : Option (Except Fault Bool) :=
  (S.fetched? e).map fun r => r.map (!S.isZero ·)

namespace Scope

def reads : Scope → Event → Bool
  | system, .totalTicks _ => true
  | processors, .tickTable _ => true
  | _, _ => false

def outcome? (rows : Nat) : Scope → Event → Option (Except Fault Bool)
  | system => Series.totals.outcome?
  | processors => (Series.tables rows).outcome?

/-- No event brings data of the kind. -/
def Unready (kind : Scope) (rows : Nat) (es : List Event) : Prop :=
  ∀ e ∈ es, kind.outcome? rows e ≠ some (.ok true)

instance (kind : Scope) (rows : Nat) (es : List Event) : Decidable (kind.Unready rows es) :=
  inferInstanceAs (Decidable (∀ e ∈ es, kind.outcome? rows e ≠ some (.ok true)))

variable {rows : Nat} {kind other : Scope} {e : Event}

theorem isSome_outcome? (rows : Nat) (kind : Scope) (e : Event) :
    (kind.outcome? rows e).isSome = kind.reads e := by
  cases kind <;> cases e <;> rfl

theorem reads_of_outcome? {r : Except Fault Bool} (h : kind.outcome? rows e = some r) :
    kind.reads e = true := by
  rw [← isSome_outcome? rows, h, Option.isSome_some]

theorem reads_other (h : kind.reads e = true) (hne : other ≠ kind) : other.reads e = false := by
  cases kind with
  | system =>
    cases other with
    | system => exact absurd rfl hne
    | processors => cases e <;> first | rfl | cases h
  | processors =>
    cases other with
    | system => cases e <;> first | rfl | cases h
    | processors => exact absurd rfl hne

theorem reads_clock (kind : Scope) (now : Binary64) : kind.reads (.clock now) = false := by
  cases kind <;> rfl

theorem outcome?_of_not_reads (h : kind.reads e = false) : kind.outcome? rows e = none := by
  rwa [← isSome_outcome? rows, Option.isSome_eq_false_iff, Option.isNone_iff_eq_none] at h

end Scope

namespace TickWatch

theorem ticksOf_error_iff {counters : List Counter} :
    (∃ fault, ticksOf counters = .error fault) ↔
      ∃ c ∈ counters.take TickKind.count, c.isFinite = false := by
  simp only [Counter.isFinite_eq_false_iff, ← mapM_error_iff, ticksOf]
  cases (counters.take TickKind.count).mapM Counter.truncate <;> simp [Functor.map, Except.map]

theorem tableOf_error_iff {rows : Nat} {table : List (List Counter)} :
    (∃ fault, tableOf rows table = .error fault) ↔
      ∃ row ∈ table.take rows, ∃ c ∈ row.take TickKind.count, c.isFinite = false := by
  simp only [← ticksOf_error_iff, ← mapM_error_iff, tableOf]
  cases (table.take rows).mapM ticksOf <;> simp [bind, Except.bind, pure, Except.pure]

end TickWatch

theorem Scope.outcome?_error_iff {rows : Nat} {kind : Scope} {e : Event} :
    (∃ fault, kind.outcome? rows e = some (.error fault)) ↔
      kind.reads e = true ∧ e.Unusable rows := by
  cases kind with
  | system =>
    cases e with
    | totalTicks answer =>
      cases answer with
      | error fault =>
        simp [outcome?, Series.outcome?, reads, Event.Unusable, Series.totals, bind, Except.bind,
          Except.map]
      | ok counters =>
        simp only [reads, Event.Unusable, true_and, ← TickWatch.ticksOf_error_iff]
        change (∃ fault, some ((TickWatch.ticksOf counters).map _) = _) ↔ _
        cases TickWatch.ticksOf counters <;> simp [Except.map]
    | _ => simp [outcome?, Series.outcome?, reads, Series.totals]
  | processors =>
    cases e with
    | tickTable answer =>
      cases answer with
      | error fault =>
        simp [outcome?, Series.outcome?, reads, Event.Unusable, Series.tables, bind, Except.bind,
          Except.map]
      | ok table =>
        simp only [reads, Event.Unusable, true_and, ← TickWatch.tableOf_error_iff]
        change (∃ fault, some ((TickWatch.tableOf rows table).map _) = _) ↔ _
        cases TickWatch.tableOf rows table <;> simp [Except.map]
    | _ => simp [outcome?, Series.outcome?, reads, Series.tables]

namespace TickPairs

def timeOf (p : TickPairs) : Scope → Binary64
  | .system => p.system.time
  | .processors => p.processors.time

/-- The reading that an event brings is taken up at a time, and the other kind stays. -/
def Takes (p : TickPairs) (kind : Scope) (e : Event) (now : Binary64) (q : TickPairs) : Prop :=
  q.rows = p.rows ∧
    p.Concerns (fun S p q => ∃ a, S.fetched? e = some (.ok a) ∧ q = p.push a now) q kind

/-- What a refresh does once it is under way: only a reading with data changes anything. -/
inductive Refreshes (p : TickPairs) (kind : Scope) :
    List Event → Except Fault Bool → TickPairs → Prop where
  | left {e : Event} {r : Except Fault Bool} (h : kind.outcome? p.rows e = some r)
    (hr : r ≠ .ok true) : Refreshes p kind [e] r p
  | taken {e : Event} {now : Binary64} {q : TickPairs}
    (h : kind.outcome? p.rows e = some (.ok true))
    (hq : p.Takes kind e now q) : Refreshes p kind [e, .clock now] (.ok true) q

inductive RefreshesIfDue (p : TickPairs) (kind : Scope) (interval : Binary64) :
    List Event → Except Fault Bool → TickPairs → Prop where
  | early {now : Binary64} (h : (now - p.timeOf kind).le interval = true) :
    RefreshesIfDue p kind interval [.clock now] (.ok false) p
  | due {now : Binary64} {es : List Event} {r : Except Fault Bool} {q : TickPairs}
    (h : (now - p.timeOf kind).le interval = false) (hq : p.Refreshes kind es r q) :
    RefreshesIfDue p kind interval (.clock now :: es) r q

variable {p q : TickPairs} {kind other : Scope} {es : List Event} {r : Except Fault Bool}
variable {interval now : Binary64} {e : Event}

theorem Refreshes.exists_reads (h : p.Refreshes kind es r q) : ∃ e ∈ es, kind.reads e = true := by
  cases h with
  | left h hr => exact ⟨_, List.mem_cons_self, Scope.reads_of_outcome? h⟩
  | taken h hq => exact ⟨_, List.mem_cons_self, Scope.reads_of_outcome? h⟩

theorem RefreshesIfDue.exists_head? (h : p.RefreshesIfDue kind interval es r q) :
    ∃ now, es.head? = some (.clock now) := by
  cases h with
  | early h => exact ⟨_, rfl⟩
  | due h hq => exact ⟨_, rfl⟩

/-- The look at the clock alone decides whether the kind is read. -/
theorem RefreshesIfDue.reads_iff (h : p.RefreshesIfDue kind interval es r q)
    (hhead : es.head? = some (.clock now)) :
    (∃ e ∈ es, kind.reads e = true) ↔ (now - p.timeOf kind).le interval = false := by
  cases h with
  | early h =>
    cases hhead
    simp [Scope.reads_clock, h]
  | due h hq =>
    cases hhead
    obtain ⟨e, he, hreads⟩ := hq.exists_reads
    simp only [h, iff_true]
    exact ⟨e, List.mem_cons_of_mem _ he, hreads⟩

theorem Refreshes.takes (h : p.Refreshes kind es r q) (he : e ∈ es)
    (hdata : kind.outcome? p.rows e = some (.ok true)) :
    r = .ok true ∧ ∃ now, p.Takes kind e now q := by
  cases h with
  | left h hr =>
    cases List.mem_singleton.mp he
    exact absurd (Option.some.inj (h.symm.trans hdata)) hr
  | @taken e' now q h hq =>
    rcases List.mem_cons.mp he with rfl | he
    · exact ⟨rfl, now, hq⟩
    · cases List.mem_singleton.mp he
      cases (Scope.reads_of_outcome? hdata).symm.trans (Scope.reads_clock kind now)

theorem RefreshesIfDue.takes (h : p.RefreshesIfDue kind interval es r q) (he : e ∈ es)
    (hdata : kind.outcome? p.rows e = some (.ok true)) :
    r = .ok true ∧ ∃ now, p.Takes kind e now q := by
  have hclock (now : Binary64) : e ≠ .clock now := by
    rintro rfl
    cases (Scope.reads_of_outcome? hdata).symm.trans (Scope.reads_clock kind now)
  cases h with
  | early h => exact absurd (List.mem_singleton.mp he) (hclock _)
  | due h hq =>
    rcases List.mem_cons.mp he with rfl | he
    · exact absurd rfl (hclock _)
    · exact hq.takes he hdata

theorem Takes.timeOf (h : p.Takes kind e now q) : q.timeOf kind = now := by
  obtain ⟨-, hq⟩ := h
  cases kind with
  | system =>
    obtain ⟨⟨a, -, hq⟩, -⟩ := hq
    simp [TickPairs.timeOf, hq, TickPair.push]
  | processors =>
    obtain ⟨⟨a, -, hq⟩, -⟩ := hq
    simp [TickPairs.timeOf, hq, TickPair.push]

theorem Takes.timeOf_other (h : p.Takes kind e now q) (hne : other ≠ kind) :
    q.timeOf other = p.timeOf other := by
  obtain ⟨-, hq⟩ := h
  cases kind <;> cases other <;> simp_all [TickPairs.timeOf, Concerns]

end TickPairs

namespace Series
variable {α : Type} {S : Series α} {p q : TickPair α} {es : List Event} {r : Except Fault Bool}

/-- The two ways in which a refresh of a series ends. -/
theorem Accepts.cases_taken (h : S.Accepts p es r q) :
    (∃ e, es = [e] ∧ S.outcome? e = some r ∧ r ≠ .ok true ∧ q = p) ∨
      ∃ e now a, es = [e, .clock now] ∧ S.fetched? e = some (.ok a) ∧ S.isZero a = false ∧
        r = .ok true ∧ q = p.push a now := by
  cases h with
  | @failed e fault he => exact .inl ⟨e, rfl, by simp [outcome?, he, Except.map], nofun, rfl⟩
  | @skipped e a he hz => exact .inl ⟨e, rfl, by simp [outcome?, he, hz, Except.map], nofun, rfl⟩
  | @accepted e a now he hz => exact .inr ⟨e, now, a, rfl, he, hz, rfl, rfl⟩

end Series

namespace TickPairs
variable {p q : TickPairs} {kind : Scope} {es : List Event} {r : Except Fault Bool}
variable {interval : Binary64}

theorem refreshes_of_concerns (hrows : q.rows = p.rows)
    (h : p.Concerns (fun S p q => S.Accepts p es r q) q kind) : p.Refreshes kind es r q := by
  obtain ⟨rows, system, processors⟩ := p
  obtain ⟨rows', system', processors'⟩ := q
  cases hrows
  cases kind
  all_goals
    obtain ⟨h, hother⟩ := h
    cases hother
    rcases h.cases_taken with ⟨e, rfl, he, hr, hq⟩ | ⟨e, now, a, rfl, he, hz, rfl, hq⟩
    · cases hq
      exact .left he hr
    · refine .taken ?_ ⟨rfl, ⟨a, he, hq⟩, rfl⟩
      simp [Scope.outcome?, Series.outcome?, he, hz, Except.map]

theorem refreshesIfDue_of_concerns (hrows : q.rows = p.rows)
    (h : p.Concerns (fun S p q => S.Refreshes interval p es r q) q kind) :
    p.RefreshesIfDue kind interval es r q := by
  obtain ⟨rows, system, processors⟩ := p
  obtain ⟨rows', system', processors'⟩ := q
  cases hrows
  cases kind
  all_goals
    obtain ⟨h, hother⟩ := h
    cases hother
    cases h with
    | early h => exact .early h
    | due h hq => exact .due h (refreshes_of_concerns rfl ⟨hq, rfl⟩)

variable {step : TickWatch.Step}

theorem Performs.refreshes (h : p.Performs q step) (hrows : q.rows = p.rows)
    (hop : step.operation = .refresh kind) :
    ∃ r, step.result = r.map .refreshed ∧ p.Refreshes kind step.events r q := by
  cases h with
  | refresh h =>
    cases hop
    exact ⟨_, rfl, refreshes_of_concerns hrows h⟩
  | _ => cases hop

theorem Performs.refreshesIfDue (h : p.Performs q step) (hrows : q.rows = p.rows)
    (hop : step.operation = .refreshIfDue kind interval) :
    ∃ r, step.result = r.map .refreshed ∧ p.RefreshesIfDue kind interval step.events r q := by
  cases h with
  | refreshIfDue h =>
    cases hop
    exact ⟨_, rfl, refreshesIfDue_of_concerns hrows h⟩
  | _ => cases hop

end TickPairs

namespace TickWatch
variable {σ : Type} (m : Machine σ) (kind : Scope) (interval : Binary64) (s : TickWatch σ)

theorem refreshed_injective : Function.Injective Answer.refreshed := fun _ _ => Answer.refreshed.inj

theorem refresh_spec :
    s.pairs.Refreshes kind (stepOf m (.refresh kind) s).events ((refresh m kind).run s).result
      ((refresh m kind).run s).state.pairs := by
  have hrun : (perform m (.refresh kind)).run s = _ := Action.run_map (refresh m kind) _ s
  obtain ⟨hrows, h⟩ := performs_stepOf m (.refresh kind) s
  obtain ⟨r, hr, h⟩ := h.refreshes hrows rfl
  rw [hrun] at h
  rw [stepOf, hrun] at hr
  rwa [eq_of_map_eq refreshed_injective hr]

theorem refreshIfDue_spec :
    s.pairs.RefreshesIfDue kind interval (stepOf m (.refreshIfDue kind interval) s).events
      ((refreshIfDue m kind interval).run s).result
      ((refreshIfDue m kind interval).run s).state.pairs := by
  have hrun : (perform m (.refreshIfDue kind interval)).run s = _ :=
    Action.run_map (refreshIfDue m kind interval) _ s
  obtain ⟨hrows, h⟩ := performs_stepOf m (.refreshIfDue kind interval) s
  obtain ⟨r, hr, h⟩ := h.refreshesIfDue hrows rfl
  rw [hrun] at h
  rw [stepOf, hrun] at hr
  rwa [eq_of_map_eq refreshed_injective hr]

theorem head?_refreshIfDue :
    (stepOf m (.refreshIfDue kind interval) s).events.head?
      = some (.clock (m.clock s.machine).1) := by
  have hclock : (readClock m.observed).Ends s.observe fun r t =>
      r = .ok (m.clock s.machine).1 ∧ s.observe.After [.clock (m.clock s.machine).1] t :=
    ⟨rfl, _, rfl⟩
  have hends : (refreshIfDue m.observed kind interval).Ends s.observe fun _ t =>
      ∃ es, t.machine.events = .clock (m.clock s.machine).1 :: es := by
    apply hclock.bind
    · rintro _ t ⟨⟨⟩, x, rfl⟩
      apply Action.ends_get_bind.mpr
      dsimp only
      split
      · exact ⟨[], rfl⟩
      · apply (refresh_ends kind).mono
        rintro r u ⟨es, he, -⟩
        exact ⟨es, he⟩
    · rintro fault t ⟨h, -⟩
      cases h
  have hperform : (perform m.observed (.refreshIfDue kind interval)).Ends s.observe fun _ t =>
      ∃ es, t.machine.events = .clock (m.clock s.machine).1 :: es := Action.ends_map.mpr hends
  obtain ⟨es, he⟩ := hperform
  rw [stepOf, he]
  rfl

end TickWatch

end ProcessorLoad
