import ProcessorLoad.Proofs.Number.Difference
import ProcessorLoad.Proofs.Watch.Refreshing

/-!
# A watch whose source was not ready

While no reading of a kind holds data, the time of the kind stays at zero, whatever else is done. So
the wait for the next reading is the same as after a reading at time zero: a refresh that may wait
reads again just if the clock is past its interval.
-/

set_option autoImplicit false

namespace ProcessorLoad

theorem Series.Installs.time_eq {α : Type} {S : Series α} {p q : TickPair α} {es : List Event}
    {r : Except Fault Unit} (h : S.Installs p es r q)
    (hes : ∀ e ∈ es, S.outcome? e ≠ some (.ok true)) : q.time = p.time := by
  cases h with
  | failed he => rfl
  | unready he hz => rfl
  | @ready e a now he hz =>
    refine absurd ?_ (hes e List.mem_cons_self)
    simp [outcome?, he, hz, Except.map]

namespace TickPairs
variable {p q : TickPairs} {kind other : Scope} {es : List Event}

theorem Primes.timeOf_eq {r : Except Fault Unit} (h : p.Primes q es r)
    (hes : kind.Unready p.rows es) : q.timeOf kind = p.timeOf kind := by
  cases h with
  | table ht hs =>
    cases kind with
    | system => simp [timeOf, hs]
    | processors => exact ht.time_eq hes
  | both ht hs =>
    cases kind with
    | system => exact hs.time_eq fun e he => hes e (List.mem_append_right _ he)
    | processors => exact ht.time_eq fun e he => hes e (List.mem_append_left _ he)

theorem Refreshes.timeOf_eq {r : Except Fault Bool} (h : p.Refreshes other es r q)
    (hes : kind.Unready p.rows es) : q.timeOf kind = p.timeOf kind := by
  cases h with
  | left he hr => rfl
  | @taken e now q he hq =>
    apply hq.timeOf_other
    rintro rfl
    exact hes e List.mem_cons_self he

theorem RefreshesIfDue.timeOf_eq {r : Except Fault Bool} {interval : Binary64}
    (h : p.RefreshesIfDue other interval es r q) (hes : kind.Unready p.rows es) :
    q.timeOf kind = p.timeOf kind := by
  cases h with
  | early _ => rfl
  | due _ hq => exact hq.timeOf_eq fun e he => hes e (List.mem_cons_of_mem _ he)

theorem Performs.timeOf_eq {step : TickWatch.Step} (h : p.Performs q step) (hrows : q.rows = p.rows)
    (hes : kind.Unready p.rows step.events) : q.timeOf kind = p.timeOf kind := by
  cases h with
  | prime h => exact h.timeOf_eq hes
  | refresh h => exact (refreshes_of_concerns hrows h).timeOf_eq hes
  | refreshIfDue h => exact (refreshesIfDue_of_concerns hrows h).timeOf_eq hes
  | snapshot h => rw [h]

/-- With a time of zero, the interval is over just if the clock is past it. -/
theorem RefreshesIfDue.reads_iff_lt {r : Except Fault Bool} {interval now : Binary64}
    (h : p.RefreshesIfDue kind interval es r q) (hhead : es.head? = some (.clock now))
    (htime : p.timeOf kind = 0) (hnow : now.isFinite = true) (hinterval : interval.isNaN = false) :
    (∃ e ∈ es, kind.reads e = true) ↔ interval.lt now = true := by
  rw [h.reads_iff hhead, htime, Binary64.sub_zero_le hnow,
    Binary64.le_eq_false_iff (Binary64.isNaN_of_isFinite hnow) hinterval]

end TickPairs

namespace TickWatch
variable {σ : Type} (m : Machine σ)

def eventsOf (steps : List Step) : List Event := steps.flatMap Step.events

theorem timeOf_run (operations : List Operation) (s : TickWatch σ) (kind : Scope)
    (hunready : kind.Unready s.rows (eventsOf (run m operations s).1)) :
    (run m operations s).2.rows = s.rows ∧
      (run m operations s).2.pairs.timeOf kind = s.pairs.timeOf kind := by
  revert hunready
  refine Action.runAll_induction (perform m) (stepOf m)
    (P := fun steps (t : TickWatch σ) => kind.Unready s.rows (eventsOf steps) →
      t.rows = s.rows ∧ t.pairs.timeOf kind = s.pairs.timeOf kind) ?_ ?_ operations
  · exact fun _ => ⟨rfl, rfl⟩
  · intro steps t operation ih hunready
    have hsplit : eventsOf (steps ++ [stepOf m operation t])
        = eventsOf steps ++ (stepOf m operation t).events := by simp [eventsOf]
    rw [hsplit] at hunready
    obtain ⟨hrows, htime⟩ := ih fun e he => hunready e (List.mem_append_left _ he)
    obtain ⟨hrows', hq⟩ := performs_stepOf m operation t
    refine ⟨hrows'.trans hrows, ?_⟩
    rw [← htime]
    apply hq.timeOf_eq hrows'
    intro e he
    rw [show t.pairs.rows = s.rows from hrows]
    exact hunready e (List.mem_append_right _ he)

/-- A watch of which no reading of a kind held data so far, from its first reading on. A refresh
that may wait reads the kind again just if the clock is past the interval, and then takes a reading
with data up. -/
theorem unready_read_again_iff (machine : σ) (processors : Int) (operations : List Operation)
    (kind : Scope) (interval : Binary64) (hinterval : interval.isNaN = false) :
    let rows := (max 1 processors).toNat
    let s := (run m operations (new machine processors)).2
    let now := (m.clock s.machine).1
    let step := stepOf m (.refreshIfDue kind interval) s
    let o := (refreshIfDue m kind interval).run s
    kind.Unready rows (eventsOf (run m operations (new machine processors)).1) →
      now.isFinite = true →
        ((∃ e ∈ step.events, kind.reads e = true) ↔ interval.lt now = true) ∧
        ∀ e ∈ step.events, kind.outcome? rows e = some (.ok true) →
          o.result = .ok true ∧ ∃ time, s.pairs.Takes kind e time o.state.pairs := by
  intro rows s now step o hunready hnow
  obtain ⟨hrows, htime⟩ := timeOf_run m operations (new machine processors) kind hunready
  have hzero : s.pairs.timeOf kind = 0 := by
    rw [htime]
    cases kind <;> rfl
  have h := refreshIfDue_spec m kind interval s
  refine ⟨?_, ?_⟩
  · exact h.reads_iff_lt (head?_refreshIfDue m kind interval s) hzero hnow hinterval
  · intro e he hdata
    rw [← show s.pairs.rows = rows from hrows] at hdata
    exact h.takes he hdata

/-- A machine whose clock stands still, and whose counters begin at zero. -/
def warmingUp (now : Nat) : Machine Nat where
  clock n := (.ofNat now, n)
  totalTicks n := ⟨.ok [.whole n, .whole 0, .whole 0, .whole n], n + 1, []⟩
  tickTable n := ⟨.ok [], n, []⟩
  ownLoad n := ⟨.ok none, n, []⟩
  logicalProcessors n := ⟨.ok 1, n, []⟩
  physicalProcessors n := ⟨.ok 1, n, []⟩
  averages n := ⟨.ok [], n, []⟩
  identify n := ⟨.ok {}, n, []⟩

theorem unready_read_again_iff_second :
    let m := warmingUp 1000
    let s := (run m [.prime] (new 0 1)).2
    let step := stepOf m (.refreshIfDue .system 950) s
    (950 : Binary64).isNaN = false ∧
      Scope.system.Unready 1 (eventsOf (run m [.prime] (new 0 1)).1) ∧
      (m.clock s.machine).1.isFinite = true ∧
      (∃ e ∈ step.events, Scope.system.reads e = true) ∧
      ∃ e ∈ step.events, Scope.system.outcome? 1 e = some (.ok true) ∧
        ((refreshIfDue m .system 950).run s).result = .ok true := by
  intro m s step
  have hinterval : (950 : Binary64).isNaN = false := by decide +kernel
  have hunready : Scope.system.Unready 1 (eventsOf (run m [.prime] (new 0 1)).1) := by
    decide +kernel
  have hnow : (m.clock s.machine).1.isFinite = true := by decide +kernel
  have hlt : (950 : Binary64).lt (m.clock s.machine).1 = true := by decide +kernel
  have hdata : ∃ e ∈ step.events, Scope.system.outcome? 1 e = some (.ok true) := by decide +kernel
  have h := unready_read_again_iff m 0 1 [.prime] .system 950 hinterval hunready hnow
  refine ⟨hinterval, hunready, hnow, h.1.mpr hlt, ?_⟩
  obtain ⟨e, he, hdata⟩ := hdata
  exact ⟨e, he, hdata, (h.2 e he hdata).1⟩

/-- The first reading held no data, but half a second after the clock's zero the next refresh does
not read again. -/
theorem unready_not_read_again :
    let m := warmingUp 500
    let s := (run m [.prime] (new 0 1)).2
    let step := stepOf m (.refreshIfDue .system 950) s
    (0 : Binary64).le 950 = true ∧
      Scope.system.Unready 1 (eventsOf (run m [.prime] (new 0 1)).1) ∧
      (m.clock s.machine).1.isFinite = true ∧ (0 : Binary64).le (m.clock s.machine).1 = true ∧
      ¬∃ e ∈ step.events, Scope.system.reads e = true := by
  intro m s step
  refine ⟨?_, ?_, ?_, ?_, ?_⟩
  · decide +kernel
  · decide +kernel
  · decide +kernel
  · decide +kernel
  · decide +kernel

end TickWatch

end ProcessorLoad
