import ProcessorLoad.Proofs.Meter.Refreshing
import ProcessorLoad.Proofs.Watch.Failure

/-!
# Queries that come to nothing

A query whose reading fails leaves the meter with what it held, and so does one whose reading of
ticks holds no data. The same query at the same time of the clock therefore reads again.
-/

set_option autoImplicit false

namespace ProcessorLoad

namespace Held
variable {p q q' : Held} {query : Meter.Query} {r r' : Except Fault Meter.Reply}
variable {es next : List Event} {kind : Scope} {own : OwnReading}

/-- What is held on to when no reading of the kind holds data, with the next answer to the query. -/
theorem Answers.of_unready (h : p.Answers query r es q) (hkind : p.kind? query = some kind)
    (hes : kind.Unready p.pairs.rows es) (hnext : q.Answers query r' next q') :
    q = p ∧ kind.ReadsAgain es next := by
  obtain ⟨⟨refreshed, hrefresh⟩, hsettings, hown⟩ := h.refreshesIfDue hkind
  have hpairs : q.pairs = p.pairs := hrefresh.eq_of_unready hes
  have hq : q = p := by
    cases p
    cases q
    cases hsettings
    cases hown
    cases hpairs
    rfl
  subst hq
  obtain ⟨⟨refreshed', hrefresh'⟩, -, -⟩ := hnext.refreshesIfDue hkind
  exact ⟨rfl, hrefresh.readsAgain hpairs hrefresh'⟩

/-- A query about the instant load by the machine's own load: a fault is a fault of the reading, it
leaves all as it was, and a query that begins with the same look at the clock reads again. -/
structure OwnAllOrNothing (p : Held) (es : List Event) (r : Except Fault Meter.Reply) (q : Held)
    (next : List Event) : Prop where
  failed : (∃ fault, r = .error fault) ↔ ∃ fault, .ownLoad (.error fault) ∈ es
  unchanged : (∃ fault, r = .error fault) → q = p
  again : (∃ fault, r = .error fault) → next.head? = es.head? → ∃ answer, .ownLoad answer ∈ next

theorem Answers.ownAllOrNothing (h : p.Answers .instant r es q) (hown : p.own = some own)
    (hnext : q.Answers .instant r' next q') : p.OwnAllOrNothing es r q next := by
  cases h with
  | kept hkept hlt => exact ⟨by simp, by simp, by simp⟩
  | read hkept hlt => exact ⟨by simp, by simp, by simp⟩
  | @lost kept now fault hkept hlt =>
    refine ⟨by simp, fun _ => rfl, ?_⟩
    rintro - hhead
    cases hkept.symm.trans hown
    cases hnext with
    | kept hkept' hlt' =>
      cases hkept.symm.trans hkept'
      cases hhead
      cases hlt.symm.trans hlt'
    | read hkept' hlt' => exact ⟨_, List.mem_cons_of_mem _ List.mem_cons_self⟩
    | lost hkept' hlt' => exact ⟨_, List.mem_cons_of_mem _ List.mem_cons_self⟩
    | byTicks hnone _ => cases hown.symm.trans hnone
    | quiet hquery => exact hquery.elim
  | byTicks hnone _ => cases hown.symm.trans hnone
  | quiet hquery => exact hquery.elim

end Held

namespace Meter
variable {σ : Type}

/-- Refreshes of a watch in any state are all or nothing, with the queries of a meter that they
serve and with its readings of the machine's own load. What comes to nothing is done again by a next
step at the same time of the clock. -/
theorem failure_changes_nothing (m : Machine σ) :
    (∀ (s : TickWatch σ) (kind : Scope),
      let o := (TickWatch.refresh m kind).run s
      s.pairs.AllOrNothing kind (TickWatch.stepOf m (.refresh kind) s).events o.result
        o.state.pairs) ∧
    (∀ (s : TickWatch σ) (kind : Scope) (interval : Binary64),
      let o := (TickWatch.refreshIfDue m kind interval).run s
      let es := (TickWatch.stepOf m (.refreshIfDue kind interval) s).events
      let next := (TickWatch.stepOf m (.refreshIfDue kind interval) o.state).events
      s.pairs.AllOrNothing kind es o.result o.state.pairs ∧
        (o.result ≠ .ok true → kind.ReadsAgain es next)) ∧
    (∀ (s : Meter σ) (query : Query) (kind : Scope), s.held.kind? query = some kind →
      let t := ((ask m query).run s).state
      let es := (stepOf m query s).events
      let next := (stepOf m query t).events
      kind.Unready s.watch.rows es → t.held = s.held ∧ kind.ReadsAgain es next) ∧
    ∀ (s : Meter σ) (own : OwnReading), s.own = some own →
      let t := ((ask m .instant).run s).state
      let step := stepOf m .instant s
      s.held.OwnAllOrNothing step.events step.result t.held (stepOf m .instant t).events := by
  refine ⟨?_, ?_, ?_, ?_⟩
  · intro s kind o
    exact (TickWatch.refresh_spec m kind s).allOrNothing
  · intro s kind interval o es next
    have h := TickWatch.refreshIfDue_spec m kind interval s
    refine ⟨h.allOrNothing, ?_⟩
    intro hr
    exact h.readsAgain (h.allOrNothing.unchanged hr)
      (TickWatch.refreshIfDue_spec m kind interval o.state)
  · intro s query kind hkind t es next hes
    exact (answers_stepOf m query s).of_unready hkind hes (answers_stepOf m query t)
  · intro s own hown t step
    exact (answers_stepOf m .instant s).ownAllOrNothing hown (answers_stepOf m .instant t)

/-- A machine whose clock stands still and none of whose readings can be used: one counter of the
table is no number, the total holds no data, and the load of its own cannot be read. -/
def spoiltMachine : Machine Nat where
  clock n := (.ofNat 5000, n)
  totalTicks n := ⟨.ok [.whole 0, .real 0], n + 1, []⟩
  tickTable n := ⟨.ok [[.whole n], [.whole n, .real .nan], [.whole n]], n + 1, []⟩
  ownLoad n := ⟨.error (.machine .runtime []), n + 1, []⟩
  logicalProcessors n := ⟨.ok 3, n, []⟩
  physicalProcessors n := ⟨.ok 1, n, []⟩
  averages n := ⟨.ok [], n, []⟩
  identify n := ⟨.ok {}, n, []⟩

def spoiltMeter : Meter Nat where
  settings := {}
  logicalProcessors := 3
  physicalProcessors := 1
  own := some ⟨0, .ofNat 1000⟩
  identity := none
  watch :=
    { machine := 7
      rows := 3
      system := ⟨[1, 0, 0, 1, 0, 0, 0], [2, 0, 0, 3, 0, 0, 0], .ofNat 2000⟩
      processors := .constant (TickTable.zero 3) }

theorem failure_changes_nothing_spoilt :
    let s := spoiltMeter
    let o := (TickWatch.refreshIfDue spoiltMachine .processors 950).run s.watch
    let total := ((ask spoiltMachine .sampled).run s).state
    let own := ((ask spoiltMachine .instant).run s).state
    (o.result = .error .wholeOfNaN ∧ o.state.pairs = s.watch.pairs) ∧
      (s.held.kind? .sampled = some .system ∧
        Scope.system.Unready 3 (stepOf spoiltMachine .sampled s).events ∧
        (∃ e ∈ (stepOf spoiltMachine .sampled s).events, Scope.system.reads e = true) ∧
        total.held = s.held ∧
        ∃ e ∈ (stepOf spoiltMachine .sampled total).events, Scope.system.reads e = true) ∧
      s.own = some ⟨0, .ofNat 1000⟩ ∧ own.held = s.held ∧
        ∃ answer, .ownLoad answer ∈ (stepOf spoiltMachine .instant own).events := by
  intro s o total own
  have hresult : o.result = .error .wholeOfNaN := by decide +kernel
  have hunready : Scope.system.Unready 3 (stepOf spoiltMachine .sampled s).events := by
    decide +kernel
  have hreads : ∃ e ∈ (stepOf spoiltMachine .sampled s).events, Scope.system.reads e = true := by
    decide +kernel
  have hlost : (stepOf spoiltMachine .instant s).events
      = [.clock (.ofNat 5000), .ownLoad (.error (.machine .runtime []))] := by decide +kernel
  obtain ⟨-, hdue, hquery, hown⟩ := failure_changes_nothing spoiltMachine
  obtain ⟨hheld, hagain⟩ := hquery s .sampled .system rfl hunready
  have hhead : (stepOf spoiltMachine .sampled total).events.head?
      = (stepOf spoiltMachine .sampled s).events.head? := by decide +kernel
  have hsame : (stepOf spoiltMachine .instant own).events.head?
      = (stepOf spoiltMachine .instant s).events.head? := by decide +kernel
  obtain ⟨hfailed, hunchanged, hreread⟩ := hown s _ rfl
  have hfault := hfailed.mpr ⟨.machine .runtime [], by rw [hlost]; simp⟩
  refine ⟨⟨hresult, ?_⟩, ⟨rfl, hunready, hreads, hheld, hagain hreads hhead⟩, rfl,
    hunchanged hfault, hreread hfault hsame⟩
  apply (hdue s.watch .processors 950).1.unchanged
  rw [show ((TickWatch.refreshIfDue spoiltMachine .processors 950).run s.watch).result = _ from
    hresult]
  nofun

end Meter

end ProcessorLoad
