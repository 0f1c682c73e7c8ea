import ProcessorLoad.Proofs.Watch.Fetches
import ProcessorLoad.Proofs.Watch.Refreshing

/-!
# The accepted readings of a run

A ledger is worked out from the events of a run alone: the list of the readings of a kind that were
accepted since the last priming, and the time of the last one that held data. The pair of a watch
always shows the end of its ledger, whatever the order of the operations and whichever of them fail.
Which events an operation brings is said beside it: a refresh makes one reading of its kind, one
that may wait makes it just if it is due by the ledger before it, and priming makes one of each
kind.
-/

set_option autoImplicit false

namespace ProcessorLoad

/-- The accepted readings of one kind, oldest first, and the time of the last one with data. -/
structure Ledger (α : Type) where
  accepted : List α
  time : Binary64

namespace Series
variable {α : Type}

def stamp? (S : Series α) : Event × Event → Option Binary64
  | (e, .clock now) => if (S.fetches [e]).any (!S.isZero ·) then some now else none
  | _ => none

def stamps (S : Series α) (es : List Event) : List Binary64 := (es.zip es.tail).filterMap S.stamp?

variable {S : Series α} {e : Event} {es : List Event} {a : α}

@[simp] theorem stamps_nil (S : Series α) : S.stamps [] = [] := rfl

@[simp] theorem stamps_singleton (S : Series α) (e : Event) : S.stamps [e] = [] := rfl

@[simp] theorem stamps_cons_cons (S : Series α) (e f : Event) (es : List Event) :
    S.stamps (e :: f :: es) = (S.stamp? (e, f)).toList ++ S.stamps (f :: es) := by
  simp only [stamps, List.tail_cons, List.zip_cons_cons, List.filterMap_cons]
  cases S.stamp? (e, f) <;> rfl

theorem stamp?_none (h : S.fetched? e = none) (f : Event) : S.stamp? (e, f) = none := by
  cases f <;> simp [stamp?, fetches_none h]

@[simp] theorem stamps_clock (S : Series α) (now : Binary64) (es : List Event) :
    S.stamps (.clock now :: es) = S.stamps es := by
  cases es with
  | nil => rfl
  | cons f es => simp [stamp?_none (S.fetched?_clock now)]

/-- Only a look at the clock right after it can stamp a reading. -/
theorem stamps_append_cons {f : Event} (hf : ∀ now, f ≠ .clock now) (fs : List Event) :
    S.stamps (es ++ f :: fs) = S.stamps es ++ S.stamps (f :: fs) := by
  have hnone (e : Event) : S.stamp? (e, f) = none := by
    cases f with
    | clock now => exact absurd rfl (hf now)
    | _ => rfl
  induction es with
  | nil => rfl
  | cons e es ih =>
    cases es with
    | nil => simp [hnone]
    | cons e' es => simpa [List.append_assoc] using ih

theorem Silent.stamps (h : S.Silent es) : S.stamps es = [] := by
  induction es with
  | nil => rfl
  | cons e es ih =>
    cases es with
    | nil => rfl
    | cons f es =>
      rw [stamps_cons_cons, stamp?_none (h e List.mem_cons_self),
        ih fun x hx => h x (List.mem_cons_of_mem _ hx)]
      rfl

theorem Installs.stamps_append {β : Type} {T : Series β} {p q : TickPair α} {fs : List Event}
    {r : Except Fault Unit} (h : S.Installs p fs r q) (es : List Event) :
    T.stamps (es ++ fs) = T.stamps es ++ T.stamps fs := by
  cases h with
  | failed he => exact stamps_append_cons (ne_clock he) _
  | unready he _ => exact stamps_append_cons (ne_clock he) _
  | ready he _ => exact stamps_append_cons (ne_clock he) _

end Series

namespace Ledger
variable {α : Type} (S : Series α) (L : Ledger α)

def refreshed (es : List Event) : Ledger α where
  accepted := L.accepted ++ (S.fetches es).filter (!S.isZero ·)
  time := (S.stamps es).getLast?.getD L.time

/-- A reading, also one without data, takes the place of all. -/
def primed (es : List Event) : Ledger α where
  accepted := ((S.fetches es).getLast?.map fun a => [a]).getD L.accepted
  time := (S.stamps es).getLast?.getD L.time

def extend (step : TickWatch.Step) : Ledger α :=
  match step.operation with
  | .prime => L.primed S step.events
  | _ => L.refreshed S step.events

/-- The ledger of a run of a watch that begins with `zero`, at no particular time. -/
def ofRun (zero : α) (steps : List TickWatch.Step) : Ledger α :=
  steps.foldl (extend S) ⟨[zero], 0⟩

/-- The pair holds the last entry and the one before it, which is the last one again if there is no
other, with the time of the ledger. -/
structure Shows (p : TickPair α) : Prop where
  current : L.accepted.getLast? = some p.current
  previous : L.accepted.dropLast.getLast?.getD p.current = p.previous
  time : L.time = p.time

theorem shows_constant (a : α) : Shows ⟨[a], 0⟩ (.constant a) := ⟨rfl, rfl, rfl⟩

variable {S L}

theorem Shows.push {p : TickPair α} (h : L.Shows p) (a : α) (now : Binary64) :
    Shows ⟨L.accepted ++ [a], now⟩ (p.push a now) := by
  refine ⟨by simp [TickPair.push], ?_, rfl⟩
  simp [TickPair.push, h.current]

theorem Shows.accepts {p q : TickPair α} {es : List Event} {r : Except Fault Bool}
    (h : L.Shows p) (hq : S.Accepts p es r q) : (L.refreshed S es).Shows q := by
  cases hq with
  | failed he => simpa [refreshed, Series.fetches_error he] using h
  | skipped he hz => simpa [refreshed, Series.fetches_ok he, hz] using h
  | accepted he hz =>
    simpa [refreshed, Series.fetches_ok he, Series.stamp?, hz] using h.push _ _

theorem Shows.refreshes {p q : TickPair α} {es : List Event} {interval : Binary64}
    {r : Except Fault Bool} (h : L.Shows p) (hq : S.Refreshes interval p es r q) :
    (L.refreshed S es).Shows q := by
  cases hq with
  | early _ => simpa [refreshed] using h
  | due _ hq => simpa [refreshed] using h.accepts hq

theorem Shows.installs {p q : TickPair α} {es : List Event} {r : Except Fault Unit}
    (h : L.Shows p) (hq : S.Installs p es r q) : (L.primed S es).Shows q := by
  cases hq with
  | failed he => simpa [primed, Series.fetches_error he] using h
  | unready he hz =>
    rw [primed, Series.fetches_ok he]
    exact ⟨rfl, rfl, h.time⟩
  | ready he hz =>
    simp only [primed, Series.fetches_ok he, Series.fetches_clock]
    exact ⟨rfl, rfl, by simp [Series.stamp?, Series.fetches_ok he, hz]⟩

theorem refreshed_silent {es : List Event} (h : S.Silent es) : L.refreshed S es = L := by
  simp [refreshed, h.fetches, h.stamps]

theorem primed_silent {es : List Event} (h : S.Silent es) : L.primed S es = L := by
  simp [primed, h.fetches, h.stamps]

def timeOf (rows : Nat) (steps : List TickWatch.Step) : Scope → Binary64
  | .system => (ofRun .totals Ticks.zero steps).time
  | .processors => (ofRun (.tables rows) (TickTable.zero rows) steps).time

theorem ofRun_append (zero : α) (steps : List TickWatch.Step) (step : TickWatch.Step) :
    ofRun S zero (steps ++ [step]) = (ofRun S zero steps).extend S step := by
  simp [ofRun]

/-- What comes first in a priming does not matter to a kind that is only read afterwards. -/
theorem primed_append_right {p q : TickPair α} {es fs : List Event}
    {r : Except Fault Unit} (hes : S.Silent es) (h : S.Installs p fs r q) :
    L.primed S (es ++ fs) = L.primed S fs := by
  simp [primed, Series.fetches_append, hes.fetches, hes.stamps, h.stamps_append]

/-- What follows in a priming does not matter to a kind that is read first. -/
theorem primed_append_left {β : Type} {T : Series β} {p q : TickPair β} {es fs : List Event}
    {r : Except Fault Unit} (hfs : S.Silent fs) (h : T.Installs p fs r q) :
    L.primed S (es ++ fs) = L.primed S es := by
  simp [primed, Series.fetches_append, hfs.fetches, hfs.stamps, h.stamps_append]

end Ledger

/-- One reading of the kind, and a look at the clock right after it if it holds data. The answer is
whether it does, or the fault that there is no reading. -/
inductive Scope.ReadsOnce (rows : Nat) (kind : Scope) : List Event → Except Fault Bool → Prop where
  | refused {e : Event} {r : Except Fault Bool} (h : kind.outcome? rows e = some r)
    (hr : r ≠ .ok true) :
    ReadsOnce rows kind [e] r
  | accepted {e : Event} {now : Binary64} (h : kind.outcome? rows e = some (.ok true)) :
    ReadsOnce rows kind [e, .clock now] (.ok true)

/-- The readings that an operation makes and how they answer it, if the last readings with data are
of these times. A refresh that may wait goes by one look at the clock; priming reads the processors
first. -/
inductive TickWatch.Step.Reads (rows : Nat) (timeOf : Scope → Binary64) :
    TickWatch.Step → Prop where
  | refresh {kind : Scope} {es : List Event} {r : Except Fault Bool}
    (h : kind.ReadsOnce rows es r) :
    Reads rows timeOf ⟨.refresh kind, r.map .refreshed, es⟩
  | early {kind : Scope} {interval now : Binary64} (h : (now - timeOf kind).le interval = true) :
    Reads rows timeOf ⟨.refreshIfDue kind interval, .ok (.refreshed false), [.clock now]⟩
  | due {kind : Scope} {interval now : Binary64} {es : List Event} {r : Except Fault Bool}
    (h : (now - timeOf kind).le interval = false) (hes : kind.ReadsOnce rows es r) :
    Reads rows timeOf ⟨.refreshIfDue kind interval, r.map .refreshed, .clock now :: es⟩
  | primeFailed {es : List Event} {fault : Fault}
    (h : Scope.processors.ReadsOnce rows es (.error fault)) :
    Reads rows timeOf ⟨.prime, .error fault, es⟩
  | prime {es fs : List Event} {held : Bool} {r : Except Fault Bool}
    (h : Scope.processors.ReadsOnce rows es (.ok held)) (hfs : Scope.system.ReadsOnce rows fs r) :
    Reads rows timeOf ⟨.prime, r.map fun _ => .primed, es ++ fs⟩
  | snapshot {kind : Scope} {answer : TickWatch.Answer} :
    Reads rows timeOf ⟨.snapshot kind, .ok answer, []⟩

theorem Series.Installs.readsOnce {α : Type} {S : Series α} {p q : TickPair α} {es : List Event}
    {r : Except Fault Unit} {rows : Nat} (kind : Scope) (h : S.Installs p es r q)
    (hkind : ∀ e, kind.outcome? rows e = S.outcome? e) :
    ∃ held, kind.ReadsOnce rows es held ∧ r = held.map fun _ => () := by
  cases h with
  | @failed e fault he =>
    exact ⟨.error fault, .refused (by simp [hkind, outcome?, he, Except.map]) (by simp), rfl⟩
  | @unready e a he hz =>
    exact ⟨.ok false, .refused (by simp [hkind, outcome?, he, hz, Except.map]) (by simp), rfl⟩
  | @ready e a now he hz =>
    exact ⟨.ok true, .accepted (by simp [hkind, outcome?, he, hz, Except.map]), rfl⟩

namespace TickPairs
variable {p q : TickPairs}

theorem Refreshes.readsOnce {kind : Scope} {es : List Event} {r : Except Fault Bool}
    (h : p.Refreshes kind es r q) : kind.ReadsOnce p.rows es r := by
  cases h with
  | left he hr => exact .refused he hr
  | taken he _ => exact .accepted he

theorem Primes.reads {es : List Event} {r : Except Fault Unit} (h : p.Primes q es r)
    (timeOf : Scope → Binary64) :
    TickWatch.Step.Reads p.rows timeOf ⟨.prime, r.map fun _ => .primed, es⟩ := by
  cases h with
  | table h _ =>
    obtain ⟨held, hes, hr⟩ := h.readsOnce .processors fun _ => rfl
    cases held with
    | error fault =>
      cases hr
      exact .primeFailed hes
    | ok held => cases hr
  | both h hsystem =>
    obtain ⟨held, hes, hr⟩ := h.readsOnce .processors fun _ => rfl
    obtain ⟨held', hfs, rfl⟩ := hsystem.readsOnce .system fun _ => rfl
    have hmap : (held'.map fun _ => ()).map (fun _ => TickWatch.Answer.primed)
        = held'.map fun _ => .primed := by cases held' <;> rfl
    cases held with
    | error fault => cases hr
    | ok held =>
      rw [hmap]
      exact .prime hes hfs

theorem Performs.reads {step : TickWatch.Step} (h : p.Performs q step) (hrows : q.rows = p.rows) :
    step.Reads p.rows p.timeOf := by
  cases h with
  | prime h => exact h.reads p.timeOf
  | refresh h => exact .refresh (refreshes_of_concerns hrows h).readsOnce
  | refreshIfDue h =>
    cases refreshesIfDue_of_concerns hrows h with
    | early hearly => exact .early hearly
    | due hdue h => exact .due hdue h.readsOnce
  | snapshot _ => exact .snapshot

structure ShowLedgers (p : TickPairs) (rows : Nat) (steps : List TickWatch.Step) : Prop where
  rows_eq : p.rows = rows
  system : (Ledger.ofRun .totals Ticks.zero steps).Shows p.system
  processors : (Ledger.ofRun (.tables rows) (TickTable.zero rows) steps).Shows p.processors

theorem ShowLedgers.timeOf_eq {rows : Nat} {steps : List TickWatch.Step}
    (h : p.ShowLedgers rows steps) : Ledger.timeOf rows steps = p.timeOf := by
  funext kind
  cases kind with
  | system => exact h.system.time
  | processors => exact h.processors.time

theorem ShowLedgers.prime {rows : Nat} {steps : List TickWatch.Step} {es : List Event}
    {r : Except Fault Unit} {result : Except Fault TickWatch.Answer}
    (h : p.ShowLedgers rows steps) (hrows : q.rows = p.rows) (hq : p.Primes q es r) :
    q.ShowLedgers rows (steps ++ [⟨.prime, result, es⟩]) := by
  obtain ⟨rfl, hs, hp⟩ := h
  refine ⟨hrows, ?_, ?_⟩
  · rw [Ledger.ofRun_append]
    change (Ledger.primed _ _ _).Shows _
    cases hq with
    | table ht hsys =>
      rw [Ledger.primed_silent (ht.silent (Series.tables_apart_totals _)), hsys]
      exact hs
    | both ht hsys =>
      rw [Ledger.primed_append_right (ht.silent (Series.tables_apart_totals _)) hsys]
      exact hs.installs hsys
  · rw [Ledger.ofRun_append]
    change (Ledger.primed _ _ _).Shows _
    cases hq with
    | table ht _ => exact hp.installs ht
    | both ht hsys =>
      rw [Ledger.primed_append_left (hsys.silent (Series.totals_apart_tables _)) hsys]
      exact hp.installs ht

theorem ShowLedgers.concerns {rows : Nat} {steps : List TickWatch.Step} {step : TickWatch.Step}
    {kind : Scope} {R : {α : Type} → Series α → TickPair α → TickPair α → Prop}
    (hop : step.operation ≠ .prime) (h : p.ShowLedgers rows steps) (hrows : q.rows = p.rows)
    (hshows : ∀ {α : Type} {S : Series α} {L : Ledger α} {p q : TickPair α}, L.Shows p → R S p q →
      (L.refreshed S step.events).Shows q)
    (hsilent : ∀ {α β : Type} {S : Series α} {T : Series β} {p q : TickPair α}, R S p q →
      S.Apart T → T.Silent step.events)
    (hq : p.Concerns R q kind) : q.ShowLedgers rows (steps ++ [step]) := by
  obtain ⟨rfl, hs, hp⟩ := h
  have hextend {α : Type} (S : Series α) (L : Ledger α) :
      L.extend S step = L.refreshed S step.events := by
    unfold Ledger.extend
    split
    next h => exact absurd h hop
    next => rfl
  cases kind with
  | system =>
    refine ⟨hrows, ?_, ?_⟩
    · rw [Ledger.ofRun_append, hextend]
      exact hshows hs hq.1
    · rw [Ledger.ofRun_append, hextend, hq.2,
        Ledger.refreshed_silent (hsilent hq.1 (Series.totals_apart_tables _))]
      exact hp
  | processors =>
    refine ⟨hrows, ?_, ?_⟩
    · rw [Ledger.ofRun_append, hextend, hq.2,
        Ledger.refreshed_silent (hsilent hq.1 (Series.tables_apart_totals _))]
      exact hs
    · rw [Ledger.ofRun_append, hextend]
      exact hshows hp hq.1

theorem ShowLedgers.step {rows : Nat} {steps : List TickWatch.Step} {step : TickWatch.Step}
    (h : p.ShowLedgers rows steps) (hrows : q.rows = p.rows) (hq : p.Performs q step) :
    q.ShowLedgers rows (steps ++ [step]) := by
  cases hq with
  | prime hq => exact h.prime hrows hq
  | refresh hq => exact h.concerns nofun hrows Ledger.Shows.accepts Series.Accepts.silent hq
  | refreshIfDue hq =>
    exact h.concerns nofun hrows Ledger.Shows.refreshes Series.Refreshes.silent hq
  | snapshot hq =>
    subst q
    obtain ⟨hr, hs, hp⟩ := h
    refine ⟨hr, ?_, ?_⟩
    · rw [Ledger.ofRun_append]
      simpa [Ledger.extend, Ledger.refreshed] using hs
    · rw [Ledger.ofRun_append]
      simpa [Ledger.extend, Ledger.refreshed] using hp

end TickPairs

namespace TickWatch
variable {σ : Type}

theorem showLedgers_run (m : Machine σ) (operations : List Operation) (s : TickWatch σ)
    (h : s.pairs.ShowLedgers s.rows []) :
    (run m operations s).2.pairs.ShowLedgers s.rows (run m operations s).1 := by
  refine Action.runAll_induction (perform m) (stepOf m)
    (P := fun steps (t : TickWatch σ) => t.pairs.ShowLedgers s.rows steps) h ?_ operations
  intro steps t operation ht
  obtain ⟨hrows, hq⟩ := performs_stepOf m operation t
  exact ht.step hrows hq

/-- After every run of operations both pairs hold the last two accepted readings of their kind, with
the time that came right after the last one with data, and a snapshot shows just that. Every
operation of the run made the readings that it is to make, and was answered by them. -/
theorem pairs_hold_last_accepted (m : Machine σ) (machine : σ) (processors : Int)
    (operations : List Operation) :
    let rows := (max 1 processors).toNat
    let steps := (run m operations (new machine processors)).1
    let s := (run m operations (new machine processors)).2
    (Ledger.ofRun .totals Ticks.zero steps).Shows s.system ∧
      (Ledger.ofRun (.tables rows) (TickTable.zero rows) steps).Shows s.processors ∧
      (perform m (.snapshot .system)).run s = ⟨.ok (.system s.system), s, []⟩ ∧
      (perform m (.snapshot .processors)).run s = ⟨.ok (.processors s.processors), s, []⟩ ∧
      ∀ front step back, steps = front ++ step :: back →
        step.Reads rows (Ledger.timeOf rows front) := by
  intro rows steps s
  have hstart : (new machine processors).pairs.ShowLedgers rows [] :=
    ⟨rfl, Ledger.shows_constant _, Ledger.shows_constant _⟩
  have h := showLedgers_run m operations (new machine processors) hstart
  refine ⟨h.system, h.processors, rfl, rfl, ?_⟩
  intro front step back hsteps
  obtain ⟨earlier, operation, -, -, hfront, hstep⟩ :=
    Action.exists_of_runAll_eq_append (perform m) (stepOf m) hsteps
  have hearlier := showLedgers_run m earlier (new machine processors) hstart
  obtain ⟨hrows, hperforms⟩ :=
    performs_stepOf m operation (run m earlier (new machine processors)).2
  have hreads := hperforms.reads hrows
  rw [hearlier.rows_eq, ← hearlier.timeOf_eq] at hreads
  rw [← hfront, ← hstep]
  exact hreads

/-- A machine that counts how often it is asked, by its counters, with a half over, and by its
clock, in seconds. The seventh time it has no ticks, and the ninth time they are all zero once the
fractions are gone. -/
def unsteady : Machine Nat where
  clock n := (.ofNat (1000 * n), n + 1)
  totalTicks n :=
    ⟨if n = 6 then .error (.machine .runtime [])
      else if n = 8 then .ok [.real (.quotient 1 2)]
      else .ok [.real (.quotient (2 * n + 1) 2), .whole 0, .whole 0, .whole 1], n + 1, []⟩
  tickTable n := ⟨.ok [[.whole 1]], n + 1, []⟩
  ownLoad n := ⟨.ok none, n, []⟩
  logicalProcessors n := ⟨.ok 1, n, []⟩
  physicalProcessors n := ⟨.ok 1, n, []⟩
  averages n := ⟨.ok [], n, []⟩
  identify n := ⟨.ok {}, n, []⟩

/-- The second refresh fails, the first one that may wait finds no data, and the second one is not
due. -/
theorem pairs_hold_last_accepted_unsteady :
    let operations : List Operation := [.prime, .refresh .system, .refresh .system,
      .refreshIfDue .system 950, .refreshIfDue .system 5000, .refresh .system]
    let steps := (run unsteady operations (new 0 1)).1
    let ledger := Ledger.ofRun .totals Ticks.zero steps
    let ticks (x : Binary64) : Event := .totalTicks (.ok [.real x, .whole 0, .whole 0, .whole 1])
    steps.map Step.events =
      [[.tickTable (.ok [[.whole 1]]), .clock 1000, ticks (.quotient 5 2), .clock 3000],
        [ticks (.quotient 9 2), .clock 5000], [.totalTicks (.error (.machine .runtime []))],
        [.clock 7000, .totalTicks (.ok [.real (.quotient 1 2)])], [.clock 9000],
        [ticks (.quotient 21 2), .clock 11000]] ∧
      ledger.accepted = [[2, 0, 0, 1, 0, 0, 0], [4, 0, 0, 1, 0, 0, 0], [10, 0, 0, 1, 0, 0, 0]] ∧
      ledger.time = 11000 ∧
      (run unsteady operations (new 0 1)).2.system
        = ⟨[4, 0, 0, 1, 0, 0, 0], [10, 0, 0, 1, 0, 0, 0], 11000⟩ ∧
      ∀ front step back, steps = front ++ step :: back → step.Reads 1 (Ledger.timeOf 1 front) := by
  intro operations steps ledger ticks
  obtain ⟨hshows, -, -, -, hreads⟩ := pairs_hold_last_accepted unsteady 0 1 operations
  have haccepted : ledger.accepted
      = [[2, 0, 0, 1, 0, 0, 0], [4, 0, 0, 1, 0, 0, 0], [10, 0, 0, 1, 0, 0, 0]] := by decide +kernel
  have htime : ledger.time = 11000 := by decide +kernel
  refine ⟨?_, haccepted, htime, ?_, hreads⟩
  · decide +kernel
  · -- what the pair holds is read off the ledger
    obtain ⟨hcurrent, hprevious, hstamp⟩ := hshows
    change ledger.accepted.getLast? = _ at hcurrent
    change ledger.accepted.dropLast.getLast?.getD _ = _ at hprevious
    change ledger.time = _ at hstamp
    rw [haccepted] at hcurrent hprevious
    rw [htime] at hstamp
    generalize (run unsteady operations (new 0 1)).2.system = pair at hcurrent hprevious hstamp
    obtain ⟨previous, current, time⟩ := pair
    cases hcurrent
    cases hprevious
    rw [TickPair.mk.injEq]
    exact ⟨rfl, rfl, hstamp.symm⟩

end TickWatch

end ProcessorLoad
