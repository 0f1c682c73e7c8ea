import ProcessorLoad.Proofs.Observation
import ProcessorLoad.Ticks.Watch

/-!
# What a step of the watch does

Both kinds of readings are taken up in the same two ways: a refresh accepts a reading (`accept`),
and priming installs one (`install`). `Series.Accepts`, `Series.Refreshes` and `Series.Installs`
list all that such a step can do to the pair of its kind, with the events at the machine. Every law
about runs of a watch is derived from them.
-/

set_option autoImplicit false

namespace ProcessorLoad

/-- A kind of readings: the fitted reading that an event brings, and which readings hold no data. -/
structure Series (α : Type) where
  fetched? : Event → Option (Except Fault α)
  isZero : α → Bool
  fetched?_clock : ∀ now, fetched? (.clock now) = none := by intro; rfl

namespace Series
variable {α : Type}

def totals : Series Ticks where
  fetched?
    | .totalTicks answer => some (answer >>= TickWatch.ticksOf)
    | _ => none
  isZero := Ticks.isZero

def tables (rows : Nat) : Series TickTable where
  fetched?
    | .tickTable answer => some (answer >>= TickWatch.tableOf rows)
    | _ => none
  isZero := TickTable.isZero

/-- What a refresh does once it is under way: events, answer, and the pair before and after. -/
inductive Accepts (S : Series α) (p : TickPair α) :
    List Event → Except Fault Bool → TickPair α → Prop where
  | failed {e : Event} {fault : Fault} (h : S.fetched? e = some (.error fault)) :
    Accepts S p [e] (.error fault) p
  | skipped {e : Event} {a : α} (h : S.fetched? e = some (.ok a)) (hz : S.isZero a = true) :
    Accepts S p [e] (.ok false) p
  | accepted {e : Event} {a : α} {now : Binary64} (h : S.fetched? e = some (.ok a))
    (hz : S.isZero a = false) : Accepts S p [e, .clock now] (.ok true) (p.push a now)

inductive Refreshes (S : Series α) (interval : Binary64) (p : TickPair α) :
    List Event → Except Fault Bool → TickPair α → Prop where
  | early {now : Binary64} (h : (now - p.time).le interval = true) :
    Refreshes S interval p [.clock now] (.ok false) p
  | due {now : Binary64} {es : List Event} {r : Except Fault Bool} {q : TickPair α}
    (h : (now - p.time).le interval = false) (hq : S.Accepts p es r q) :
    Refreshes S interval p (.clock now :: es) r q

inductive Installs (S : Series α) (p : TickPair α) :
    List Event → Except Fault Unit → TickPair α → Prop where
  | failed {e : Event} {fault : Fault} (h : S.fetched? e = some (.error fault)) :
    Installs S p [e] (.error fault) p
  | unready {e : Event} {a : α} (h : S.fetched? e = some (.ok a)) (hz : S.isZero a = true) :
    Installs S p [e] (.ok ()) ⟨a, a, p.time⟩
  | ready {e : Event} {a : α} {now : Binary64} (h : S.fetched? e = some (.ok a))
    (hz : S.isZero a = false) : Installs S p [e, .clock now] (.ok ()) ⟨a, a, now⟩

end Series

structure TickPairs where
  rows : Nat
  system : TickPair Ticks
  processors : TickPair TickTable

namespace TickPairs

/-- A step that concerns one kind only: `R` says what becomes of its pair, the other one stays. -/
def Concerns (p : TickPairs) (R : {α : Type} → Series α → TickPair α → TickPair α → Prop)
    (q : TickPairs) : Scope → Prop
  | .system => R Series.totals p.system q.system ∧ q.processors = p.processors
  | .processors => R (Series.tables p.rows) p.processors q.processors ∧ q.system = p.system

/-- What priming does: the table comes first, and a fault there leaves the system's pair alone. -/
inductive Primes (p q : TickPairs) : List Event → Except Fault Unit → Prop where
  | table {es : List Event} {fault : Fault}
    (h : (Series.tables p.rows).Installs p.processors es (.error fault) q.processors)
    (hs : q.system = p.system) : Primes p q es (.error fault)
  | both {es fs : List Event} {r : Except Fault Unit}
    (h : (Series.tables p.rows).Installs p.processors es (.ok ()) q.processors)
    (hs : Series.totals.Installs p.system fs r q.system) : Primes p q (es ++ fs) r

end TickPairs

namespace TickWatch
variable {σ α : Type}

def pairs (s : TickWatch σ) : TickPairs := ⟨s.rows, s.system, s.processors⟩

abbrev Edit (σ α : Type) : Type := (TickPair α → TickPair α) → TickWatch σ → TickWatch σ

def editSystem : Edit σ Ticks := fun f s => { s with system := f s.system }

def editProcessors : Edit σ TickTable := fun f s => { s with processors := f s.processors }

def accept (m : Machine σ) (fetch : Action (TickWatch σ) α) (isZero : α → Bool) (edit : Edit σ α) :
    Action (TickWatch σ) Bool := do
  let a ← fetch
  if isZero a then return false
  let time ← readClock m
  Action.modify (edit fun p => p.push a time)
  return true

def install (m : Machine σ) (fetch : Action (TickWatch σ) α) (isZero : α → Bool) (edit : Edit σ α) :
    Action (TickWatch σ) Unit := do
  let a ← fetch
  Action.modify (edit fun p => { p with previous := a, current := a })
  unless isZero a do
    let time ← readClock m
    Action.modify (edit fun p => { p with time := time })

theorem readTotal_eq (m : Machine σ) :
    readTotal m = accept m (fetchTotal m) Ticks.isZero editSystem := rfl

theorem readTable_eq (m : Machine σ) :
    readTable m = accept m (fetchTable m) TickTable.isZero editProcessors := rfl

theorem prime_eq (m : Machine σ) :
    prime m = (do
      install m (fetchTable m) TickTable.isZero editProcessors
      install m (fetchTotal m) Ticks.isZero editSystem) := by
  simp only [prime, install, bind_assoc]
  refine congrArg _ (funext fun table => congrArg _ (funext fun _ => ?_))
  cases table.isZero
  · simp only [Bool.false_eq_true, if_false, bind_assoc]
    rfl
  · rfl

theorem prime_of_start {m : Machine σ} {machine : σ} {processors : Int} {watch : TickWatch σ}
    (h : ((start m processors).run machine).result = .ok watch) :
    ((prime m).run (new machine processors)).result = .ok () ∧
      ((prime m).run (new machine processors)).state = watch := by
  change Except.map _ ((prime m).run _).result = _ at h
  cases hr : ((prime m).run (new machine processors)).result with
  | error fault =>
    rw [hr] at h
    cases h
  | ok _ =>
    rw [hr] at h
    exact ⟨rfl, Except.ok.inj h⟩

section Observed
variable {m : Machine σ} {s t : TickWatch (Observed σ)} {es fs : List Event}

def After (s : TickWatch (Observed σ)) (es : List Event) (t : TickWatch (Observed σ)) : Prop :=
  ∃ x, t = { s with machine := ⟨x, s.machine.events ++ es⟩ }

theorem After.trans {u : TickWatch (Observed σ)} (h : s.After es t) (h' : t.After fs u) :
    s.After (es ++ fs) u := by
  obtain ⟨x, rfl⟩ := h
  obtain ⟨y, rfl⟩ := h'
  exact ⟨y, by simp only [List.append_assoc]⟩

theorem onMachine_noted_ends (event : Except Fault α → Event) (a : Action σ α) :
    (onMachine (Observed.noted event a)).Ends s fun r t => s.After [event r] t := ⟨_, rfl⟩

theorem readClock_ends :
    (readClock m.observed).Ends s fun r t => ∃ now, r = .ok now ∧ s.After [.clock now] t :=
  ⟨_, rfl, _, rfl⟩

theorem fetchTotal_ends :
    (fetchTotal m.observed).Ends s fun r t =>
      ∃ e, Series.totals.fetched? e = some r ∧ s.After [e] t := by
  apply Action.Ends.bind (onMachine_noted_ends .totalTicks m.totalTicks)
  · intro answer t ht
    exact ⟨_, rfl, ht⟩
  · intro fault t ht
    exact ⟨_, rfl, ht⟩

theorem fetchTable_ends :
    (fetchTable m.observed).Ends s fun r t =>
      ∃ e, (Series.tables s.rows).fetched? e = some r ∧ s.After [e] t := by
  apply Action.Ends.bind (onMachine_noted_ends .tickTable m.tickTable)
  · rintro answer t ⟨x, rfl⟩
    exact ⟨_, rfl, x, rfl⟩
  · intro fault t ht
    exact ⟨_, rfl, ht⟩

variable {S : Series α} {fetch : Action (TickWatch (Observed σ)) α} (edit : Edit (Observed σ) α)

theorem accept_ends (hid : ∀ s, edit id s = s)
    (hfetch : fetch.Ends s fun r t => ∃ e, S.fetched? e = some r ∧ s.After [e] t) :
    (accept m.observed fetch S.isZero edit).Ends s fun r t =>
      ∃ es f u, s.After es u ∧ t = edit f u ∧ ∀ p, S.Accepts p es r (f p) := by
  apply hfetch.bind
  · rintro a t ⟨e, he, ht⟩
    cases hz : S.isZero a with
    | true =>
      rw [if_pos rfl]
      exact ⟨_, id, t, ht, (hid t).symm, fun p => .skipped he hz⟩
    | false =>
      rw [if_neg Bool.false_ne_true]
      apply readClock_ends.bind
      · rintro now u ⟨_, ⟨⟩, hu⟩
        exact ⟨_, _, u, ht.trans hu, rfl, fun p => .accepted he hz⟩
      · rintro fault u ⟨_, h, _⟩
        cases h
  · rintro fault t ⟨e, he, ht⟩
    exact ⟨_, id, t, ht, (hid t).symm, fun p => .failed he⟩

theorem install_ends (hid : ∀ s, edit id s = s)
    (hcomp : ∀ f g s, edit f (edit g s) = edit (f ∘ g) s)
    (hedit : ∀ {f u es v}, (edit f u).After es v → ∃ w, u.After es w ∧ v = edit f w)
    (hfetch : fetch.Ends s fun r t => ∃ e, S.fetched? e = some r ∧ s.After [e] t) :
    (install m.observed fetch S.isZero edit).Ends s fun r t =>
      ∃ es f u, s.After es u ∧ t = edit f u ∧ ∀ p, S.Installs p es r (f p) := by
  apply hfetch.bind
  · rintro a t ⟨e, he, ht⟩
    apply Action.ends_modify_bind.mpr
    cases hz : S.isZero a with
    | true => exact ⟨_, _, t, ht, rfl, fun p => .unready he hz⟩
    | false =>
      rw [if_neg Bool.false_ne_true]
      apply readClock_ends.bind
      · rintro now u ⟨_, ⟨⟩, hu⟩
        obtain ⟨w, hw, rfl⟩ := hedit hu
        exact ⟨_, _, w, ht.trans hw, hcomp _ _ w, fun p => .ready he hz⟩
      · rintro fault u ⟨_, h, _⟩
        cases h
  · rintro fault t ⟨e, he, ht⟩
    exact ⟨_, id, t, ht, (hid t).symm, fun p => .failed he⟩

theorem readTotal_ends :
    (readTotal m.observed).Ends s fun r t => ∃ es, t.machine.events = s.machine.events ++ es ∧
      t.rows = s.rows ∧ s.pairs.Concerns (fun S p q => S.Accepts p es r q) t.pairs .system := by
  rw [readTotal_eq]
  apply (accept_ends (S := Series.totals) editSystem (fun _ => rfl) fetchTotal_ends).mono
  rintro r t ⟨es, f, u, ⟨x, rfl⟩, rfl, h⟩
  exact ⟨es, rfl, rfl, h _, rfl⟩

theorem readTable_ends :
    (readTable m.observed).Ends s fun r t => ∃ es, t.machine.events = s.machine.events ++ es ∧
      t.rows = s.rows ∧ s.pairs.Concerns (fun S p q => S.Accepts p es r q) t.pairs .processors := by
  rw [readTable_eq]
  apply (accept_ends (S := Series.tables s.rows) editProcessors (fun _ => rfl) fetchTable_ends).mono
  rintro r t ⟨es, f, u, ⟨x, rfl⟩, rfl, h⟩
  exact ⟨es, rfl, rfl, h _, rfl⟩

theorem refresh_ends (kind : Scope) :
    (refresh m.observed kind).Ends s fun r t => ∃ es, t.machine.events = s.machine.events ++ es ∧
      t.rows = s.rows ∧ s.pairs.Concerns (fun S p q => S.Accepts p es r q) t.pairs kind := by
  cases kind with
  | system => exact readTotal_ends
  | processors => exact readTable_ends

theorem refreshIfDue_ends (kind : Scope) (interval : Binary64) :
    (refreshIfDue m.observed kind interval).Ends s fun r t =>
      ∃ es, t.machine.events = s.machine.events ++ es ∧ t.rows = s.rows ∧
        s.pairs.Concerns (fun S p q => S.Refreshes interval p es r q) t.pairs kind := by
  apply readClock_ends.bind
  · rintro now u ⟨_, ⟨⟩, x, rfl⟩
    apply Action.ends_get_bind.mpr
    dsimp only
    split
    next h =>
      refine ⟨_, rfl, rfl, ?_⟩
      cases kind with
      | system => exact ⟨.early h, rfl⟩
      | processors => exact ⟨.early h, rfl⟩
    next h =>
      apply (refresh_ends kind).mono
      rintro r t ⟨es, he, hr, hc⟩
      refine ⟨.clock now :: es, by simp [he], hr, ?_⟩
      have h := eq_false_of_ne_true h
      cases kind with
      | system => exact ⟨.due h hc.1, hc.2⟩
      | processors => exact ⟨.due h hc.1, hc.2⟩
  · rintro fault u ⟨_, h, _⟩
    cases h

theorem prime_ends :
    (prime m.observed).Ends s fun r t =>
      ∃ es, t.machine.events = s.machine.events ++ es ∧ t.rows = s.rows ∧
        s.pairs.Primes t.pairs es r := by
  rw [prime_eq]
  apply (install_ends (S := Series.tables s.rows) editProcessors (fun _ => rfl)
    (fun _ _ _ => rfl) (fun ⟨x, hx⟩ => ⟨_, ⟨x, rfl⟩, hx⟩) fetchTable_ends).bind
  · rintro _ _ ⟨es, f, u, ⟨x, rfl⟩, rfl, h⟩
    apply (install_ends (S := Series.totals) editSystem (fun _ => rfl)
      (fun _ _ _ => rfl) (fun ⟨x, hx⟩ => ⟨_, ⟨x, rfl⟩, hx⟩) fetchTotal_ends).mono
    rintro r _ ⟨fs, g, v, ⟨y, rfl⟩, rfl, h'⟩
    exact ⟨es ++ fs, by simp [editSystem, editProcessors], rfl, .both (h _) (h' _)⟩
  · rintro fault _ ⟨es, f, u, ⟨x, rfl⟩, rfl, h⟩
    exact ⟨es, rfl, rfl, .table (h _) rfl⟩

end Observed

end TickWatch

end ProcessorLoad
