import ProcessorLoad.Proofs.Meter.Queries

/-!
# What a query does

`Held.Answers` lists all that a query can do to what a meter goes by, with its events at the
machine, and `Held.Begins` does so for the set-up. Every law about runs of queries is derived from
the two.
-/

set_option autoImplicit false

namespace ProcessorLoad

/-- The reading after a new one of the machine's own load: what is absent or not a number leaves the
load as it was. -/
def OwnReading.update (kept : OwnReading) (answer : Option Binary64) (now : Binary64) :
    OwnReading where
  load := match answer with
    | some x => if x.isNaN then kept.load else x
    | none => kept.load
  time := now

structure Held where
  settings : Settings
  own : Option OwnReading
  pairs : TickPairs

namespace Meter
variable {σ α : Type}

def held (s : Meter σ) : Held := ⟨s.settings, s.own, s.watch.pairs⟩

/-- Queries that neither look at the clock nor at ticks nor at the machine's own load. -/
def Query.Quiet : Query → Prop
  | .instant => False
  | .sampled => False
  | .perProcessor => False
  | _ => True

end Meter

namespace Held

def withSystem (p : Held) (q : TickPair Ticks) : Held :=
  { p with pairs := { p.pairs with system := q } }

def withProcessors (p : Held) (q : TickPair TickTable) : Held :=
  { p with pairs := { p.pairs with processors := q } }

/-- What a query does: its answer, its events, and what the meter holds before and after. -/
inductive Answers (p : Held) :
    Meter.Query → Except Fault Meter.Reply → List Event → Held → Prop where
  | sampled {es : List Event} {r : Except Fault Bool} {q : TickPair Ticks}
    (h : Series.totals.Refreshes p.settings.tickInterval p.pairs.system es r q) :
    Answers p .sampled (.load <$> r.bind fun _ => q.load) es
      (p.withSystem q)
  | perProcessor {es : List Event} {r : Except Fault Bool} {q : TickPair TickTable}
    (h : (Series.tables p.pairs.rows).Refreshes p.settings.tickInterval p.pairs.processors es r q) :
    Answers p .perProcessor (.loads <$> r.bind fun _ => q.loads) es
      (p.withProcessors q)
  | kept {own : OwnReading} {now : Binary64} (hown : p.own = some own)
    (h : (now - own.time).lt p.settings.ownInterval = true) :
    Answers p .instant (.ok (.load own.load)) [.clock now] p
  | read {own : OwnReading} {now : Binary64} {answer : Option Binary64} (hown : p.own = some own)
    (h : (now - own.time).lt p.settings.ownInterval = false) :
    Answers p .instant (.ok (.load (own.update answer now).load))
      [.clock now, .ownLoad (.ok answer)] { p with own := some (own.update answer now) }
  | lost {own : OwnReading} {now : Binary64} {fault : Fault} (hown : p.own = some own)
    (h : (now - own.time).lt p.settings.ownInterval = false) :
    Answers p .instant (.error fault) [.clock now, .ownLoad (.error fault)] p
  | byTicks {r : Except Fault Meter.Reply} {es : List Event} {q : Held} (hown : p.own = none)
    (h : Answers p .sampled r es q) : Answers p .instant r es q
  | quiet {query : Meter.Query} {r : Except Fault Meter.Reply} (h : query.Quiet) :
    Answers p query r [] p

inductive Probes (settings : Settings) : List Event → Option OwnReading → Prop where
  | unwanted (h : settings.useOwnLoad = false) : Probes settings [] none
  | absent (h : settings.useOwnLoad = true) : Probes settings [.ownLoad (.ok none)] none
  | found {load now : Binary64} (h : settings.useOwnLoad = true) :
    Probes settings [.ownLoad (.ok (some load)), .clock now] (some ⟨load, now⟩)

/-- What a set-up that did not fail leaves behind: the first reading of the machine's own load comes
before the first readings of ticks, which take the place of zeros. -/
inductive Begins (settings : Settings) : List Event → Held → Prop where
  | intro {es fs : List Event} {own : Option OwnReading} {p q : TickPairs}
    (hown : Probes settings es own) (hrows : q.rows = p.rows) (hpairs : p.Primes q fs (.ok ()))
    (hzero : p = ⟨p.rows, .constant Ticks.zero, .constant (TickTable.zero p.rows)⟩) :
    Begins settings (es ++ fs) ⟨settings, own, q⟩

end Held

namespace Meter
variable {σ α : Type} {m : Machine σ} {s t : Meter (Observed σ)} {es fs : List Event}

/-- The meter as it was, with further events at its machine. -/
def After (s : Meter (Observed σ)) (es : List Event) (t : Meter (Observed σ)) : Prop :=
  t.watch.machine.events = s.watch.machine.events ++ es ∧ t.held = s.held

theorem After.trans {u : Meter (Observed σ)} (h : s.After es t) (h' : t.After fs u) :
    s.After (es ++ fs) u := by
  refine ⟨?_, h'.2.trans h.2⟩
  rw [h'.1, h.1, List.append_assoc]

theorem onMachine_noted_ends (event : Except Fault α → Event) (a : Action σ α) :
    (onMachine (Observed.noted event a)).Ends s fun r t => s.After [event r] t := ⟨rfl, rfl⟩

theorem onMachine_unnoted_ends (a : Action σ α) :
    (onMachine (Observed.unnoted a)).Ends s fun _ t => s.After [] t :=
  ⟨(List.append_nil _).symm, rfl⟩

theorem readClock_ends :
    (onMachine (.ofState m.observed.clock)).Ends s fun r t =>
      ∃ now, r = .ok now ∧ s.After [.clock now] t := ⟨_, rfl, rfl, rfl⟩

theorem onWatch_ends {a : Action (TickWatch (Observed σ)) α}
    {P : Except Fault α → TickWatch (Observed σ) → Prop} (h : a.Ends s.watch P) :
    (onWatch a).Ends s fun r t => P r t.watch ∧ t.settings = s.settings ∧ t.own = s.own :=
  ⟨h, rfl, rfl⟩

theorem refreshSystem_ends (interval : Binary64) :
    (onWatch (TickWatch.refreshIfDue m.observed .system interval)).Ends s fun r t => ∃ es,
      t.watch.machine.events = s.watch.machine.events ++ es ∧
      Series.totals.Refreshes interval s.watch.system es r t.watch.system ∧
      t.held = s.held.withSystem t.watch.system := by
  apply (onWatch_ends (TickWatch.refreshIfDue_ends .system interval)).mono
  rintro r t ⟨⟨es, he, hrows, hs, hp⟩, hsettings, hown⟩
  refine ⟨es, he, hs, ?_⟩
  simp only [held, Held.withSystem, TickWatch.pairs] at hp ⊢
  rw [hsettings, hown, hrows, hp]

theorem refreshProcessors_ends (interval : Binary64) :
    (onWatch (TickWatch.refreshIfDue m.observed .processors interval)).Ends s fun r t => ∃ es,
      t.watch.machine.events = s.watch.machine.events ++ es ∧
      (Series.tables s.watch.rows).Refreshes interval s.watch.processors es r t.watch.processors ∧
      t.held = s.held.withProcessors t.watch.processors := by
  apply (onWatch_ends (TickWatch.refreshIfDue_ends .processors interval)).mono
  rintro r t ⟨⟨es, he, hrows, hp, hs⟩, hsettings, hown⟩
  refine ⟨es, he, hp, ?_⟩
  simp only [held, Held.withProcessors, TickWatch.pairs] at hs ⊢
  rw [hsettings, hown, hrows, hs]

def Asked (s : Meter (Observed σ)) (query : Query) (r : Except Fault Reply)
    (t : Meter (Observed σ)) : Prop :=
  ∃ es, t.watch.machine.events = s.watch.machine.events ++ es ∧ s.held.Answers query r es t.held

theorem sampled_ends :
    (sampled m.observed).Ends s fun r t => s.Asked .sampled (.load <$> r) t := by
  apply Action.ends_get_bind.mpr
  apply (refreshSystem_ends s.settings.tickInterval).bind
  · rintro accepted t ⟨es, he, h, ht⟩
    have hq := Held.Answers.sampled (p := s.held) h
    rw [← ht] at hq
    exact ⟨es, he, hq⟩
  · rintro fault t ⟨es, he, h, ht⟩
    have hq := Held.Answers.sampled (p := s.held) h
    rw [← ht] at hq
    exact ⟨es, he, hq⟩

theorem perProcessor_ends :
    (perProcessor m.observed).Ends s fun r t => s.Asked .perProcessor (.loads <$> r) t := by
  apply Action.ends_get_bind.mpr
  apply (refreshProcessors_ends s.settings.tickInterval).bind
  · rintro accepted t ⟨es, he, h, ht⟩
    have hq := Held.Answers.perProcessor (p := s.held) h
    rw [← ht] at hq
    exact ⟨es, he, hq⟩
  · rintro fault t ⟨es, he, h, ht⟩
    have hq := Held.Answers.perProcessor (p := s.held) h
    rw [← ht] at hq
    exact ⟨es, he, hq⟩

theorem ownLoad_ends {own : OwnReading} (hown : s.own = some own) :
    (ownLoad m.observed own).Ends s fun r t => s.Asked .instant (.load <$> r) t := by
  apply readClock_ends.bind
  · rintro now t ⟨_, ⟨⟩, ht⟩
    apply Action.ends_get_bind.mpr
    have hsettings : t.settings = s.settings := congrArg Held.settings ht.2
    rw [hsettings]
    split
    next hlt =>
      have hq := Held.Answers.kept (p := s.held) hown hlt
      refine ⟨_, ht.1, ?_⟩
      rw [← ht.2] at hq ⊢
      exact hq
    next hlt =>
      have hlt := eq_false_of_ne_true hlt
      apply (onMachine_noted_ends .ownLoad m.ownLoad).bind
      · rintro answer u hu
        have hu := ht.trans hu
        apply Action.ends_modify_bind.mpr
        refine ⟨_, hu.1, ?_⟩
        have hq : s.held.Answers .instant _ [.clock now, .ownLoad (.ok answer)] _ := .read hown hlt
        rw [← hu.2] at hq ⊢
        exact hq
      · rintro fault u hu
        have hu := ht.trans hu
        have hq : s.held.Answers .instant (.error fault) _ _ := .lost hown hlt
        refine ⟨_, hu.1, ?_⟩
        rw [← hu.2] at hq ⊢
        exact hq
  · rintro fault t ⟨_, h, _⟩
    cases h

theorem instant_ends :
    (instant m.observed).Ends s fun r t => s.Asked .instant (.load <$> r) t := by
  apply Action.ends_get_bind.mpr
  cases hown : s.own with
  | some own => exact ownLoad_ends hown
  | none =>
    apply sampled_ends.mono
    rintro _ t ⟨es, he, h⟩
    exact ⟨es, he, .byTicks hown h⟩

theorem standIn_ends (n : Int) (answer : Except Fault (List Binary64)) :
    (standIn n answer).Ends s fun _ t => t = s := by
  rcases answer with fault | xs
  · cases fault with
    | machine failure message =>
      rw [standIn]
      split
      · rfl
      · rfl
    | _ => rfl
  · rfl

theorem averages_ends (n : Int) : (averages m.observed n).Ends s fun _ t => s.After [] t := by
  have hstart : s.After [] s := ⟨(List.append_nil _).symm, rfl⟩
  rw [averages_eq]
  split
  · exact hstart
  · have hasked : (onMachine m.observed.averages).attempt.Ends s fun _ t => s.After [] t :=
      Action.ends_attempt.mpr (onMachine_unnoted_ends m.averages)
    apply hasked.bind
    · intro answer t ht
      exact (standIn_ends n answer).mono fun _ u hu => hu ▸ ht
    · intro fault t ht
      exact ht

theorem onIdentity_ends (a : Action Identification α) :
    (onIdentity m.observed a).Ends s fun _ t => s.After [] t := by
  have hidentify : (identify m.observed).Ends s fun _ t => s.After [] t := by
    apply Action.ends_get_bind.mpr
    split
    · apply (onMachine_unnoted_ends m.identify).bind
      · intro known t ht
        exact ht
      · intro fault t ht
        exact ht
    · exact ⟨(List.append_nil _).symm, rfl⟩
  apply hidentify.bind
  · intro _ t ht
    exact ht
  · intro fault t ht
    exact ht

theorem After.asked {query : Query} {r : Except Fault Reply} (h : s.After [] t)
    (hquery : query.Quiet) : s.Asked query r t := by
  refine ⟨[], h.1, ?_⟩
  rw [h.2]
  exact .quiet hquery

theorem ask_ends (query : Query) : (ask m.observed query).Ends s (s.Asked query) := by
  have hstart : s.After [] s := ⟨(List.append_nil _).symm, rfl⟩
  cases query with
  | instant => exact Action.ends_map.mpr instant_ends
  | sampled => exact Action.ends_map.mpr sampled_ends
  | perProcessor => exact Action.ends_map.mpr perProcessor_ends
  | averages n =>
    exact Action.ends_map.mpr ((averages_ends n).mono fun _ _ ht => ht.asked trivial)
  | oneMinuteAverage =>
    apply Action.ends_map.mpr
    apply (averages_ends 1).bind
    · intro xs t ht
      exact ht.asked trivial
    · intro fault t ht
      exact ht.asked trivial
  | identity =>
    exact Action.ends_map.mpr ((onIdentity_ends _).mono fun _ _ ht => ht.asked trivial)
  | name => exact Action.ends_map.mpr ((onIdentity_ends _).mono fun _ _ ht => ht.asked trivial)
  | basis => exact hstart.asked trivial
  | counts => exact hstart.asked trivial

section Runs
variable (m : Machine σ)

/-- One query of a run: how it ended, and the events at the machine meanwhile. -/
structure Step where
  query : Query
  result : Except Fault Reply
  events : List Event

def stepOf (query : Query) (s : Meter σ) : Step where
  query
  result := ((ask m query).run s).result
  events := ((ask m.observed query).run s.observe).state.watch.machine.events

/-- A run of queries, in which a fault ends nothing but its own query. -/
def run (queries : List Query) (s : Meter σ) : List Step × Meter σ :=
  Action.runAll (ask m) (stepOf m) queries s

theorem answers_stepOf (query : Query) (s : Meter σ) :
    s.held.Answers query (stepOf m query s).result (stepOf m query s).events
      ((ask m query).run s).state.held := by
  have hm := mirrors_ask m query s.observe
  obtain ⟨es, he, h⟩ := ask_ends (m := m) (s := s.observe) query
  rw [forget_observe] at hm
  rw [stepOf, hm, he, Except.map_id]
  exact h

variable (settings : Settings) (identity : Option Identification) (machine : σ)

def setUpEvents : List Event :=
  ((setUp m.observed settings identity).run (Observed.start machine)).state.events

theorem probeOwnLoad_ends (o : Observed σ) :
    (probeOwnLoad m.observed settings).Ends o fun r t => ∃ es, t.events = o.events ++ es ∧
      ∀ own, r = .ok own → Held.Probes settings es own := by
  unfold probeOwnLoad
  split
  next h =>
    refine ⟨[], (List.append_nil _).symm, ?_⟩
    rintro own ⟨⟩
    exact .unwanted (by simpa using h)
  next h =>
    have hown : settings.useOwnLoad = true := by simpa using h
    apply (Observed.ends_noted .ownLoad m.ownLoad o).bind
    · rintro answer t ⟨x, rfl⟩
      cases answer with
      | none =>
        refine ⟨_, rfl, ?_⟩
        rintro own ⟨⟩
        exact .absent hown
      | some load =>
        refine ⟨_, List.append_assoc _ _ _, ?_⟩
        rintro own ⟨⟩
        exact .found hown
    · rintro fault t ⟨x, rfl⟩
      exact ⟨_, rfl, fun _ h => nomatch h⟩

theorem start_ends (processors : Int) (o : Observed σ) :
    (TickWatch.start m.observed processors).Ends o fun r t => ∃ fs, t.events = o.events ++ fs ∧
      ∀ watch, r = .ok watch →
        watch.rows = (max 1 processors).toNat ∧
        (TickWatch.new o processors).pairs.Primes watch.pairs fs (.ok ()) := by
  obtain ⟨fs, he, hrows, h⟩ := TickWatch.prime_ends (m := m) (s := TickWatch.new o processors)
  refine ⟨fs, he, ?_⟩
  intro watch hwatch
  obtain ⟨hresult, hstate⟩ := TickWatch.prime_of_start hwatch
  rw [hresult, hstate] at h
  rw [hstate] at hrows
  exact ⟨hrows, h⟩

theorem setUp_ends (o : Observed σ) :
    (setUp m.observed settings identity).Ends o fun r t => ∃ es, t.events = o.events ++ es ∧
      ∀ s, r = .ok s → Held.Begins settings es s.held := by
  apply (Observed.ends_unnoted m.logicalProcessors o).bind
  · rintro logical t ⟨x, rfl⟩
    apply (Observed.ends_unnoted m.physicalProcessors _).bind
    · rintro physical t ⟨y, rfl⟩
      apply (probeOwnLoad_ends m settings _).bind
      · rintro own t ⟨es, he, hown⟩
        have hevents {fs : List Event} {u : Observed σ} (hfs : u.events = t.events ++ fs) :
            u.events = o.events ++ (es ++ fs) := by
          rw [hfs, he, List.append_assoc]
        apply (start_ends m (max 1 logical) t).bind
        · rintro watch u ⟨fs, hfs, h⟩
          obtain ⟨hrows, hpairs⟩ := h watch rfl
          refine ⟨es ++ fs, hevents hfs, ?_⟩
          rintro s ⟨⟩
          refine .intro (hown own rfl) ?_ hpairs rfl
          exact hrows
        · rintro fault u ⟨fs, hfs, -⟩
          refine ⟨es ++ fs, hevents hfs, fun _ h => nomatch h⟩
      · rintro fault t ⟨es, he, -⟩
        exact ⟨es, he, fun _ h => nomatch h⟩
    · rintro fault t ⟨y, rfl⟩
      exact ⟨[], (List.append_nil _).symm, fun _ h => nomatch h⟩
  · rintro fault t ⟨x, rfl⟩
    exact ⟨[], (List.append_nil _).symm, fun _ h => nomatch h⟩

theorem begins_setUp {s : Meter σ}
    (h : ((setUp m settings identity).run machine).result = .ok s) :
    Held.Begins settings (setUpEvents m settings identity machine) s.held := by
  have hm := mirrors_setUp m settings identity (Observed.start machine)
  obtain ⟨es, he, hs⟩ := setUp_ends m settings identity (Observed.start machine)
  change (setUp m settings identity).run machine = _ at hm
  rw [hm] at h
  rw [setUpEvents, he]
  cases hr : ((setUp m.observed settings identity).run (Observed.start machine)).result with
  | error fault =>
    rw [hr] at h
    cases h
  | ok s' =>
    rw [hr] at h
    cases h
    exact hs s' hr

end Runs

end Meter

end ProcessorLoad
