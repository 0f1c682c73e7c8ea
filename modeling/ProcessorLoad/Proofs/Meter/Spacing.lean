import ProcessorLoad.Proofs.Meter.LoadRange
import ProcessorLoad.Proofs.Meter.OwnLoad
import ProcessorLoad.Proofs.Meter.Refreshing
import ProcessorLoad.Proofs.Watch.Spacing

/-!
# How far apart readings are

Over a run under a clock that does not go back, readings of each kind of ticks are more than their
interval apart, and readings of the machine's own load at least theirs. The invariant is that every
time that a meter holds is zero or was shown by the clock.
-/

set_option autoImplicit false

namespace ProcessorLoad

theorem Series.Installs.time_mem {α : Type} {S : Series α} {p q : TickPair α} {es : List Event}
    {r : Except Fault Unit} (h : S.Installs p es r q) : q.time ∈ p.time :: looks es := by
  cases h with
  | failed he => exact List.mem_cons_self
  | unready he hz => exact List.mem_cons_self
  | @ready e a now he hz =>
    cases e with
    | clock now => exact absurd rfl (ne_clock he now)
    | _ => exact List.mem_cons_of_mem _ (List.mem_singleton_self now)

theorem TickPairs.Primes.timeOf_mem {p q : TickPairs} {es : List Event} {r : Except Fault Unit}
    (h : p.Primes q es r) (kind : Scope) : q.timeOf kind ∈ p.timeOf kind :: looks es := by
  cases h with
  | table ht hs =>
    cases kind with
    | system => simp [timeOf, hs]
    | processors => exact ht.time_mem
  | both ht hs =>
    rw [looks_append]
    cases kind with
    | system =>
      have hmem : q.system.time ∈ p.system.time :: looks _ := hs.time_mem
      simp only [timeOf, List.mem_cons, List.mem_append] at hmem ⊢
      tauto
    | processors => exact List.mem_append_left _ ht.time_mem

namespace OwnReading

theorem mem_looks_of_completed {es : List Event} {read : Binary64 × Option Binary64}
    (h : read ∈ completed es) : read.1 ∈ looks es := by
  obtain ⟨⟨e, f⟩, hmem, hread⟩ := List.mem_filterMap.mp h
  have he : e ∈ es := (List.of_mem_zip hmem).1
  refine List.mem_filterMap.mpr ⟨e, he, ?_⟩
  split at hread
  next heq =>
    cases heq
    cases hread
    rfl
  next => cases hread

theorem latest_time_mem (own : OwnReading) (es : List Event) :
    (own.latest (completed es)).time ∈ own.time :: looks es := by
  unfold latest
  cases hlast : ((completed es).map Prod.fst).getLast? with
  | none => exact List.mem_cons_self
  | some now =>
    obtain ⟨read, hread, hnow⟩ := List.mem_map.mp (List.mem_of_getLast? hlast)
    cases hnow
    exact List.mem_cons_of_mem _ (mem_looks_of_completed hread)

end OwnReading

namespace Held
variable {p q u : Held} {query : Meter.Query} {r : Except Fault Meter.Reply} {es : List Event}
variable {shown : List Binary64} {own : OwnReading}

/-- Every time that is held is zero or was shown by the clock. -/
structure Timed (p : Held) (shown : List Binary64) : Prop where
  ticks : ∀ kind : Scope, p.pairs.timeOf kind ∈ 0 :: shown
  own : ∀ own, p.own = some own → own.time ∈ 0 :: shown

theorem Begins.timed {settings : Settings} (h : Begins settings es p) : p.Timed (looks es) := by
  cases h with
  | @intro es fs own p q hown hrows hpairs hzero =>
    rw [looks_append]
    refine ⟨?_, ?_⟩
    · intro kind
      have hstart : p.timeOf kind = 0 := by
        rw [hzero]
        cases kind <;> rfl
      have hmem := hpairs.timeOf_mem kind
      rw [hstart] at hmem
      exact mem_shown_append List.mem_cons_self hmem
    · rintro first ⟨⟩
      cases hown with
      | found _ =>
        exact List.mem_cons_of_mem _ (List.mem_append_left _ (List.mem_singleton_self _))

/-- What does not change over a run, and how far apart the readings are from one state to a later
one. -/
structure Paced (p : Held) (steps : List Meter.Step) (q : Held) : Prop where
  settings_eq : q.settings = p.settings
  rows_eq : q.pairs.rows = p.pairs.rows
  ticks : ∀ kind : Scope, Spaced p.settings.tickInterval.lt (p.pairs.timeOf kind)
    (steps.flatMap fun step => kind.stamps p.pairs.rows step.events) (q.pairs.timeOf kind)
  own : ∀ first, p.own = some first → ∃ last, q.own = some last ∧
    Spaced p.settings.ownInterval.le first.time ((Meter.ownReads steps).map Prod.fst) last.time

theorem Paced.refl (p : Held) : p.Paced [] p where
  settings_eq := rfl
  rows_eq := rfl
  ticks _ := .refl _
  own first hfirst := ⟨first, hfirst, .refl _⟩

theorem Paced.trans {steps more : List Meter.Step} (h : p.Paced steps q) (h' : q.Paced more u) :
    p.Paced (steps ++ more) u where
  settings_eq := h'.settings_eq.trans h.settings_eq
  rows_eq := h'.rows_eq.trans h.rows_eq
  ticks kind := by
    have hmore := h'.ticks kind
    rw [h.settings_eq, h.rows_eq] at hmore
    rw [List.flatMap_append]
    exact (h.ticks kind).trans hmore
  own first hfirst := by
    obtain ⟨middle, hmiddle, hspaced⟩ := h.own first hfirst
    obtain ⟨last, hlast, hspaced'⟩ := h'.own middle hmiddle
    rw [h.settings_eq] at hspaced'
    refine ⟨last, hlast, ?_⟩
    rw [Meter.ownReads, List.flatMap_append, List.map_append]
    exact hspaced.trans hspaced'

section Step
variable (hq : p.Answers query r es q)
include hq

theorem Answers.movesOn (kind : Scope) :
    p.pairs.MovesOn kind p.settings.tickInterval es q.pairs := by
  cases hkind : p.kind? query with
  | none =>
    obtain ⟨hpairs, hreads⟩ := hq.pairs_eq hkind
    rw [hpairs]
    exact .stays (Scope.stamps_of_not_reads (hreads kind)) rfl
  | some refreshed =>
    obtain ⟨⟨_, hrefresh⟩, -, -⟩ := hq.refreshesIfDue hkind
    exact hrefresh.movesOn kind

theorem Answers.timed (h : p.Timed shown) : q.Timed (shown ++ looks es) where
  ticks kind := mem_shown_append (h.ticks kind) (hq.movesOn kind).timeOf_mem
  own := by
    intro own hown
    cases hp : p.own with
    | none => cases (hq.own_none hp).1.symm.trans hown
    | some kept =>
      cases (hq.own_latest hp).symm.trans hown
      exact mem_shown_append (h.own kept hp) (kept.latest_time_mem es)

/-- The next reading of the machine's own load is as far from the last one as the interval asks. -/
theorem Answers.own_spaced (hown : p.own = some own) (h : p.Timed shown)
    (hsteady : Steady (shown ++ looks es)) (hinterval : p.settings.ownInterval.isNaN = false) :
    Spaced p.settings.ownInterval.le own.time ((OwnReading.completed es).map Prod.fst)
      (own.latest (OwnReading.completed es)).time := by
  by_cases hquery : query = .instant
  · subst hquery
    obtain ⟨⟨now, hanswer⟩, -⟩ := hq.instant_own hown
    split at hanswer
    next hlt =>
      cases hanswer.1
      exact .refl own.time
    next hlt =>
      obtain ⟨answer, hes, -⟩ := hanswer
      cases hes
      cases answer with
      | error fault => exact .refl own.time
      | ok load =>
        have hlast : own.time.isFinite = true := hsteady.left.cons_zero.finite _ (h.own own hown)
        have hnow : now.isFinite = true := hsteady.right.finite now (List.mem_singleton_self now)
        apply Spaced.single
        apply (Binary64.lt_eq_false_iff (Binary64.isNaN_sub hnow hlast) hinterval).mp
        exact eq_false_of_ne_true hlt
  · rw [OwnReading.completed_silent (hq.other_own hquery).2]
    exact .refl own.time

theorem Answers.paced (htick : p.settings.tickInterval.isNaN = false)
    (hown : p.settings.ownInterval.isNaN = false) (h : p.Timed shown)
    (hsteady : Steady (shown ++ looks es)) : p.Paced [⟨query, r, es⟩] q where
  settings_eq := hq.settings_eq
  rows_eq := hq.rows_eq
  ticks kind := by
    rw [List.flatMap_singleton]
    exact (hq.movesOn kind).spaced (h.ticks kind) hsteady htick
  own first hfirst := by
    refine ⟨_, hq.own_latest hfirst, ?_⟩
    rw [Meter.ownReads, List.flatMap_singleton]
    exact hq.own_spaced hfirst h hsteady hown

/-- What a query does with the clock: it reads each kind of ticks once at most, only its own kind,
and only when that is due, and no time goes back. -/
structure Waits (p : Held) (query : Meter.Query) (es : List Event) (q : Held) : Prop where
  once : ∀ kind : Scope, es.countP kind.reads ≤ 1
  due : ∀ kind : Scope, (∃ e ∈ es, kind.reads e = true) → p.kind? query = some kind ∧
    ∃ now, es.head? = some (.clock now) ∧
      p.settings.tickInterval.lt (now - p.pairs.timeOf kind) = true
  time_le : ∀ kind : Scope, (p.pairs.timeOf kind).le (q.pairs.timeOf kind) = true
  own_le : ∀ before after, p.own = some before → q.own = some after →
    before.time.le after.time = true

theorem Answers.waits (htick : p.settings.tickInterval.isNaN = false) (h : p.Timed shown)
    (hsteady : Steady (shown ++ looks es)) : p.Waits query es q where
  once kind := by
    cases hkind : p.kind? query with
    | none =>
      have hnone := List.countP_eq_zero.mpr fun e he =>
        ne_true_of_eq_false ((hq.pairs_eq hkind).2 kind e he)
      omega
    | some refreshed =>
      obtain ⟨⟨_, hrefresh⟩, -, -⟩ := hq.refreshesIfDue hkind
      exact hrefresh.countP_reads_le kind
  due := by
    rintro kind ⟨e, he, hreads⟩
    cases hkind : p.kind? query with
    | none => cases ((hq.pairs_eq hkind).2 kind e he).symm.trans hreads
    | some refreshed =>
      obtain ⟨⟨_, hrefresh⟩, -, -⟩ := hq.refreshesIfDue hkind
      obtain ⟨rfl, now, hnow, hdue⟩ := hrefresh.due_of_reads he hreads
      refine ⟨rfl, now, hnow, ?_⟩
      have hlast := hsteady.left.cons_zero.finite _ (h.ticks kind)
      have hshown : now ∈ looks es := mem_looks_of_head? hnow
      have hfinite := hsteady.right.finite now hshown
      exact (Binary64.le_eq_false_iff (Binary64.isNaN_sub hfinite hlast) htick).mp hdue
  time_le kind := hsteady.le_next (h.ticks kind) (hq.movesOn kind).timeOf_mem
  own_le := by
    intro before after hbefore hafter
    cases (hq.own_latest hbefore).symm.trans hafter
    exact hsteady.le_next (h.own before hbefore) (before.latest_time_mem es)

end Step

end Held

namespace Meter
variable {σ : Type} (m : Machine σ)

/-- The run lemma: from a state whose times were all shown, times stay so, and readings are apart.
-/
theorem paced_run {es : List Event} {s : Meter σ} (hs : s.held.Timed (looks es))
    (htick : s.settings.tickInterval.isNaN = false) (hown : s.settings.ownInterval.isNaN = false)
    (queries : List Query)
    (hsteady : Steady (looks (es ++ eventsOf (run m queries s).1))) :
    (run m queries s).2.held.Timed (looks (es ++ eventsOf (run m queries s).1)) ∧
      s.held.Paced (run m queries s).1 (run m queries s).2.held := by
  revert hsteady
  refine Action.runAll_induction (ask m) (stepOf m)
    (P := fun steps (t : Meter σ) => Steady (looks (es ++ eventsOf steps)) →
      t.held.Timed (looks (es ++ eventsOf steps)) ∧ s.held.Paced steps t.held) ?_ ?_ queries
  · intro _
    refine ⟨?_, .refl s.held⟩
    simpa [eventsOf] using hs
  · intro steps t query ih hsteady
    rw [eventsOf_append, ← List.append_assoc, looks_append] at hsteady ⊢
    obtain ⟨htimed, hpaced⟩ := ih hsteady.left
    have hq := answers_stepOf m query t
    rw [← show t.settings = s.settings from hpaced.settings_eq] at htick hown
    exact ⟨hq.timed htimed, hpaced.trans (hq.paced htick hown htimed hsteady)⟩

theorem run_split (front back : List Query) (query : Query) (s : Meter σ) :
    let t := (run m front s).2
    (run m (front ++ query :: back) s).1
      = (run m front s).1 ++ stepOf m query t :: (run m back ((ask m query).run t).state).1 := by
  intro t
  rw [run, Action.runAll_append]
  rfl

/-- Over every run of queries under a clock that does not go back. Readings of ticks with data are
more than their interval apart, of either kind, and completed readings of the machine's own load are
at least theirs apart, from the set-up on. No time is ahead of the clock. Each query waits until its
own reading is due. -/
theorem readings_spaced_out (settings : Settings) (identity : Option Identification) (machine : σ)
    {s : Meter σ} (hsetUp : ((setUp m settings identity).run machine).result = .ok s)
    (htick : (0 : Binary64).le settings.tickInterval = true)
    (hown : (0 : Binary64).le settings.ownInterval = true) (queries : List Query)
    (hsteady : Steady (looks
      (setUpEvents m settings identity machine ++ eventsOf (run m queries s).1))) :
    let t := (run m queries s).2
    let shown := looks (setUpEvents m settings identity machine ++ eventsOf (run m queries s).1)
    let latest := shown.getLast?.getD 0
    s.settings = settings ∧ s.held.Paced (run m queries s).1 t.held ∧
      (∀ kind, (t.held.pairs.timeOf kind).le latest = true) ∧
      (∀ own, t.own = some own → own.time.le latest = true) ∧
      ∀ front query back, queries = front ++ query :: back →
        let u := (run m front s).2
        u.held.Waits query (stepOf m query u).events ((ask m query).run u).state.held := by
  intro t shown latest
  have hbegins := begins_setUp m settings identity machine hsetUp
  have hsettings : s.settings = settings := hbegins.settings_eq
  have htick' : s.settings.tickInterval.isNaN = false := by
    rw [hsettings]
    exact Binary64.isNaN_of_le htick
  have hown' : s.settings.ownInterval.isNaN = false := by
    rw [hsettings]
    exact Binary64.isNaN_of_le hown
  obtain ⟨htimed, hpaced⟩ := paced_run m hbegins.timed htick' hown' queries hsteady
  refine ⟨hsettings, hpaced, ?_, ?_, ?_⟩
  · exact fun kind => hsteady.le_latest (htimed.ticks kind)
  · exact fun own h => hsteady.le_latest (htimed.own own h)
  · rintro front query back rfl u
    -- The events up to the end of the query are the first ones of the run.
    rw [run_split, eventsOf, List.flatMap_append, List.flatMap_cons, ← List.append_assoc,
      ← List.append_assoc, looks_append] at hsteady
    have hfront := hsteady.left
    rw [looks_append] at hfront
    obtain ⟨htimed, hpaced⟩ := paced_run m hbegins.timed htick' hown' front hfront.left
    rw [← show u.settings = s.settings from hpaced.settings_eq] at htick'
    exact (answers_stepOf m query u).waits htick' htimed hfront

theorem readings_spaced_out_thirds :
    let m := counting everyThird
    let queries : List Query := [.instant, .sampled, .perProcessor, .instant, .sampled]
    let steps := (run m queries thirdsMeter).1
    ((setUp m {} none).run 0).result = .ok thirdsMeter ∧
      (0 : Binary64).le 950 = true ∧ (0 : Binary64).le 200 = true ∧
      Steady (looks (setUpEvents m {} none 0 ++ eventsOf steps)) ∧
      thirdsMeter.held.Paced steps (run m queries thirdsMeter).2.held ∧
      (steps.flatMap fun step => Scope.system.stamps 2 step.events)
        = [.ofNat 10000, .ofNat 18000] := by
  intro m queries steps
  have hsetUp : ((setUp m {} none).run 0).result = .ok thirdsMeter := by decide +kernel
  have htick : (0 : Binary64).le 950 = true := by decide +kernel
  have hown : (0 : Binary64).le 200 = true := by decide +kernel
  have hsteady : Steady (looks (setUpEvents m {} none 0 ++ eventsOf steps)) := by decide +kernel
  obtain ⟨-, hpaced, -⟩ := readings_spaced_out m {} none 0 hsetUp htick hown queries hsteady
  exact ⟨hsetUp, htick, hown, hsteady, hpaced, by decide +kernel⟩

end Meter

end ProcessorLoad
