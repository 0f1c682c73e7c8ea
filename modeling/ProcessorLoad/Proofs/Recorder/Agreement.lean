import ProcessorLoad.Proofs.Clock
import ProcessorLoad.Proofs.Meter.OwnLoad
import ProcessorLoad.Proofs.Recorder.Shape

/-!
# Reports that agree with themselves

A report has two figures of the system's load, from two queries that may each refresh the ticks.
Where the clock stands still while the report is collected, the second query finds what the first
one left, so a meter that goes by ticks gives the same figure twice.
-/

set_option autoImplicit false

namespace ProcessorLoad

namespace Series
variable {α : Type} {S : Series α} {interval : Binary64} {p q u : TickPair α} {es fs : List Event}

/-- What two refreshes at one time do to a pair, by the readings that they make. -/
inductive Rotates (S : Series α) (p : TickPair α) : List α → TickPair α → Prop where
  | throttled : Rotates S p [] p
  | unready {a b : α} (ha : S.isZero a = true) (hb : S.isZero b = true) : Rotates S p [a, b] p
  | once {a : α} (ha : S.isZero a = false) (now : Binary64) : Rotates S p [a] (p.push a now)

/-- If the first reading holds no data, then no reading does. -/
def StaysUnready (S : Series α) (as : List α) : Prop :=
  ∀ a ∈ as.head?, S.isZero a = true → ∀ b ∈ as, S.isZero b = true

instance (S : Series α) (as : List α) : Decidable (S.StaysUnready as) :=
  inferInstanceAs (Decidable (∀ a ∈ as.head?, S.isZero a = true → ∀ b ∈ as, S.isZero b = true))

/-- Right after a refresh another one finds no data where there was none, and is not due otherwise.
-/
theorem Refreshes.again {x y : Bool} (h : S.Refreshes interval p es (.ok x) q)
    (h' : S.Refreshes interval q fs (.ok y) u) (hinterval : (0 : Binary64).le interval = true)
    (hstill : Still (looks (es ++ fs))) (hunready : S.StaysUnready (S.fetches (es ++ fs))) :
    u = q ∧ S.Rotates p (S.fetches (es ++ fs)) q := by
  have hfinite {t : Binary64} (ht : .clock t ∈ es ++ fs) : t.isFinite = true :=
    hstill.finite t (mem_looks ht)
  have hsame {s t : Binary64} (hs : .clock s ∈ es ++ fs) (ht : .clock t ∈ es ++ fs) :
      s.eq t = true := hstill.same s (mem_looks hs) t (mem_looks ht)
  -- Both looks at the clock decide alike about a pair that stays.
  have hagree {s t : Binary64} (hs : .clock s ∈ es ++ fs) (ht : .clock t ∈ es ++ fs) :
      (s - p.time).le interval = (t - p.time).le interval :=
    Binary64.sub_le_congr (hfinite hs) (hfinite ht) (hsame hs ht) p.time interval
  cases h with
  | @early now hnow =>
    cases h' with
    | @early now' hnow' => exact ⟨rfl, by simpa using Rotates.throttled⟩
    | @due now' _ _ _ hdue hq' =>
      rw [hagree (s := now') (t := now) (by simp) (by simp), hnow] at hdue
      cases hdue
  | @due now _ _ _ hdue hq =>
    cases hq with
    | @skipped e a he hz =>
      cases h' with
      | @early now' hnow' =>
        rw [hagree (s := now') (t := now) (by simp) (by simp), hdue] at hnow'
        cases hnow'
      | @due now' _ _ _ hdue' hq' =>
        cases hq' with
        | @skipped e' b he' hz' =>
          refine ⟨rfl, ?_⟩
          simpa [fetches_ok he, fetches_ok he'] using Rotates.unready hz hz'
        | @accepted e' b later he' hz' =>
          have hfetches :
              S.fetches ([.clock now, e] ++ [.clock now', e', .clock later]) = [a, b] := by
            simp [fetches_ok he, fetches_ok he']
          rw [hfetches] at hunready
          cases hz'.symm.trans (hunready a rfl hz b (by simp))
    | @accepted e a later he hz =>
      cases h' with
      | @early now' hnow' =>
        refine ⟨rfl, ?_⟩
        simpa [fetches_ok he] using Rotates.once (p := p) hz later
      | @due now' rest _ _ hdue' hq' =>
        have hnow' : .clock now' ∈ [.clock now, e, .clock later] ++ .clock now' :: rest := by simp
        have hlater : .clock later ∈ [.clock now, e, .clock later] ++ .clock now' :: rest := by simp
        have hearly := Binary64.sub_le_of_eq (hfinite hnow') (hfinite hlater)
          (hsame hnow' hlater) hinterval
        cases hdue'.symm.trans hearly

end Series

/-- Both figures of the report are the load of the pair that is left, which has changed once at
most. -/
structure LoadReport.Agrees (report : LoadReport) (p : TickPair Ticks) (es : List Event)
    (q : TickPair Ticks) : Prop where
  sampled_eq : report.sampled = report.instant
  load_eq : q.load = .ok report.instant
  rotates : Series.totals.Rotates p (Series.totals.fetches es) q

namespace Held
variable {p q u v : Held} {es fs gs : List Event} {x y : Binary64} {xs : List Binary64}

theorem Answers.loads_apart {r : Except Fault Meter.Reply} (hq : p.Answers .perProcessor r es q) :
    q.settings = p.settings ∧ q.own = p.own ∧ q.pairs.system = p.pairs.system ∧
      Series.totals.Silent es := by
  cases hq with
  | perProcessor h => exact ⟨rfl, rfl, rfl, h.silent (Series.tables_apart_totals _)⟩
  | quiet h => exact h.elim

theorem Answers.sampled_ok (hq : p.Answers .sampled (.ok (.load x)) es q) :
    q.settings = p.settings ∧ q.own = p.own ∧ q.pairs.system.load = .ok x ∧
      ∃ accepted, Series.totals.Refreshes p.settings.tickInterval p.pairs.system es (.ok accepted)
        q.pairs.system := by
  generalize hr : (Except.ok (.load x) : Except Fault Meter.Reply) = r at hq
  cases hq with
  | @sampled _ accepted pair h =>
    cases accepted with
    | error fault => cases hr
    | ok accepted =>
      have hload : Meter.Reply.load <$> pair.load = Meter.Reply.load <$> .ok x := hr.symm
      exact ⟨rfl, rfl, eq_of_map_eq (fun _ _ => Meter.Reply.load.inj) hload, accepted, h⟩
  | quiet h => exact h.elim

/-- The queries of a report that was collected. -/
inductive Reports (p : Held) (report : LoadReport) : List Event → Held → Prop where
  | intro {es fs gs : List Event} {q u v : Held}
    (hloads : p.Answers .perProcessor (.ok (.loads report.perProcessor)) es q)
    (hinstant : q.Answers .instant (.ok (.load report.instant)) fs u)
    (hsampled : u.Answers .sampled (.ok (.load report.sampled)) gs v) :
    Reports p report (es ++ (fs ++ gs)) v

theorem Reports.agrees {report : LoadReport} (h : p.Reports report es q) (hown : p.own = none)
    (hinterval : (0 : Binary64).le p.settings.tickInterval = true) (hstill : Still (looks es))
    (hunready : Series.totals.StaysUnready (Series.totals.fetches es)) :
    report.Agrees p.pairs.system es q.pairs.system := by
  cases h with
  | @intro es fs gs q u v hloads hinstant hsampled =>
    obtain ⟨hsettings, hsame, hsystem, hsilent⟩ := hloads.loads_apart
    have hfirst := (hinstant.sampled_of_instant (hsame.trans hown)).sampled_ok
    obtain ⟨hsettings', -, hload, accepted, hrefresh⟩ := hfirst
    obtain ⟨-, -, hload', accepted', hrefresh'⟩ := hsampled.sampled_ok
    rw [hsettings', hsettings] at hrefresh'
    rw [hsettings, hsystem] at hrefresh
    rw [looks_append] at hstill
    rw [Series.fetches_append, hsilent.fetches, List.nil_append] at hunready
    obtain ⟨hpair, hrotates⟩ := hrefresh.again hrefresh' hinterval hstill.right hunready
    rw [hpair, hload] at hload'
    refine ⟨(Except.ok.inj hload').symm, by rw [hpair, hload], ?_⟩
    rw [Series.fetches_append, hsilent.fetches, List.nil_append, hpair]
    exact hrotates

end Held

namespace Recorder
variable {σ τ α : Type}

section Mirrors

def mapMachine (f : σ → τ) (r : Recorder σ) : Recorder τ :=
  ⟨r.meter.mapMachine f, r.pollRate, r.capacity, r.history, r.queue, r.running⟩

def forget (r : Recorder (Observed σ)) : Recorder σ := r.mapMachine Observed.machine

def observe (r : Recorder σ) : Recorder (Observed σ) := r.mapMachine Observed.start

@[simp] theorem forget_observe (r : Recorder σ) : r.observe.forget = r := rfl

theorem mirrors_onMeter {a : Action (Meter (Observed σ)) α} {b : Action (Meter σ) α}
    (h : Meter.SameObserved a b) : Action.Mirrors forget id (onMeter a) (onMeter b) :=
  h.on (fun _ => rfl) fun _ _ => rfl

theorem mirrors_collect (m : Machine σ) :
    Action.Mirrors forget id (collect m.observed) (collect m) := by
  refine (mirrors_onMeter (Meter.mirrors_perProcessor m)).bind_same fun perProcessor => ?_
  refine Action.Mirrors.bind_same (.modify fun _ => rfl) fun _ => ?_
  refine (mirrors_onMeter (Meter.mirrors_averages m 3)).bind_same fun averages => ?_
  refine (mirrors_onMeter (Meter.mirrors_instant m)).bind_same fun instant => ?_
  refine (mirrors_onMeter (Meter.mirrors_sampled m)).bind_same fun sampled => ?_
  refine Action.Mirrors.bind_same (.ofExcept_id _) fun averages => ?_
  exact Action.Mirrors.get.bind fun _ => .pure_same _

end Mirrors

variable (m : Machine σ)

theorem onMeter_ends {a : Action (Meter σ) α} {r : Recorder σ}
    {P : Except Fault α → Meter σ → Prop} (h : a.Ends r.meter P) :
    (onMeter a).Ends r fun x t => P x t.meter := h

theorem collect_reports (r : Recorder (Observed σ)) :
    (collect m.observed).Ends r fun x t => ∀ report, x = .ok report → ∃ es,
      t.meter.watch.machine.events = r.meter.watch.machine.events ++ es ∧
        r.meter.held.Reports report es t.meter.held := by
  apply (onMeter_ends Meter.perProcessor_ends).bind
  · rintro perProcessor s ⟨es, hes, hloads⟩
    apply Action.ends_modify_bind.mpr
    apply (onMeter_ends (Meter.averages_ends 3)).bind
    · rintro averages t ⟨ht, hheld⟩
      apply (onMeter_ends Meter.instant_ends).bind
      · rintro instant u ⟨fs, hfs, hinstant⟩
        apply (onMeter_ends Meter.sampled_ends).bind
        · rintro sampled v ⟨gs, hgs, hsampled⟩
          have hevents : v.meter.watch.machine.events
              = r.meter.watch.machine.events ++ (es ++ (fs ++ gs)) := by
            have hquiet : t.meter.watch.machine.events = s.meter.watch.machine.events :=
              ht.trans (List.append_nil _)
            rw [hgs, hfs, hquiet, hes]
            simp only [List.append_assoc]
          rw [hheld] at hinstant
          have hitems : (Action.ofExcept ([0, 1, 2].mapM (Meter.item averages))).Ends v
              fun _ w => w = v := rfl
          apply hitems.bind
          · rintro averages _ rfl report ⟨⟩
            exact ⟨_, hevents, .intro hloads hinstant hsampled⟩
          · rintro fault _ rfl report ⟨⟩
        · rintro fault v - report ⟨⟩
      · rintro fault u - report ⟨⟩
    · rintro fault t - report ⟨⟩
  · rintro fault s - report ⟨⟩

/-- What the machine is asked for while a report is collected. -/
def collectEvents (r : Recorder σ) : List Event :=
  ((collect m.observed).run r.observe).state.meter.watch.machine.events

theorem reports_collect {r : Recorder σ} {report : LoadReport}
    (h : ((collect m).run r).result = .ok report) :
    r.meter.held.Reports report (collectEvents m r) ((collect m).run r).state.meter.held := by
  have hm := mirrors_collect m r.observe
  rw [forget_observe, Except.map_id] at hm
  rw [hm] at h ⊢
  obtain ⟨es, hes, hreports⟩ := collect_reports m r.observe report h
  rw [collectEvents, hes]
  exact hreports

/-- A meter that goes by ticks, in whatever state, gives the same figure for both loads of the
system if the clock stands still during the collection and what was not ready at first stays so. It
is the load of the ticks that are held then, and at most one reading has been added to these. -/
theorem collected_report_agrees {r : Recorder σ} {report : LoadReport}
    (hbasis : r.meter.basis = .ticks)
    (hinterval : (0 : Binary64).le r.meter.settings.tickInterval = true)
    (hreport : ((collect m).run r).result = .ok report) (hstill : Still (looks (collectEvents m r)))
    (hunready : Series.totals.StaysUnready (Series.totals.fetches (collectEvents m r))) :
    report.Agrees r.meter.watch.system (collectEvents m r)
      ((collect m).run r).state.meter.watch.system := by
  exact (reports_collect m hreport).agrees (Meter.own_of_basis hbasis) hinterval hstill hunready

/-- A machine whose clock stands still, and whose ticks are not ready at first. -/
def paused (now : Binary64) : Machine Nat :=
  { averaging with
    clock n := (now, n)
    totalTicks n :=
      let k := n - 1
      ⟨.ok [.whole (k * k), .whole 0, .whole 0, .whole k], n + 1, []⟩ }

def unready : Recorder Nat where
  meter :=
    { settings := { useOwnLoad := false }
      logicalProcessors := 2
      physicalProcessors := 1
      own := none
      identity := none
      watch := .new 2 2 }
  pollRate := admitPollRate 1
  capacity := 2

theorem new_unready : Recorder.new unready.meter 1 2 = .ok unready := by
  unfold Recorder.new
  exact if_pos (by decide +kernel)

theorem collected_report_agrees_paused :
    let m := paused (.ofNat 5000)
    ((Meter.setUp m { useOwnLoad := false } none).run 0).result = .ok unready.meter ∧
      Recorder.new unready.meter 1 2 = .ok unready ∧
      ∃ report, ((collect m).run unready).result = .ok report ∧ report.instant = .quotient 2 3 ∧
        report.Agrees unready.meter.watch.system (collectEvents m unready)
          ((collect m).run unready).state.meter.watch.system := by
  intro m
  have hsetUp :
      ((Meter.setUp m { useOwnLoad := false } none).run 0).result = .ok unready.meter := by
    decide +kernel
  have hfigure : ((collect m).run unready).result.map LoadReport.instant = .ok (.quotient 2 3) := by
    decide +kernel
  cases hreport : ((collect m).run unready).result with
  | error fault =>
    rw [hreport] at hfigure
    cases hfigure
  | ok report =>
    rw [hreport] at hfigure
    simp only [Except.map, Except.ok.injEq] at hfigure
    have hinterval : (0 : Binary64).le unready.meter.settings.tickInterval = true := by
      decide +kernel
    have hstill : Still (looks (collectEvents m unready)) := by decide +kernel
    have hunready :
        Series.totals.StaysUnready (Series.totals.fetches (collectEvents m unready)) := by
      decide +kernel
    exact ⟨hsetUp, new_unready, report, rfl, hfigure,
      collected_report_agrees m rfl hinterval hreport hstill hunready⟩

/-- A clock that stands still beyond all finite times: no time span is known, so each figure is of a
reading of its own. -/
theorem collected_report_disagrees_beyond :
    let m := paused (.infinity false)
    ((Meter.setUp m { useOwnLoad := false } none).run 0).result = .ok unready.meter ∧
      Recorder.new unready.meter 1 2 = .ok unready ∧ unready.meter.basis = .ticks ∧
      (0 : Binary64).le unready.meter.settings.tickInterval = true ∧
      (∀ now ∈ looks (collectEvents m unready), now = .infinity false) ∧
      Series.totals.StaysUnready (Series.totals.fetches (collectEvents m unready)) ∧
      ((collect m).run unready).result.map (fun report => (report.instant, report.sampled))
        = .ok (.quotient 2 3, .quotient 5 6) ∧
      (Binary64.quotient 2 3).eq (.quotient 5 6) = false := by
  refine ⟨?_, new_unready, rfl, ?_⟩
  · decide +kernel
  · decide +kernel

end Recorder

end ProcessorLoad
