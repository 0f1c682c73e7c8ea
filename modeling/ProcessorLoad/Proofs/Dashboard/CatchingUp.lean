import ProcessorLoad.Dashboard
import ProcessorLoad.Proofs.Recorder.Bookkeeping

/-!
# The screen catches up

Whatever polls and checks come after each other once the dashboard is shown, the header has the
figures of the newest report that was in the queue at the last check that found one. An older report
is never shown again, and a check that finds nothing does nothing.
-/

set_option autoImplicit false

namespace ProcessorLoad

theorem append_singleton_eq_append_cons {α : Type} {xs front back : List α} {x y : α}
    (h : xs ++ [x] = front ++ y :: back) :
    (xs = front ∧ x = y ∧ back = []) ∨ ∃ rest, xs = front ++ y :: rest ∧ back = rest ++ [x] := by
  rcases List.eq_nil_or_concat back with rfl | ⟨rest, z, rfl⟩
  · obtain ⟨hxs, hx⟩ := List.append_inj' h rfl
    exact .inl ⟨hxs, List.singleton_inj.mp hx, rfl⟩
  · rw [List.concat_eq_append, ← List.cons_append, ← List.append_assoc] at h
    obtain ⟨hxs, hx⟩ := List.append_inj' h rfl
    exact .inr ⟨rest, hxs, by rw [List.concat_eq_append, List.singleton_inj.mp hx]⟩

namespace Dashboard
variable {σ : Type} (assignment : Assignment)

inductive Turn where
  | poll
  | check

def perform (m : Machine σ) : Turn → Action (Dashboard σ) Unit
  | .poll => do
    let _ ← onRecorder (Recorder.poll m)
    return ()
  | .check => check assignment

/-- One turn: the reports that were in the queue before it, and the one that it put there, if any.
-/
structure Entry where
  turn : Turn
  waiting : List LoadReport
  queued : List LoadReport

def entryOf (m : Machine σ) (turn : Turn) (d : Dashboard σ) : Entry where
  turn
  waiting := d.recorder.queue
  queued :=
    match turn with
    | .poll => (Recorder.collected m d.recorder).toList
    | .check => []

def Entry.Finds (entry : Entry) : Prop := entry.turn = .check ∧ entry.waiting ≠ []

/-- A run of turns, in which a fault ends nothing but its own turn. -/
def run (m : Machine σ) (turns : List Turn) (d : Dashboard σ) : List Entry × Dashboard σ :=
  Action.runAll (perform assignment m) (entryOf m) turns d

def emptied (d : Dashboard σ) : Dashboard σ :=
  { d with recorder := { d.recorder with queue := [] } }

theorem emptied_eq {d : Dashboard σ} (h : d.recorder.queue = []) : d.emptied = d := by
  unfold emptied
  rw [← h]

section Show
variable (report : LoadReport) (d : Dashboard σ)

theorem recorder_showReport : (showReport assignment report d).recorder = d.recorder := by
  simp only [showReport]
  repeat' split
  all_goals rfl

theorem lost_showReport : (showReport assignment report d).lost = d.lost := by
  simp only [showReport]
  repeat' split
  all_goals rfl

theorem header_showReport (h : d.lost = []) : (showReport assignment report d).header =
    some ⟨report.instant, report.sampled, report.averages, report.basis⟩ := by
  simp [showReport, h, LoadReport.figures]

end Show

theorem check_ends (d : Dashboard σ) : (check assignment).Ends d fun x t => x = .ok () ∧
    t = d.recorder.queue.getLast?.elim d fun report => showReport assignment report d.emptied := by
  have hdrain : (onRecorder Recorder.drain).Ends d fun x t =>
      x = .ok d.recorder.queue ∧ t = d.emptied := ⟨rfl, rfl⟩
  apply hdrain.bind
  · rintro reports t ⟨hreports, rfl⟩
    cases hreports
    cases hlast : d.recorder.queue.getLast? with
    | none => exact ⟨rfl, emptied_eq (List.getLast?_eq_none_iff.mp hlast)⟩
    | some report =>
      apply Action.ends_modify_bind.mpr
      apply Action.ends_get_bind.mpr
      split
      · exact ⟨rfl, rfl⟩
      · exact ⟨rfl, rfl⟩
  · rintro fault t ⟨hfault, -⟩
    cases hfault

theorem check_empties (d : Dashboard σ) : (check assignment).Ends d fun x t =>
    x = .ok () ∧ t.recorder.queue = [] ∧ (d.recorder.queue = [] → t = d) := by
  apply (check_ends assignment d).mono
  rintro x t ⟨hx, rfl⟩
  refine ⟨hx, ?_, fun hempty => ?_⟩
  · cases hlast : d.recorder.queue.getLast? with
    | none => exact List.getLast?_eq_none_iff.mp hlast
    | some report => exact congrArg Recorder.queue (recorder_showReport assignment report d.emptied)
  · rw [hempty]
    rfl

theorem poll_adds (m : Machine σ) (d : Dashboard σ) : (perform assignment m .poll).Ends d fun x t =>
    x = .ok () ∧ t.recorder.queue = d.recorder.queue ++ (entryOf m .poll d).queued ∧
      t = { d with recorder := t.recorder } := by
  obtain ⟨hresult, hqueue, -⟩ := Recorder.poll_remembers m d.recorder
  apply Action.ends_map.mpr
  refine ⟨?_, hqueue, rfl⟩
  change (fun _ => ()) <$> ((Recorder.poll m).run d.recorder).result = _
  rw [hresult]
  rfl

theorem run_append (m : Machine σ) (front back : List Turn) (d : Dashboard σ) :
    let fore := run assignment m front d
    run assignment m (front ++ back) d =
      (fore.1 ++ (run assignment m back fore.2).1, (run assignment m back fore.2).2) :=
  Action.runAll_append (perform assignment m) (entryOf m) front back d

/-- How a dashboard stands after a run that began with some early reports in its queue. -/
structure CaughtUp (early : List LoadReport) (entries : List Entry) (d : Dashboard σ) : Prop where
  lost_eq : d.lost = []
  queue_eq : ∃ taken, early ++ entries.flatMap Entry.queued = taken ++ d.recorder.queue
  blank : (∀ entry ∈ entries, ¬ entry.Finds) → d.header = none
  newest : ∀ front entry back, entries = front ++ entry :: back → entry.Finds →
    (∀ later ∈ back, ¬ later.Finds) → ∃ report,
      (early ++ front.flatMap Entry.queued).getLast? = some report ∧
        d.header = some ⟨report.instant, report.sampled, report.averages, report.basis⟩

section Step
variable {early : List LoadReport} {entries : List Entry} {entry : Entry} {d t : Dashboard σ}

/-- A turn that finds nothing leaves the header to the check before it. -/
theorem CaughtUp.of_quiet (h : CaughtUp early entries d) (hquiet : ¬ entry.Finds)
    (hlost : t.lost = d.lost) (hheader : t.header = d.header)
    (hqueue : t.recorder.queue = d.recorder.queue ++ entry.queued) :
    CaughtUp early (entries ++ [entry]) t where
  lost_eq := hlost.trans h.lost_eq
  queue_eq := by
    obtain ⟨taken, htaken⟩ := h.queue_eq
    refine ⟨taken, ?_⟩
    rw [List.flatMap_append, List.flatMap_singleton, ← List.append_assoc, htaken, hqueue,
      List.append_assoc]
  blank hnone := hheader.trans (h.blank fun e he => hnone e (List.mem_append_left _ he))
  newest front e back heq hfinds hlater := by
    rcases append_singleton_eq_append_cons heq with ⟨-, rfl, -⟩ | ⟨rest, hentries, rfl⟩
    · exact absurd hfinds hquiet
    · rw [hheader]
      exact h.newest front e rest hentries hfinds fun e he => hlater e (List.mem_append_left _ he)

/-- A check that finds reports shows the newest of all that were queued before it. -/
theorem CaughtUp.of_found (h : CaughtUp early entries d) (hfinds : entry.Finds)
    {report : LoadReport}
    (hreport : d.recorder.queue.getLast? = some report) (hlost : t.lost = d.lost)
    (hheader : t.header = some ⟨report.instant, report.sampled, report.averages, report.basis⟩)
    (hqueue : t.recorder.queue = []) :
    CaughtUp early (entries ++ [entry]) t where
  lost_eq := hlost.trans h.lost_eq
  queue_eq := ⟨_, by rw [hqueue, List.append_nil]⟩
  blank hnone :=
    absurd hfinds (hnone entry (List.mem_append_right _ (List.mem_singleton_self entry)))
  newest front e back heq _ hlater := by
    rcases append_singleton_eq_append_cons heq with ⟨rfl, -, -⟩ | ⟨rest, -, rfl⟩
    · obtain ⟨taken, htaken⟩ := h.queue_eq
      refine ⟨report, ?_, hheader⟩
      rw [htaken, List.getLast?_append, hreport]
      rfl
    · exact absurd hfinds (hlater entry (List.mem_append_right _ (List.mem_singleton_self entry)))

end Step

variable (m : Machine σ)

theorem CaughtUp.step {early : List LoadReport} {entries : List Entry} {d : Dashboard σ}
    (h : CaughtUp early entries d) (turn : Turn) :
    CaughtUp early (entries ++ [entryOf m turn d]) ((perform assignment m turn).run d).state := by
  cases turn with
  | poll =>
    have hquiet : ¬ (entryOf m .poll d).Finds := fun hfinds => nomatch hfinds.1
    obtain ⟨-, hqueue, hstate⟩ := poll_adds assignment m d
    exact h.of_quiet hquiet (by rw [hstate]) (by rw [hstate]) hqueue
  | check =>
    obtain ⟨-, hstate⟩ := check_ends assignment d
    rw [perform, hstate]
    cases hlast : d.recorder.queue.getLast? with
    | none =>
      have hempty := List.getLast?_eq_none_iff.mp hlast
      have hquiet : ¬ (entryOf m .check d).Finds := fun hfinds => hfinds.2 hempty
      exact h.of_quiet hquiet rfl rfl (List.append_nil _).symm
    | some report =>
      have hfinds : (entryOf m .check d).Finds := by
        refine ⟨rfl, fun hempty => ?_⟩
        rw [show d.recorder.queue = [] from hempty] at hlast
        cases hlast
      apply h.of_found hfinds hlast
      · exact lost_showReport assignment report d.emptied
      · exact header_showReport assignment report d.emptied h.lost_eq
      · exact congrArg Recorder.queue (recorder_showReport assignment report d.emptied)

theorem caughtUp_run {d : Dashboard σ} (hlost : d.lost = []) (hheader : d.header = none)
    (turns : List Turn) :
    CaughtUp d.recorder.queue (run assignment m turns d).1 (run assignment m turns d).2 := by
  have hstart : CaughtUp d.recorder.queue [] d :=
    ⟨hlost, ⟨[], List.append_nil _⟩, fun _ => hheader, fun front _ _ h => by simp at h⟩
  exact Action.runAll_induction (perform assignment m) (entryOf m) (P := CaughtUp d.recorder.queue)
    hstart (fun _ _ turn h => h.step assignment m turn) turns

theorem keeps_present : Action.Keeps (fun d => (d.header, d.lost)) (present m) := by
  refine Action.Keeps.bind (fun _ => rfl) fun name => ?_
  apply Action.Keeps.ite
  · exact Action.Keeps.bind (fun _ => rfl) fun _ _ => rfl
  · refine Action.Keeps.bind (fun _ => rfl) fun _ => ?_
    exact Action.Keeps.bind (fun _ => rfl) fun _ _ => rfl

theorem fields_of_new {meter : Meter σ} {settings : Settings} {d : Dashboard σ}
    (h : new meter settings = .ok d) : d.header = none ∧ d.lost = [] := by
  obtain ⟨recorder, -, h⟩ := ok_of_bind h
  cases h
  exact ⟨rfl, rfl⟩

/-- A check leaves the queue empty, and it leaves everything as it was if the queue was empty
before. A poll has nothing to do with the screen, and it adds to the queue just what it collected.
From when the dashboard is shown on, the header is blank until a check finds something; from then on
it has the figures of the newest report that was queued before the last check that found something.
-/
theorem screen_catches_up :
    (∀ d : Dashboard σ, (check assignment).Ends d fun x t =>
      x = .ok () ∧ t.recorder.queue = [] ∧ (d.recorder.queue = [] → t = d)) ∧
    (∀ d : Dashboard σ, (perform assignment m .poll).Ends d fun x t =>
      x = .ok () ∧ t.recorder.queue = d.recorder.queue ++ (entryOf m .poll d).queued ∧
        t = { d with recorder := t.recorder }) ∧
    ∀ (meter : Meter σ) (settings : Settings) (d₀ : Dashboard σ), new meter settings = .ok d₀ →
      ((present m).run d₀).result = .ok () → ∀ turns : List Turn,
        let d := ((present m).run d₀).state
        let entries := (run assignment m turns d).1
        let t := (run assignment m turns d).2
        ((∀ entry ∈ entries, ¬ entry.Finds) → t.header = none) ∧
          ∀ front entry back, entries = front ++ entry :: back → entry.Finds →
            (∀ later ∈ back, ¬ later.Finds) → ∃ report,
              (d.recorder.queue ++ front.flatMap Entry.queued).getLast? = some report ∧
                t.header
                  = some ⟨report.instant, report.sampled, report.averages, report.basis⟩ := by
  refine ⟨check_empties assignment, poll_adds assignment m, ?_⟩
  intro meter settings d₀ hnew _ turns d entries t
  obtain ⟨hheader, hlost⟩ := fields_of_new hnew
  have hkept := keeps_present m d₀
  rw [Prod.mk.injEq, hheader, hlost] at hkept
  have hrun := caughtUp_run assignment m hkept.2 hkept.1 turns
  exact ⟨hrun.blank, hrun.newest⟩

/-- A counting machine with a load of its own. Its load averages go up, and at some times it has too
few of them, so that polls fail. -/
def rising : Machine Nat :=
  { Meter.counting fun n => some (.quotient 1 n) with
    averages n := ⟨.ok (if n % 4 = 0 then [1] else [.ofNat n, 1, 1]), n + 1, []⟩ }

def owningMeter : Meter Nat := { Meter.countingMeter with own := some ⟨.quotient 1 4, 0⟩ }

def blank : Dashboard Nat :=
  { recorder := { meter := owningMeter, pollRate := Recorder.admitPollRate 1, capacity := 60 } }

theorem new_blank : new owningMeter {} = .ok blank := by
  have hrecorder : Recorder.new owningMeter 1 60 = .ok blank.recorder := by
    unfold Recorder.new
    exact if_pos (by decide +kernel)
  rw [new, hrecorder]
  rfl

/-- One of the polls fails. Of the three reports that the second check finds the last one is shown,
and the check after it finds nothing. -/
theorem screen_catches_up_rising :
    let turns : List Turn := [.check, .poll, .poll, .poll, .poll]
    ∃ (d : Dashboard Nat) (front back : List Entry × Dashboard Nat) (report : LoadReport),
      new owningMeter {} = .ok blank ∧ ((present rising).run blank).result = .ok () ∧
        d = ((present rising).run blank).state ∧ front = run .plain rising turns d ∧
        front.1.map (fun entry => entry.queued.length) = [0, 1, 0, 1, 1] ∧
        front.2.header = some ⟨.quotient 1 8, .quotient 1 2, [6, 1, 1], .own⟩ ∧
        (d.recorder.queue ++ front.1.flatMap Entry.queued).getLast? = some report ∧
        back = run .plain rising (turns ++ [.check, .check]) d ∧
        back.2.header = some ⟨report.instant, report.sampled, report.averages, report.basis⟩ ∧
        back.2.header = some ⟨.quotient 1 44, .quotient 1 2, [42, 1, 1], .own⟩ := by
  intro turns
  have hshown : ((present rising).run blank).result = .ok () := by decide +kernel
  have hlengths : (run .plain rising turns ((present rising).run blank).state).1.map
      (fun entry => entry.queued.length) = [0, 1, 0, 1, 1] := by decide +kernel
  have hwaiting : (run .plain rising turns
      ((present rising).run blank).state).2.recorder.queue.length = 3 := by decide +kernel
  have hearly : (run .plain rising turns ((present rising).run blank).state).2.header
      = some ⟨.quotient 1 8, .quotient 1 2, [6, 1, 1], .own⟩ := by decide +kernel
  have hlate : (run .plain rising (turns ++ [.check, .check])
      ((present rising).run blank).state).2.header
      = some ⟨.quotient 1 44, .quotient 1 2, [42, 1, 1], .own⟩ := by decide +kernel
  obtain ⟨hcheck, -, hruns⟩ := screen_catches_up .plain rising
  obtain ⟨-, hnewest⟩ := hruns owningMeter {} blank new_blank hshown (turns ++ [.check, .check])
  generalize ((present rising).run blank).state = d at hlengths hwaiting hearly hlate hnewest
  have hruns := run_append .plain rising turns [.check, .check] d
  dsimp only at hruns
  generalize hfront : run .plain rising turns d = front at hlengths hwaiting hearly hruns
  have hentries := congrArg Prod.fst hruns
  have hfinds : (entryOf rising .check front.2).Finds := by
    refine ⟨rfl, fun hempty => ?_⟩
    rw [show front.2.recorder.queue = [] from hempty] at hwaiting
    cases hwaiting
  obtain ⟨-, hempty, -⟩ := hcheck front.2
  have hmissed : ¬ (entryOf rising .check ((check .plain).run front.2).state).Finds :=
    fun h => h.2 hempty
  obtain ⟨report, hlast, hheader⟩ :=
    hnewest front.1 _ [_] hentries hfinds (List.forall_mem_singleton.mpr hmissed)
  exact ⟨d, front, _, report, new_blank, hshown, rfl, hfront.symm, hlengths, hearly, hlast, rfl,
    hheader, hlate⟩

end Dashboard

end ProcessorLoad
