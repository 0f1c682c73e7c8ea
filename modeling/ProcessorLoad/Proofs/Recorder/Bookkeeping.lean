import Mathlib.Data.List.DropRight
import ProcessorLoad.Proofs.Meter.LoadRange
import ProcessorLoad.Proofs.Recorder.Runs

/-!
# What becomes of the reports and the loads

Every report that a poll queues is taken out once, in the order of the polls, unless it is still in
the queue. The history holds the newest of the loads that were collected, also by collections that
failed later on.
-/

set_option autoImplicit false

namespace ProcessorLoad

namespace Recorder
variable {σ α : Type}

theorem length_rtake (n : Nat) (xs : List α) : (xs.rtake n).length = min n xs.length := by
  simp [List.rtake_eq_reverse_take_reverse]

theorem rtake_of_length_le {n : Nat} {xs : List α} (h : xs.length ≤ n) : xs.rtake n = xs := by
  rw [List.rtake, Nat.sub_eq_zero_of_le h, List.drop_zero]

/-- What was dropped before makes no difference to what is newest afterwards. -/
theorem rtake_rtake_append (n : Nat) (xs ys : List α) :
    (xs.rtake n ++ ys).rtake n = (xs ++ ys).rtake n := by
  have hle : n - ys.length ≤ n := Nat.sub_le _ _
  simp only [List.rtake_eq_reverse_take_reverse, List.reverse_append, List.reverse_reverse,
    List.take_append, List.length_reverse, List.take_take, Nat.min_eq_left hle]

variable (m : Machine σ)

/-- What becomes of the history when loads are collected. -/
structure Remembers (r : Recorder σ) (loads : Option (List Binary64)) (t : Recorder σ) : Prop where
  capacity_eq : t.capacity = r.capacity
  history_eq : t.history = loads.elim r.history fun xs => (r.history ++ [xs]).rtake r.capacity

/-- What only collecting, polling and draining change. -/
def books (r : Recorder σ) : List LoadReport × Nat × List (List Binary64) :=
  (r.queue, r.capacity, r.history)

theorem keeps_onMeter (a : Action (Meter σ) α) : Action.Keeps books (onMeter a) := fun _ => rfl

theorem keeps_complete (xs : List Binary64) : Action.Keeps books (complete m xs) := by
  refine (keeps_onMeter _).bind fun averages => ?_
  refine (keeps_onMeter _).bind fun instant => ?_
  refine (keeps_onMeter _).bind fun sampled => ?_
  refine (Action.Keeps.ofExcept _).bind fun averages => ?_
  exact Action.Keeps.get.bind fun r => .pure _

theorem ends_remember_bind {xs : List Binary64} {k : Unit → Action (Recorder σ) α} {r : Recorder σ}
    {P : Except Fault α → Recorder σ → Prop} : (remember xs >>= k).Ends r P ↔
      (k ()).Ends { r with history := (r.history ++ [xs]).rtake r.capacity } P := Iff.rfl

theorem collect_remembers (r : Recorder σ) :
    (collect m).Ends r fun x t => t.queue = r.queue ∧ r.Remembers (measured m r) t ∧
      ∀ report, x = .ok report → measured m r = some report.perProcessor := by
  have hfirst : (onMeter (Meter.perProcessor m)).Ends r fun x t =>
      x.toOption = measured m r ∧ ∃ s, t = { r with meter := s } := ⟨rfl, _, rfl⟩
  rw [collect_eq]
  apply hfirst.bind
  · rintro xs _ ⟨hxs, s, rfl⟩
    apply ends_remember_bind.mpr
    -- the history has the loads by now, whether or not the rest of the collection fails
    let remembered := { r with meter := s, history := (r.history ++ [xs]).rtake r.capacity }
    have hcomplete := keeps_complete m xs remembered
    simp only [books, remembered, Prod.mk.injEq] at hcomplete
    obtain ⟨hqueue, hcapacity, hhistory⟩ := hcomplete
    rw [← hxs]
    refine ⟨hqueue, ⟨hcapacity, hhistory⟩, ?_⟩
    intro report hok
    rw [perProcessor_of_complete m hok]
    rfl
  · rintro fault _ ⟨hnone, s, rfl⟩
    rw [← hnone]
    exact ⟨rfl, ⟨rfl, rfl⟩, fun _ h => nomatch h⟩

theorem measured_of_collected {r : Recorder σ} {report : LoadReport}
    (h : collected m r = some report) : measured m r = some report.perProcessor := by
  obtain ⟨-, -, hreport⟩ := collect_remembers m r
  refine hreport report ?_
  unfold collected at h
  cases hcollect : ((collect m).run r).result with
  | error fault =>
    rw [hcollect] at h
    cases h
  | ok x =>
    rw [hcollect] at h
    cases h
    rfl

/-- A poll always has an answer: whether there is one report more in the queue, the one that was
collected. -/
theorem poll_remembers (r : Recorder σ) :
    (poll m).Ends r fun x t => x = .ok (collected m r).isSome ∧
      t.queue = r.queue ++ (collected m r).toList ∧ r.Remembers (measured m r) t := by
  obtain ⟨hkept, hbooked, -⟩ := collect_remembers m r
  have hcollect : (collect m).attempt.Ends r fun y t => ∃ x, y = .ok x ∧
      x.toOption = collected m r ∧ t.queue = r.queue ∧ r.Remembers (measured m r) t :=
    Action.ends_attempt.mpr ⟨_, rfl, rfl, hkept, hbooked⟩
  apply hcollect.bind
  · rintro y t ⟨x, hy, hx, hqueue, hremembers⟩
    cases hy
    rw [← hx]
    cases y with
    | ok report =>
      exact ⟨rfl, congrArg (· ++ [report]) hqueue, hremembers.capacity_eq, hremembers.history_eq⟩
    | error fault => exact ⟨rfl, hqueue.trans (List.append_nil _).symm, hremembers⟩
  · rintro fault t ⟨x, hx, -⟩
    cases hx

/-- What an operation does to the queue and the history. -/
structure Books (r : Recorder σ) (entry : Entry) (t : Recorder σ) : Prop
    extends Remembers r entry.loads t where
  queue_eq : entry.drained ++ t.queue = r.queue ++ entry.queued

theorem Books.of_kept {r t : Recorder σ} {entry : Entry} (ht : t.books = r.books)
    (hloads : entry.loads = none) (hqueued : entry.queued = []) (hdrained : entry.drained = []) :
    r.Books entry t := by
  simp only [books, Prod.mk.injEq] at ht
  obtain ⟨hqueue, hcapacity, hhistory⟩ := ht
  refine ⟨⟨hcapacity, ?_⟩, ?_⟩
  · rw [hloads]
    exact hhistory
  · rw [hqueued, hdrained, hqueue, List.append_nil]
    rfl

theorem entryOf_poll (r : Recorder σ) :
    entryOf m .poll r =
      ⟨.poll, .ok (.polled (collected m r).isSome), measured m r, collected m r,
        ((perform m .poll).run r).state.meter.watch.processors⟩ := by
  have hpoll := (poll_remembers m r).1
  simp only [entryOf, perform, Action.run_map, hpoll]
  rfl

theorem books_start (r : Recorder σ) :
    r.Books (entryOf m .start r) ((perform m .start).run r).state := by
  have hstart : (start m).Ends r fun x t => x = .ok !r.running ∧
      r.Books ⟨.start, .ok (.started !r.running), (collecting? r .start).bind (measured m),
        (collecting? r .start).bind (collected m), t.meter.watch.processors⟩ t := by
    apply Action.ends_get_bind.mpr
    cases hrunning : r.running with
    | true =>
      -- a recorder that is running is not polled again
      have hnone : collecting? r .start = none := by rw [collecting?, hrunning, if_pos rfl]
      rw [hnone]
      exact ⟨rfl, .of_kept rfl rfl rfl rfl⟩
    | false =>
      have hsome : collecting? r .start = some { r with running := true } := by
        rw [collecting?, hrunning]
        rfl
      rw [hsome]
      apply Action.ends_modify_bind.mpr
      apply (poll_remembers m { r with running := true }).bind
      · rintro queued t ⟨-, hqueue, hremembers⟩
        exact ⟨rfl, ⟨hremembers.capacity_eq, hremembers.history_eq⟩, hqueue⟩
      · rintro fault t ⟨hfault, -⟩
        cases hfault
  obtain ⟨hresult, hbooks⟩ := hstart
  rw [entryOf, perform, Action.run_map, hresult]
  exact hbooks

theorem books_entryOf (operation : Operation) (r : Recorder σ) :
    r.Books (entryOf m operation r) ((perform m operation).run r).state := by
  cases operation with
  | collect =>
    rw [perform, Action.state_map]
    obtain ⟨hqueue, hremembers, -⟩ := collect_remembers m r
    exact ⟨hremembers, hqueue.trans (List.append_nil _).symm⟩
  | poll =>
    rw [entryOf_poll, perform, Action.state_map]
    obtain ⟨-, hqueue, hremembers⟩ := poll_remembers m r
    refine ⟨hremembers, hqueue.trans ?_⟩
    cases collected m r <;> rfl
  | drain => exact ⟨⟨rfl, rfl⟩, rfl⟩
  | start => exact books_start m r
  | stop => exact .of_kept rfl rfl rfl rfl
  | setPollRate rate =>
    have hkeeps : books (setPollRate rate r) = books r := by simp only [books, setPollRate]
    exact .of_kept hkeeps rfl rfl rfl
  | ask query =>
    have hkeeps : Action.Keeps books (perform m (.ask query)) :=
      (keeps_onMeter _).bind fun reply => .pure _
    exact .of_kept (hkeeps r) rfl rfl rfl

theorem loads_of_report {operation : Operation} {r : Recorder σ} {report : LoadReport}
    (h : (entryOf m operation r).report = some report) :
    (entryOf m operation r).loads = some report.perProcessor := by
  obtain ⟨s, hs, hreport⟩ := Option.bind_eq_some_iff.mp h
  exact Option.bind_eq_some_iff.mpr ⟨s, hs, measured_of_collected m hreport⟩

theorem entry_cases (operation : Operation) (r : Recorder σ) :
    let entry := entryOf m operation r
    entry.queued = [] ∨ ∃ report, entry.queued = [report] ∧
      entry.loads = some report.perProcessor := by
  intro entry
  have hreport : entry.queued = [] ∨ entry.queued = entry.report.toList := by
    unfold Entry.queued
    split
    · exact .inr rfl
    · exact .inr rfl
    · exact .inl rfl
  cases hsome : entry.report with
  | none =>
    rw [hsome] at hreport
    exact .inl (hreport.elim id id)
  | some report =>
    rw [hsome] at hreport
    exact hreport.imp id fun h => ⟨report, h, loads_of_report m hsome⟩

structure Balanced (r : Recorder σ) (entries : List Entry) (t : Recorder σ) : Prop where
  capacity_eq : t.capacity = r.capacity
  history_eq : t.history = (r.history ++ entries.filterMap Entry.loads).rtake r.capacity
  queue_eq : entries.flatMap Entry.drained ++ t.queue = r.queue ++ entries.flatMap Entry.queued

theorem Balanced.step {r s t : Recorder σ} {entries : List Entry} {entry : Entry}
    (hs : r.Balanced entries s) (ht : s.Books entry t) : r.Balanced (entries ++ [entry]) t where
  capacity_eq := ht.capacity_eq.trans hs.capacity_eq
  history_eq := by
    rw [ht.history_eq, hs.capacity_eq, List.filterMap_append]
    cases hloads : entry.loads with
    | none => simpa [hloads] using hs.history_eq
    | some xs =>
      rw [hs.history_eq, Option.elim_some, rtake_rtake_append, List.append_assoc]
      simp [hloads]
  queue_eq := by
    simp only [List.flatMap_append, List.flatMap_singleton]
    rw [List.append_assoc, ht.queue_eq, ← List.append_assoc, hs.queue_eq, List.append_assoc]

theorem balanced_journal {r : Recorder σ} (hr : r.history.length ≤ r.capacity)
    (operations : List Operation) :
    r.Balanced (journal m operations r).1 (journal m operations r).2 := by
  refine Action.runAll_induction (perform m) (entryOf m)
    (P := r.Balanced) ⟨rfl, ?_, ?_⟩ ?_ operations
  · rw [List.filterMap_nil, List.append_nil, rtake_of_length_le hr]
  · exact (List.append_nil r.queue).symm
  · intro entries s operation hs
    exact hs.step (books_entryOf m operation s)

theorem fields_of_new {meter : Meter σ} {pollRate : Binary64} {historySize : Int} {r : Recorder σ}
    (h : Recorder.new meter pollRate historySize = .ok r) :
    r.meter = meter ∧ r.pollRate = admitPollRate pollRate ∧
      r.capacity = (max 1 historySize).toNat ∧ r.history = [] ∧ r.queue = [] := by
  unfold Recorder.new at h
  dsimp only at h
  split at h
  · cases h
    simp only [and_self]
  · cases h

/-- A poll in any state has an answer. It says whether a report was collected, and if so the queue
is longer by that report; otherwise it is as it was. Over every run from a new recorder on, the
reports that were drained, in their order, and those still in the queue are the reports of the polls
that came to something, in their order. The history is always the newest of the loads that were
collected, as many as the history size asks for and at least one, and a report has the loads of its
own collection. -/
theorem queue_and_history_kept :
    (∀ r : Recorder σ,
      let o := (poll m).run r
      match ((collect m).run r).result with
      | .ok report => o.result = .ok true ∧ o.state.queue = r.queue ++ [report]
      | .error _ => o.result = .ok false ∧ o.state.queue = r.queue) ∧
    ∀ (meter : Meter σ) (pollRate : Binary64) (historySize : Int) (r : Recorder σ),
      Recorder.new meter pollRate historySize = .ok r → ∀ operations : List Operation,
        let entries := (journal m operations r).1
        let t := (journal m operations r).2
        entries.flatMap Entry.drained ++ t.queue = entries.flatMap Entry.queued ∧
          t.history = (entries.filterMap Entry.loads).rtake (max 1 historySize).toNat ∧
          ∀ entry ∈ entries, ∀ report, entry.report = some report →
            entry.loads = some report.perProcessor := by
  refine ⟨?_, ?_⟩
  · intro r o
    obtain ⟨hresult, hqueue, -⟩ := poll_remembers m r
    unfold collected at hresult hqueue
    split
    next report hreport =>
      rw [hreport] at hresult hqueue
      exact ⟨hresult, hqueue⟩
    next fault hfault =>
      rw [hfault] at hresult hqueue
      exact ⟨hresult, hqueue.trans (List.append_nil _)⟩
  · intro meter pollRate historySize r hnew operations entries t
    obtain ⟨-, -, hcapacity, hhistory, hqueue⟩ := fields_of_new hnew
    have hfits : r.history.length ≤ r.capacity := hhistory ▸ Nat.zero_le _
    have hbalanced := balanced_journal m hfits operations
    refine ⟨?_, ?_, ?_⟩
    · rw [hbalanced.queue_eq, hqueue, List.nil_append]
    · rw [hbalanced.history_eq, hhistory, hcapacity, List.nil_append]
    · refine Action.runAll_induction (perform m) (entryOf m)
        (P := fun entries _ => ∀ entry ∈ entries,
        ∀ report, entry.report = some report → entry.loads = some report.perProcessor)
        (List.forall_mem_nil _) ?_ operations
      intro entries s operation hentries
      refine List.forall_mem_append.mpr ⟨hentries, List.forall_mem_singleton.mpr ?_⟩
      exact fun report => loads_of_report m

/-- A counting machine with load averages, of whose processors the first one is idle half of the
time. -/
def averaging : Machine Nat :=
  { Meter.counting fun _ => none with
    tickTable n := ⟨.ok [[.whole n, .whole 0, .whole 0, .whole n], [.whole n]], n + 1, []⟩
    averages n := ⟨.ok [1, 1, 1], n, []⟩ }

/-- An averaging machine that at some times has one load average only, so that collections fail
after they found the loads of the processors. -/
def faltering : Machine Nat :=
  { averaging with averages n := ⟨.ok (if n % 4 = 0 then [1] else [1, 1, 1]), n + 1, []⟩ }

theorem queue_and_history_kept_faltering :
    let operations : List Operation := [.poll, .poll, .drain, .start]
    let meter := Meter.countingMeter
    let r : Recorder Nat := { meter, pollRate := admitPollRate 1, capacity := 1 }
    let entries := (journal faltering operations r).1
    let t := (journal faltering operations r).2
    Recorder.new meter 1 (-3) = .ok r ∧
      entries.map (fun entry => (entry.drained.length, entry.queued.length, entry.loads.isSome))
        = [(0, 1, true), (0, 0, true), (1, 0, false), (0, 1, true)] ∧
      entries.flatMap Entry.drained ++ t.queue = entries.flatMap Entry.queued ∧
      t.history.length = 1 ∧ t.history = (entries.filterMap Entry.loads).rtake 1 := by
  intro operations meter r entries t
  have hnew : Recorder.new meter 1 (-3) = .ok r := by
    unfold Recorder.new
    exact if_pos (by decide +kernel)
  obtain ⟨-, hruns⟩ := queue_and_history_kept faltering
  obtain ⟨hqueue, hhistory, -⟩ := hruns meter 1 (-3) r hnew operations
  refine ⟨hnew, ?_, hqueue, ?_, hhistory⟩
  · decide +kernel
  · decide +kernel

end Recorder

end ProcessorLoad
