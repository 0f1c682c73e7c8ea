import ProcessorLoad.Proofs.Recorder.Bookkeeping

/-!
# What failed polls leave behind

A poll that fails leaves the queue as it is. The loads that it found before it failed stay in the
history, unless the history is full of just these loads. So the history is that of the queued
reports for as long as every poll that finds loads comes to something, and hardly longer.
-/

set_option autoImplicit false

namespace ProcessorLoad

theorem append_singleton_eq_cons_iff {α : Type} {x y : α} {xs : List α} :
    xs ++ [x] = y :: xs ↔ y = x ∧ xs = List.replicate xs.length x := by
  induction xs generalizing y with
  | nil => simp [eq_comm]
  | cons z xs ih =>
    rw [List.cons_append, List.cons.injEq, ih, List.length_cons, List.replicate_succ,
      List.cons.injEq]
    constructor
    · rintro ⟨rfl, rfl, hxs⟩
      exact ⟨rfl, rfl, hxs⟩
    · rintro ⟨rfl, rfl, hxs⟩
      exact ⟨rfl, rfl, hxs⟩

namespace Recorder
variable {σ α : Type}

/-- A bounded list takes in one more item without a change just if it is full of that item. -/
theorem rtake_append_singleton_eq_iff {n : Nat} {xs : List α} {x : α} (hn : 0 < n)
    (hxs : xs.length ≤ n) : (xs ++ [x]).rtake n = xs ↔ xs = List.replicate n x := by
  rcases Nat.lt_or_eq_of_le hxs with hroom | rfl
  · rw [rtake_of_length_le (List.length_append ▸ hroom)]
    constructor
    · intro h
      simpa using congrArg List.length h
    · intro h
      have hfull : xs.length = n := by simpa using congrArg List.length h
      omega
  · cases xs with
    | nil => cases hn
    | cons y xs =>
      have hdrop : (y :: xs ++ [x]).rtake (y :: xs).length = xs ++ [x] := by simp [List.rtake]
      rw [hdrop, append_singleton_eq_cons_iff, List.length_cons, List.replicate_succ,
        List.cons.injEq]

/-- The loads that were collected for no report. -/
def Entry.stray (entry : Entry) : Option (List Binary64) :=
  if entry.queued = [] then entry.loads else none

/-- The history holds the loads of the newest reports of the polls that came to something. -/
def Paired (size : Nat) (entries : List Entry) (r : Recorder σ) : Prop :=
  r.history = ((entries.flatMap Entry.queued).map LoadReport.perProcessor).rtake size

/-- The history is full of the loads that an operation collects for no report, if it does. -/
def Absorbs (size : Nat) (r : Recorder σ) (entry : Entry) : Prop :=
  ∀ xs, entry.stray = some xs → r.history = List.replicate size xs

variable (m : Machine σ)

/-- The step lemma: only loads without a report bring the history out of step with the queue. -/
theorem paired_step_iff {size : Nat} {entries : List Entry} {r : Recorder σ} (hsize : 0 < size)
    (hcapacity : r.capacity = size) (h : Paired size entries r) (operation : Operation) :
    Paired size (entries ++ [entryOf m operation r]) ((perform m operation).run r).state ↔
      Absorbs size r (entryOf m operation r) := by
  have hlength : r.history.length ≤ size := by
    rw [h, length_rtake]
    exact Nat.min_le_left _ _
  have hhistory := (books_entryOf m operation r).history_eq
  rw [hcapacity] at hhistory
  simp only [Paired, Absorbs, Entry.stray, List.flatMap_append, List.flatMap_singleton,
    List.map_append]
  rcases entry_cases m operation r with hnone | ⟨report, hqueued, hloads⟩
  · -- the reports stay the same, so the history has to
    rw [if_pos hnone, hnone, List.map_nil, List.append_nil, hhistory, ← h]
    cases (entryOf m operation r).loads with
    | none => simp
    | some xs => simpa using rtake_append_singleton_eq_iff hsize hlength
  · rw [hhistory, hqueued, hloads, Option.elim_some, h, rtake_rtake_append]
    simp

theorem journal_append_singleton (operations : List Operation) (operation : Operation)
    (r : Recorder σ) :
    let so := journal m operations r
    journal m (operations ++ [operation]) r =
      (so.1 ++ [entryOf m operation so.2], ((perform m operation).run so.2).state) :=
  Action.runAll_append (perform m) (entryOf m) operations [operation] r

theorem paired_iff_absorbs {r : Recorder σ} (hsize : 0 < r.capacity) (hempty : r.history = [])
    (operations : List Operation) :
    (∀ front, front <+: operations →
      Paired r.capacity (journal m front r).1 (journal m front r).2) ↔
    ∀ front operation, front ++ [operation] <+: operations →
      Absorbs r.capacity (journal m front r).2 (entryOf m operation (journal m front r).2) := by
  have hfits : r.history.length ≤ r.capacity := hempty ▸ Nat.zero_le _
  have hstart : Paired r.capacity (journal m [] r).1 (journal m [] r).2 := by
    simp [Paired, journal, Action.runAll, hempty]
  have hstep (front : List Operation) (operation : Operation)
      (h : Paired r.capacity (journal m front r).1 (journal m front r).2) :=
    paired_step_iff m hsize (balanced_journal m hfits front).capacity_eq h operation
  constructor
  · intro h front operation hfront
    have hbefore := h front ((List.prefix_append front [operation]).trans hfront)
    have hafter := h (front ++ [operation]) hfront
    rw [journal_append_singleton] at hafter
    exact (hstep front operation hbefore).mp hafter
  · intro h front
    induction front using List.reverseRecOn with
    | nil => exact fun _ => hstart
    | append_singleton front operation ih =>
      intro hfront
      have hbefore := ih ((List.prefix_append front [operation]).trans hfront)
      rw [journal_append_singleton]
      exact (hstep front operation hbefore).mpr (h front operation hfront)

/-- What a poll of `t` that fails leaves behind in `u`. -/
structure Fails (size : Nat) (t u : Recorder σ) : Prop where
  queue_eq : u.queue = t.queue
  history_eq : u.history = (measured m t).elim t.history fun xs => (t.history ++ [xs]).rtake size
  kept_iff : u.history = t.history ↔
    ∀ xs, measured m t = some xs → t.history = List.replicate size xs

theorem fails_of_poll {t : Recorder σ} (hsize : 0 < t.capacity)
    (hfits : t.history.length ≤ t.capacity) (hfailed : ((poll m).run t).result = .ok false) :
    Fails m t.capacity t ((poll m).run t).state := by
  obtain ⟨hresult, hqueue, hremembers⟩ := poll_remembers m t
  have hnone : collected m t = none := by
    rw [hresult, Except.ok.injEq] at hfailed
    exact Option.isNone_iff_eq_none.mp (Option.isSome_eq_false_iff.mp hfailed)
  rw [hnone] at hqueue
  refine ⟨hqueue.trans (List.append_nil _), hremembers.history_eq, ?_⟩
  rw [hremembers.history_eq]
  cases measured m t with
  | none => simp
  | some xs => simpa using rtake_append_singleton_eq_iff hsize hfits

/-- A poll that fails, in any state that a new recorder gets to, leaves the queue as it was. It adds
to the history the loads of the processors, if it found them, and so it leaves the history as it was
just if it found none or the history is full of the very same loads. Over a run, the history is at
all times that of the newest queued reports just if at each collection without a report this is the
case. -/
theorem failed_poll_kept_iff {meter : Meter σ} {pollRate : Binary64} {historySize : Int}
    {r : Recorder σ}
    (hnew : Recorder.new meter pollRate historySize = .ok r) (operations : List Operation) :
    let size := (max 1 historySize).toNat
    let t := (journal m operations r).2
    (((poll m).run t).result = .ok false → Fails m size t ((poll m).run t).state) ∧
      ((∀ front, front <+: operations → Paired size (journal m front r).1 (journal m front r).2) ↔
        ∀ front operation, front ++ [operation] <+: operations →
          Absorbs size (journal m front r).2 (entryOf m operation (journal m front r).2)) := by
  intro size t
  obtain ⟨-, -, hcapacity, hempty, -⟩ := fields_of_new hnew
  have hsize : 0 < r.capacity := by omega
  have hfits : r.history.length ≤ r.capacity := hempty ▸ Nat.zero_le _
  have hbalanced := balanced_journal m hfits operations
  have hlength : t.history.length ≤ r.capacity := by
    rw [hbalanced.history_eq, length_rtake]
    exact Nat.min_le_left _ _
  have hruns := paired_iff_absorbs m hsize hempty operations
  rw [hcapacity] at hruns
  refine ⟨fun hfailed => ?_, hruns⟩
  rw [← hbalanced.capacity_eq] at hsize hlength
  have hpoll := fails_of_poll m hsize hlength hfailed
  rwa [hbalanced.capacity_eq, hcapacity] at hpoll

def twofold : Recorder Nat :=
  { meter := Meter.countingMeter, pollRate := admitPollRate 1, capacity := 2 }

theorem new_twofold : Recorder.new Meter.countingMeter 1 2 = .ok twofold := by
  unfold Recorder.new
  exact if_pos (by decide +kernel)

theorem failed_poll_kept_iff_twofold :
    Recorder.new Meter.countingMeter 1 2 = .ok twofold ∧ ∃ t,
      t = (journal faltering [.poll] twofold).2 ∧ ((poll faltering).run t).result = .ok false ∧
        ((poll faltering).run t).state.queue = t.queue ∧
        ((poll faltering).run t).state.history ≠ t.history := by
  have hfailed :
      ((poll faltering).run (journal faltering [.poll] twofold).2).result = .ok false := by
    decide +kernel
  have hmeasured : (measured faltering (journal faltering [.poll] twofold).2).isSome = true := by
    decide +kernel
  have hroom : (journal faltering [.poll] twofold).2.history.length = 1 := by decide +kernel
  obtain ⟨hpoll, -⟩ := failed_poll_kept_iff faltering new_twofold [.poll]
  have hleft := hpoll hfailed
  generalize (journal faltering [.poll] twofold).2 = t at hfailed hmeasured hroom hleft
  refine ⟨new_twofold, t, rfl, hfailed, hleft.queue_eq, fun hkept => ?_⟩
  obtain ⟨xs, hxs⟩ := Option.isSome_iff_exists.mp hmeasured
  have hfull := congrArg List.length (hleft.kept_iff.mp hkept xs hxs)
  rw [hroom, List.length_replicate] at hfull
  cases hfull

/-- An averaging machine that offers no load averages after all. -/
def unaveraged : Machine Nat :=
  { averaging with averages n := ⟨.error (.machine .unsupported []), n, []⟩ }

/-- The first poll fails, and its loads are in the history, though there is no report of them. -/
theorem failed_poll_remembered :
    let entries := (journal unaveraged [.poll] twofold).1
    Recorder.new Meter.countingMeter 1 2 = .ok twofold ∧
      ((poll unaveraged).run twofold).result = .ok false ∧ twofold.history = [] ∧
      ((poll unaveraged).run twofold).state.history = [[.quotient 1 2, 1]] ∧
      entries.flatMap Entry.queued = [] ∧
      ¬ Paired 2 entries (journal unaveraged [.poll] twofold).2 := by
  refine ⟨new_twofold, ?_, rfl, ?_, ?_, ?_⟩
  · decide +kernel
  · decide +kernel
  · decide +kernel
  · unfold Paired
    decide +kernel

end Recorder

end ProcessorLoad
