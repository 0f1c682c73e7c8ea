import ProcessorLoad.Proofs.Meter.Shape
import ProcessorLoad.Proofs.Recorder.Bookkeeping

/-!
# What a recorder keeps and hands out

All lists of loads in the history, in the queue and in the reports have a load for each logical
processor, from the pair of tables that the meter held when the operation that worked them out was
over.
-/

set_option autoImplicit false

namespace ProcessorLoad

namespace Recorder
variable {σ α : Type} (m : Machine σ)

theorem advances_onMeter {R : Meter σ → Meter σ → Prop} {a : Action (Meter σ) α}
    (ha : ∀ s, R s (a.run s).state) :
    Action.Advances (fun r t : Recorder σ => R r.meter t.meter) (onMeter a) := fun r => ha r.meter

/-- The rest of a collection leaves the pair alone that the loads are from. -/
theorem stays_complete (xs : List Binary64) :
    Action.Advances (fun r t : Recorder σ => r.meter.Stays t.meter) (complete m xs) := by
  refine .bind .trans (advances_onMeter (Meter.stays_averages m 3)) fun averages => ?_
  refine .bind .trans (advances_onMeter (Meter.stays_instant m)) fun instant => ?_
  refine .bind .trans (advances_onMeter (Meter.stays_sampled m)) fun sampled => ?_
  refine .bind .trans (fun r => .refl r.meter) fun items => ?_
  exact fun r => .refl r.meter

theorem follows_collect :
    Action.Advances (fun r t : Recorder σ => r.meter.Follows t.meter) (collect m) := by
  rw [collect_eq]
  refine .bind .trans (advances_onMeter (Meter.follows_perProcessor m)) fun xs => ?_
  refine .bind .trans (fun r => .refl r.meter) fun _ => ?_
  exact fun r => (stays_complete m xs r).toFollows

theorem measures_collect {r : Recorder σ} (hr : r.meter.Shaped) {xs : List Binary64}
    (h : measured m r = some xs) :
    ((collect m).run r).state.meter.watch.processors.Measures r.meter.logicalProcessors xs := by
  have hfirst : (onMeter (Meter.perProcessor m)).Ends r fun x t => x.toOption = measured m r ∧
      ∀ ys, x = .ok ys → t.meter.watch.processors.Measures r.meter.logicalProcessors ys :=
    ⟨rfl, fun ys => hr.measures m⟩
  have hcollect : (collect m).Ends r fun _ t =>
      t.meter.watch.processors.Measures r.meter.logicalProcessors xs := by
    rw [collect_eq]
    apply hfirst.bind
    · rintro ys t ⟨hys, ht⟩
      obtain rfl : ys = xs := Option.some.inj (hys.trans h)
      apply ends_remember_bind.mpr
      rw [Action.Ends, (stays_complete m ys _).processors]
      exact ht ys rfl
    · rintro fault t ⟨hnone, -⟩
      cases hnone.trans h
  exact hcollect

theorem meter_poll (r : Recorder σ) :
    ((poll m).run r).state.meter = ((collect m).run r).state.meter := by
  have hcollect :
      (collect m).attempt.Ends r fun _ t => t.meter = ((collect m).run r).state.meter := rfl
  have hpoll : (poll m).Ends r fun _ t => t.meter = ((collect m).run r).state.meter := by
    apply hcollect.bind
    · intro x t ht
      cases x with
      | ok report => exact ht
      | error fault => exact ht
    · exact fun fault t ht => ht
  exact hpoll

theorem start_of_running {r : Recorder σ} (h : r.running = true) : ((start m).run r).state = r := by
  have hstart : (start m).Ends r fun _ t => t = r := by
    apply Action.ends_get_bind.mpr
    rw [h]
    rfl
  exact hstart

theorem start_of_stopped {r : Recorder σ} (h : r.running = false) :
    ((start m).run r).state = ((poll m).run { r with running := true }).state := by
  have hstart :
      (start m).Ends r fun _ t => t = ((poll m).run { r with running := true }).state := by
    apply Action.ends_get_bind.mpr
    rw [h]
    exact Action.state_map (poll m) (fun _ => true) { r with running := true }
  exact hstart

/-- Whatever else an operation does that collects, it leaves the meter to its collection. -/
theorem meter_collecting {operation : Operation} {r s : Recorder σ}
    (h : collecting? r operation = some s) : s.meter = r.meter ∧
      ((perform m operation).run r).state.meter = ((collect m).run s).state.meter := by
  cases operation with
  | collect =>
    cases h
    exact ⟨rfl, by rw [perform, Action.state_map]⟩
  | poll =>
    cases h
    exact ⟨rfl, by rw [perform, Action.state_map, meter_poll]⟩
  | start =>
    unfold collecting? at h
    cases hrunning : r.running with
    | true =>
      rw [hrunning] at h
      cases h
    | false =>
      rw [hrunning] at h
      cases h
      exact ⟨rfl, by rw [perform, Action.state_map, start_of_stopped m hrunning, meter_poll]⟩
  | _ => cases h

theorem follows_perform (operation : Operation) :
    Action.Advances (fun r t : Recorder σ => r.meter.Follows t.meter) (perform m operation) := by
  intro r
  cases hcollecting : collecting? r operation with
  | some s =>
    obtain ⟨hs, hmeter⟩ := meter_collecting m hcollecting
    rw [hmeter, ← hs]
    exact follows_collect m s
  | none =>
    cases operation with
    | start =>
      cases hrunning : r.running with
      | true =>
        rw [perform, Action.state_map, start_of_running m hrunning]
        exact .refl r.meter
      | false => simp [collecting?, hrunning] at hcollecting
    | ask query =>
      rw [perform, Action.state_map]
      exact Meter.follows_ask m query r.meter
    | setPollRate rate =>
      have hkept : (setPollRate rate r).meter = r.meter := by simp only [setPollRate]
      change r.meter.Follows (setPollRate rate r).meter
      rw [hkept]
      exact .refl r.meter
    | collect => cases hcollecting
    | poll => cases hcollecting
    | drain => exact .refl r.meter
    | stop => exact .refl r.meter

/-- All loads that an operation works out are those of the pair that is held when it is over: those
that go into the history, those of the report that is queued and those of the answer. -/
structure Entry.Measured (entry : Entry) (processors : Int) : Prop where
  remembered : ∀ xs, entry.loads = some xs → entry.pair.Measures processors xs
  queued : ∀ report ∈ entry.queued, entry.pair.Measures processors report.perProcessor
  answered : ∀ xs ∈ entry.answered, entry.pair.Measures processors xs

theorem cases_of_answered {entry : Entry} {xs : List Binary64} (h : xs ∈ entry.answered) :
    (∃ report, entry.operation = .collect ∧ entry.result = .ok (.collected report) ∧
      xs = report.perProcessor) ∨
    entry.operation = .ask .perProcessor ∧ entry.result = .ok (.replied (.loads xs)) := by
  unfold Entry.answered at h
  split at h
  next report hoperation hresult =>
    exact .inl ⟨report, hoperation, hresult, List.mem_singleton.mp h⟩
  next ys hoperation hresult =>
    rw [List.mem_singleton.mp h]
    exact .inr ⟨hoperation, hresult⟩
  next => cases h

theorem measured_entryOf {r : Recorder σ} (hr : r.meter.Shaped) (operation : Operation) :
    (entryOf m operation r).Measured r.meter.logicalProcessors := by
  have hremembered (xs : List Binary64) (hxs : (entryOf m operation r).loads = some xs) :
      (entryOf m operation r).pair.Measures r.meter.logicalProcessors xs := by
    obtain ⟨s, hs, hfound⟩ := Option.bind_eq_some_iff.mp hxs
    obtain ⟨hsame, hmeter⟩ := meter_collecting m hs
    rw [← hsame] at hr ⊢
    rw [entryOf, hmeter]
    exact measures_collect m hr hfound
  refine ⟨hremembered, ?_, ?_⟩
  · intro report hreport
    rcases entry_cases m operation r with hnone | ⟨other, hqueued, hloads⟩
    · rw [hnone] at hreport
      cases hreport
    · rw [hqueued] at hreport
      rw [List.mem_singleton.mp hreport]
      exact hremembered _ hloads
  · intro xs hxs
    rcases cases_of_answered hxs with ⟨report, hoperation, hresult, rfl⟩ | ⟨hoperation, hresult⟩
    · obtain rfl : operation = .collect := hoperation
      apply hremembered
      apply loads_of_report
      change ((perform m .collect).run r).result = _ at hresult
      rw [perform, Action.run_map] at hresult
      have hreport : ((collect m).run r).result = .ok report :=
        eq_of_map_eq (f := Answer.collected) (fun _ _ => Answer.collected.inj) hresult
      exact congrArg Except.toOption hreport
    · obtain rfl : operation = .ask .perProcessor := hoperation
      change ((perform m (.ask .perProcessor)).run r).result = _ at hresult
      rw [perform, Action.run_map] at hresult
      have hreply : ((Meter.ask m .perProcessor).run r.meter).result = .ok (.loads xs) :=
        eq_of_map_eq (f := Answer.replied) (fun _ _ => Answer.replied.inj) hresult
      rw [entryOf, perform, Action.state_map]
      exact hr.measures_ask m hreply

theorem measured_journal {r : Recorder σ} (hr : r.meter.Shaped) (operations : List Operation) :
    ∀ entry ∈ (journal m operations r).1, entry.Measured r.meter.logicalProcessors := by
  have hrun : (∀ entry ∈ (journal m operations r).1, entry.Measured r.meter.logicalProcessors) ∧
      r.meter.Follows (journal m operations r).2.meter := by
    refine Action.runAll_induction (perform m) (entryOf m)
      (P := fun entries t => (∀ entry ∈ entries, entry.Measured r.meter.logicalProcessors) ∧
        r.meter.Follows t.meter) ⟨List.forall_mem_nil _, .refl r.meter⟩ ?_ operations
    rintro entries t operation ⟨hentries, ht⟩
    have hentry := measured_entryOf m (ht.shaped hr) operation
    rw [ht.count] at hentry
    refine ⟨?_, ht.trans (follows_perform m operation t)⟩
    exact List.forall_mem_append.mpr ⟨hentries, List.forall_mem_singleton.mpr hentry⟩
  exact hrun.1

/-- In every state that a watch gets into, its records have an entry for each kind of time and its
tables a record for each processor, so no load looks past the end of one. All lists of loads that a
meter answers with have a load for each logical processor, from the two records at its place. So
have all that a recorder works out, each from the pair that is held when its operation is over; and
the history and the queue hold nothing else. -/
theorem shapes_kept :
    (∀ (machine : σ) (processors : Int) (operations : List TickWatch.Operation),
      let s := (TickWatch.run m operations (.new machine processors)).2
      s.system.All Ticks.Shaped ∧
        s.processors.All (TickTable.Full (max 1 processors).toNat Ticks.Shaped) ∧
        (∀ fault, s.system.load = .error fault → fault = .quotientOverflow) ∧
        ∀ fault, s.processors.loads = .error fault → fault = .quotientOverflow) ∧
    ∀ (settings : Settings) (identity : Option Identification) (machine : σ) (s : Meter σ),
      ((Meter.setUp m settings identity).run machine).result = .ok s →
      ∀ queries : List Meter.Query,
        let t := (Meter.run m queries s).2
        t.logicalProcessors = s.logicalProcessors ∧
          (∀ xs, ((Meter.perProcessor m).run t).result = .ok xs →
            ((Meter.perProcessor m).run t).state.watch.processors.Measures s.logicalProcessors xs) ∧
          ∀ (pollRate : Binary64) (historySize : Int) (r : Recorder σ),
            Recorder.new t pollRate historySize = .ok r → ∀ operations : List Operation,
              let entries := (journal m operations r).1
              let u := (journal m operations r).2
              (∀ entry ∈ entries, entry.Measured s.logicalProcessors) ∧
                u.history = (entries.filterMap Entry.loads).rtake (max 1 historySize).toNat ∧
                entries.flatMap Entry.drained ++ u.queue = entries.flatMap Entry.queued := by
  refine ⟨?_, ?_⟩
  · intro machine processors operations s
    obtain ⟨hrows, hsystem, hprocessors⟩ :=
      TickWatch.shaped_run m operations (TickWatch.shaped_new machine processors)
    rw [show s.pairs.rows = (max 1 processors).toNat from hrows] at hprocessors
    refine ⟨hsystem, hprocessors, ?_, ?_⟩
    · exact fun fault h => hsystem.1.load_fault hsystem.2 h
    · exact fun fault h => hprocessors.1.loads_fault hprocessors.2 h
  · intro settings identity machine s hsetUp queries t
    have hs := Meter.shaped_setUp m settings identity machine hsetUp
    obtain ⟨ht, hcount⟩ := Meter.shaped_run m queries hs
    refine ⟨hcount, ?_, ?_⟩
    · intro xs hxs
      rw [← hcount]
      exact ht.measures m hxs
    · intro pollRate historySize r hnew operations entries u
      obtain ⟨hmeter, -, hcapacity, hhistory, hqueue⟩ := fields_of_new hnew
      have hfits : r.history.length ≤ r.capacity := hhistory ▸ Nat.zero_le _
      have hbalanced := balanced_journal m hfits operations
      have hmeasured := measured_journal m (r := r) (hmeter ▸ ht) operations
      rw [hmeter, hcount] at hmeasured
      refine ⟨hmeasured, ?_, ?_⟩
      · rw [hbalanced.history_eq, hhistory, hcapacity, List.nil_append]
      · rw [hbalanced.queue_eq, hqueue, List.nil_append]

theorem shapes_kept_averaging :
    let operations : List Operation := [.collect, .poll, .drain, .ask .perProcessor]
    let meter := Meter.countingMeter
    let r : Recorder Nat := { meter, pollRate := admitPollRate 1, capacity := 2 }
    let entries := (journal averaging operations r).1
    let loads : List Binary64 := [.quotient 1 2, 1]
    ((Meter.setUp averaging { useOwnLoad := false } none).run 0).result = .ok meter ∧
      Recorder.new meter 1 2 = .ok r ∧
      entries.map (fun entry => (entry.loads.toList, entry.queued.map LoadReport.perProcessor))
        = [([loads], []), ([loads], [loads]), ([], []), ([], [])] ∧
      entries.map Entry.answered = [[loads], [], [], [loads]] ∧
      (∀ entry ∈ entries, entry.Measured 2) ∧
      (journal averaging operations r).2.history = [loads, loads] := by
  intro operations meter r entries loads
  have hsetUp :
      ((Meter.setUp averaging { useOwnLoad := false } none).run 0).result = .ok meter := by
    decide +kernel
  have hnew : Recorder.new meter 1 2 = .ok r := by
    unfold Recorder.new
    exact if_pos (by decide +kernel)
  obtain ⟨-, hmeter⟩ := shapes_kept averaging
  obtain ⟨-, -, hrecorder⟩ := hmeter { useOwnLoad := false } none 0 meter hsetUp []
  obtain ⟨hmeasured, -, -⟩ := hrecorder 1 2 r hnew operations
  refine ⟨hsetUp, hnew, ?_, ?_, hmeasured, ?_⟩
  · decide +kernel
  · decide +kernel
  · decide +kernel

end Recorder

end ProcessorLoad
