import ProcessorLoad.Proofs.Meter.Footprint
import ProcessorLoad.Proofs.Meter.Refreshing
import ProcessorLoad.Proofs.Watch.Loads

/-!
# The shape of what a meter holds

A meter has as many records in each of its tables as it has logical processors, from the set-up on
and after every query. So an answer about each processor has a load for each.
-/

set_option autoImplicit false

namespace ProcessorLoad

namespace Held
variable {p q : Held} {query : Meter.Query} {r : Except Fault Meter.Reply} {es : List Event}

theorem Answers.shaped (hq : p.Answers query r es q) (h : p.pairs.Shaped) : q.pairs.Shaped := by
  induction hq with
  | sampled hr => exact ⟨hr.all Series.totals_gives h.system, h.processors⟩
  | perProcessor hr => exact ⟨h.system, hr.all (Series.tables_gives _) h.processors⟩
  | byTicks _ _ ih => exact ih
  | _ => exact h

theorem Answers.processors_eq (hq : p.Answers query r es q) (hquery : query ≠ .perProcessor) :
    q.pairs.processors = p.pairs.processors := by
  induction hq with
  | perProcessor _ => exact absurd rfl hquery
  | byTicks _ _ ih => exact ih nofun
  | _ => rfl

theorem Begins.shaped {settings : Settings} (h : Begins settings es p) : p.pairs.Shaped := by
  cases h with
  | @intro es fs own p q hown hrows hpairs hzero =>
    have hp : p.Shaped := by
      have hfull := TickTable.full_zero p.rows Ticks.shaped_zero
      rw [hzero]
      exact ⟨⟨Ticks.shaped_zero, Ticks.shaped_zero⟩, hfull, hfull⟩
    exact hp.step hrows (.prime hpairs)

end Held

namespace Meter
variable {σ α : Type} (m : Machine σ)

theorem keeps_ask (query : Query) : Action.Keeps logicalProcessors (ask m query) := by
  have hrefl {α : Type} (a : Action σ α) : Action.Keeps logicalProcessors (onMachine a) :=
    fun _ => rfl
  have hsampled : Action.Keeps logicalProcessors (sampled m) :=
    keeps_sampled (hrefl _) (hrefl _) fun _ _ => rfl
  cases query with
  | instant =>
    have hown (kept : OwnReading) : Action.Keeps logicalProcessors (ownLoad m kept) :=
      keeps_ownLoad (hrefl _) (hrefl _) (fun _ _ => rfl) kept
    exact (keeps_instant hsampled hown).bind fun x => .pure _
  | sampled => exact hsampled.bind fun x => .pure _
  | perProcessor =>
    refine Action.Keeps.bind ?_ fun xs => .pure _
    exact keeps_perProcessor (hrefl _) (hrefl _) fun _ _ => rfl
  | _ => exact keeps_quiet (hrefl _) (hrefl _) (fun _ _ => rfl) trivial

/-- A record for each logical processor, and an entry for each kind of time in each record. -/
structure Shaped (s : Meter σ) : Prop where
  pairs : s.watch.pairs.Shaped
  count : s.logicalProcessors = s.watch.rows

/-- What no query changes. -/
structure Follows (s t : Meter σ) : Prop where
  shaped : s.Shaped → t.Shaped
  count : t.logicalProcessors = s.logicalProcessors

/-- What only a query about each processor changes. -/
structure Stays (s t : Meter σ) : Prop extends Follows s t where
  processors : t.watch.processors = s.watch.processors

theorem Follows.refl (s : Meter σ) : s.Follows s := ⟨id, rfl⟩

theorem Stays.refl (s : Meter σ) : s.Stays s := ⟨.refl s, rfl⟩

theorem Follows.trans {s t u : Meter σ} (h : s.Follows t) (h' : t.Follows u) : s.Follows u where
  shaped hs := h'.shaped (h.shaped hs)
  count := h'.count.trans h.count

theorem Stays.trans {s t u : Meter σ} (h : s.Stays t) (h' : t.Stays u) : s.Stays u where
  toFollows := h.toFollows.trans h'.toFollows
  processors := h'.processors.trans h.processors

theorem follows_ask (query : Query) (s : Meter σ) : s.Follows ((ask m query).run s).state where
  shaped hs := by
    have hq := answers_stepOf m query s
    refine ⟨hq.shaped hs.pairs, ?_⟩
    have hrows : ((ask m query).run s).state.watch.rows = s.watch.rows := hq.rows_eq
    rw [keeps_ask m query s, hs.count, hrows]
  count := keeps_ask m query s

theorem stays_ask {query : Query} (hquery : query ≠ .perProcessor) (s : Meter σ) :
    s.Stays ((ask m query).run s).state where
  toFollows := follows_ask m query s
  processors := (answers_stepOf m query s).processors_eq hquery

theorem follows_perProcessor (s : Meter σ) : s.Follows ((perProcessor m).run s).state := by
  have h := follows_ask m .perProcessor s
  rwa [ask, Action.state_map] at h

theorem stays_of_ask {query : Query} {a : Action (Meter σ) α} {reply : α → Reply}
    (hquery : query ≠ .perProcessor) (ha : ask m query = a >>= fun x => pure (reply x))
    (s : Meter σ) : s.Stays (a.run s).state := by
  have h := stays_ask m hquery s
  rwa [ha, Action.state_map] at h

theorem stays_averages (n : Int) (s : Meter σ) : s.Stays ((averages m n).run s).state :=
  stays_of_ask m (nofun : Query.averages n ≠ .perProcessor) rfl s

theorem stays_instant (s : Meter σ) : s.Stays ((instant m).run s).state :=
  stays_of_ask m (nofun : Query.instant ≠ .perProcessor) rfl s

theorem stays_sampled (s : Meter σ) : s.Stays ((sampled m).run s).state :=
  stays_of_ask m (nofun : Query.sampled ≠ .perProcessor) rfl s

theorem shaped_run (queries : List Query) {s : Meter σ} (hs : s.Shaped) :
    (run m queries s).2.Shaped ∧ (run m queries s).2.logicalProcessors = s.logicalProcessors := by
  refine Action.runAll_induction (ask m) (stepOf m)
    (P := fun _ (t : Meter σ) => t.Shaped ∧ t.logicalProcessors = s.logicalProcessors)
    ⟨hs, rfl⟩ ?_ queries
  rintro steps t query ⟨ht, hcount⟩
  have h := follows_ask m query t
  exact ⟨h.shaped ht, h.count.trans hcount⟩

theorem perProcessor_loads {s : Meter σ} {xs : List Binary64}
    (h : ((perProcessor m).run s).result = .ok xs) :
    ((perProcessor m).run s).state.watch.processors.loads = .ok xs := by
  have hends :
      (perProcessor m).Ends s fun r t => r = .ok xs → t.watch.processors.loads = .ok xs := by
    apply Action.ends_get_bind.mpr
    apply Action.Ends.bind (Q := fun _ _ => True) trivial
    · intro accepted t _
      exact id
    · intro fault t _ h
      cases h
  exact hends h

/-- An answer about each processor has a load for each, from the pair that is held then. -/
theorem Shaped.measures {s : Meter σ} (hs : s.Shaped) {xs : List Binary64}
    (h : ((perProcessor m).run s).result = .ok xs) :
    ((perProcessor m).run s).state.watch.processors.Measures s.logicalProcessors xs := by
  have hfollows := follows_perProcessor m s
  have hshaped := hfollows.shaped hs
  rw [← hfollows.count, hshaped.count]
  exact TickPair.measures_of_loads hshaped.pairs.processors (perProcessor_loads m h)

theorem Shaped.measures_ask {s : Meter σ} (hs : s.Shaped) {xs : List Binary64}
    (h : ((ask m .perProcessor).run s).result = .ok (.loads xs)) :
    ((ask m .perProcessor).run s).state.watch.processors.Measures s.logicalProcessors xs := by
  have hinjective : Function.Injective Reply.loads := fun _ _ => Reply.loads.inj
  rw [ask, Action.run_map] at h ⊢
  have hresult : Reply.loads <$> ((perProcessor m).run s).result = Reply.loads <$> .ok xs := h
  exact hs.measures m (eq_of_map_eq hinjective hresult)

section SetUp
variable (settings : Settings) (identity : Option Identification) (machine : σ)

theorem rows_start {processors : Int} {watch : TickWatch σ}
    (h : ((TickWatch.start m processors).run machine).result = .ok watch) :
    watch.rows = (max 1 processors).toNat := by
  have hrows := (TickWatch.performs_stepOf m .prime (.new machine processors)).1
  rw [TickWatch.perform, Action.state_map, (TickWatch.prime_of_start h).2] at hrows
  exact hrows

theorem count_setUp {s : Meter σ} (h : ((setUp m settings identity).run machine).result = .ok s) :
    s.logicalProcessors = s.watch.rows := by
  obtain ⟨logical, -, h⟩ := Action.ok_of_run_bind h
  obtain ⟨physical, -, h⟩ := Action.ok_of_run_bind h
  obtain ⟨own, -, h⟩ := Action.ok_of_run_bind h
  obtain ⟨watch, hwatch, h⟩ := Action.ok_of_run_bind h
  have hrows := rows_start m _ hwatch
  cases h
  change max 1 logical = (watch.rows : Int)
  omega

theorem shaped_setUp {s : Meter σ} (h : ((setUp m settings identity).run machine).result = .ok s) :
    s.Shaped :=
  ⟨(begins_setUp m settings identity machine h).shaped,
    count_setUp m settings identity machine h⟩

end SetUp

end Meter

end ProcessorLoad
