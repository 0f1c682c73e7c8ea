import ProcessorLoad.Proofs.Ticks.Growth
import ProcessorLoad.Proofs.Watch.Fetches

/-!
# Pairs of growing readings

Where every reading grows out of all the readings before it, the two readings of a pair grow out of
one another, because they were fetched in that order. Zero readings that are passed over and rows
that come and go do not matter to that: what counts is the whole history of fetched readings.
-/

set_option autoImplicit false

namespace ProcessorLoad

/-- Both readings are from the history, and the newer one grows out of the older one. -/
structure TickPair.Drawn {α : Type} (grows : α → α → Prop) (history : List α) (p : TickPair α) :
    Prop where
  previous : p.previous ∈ history
  current : p.current ∈ history
  grows : grows p.previous p.current

theorem TickPair.Drawn.mono {α : Type} {grows : α → α → Prop} {history wider : List α}
    {p : TickPair α} (h : p.Drawn grows history) (hsub : history ⊆ wider) : p.Drawn grows wider :=
  ⟨hsub h.previous, hsub h.current, h.grows⟩

namespace Series
variable {α : Type} {S : Series α} {good : α → Prop} {grows : α → α → Prop}
variable {es fs : List Event} {p q : TickPair α}

/-- All readings of the kind are there and good, and each grows out of those before it. -/
structure Grows (S : Series α) (good : α → Prop) (grows : α → α → Prop) (es : List Event) :
    Prop where
  reads : ∀ e ∈ es, ∀ r, S.fetched? e = some r → Succeeds r good
  pairwise : (S.fetches es).Pairwise grows

theorem Grows.left (h : S.Grows good grows (es ++ fs)) : S.Grows good grows es := by
  refine ⟨fun e he => h.reads e (List.mem_append_left fs he), ?_⟩
  have hpair := h.pairwise
  rw [fetches_append] at hpair
  exact (List.pairwise_append.mp hpair).1

theorem Grows.mem_fetches (h : S.Grows good grows es) {a : α} (ha : a ∈ S.fetches es) : good a := by
  obtain ⟨e, he, hea⟩ := List.mem_filterMap.mp ha
  obtain ⟨r, hr, hra⟩ := Option.bind_eq_some_iff.mp hea
  obtain ⟨b, rfl, hb⟩ := h.reads e he r hr
  cases hra
  exact hb

theorem Grows.not_failed (h : S.Grows good grows es) {e : Event} {fault : Fault} (he : e ∈ es)
    (hfault : S.fetched? e = some (.error fault)) : False := by
  obtain ⟨a, hr, -⟩ := h.reads e he _ hfault
  cases hr

theorem drawn_append (h : p.Drawn grows (S.fetches es)) (fs : List Event) :
    p.Drawn grows (S.fetches (es ++ fs)) := by
  rw [fetches_append]
  exact h.mono (List.subset_append_left _ _)

theorem drawn_prepend (h : p.Drawn grows (S.fetches fs)) (es : List Event) :
    p.Drawn grows (S.fetches (es ++ fs)) := by
  rw [fetches_append]
  exact h.mono (List.subset_append_right _ _)

/-- The step of a refresh: it does not fail, and the reading that it takes up grows out of the one
that was current. -/
theorem Accepts.drawn {r : Except Fault Bool} (hq : S.Accepts p fs r q)
    (hg : S.Grows good grows (es ++ fs)) (h : p.Drawn grows (S.fetches es)) :
    q.Drawn grows (S.fetches (es ++ fs)) ∧ ∃ accepted, r = .ok accepted := by
  cases hq with
  | failed he => exact (hg.not_failed (List.mem_append_right es List.mem_cons_self) he).elim
  | skipped he hz => exact ⟨drawn_append h _, _, rfl⟩
  | accepted he hz =>
    have hpair := hg.pairwise
    rw [fetches_append, fetches_ok he] at hpair
    have hgrows := (List.pairwise_append.mp hpair).2.2 _ h.current _ List.mem_cons_self
    refine ⟨?_, _, rfl⟩
    rw [fetches_append, fetches_ok he]
    refine ⟨List.mem_append_left _ h.current, ?_, hgrows⟩
    exact List.mem_append_right _ List.mem_cons_self

theorem Refreshes.drawn {interval : Binary64} {r : Except Fault Bool}
    (hq : S.Refreshes interval p fs r q) (hg : S.Grows good grows (es ++ fs))
    (h : p.Drawn grows (S.fetches es)) :
    q.Drawn grows (S.fetches (es ++ fs)) ∧ ∃ accepted, r = .ok accepted := by
  cases hq with
  | early _ => exact ⟨drawn_append h _, _, rfl⟩
  | @due now fs _ _ _ hq =>
    rw [List.append_cons] at hg ⊢
    exact hq.drawn hg (drawn_append h _)

theorem Installs.drawn (hq : S.Installs p fs (.ok ()) q) (hrefl : ∀ a, grows a a) :
    q.Drawn grows (S.fetches fs) := by
  cases hq with
  | unready he _ =>
    rw [fetches_ok he]
    exact ⟨List.mem_cons_self, List.mem_cons_self, hrefl _⟩
  | ready he _ =>
    rw [fetches_ok he]
    exact ⟨List.mem_cons_self, List.mem_cons_self, hrefl _⟩

end Series

/-- A reading of ticks did not fail and holds nothing but counts. -/
def Event.isCounting : Event → Bool
  | totalTicks answer => answer.toOption.any (·.all Counter.isCount)
  | tickTable answer => answer.toOption.any (·.all (·.all Counter.isCount))
  | _ => true

/-- Ticks as they come from counters that only grow: no reading of ticks fails, all of them are
counts, and no counter of a fitted reading is below its value in an earlier one, unless the whole
record holds no data. -/
structure Growing (rows : Nat) (es : List Event) : Prop where
  counting : ∀ e ∈ es, e.isCounting = true
  totals_grow : (Series.totals.fetches es).Pairwise Ticks.GrowsTo
  tables_grow : ((Series.tables rows).fetches es).Pairwise TickTable.GrowsTo

namespace Growing
variable {rows : Nat} {es fs : List Event}

instance : Decidable (Growing rows es) :=
  decidable_of_iff ((∀ e ∈ es, e.isCounting = true) ∧
    (Series.totals.fetches es).Pairwise Ticks.GrowsTo ∧
    ((Series.tables rows).fetches es).Pairwise TickTable.GrowsTo)
    ⟨fun h => ⟨h.1, h.2.1, h.2.2⟩, fun h => ⟨h.counting, h.totals_grow, h.tables_grow⟩⟩

theorem totals (h : Growing rows es) : Series.totals.Grows Ticks.Counts Ticks.GrowsTo es := by
  refine ⟨?_, h.totals_grow⟩
  intro e he r hr
  have hcounting := h.counting e he
  cases e with
  | totalTicks answer =>
    cases hr
    cases answer with
    | error fault => cases hcounting
    | ok counters => exact TickWatch.counts_ticksOf hcounting
  | _ => cases hr

theorem tables (h : Growing rows es) :
    (Series.tables rows).Grows (TickTable.Full rows Ticks.Counts) TickTable.GrowsTo es := by
  refine ⟨?_, h.tables_grow⟩
  intro e he r hr
  have hcounting := h.counting e he
  cases e with
  | tickTable answer =>
    cases hr
    cases answer with
    | error fault => cases hcounting
    | ok table => exact TickWatch.counts_tableOf hcounting
  | _ => cases hr

theorem left (h : Growing rows (es ++ fs)) : Growing rows es where
  counting e he := h.counting e (List.mem_append_left fs he)
  totals_grow := h.totals.left.pairwise
  tables_grow := h.tables.left.pairwise

end Growing

namespace TickPairs
variable {p q : TickPairs} {es fs : List Event}

structure Drawn (p : TickPairs) (es : List Event) : Prop where
  system : p.system.Drawn Ticks.GrowsTo (Series.totals.fetches es)
  processors : p.processors.Drawn TickTable.GrowsTo ((Series.tables p.rows).fetches es)

theorem Drawn.append (h : p.Drawn es) (fs : List Event) : p.Drawn (es ++ fs) :=
  ⟨Series.drawn_append h.system fs, Series.drawn_append h.processors fs⟩

theorem Drawn.prepend (h : p.Drawn fs) (es : List Event) : p.Drawn (es ++ fs) :=
  ⟨Series.drawn_prepend h.system es, Series.drawn_prepend h.processors es⟩

theorem Drawn.load_inUnit (h : p.Drawn es) (hg : Growing p.rows es) :
    Succeeds p.system.load Binary64.InUnit :=
  h.system.grows.load_inUnit (hg.totals.mem_fetches h.system.previous)
    (hg.totals.mem_fetches h.system.current)

theorem Drawn.loads_inUnit (h : p.Drawn es) (hg : Growing p.rows es) :
    Succeeds p.processors.loads fun xs => xs.length = p.rows ∧ ∀ x ∈ xs, x.InUnit :=
  h.processors.grows.loads_inUnit (hg.tables.mem_fetches h.processors.previous)
    (hg.tables.mem_fetches h.processors.current)

theorem Drawn.refreshes_system {interval : Binary64} {r : Except Fault Bool}
    (h : p.Drawn es) (hrows : q.rows = p.rows) (hg : Growing p.rows (es ++ fs))
    (hq : Series.totals.Refreshes interval p.system fs r q.system)
    (hother : q.processors = p.processors) :
    q.Drawn (es ++ fs) ∧ ∃ accepted, r = .ok accepted := by
  obtain ⟨hsystem, hr⟩ := hq.drawn hg.totals h.system
  refine ⟨⟨hsystem, ?_⟩, hr⟩
  rw [hother, hrows]
  exact Series.drawn_append h.processors fs

theorem Drawn.refreshes_processors {interval : Binary64} {r : Except Fault Bool}
    (h : p.Drawn es) (hrows : q.rows = p.rows) (hg : Growing p.rows (es ++ fs))
    (hq : (Series.tables p.rows).Refreshes interval p.processors fs r q.processors)
    (hother : q.system = p.system) :
    q.Drawn (es ++ fs) ∧ ∃ accepted, r = .ok accepted := by
  obtain ⟨hprocessors, hr⟩ := hq.drawn hg.tables h.processors
  refine ⟨⟨?_, ?_⟩, hr⟩
  · rw [hother]
    exact Series.drawn_append h.system fs
  · rw [hrows]
    exact hprocessors

theorem Primes.drawn (h : p.Primes q fs (.ok ())) (hrows : q.rows = p.rows) : q.Drawn fs := by
  cases h with
  | @both fs gs _ ht hs =>
    refine ⟨?_, ?_⟩
    · exact Series.drawn_prepend (hs.drawn Ticks.GrowsTo.refl) fs
    · rw [hrows]
      exact Series.drawn_append (ht.drawn TickTable.GrowsTo.refl) gs

end TickPairs

end ProcessorLoad
