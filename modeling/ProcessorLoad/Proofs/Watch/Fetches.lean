import ProcessorLoad.Proofs.Watch.Steps

/-!
# Readings among events

The readings of a kind that a list of events brings. What a watch does with one kind brings no
reading of another one.
-/

set_option autoImplicit false

namespace ProcessorLoad.Series
variable {α : Type}

/-- The fitted readings among some events. -/
def fetches (S : Series α) (es : List Event) : List α :=
  es.filterMap fun e => (S.fetched? e).bind Except.toOption

variable {S : Series α} {e : Event} {es : List Event} {a : α}

theorem fetches_ok (h : S.fetched? e = some (.ok a)) : S.fetches (e :: es) = a :: S.fetches es := by
  simp [fetches, h, Except.toOption]

theorem fetches_error {fault : Fault} (h : S.fetched? e = some (.error fault)) :
    S.fetches (e :: es) = S.fetches es := by
  simp [fetches, h, Except.toOption]

theorem fetches_none (h : S.fetched? e = none) : S.fetches (e :: es) = S.fetches es := by
  simp [fetches, h]

@[simp] theorem fetches_nil (S : Series α) : S.fetches [] = [] := rfl

theorem fetches_append (es fs : List Event) :
    S.fetches (es ++ fs) = S.fetches es ++ S.fetches fs := List.filterMap_append

@[simp] theorem fetches_clock (S : Series α) (now : Binary64) (es : List Event) :
    S.fetches (.clock now :: es) = S.fetches es := fetches_none (S.fetched?_clock now)

theorem ne_clock {r : Except Fault α} (h : S.fetched? e = some r) (now : Binary64) :
    e ≠ .clock now := by
  rintro rfl
  rw [S.fetched?_clock] at h
  cases h

def Silent (S : Series α) (es : List Event) : Prop := ∀ e ∈ es, S.fetched? e = none

theorem silent_nil (S : Series α) : S.Silent [] := List.forall_mem_nil _

theorem Silent.append {fs : List Event} (h : S.Silent es) (h' : S.Silent fs) :
    S.Silent (es ++ fs) := List.forall_mem_append.mpr ⟨h, h'⟩

theorem Silent.fetches (h : S.Silent es) : S.fetches es = [] := by
  simp only [Series.fetches, List.filterMap_eq_nil_iff]
  intro e he
  rw [h e he]
  rfl

/-- No event is of both kinds. -/
def Apart {β : Type} (S : Series α) (T : Series β) : Prop :=
  ∀ e r, S.fetched? e = some r → T.fetched? e = none

theorem totals_apart_tables (rows : Nat) : totals.Apart (tables rows) := by
  intro e r h
  cases e with
  | totalTicks answer => rfl
  | _ => cases h

theorem tables_apart_totals (rows : Nat) : (tables rows).Apart totals := by
  intro e r h
  cases e with
  | tickTable answer => rfl
  | _ => cases h

section Apart
variable {β : Type} {T : Series β} {p q : TickPair α}

theorem Accepts.silent {r : Except Fault Bool} (h : S.Accepts p es r q) (hST : S.Apart T) :
    T.Silent es := by
  cases h with
  | failed he => simpa [Silent] using hST _ _ he
  | skipped he _ => simpa [Silent] using hST _ _ he
  | accepted he _ => simpa [Silent, T.fetched?_clock] using hST _ _ he

theorem Refreshes.silent {interval : Binary64} {r : Except Fault Bool}
    (h : S.Refreshes interval p es r q) (hST : S.Apart T) : T.Silent es := by
  cases h with
  | early _ => simp [Silent, T.fetched?_clock]
  | due _ hq => simpa [Silent, T.fetched?_clock] using hq.silent hST

theorem Installs.silent {r : Except Fault Unit} (h : S.Installs p es r q) (hST : S.Apart T) :
    T.Silent es := by
  cases h with
  | failed he => simpa [Silent] using hST _ _ he
  | unready he _ => simpa [Silent] using hST _ _ he
  | ready he _ => simpa [Silent, T.fetched?_clock] using hST _ _ he

end Apart

end ProcessorLoad.Series
