import Mathlib.Data.List.Forall2
import ProcessorLoad.Fault

/-!
# Results that may be faults

What it takes for a computation to have a result, and what a result says about the steps before it.
-/

set_option autoImplicit false

namespace ProcessorLoad

/-- The fault is that of a machine's interface, with a failure of the given kinds. -/
def Fault.isFailure (kinds : Failure → Bool) : Fault → Bool
  | .machine failure _ => kinds failure
  | _ => false

/-- The computation has a result, and `P` holds of it. -/
def Succeeds {α : Type} (r : Except Fault α) (P : α → Prop) : Prop := ∃ a, r = .ok a ∧ P a

namespace Succeeds
variable {α β : Type}

theorem mono {r : Except Fault α} {P Q : α → Prop} (h : Succeeds r Q) (hQP : ∀ a, Q a → P a) :
    Succeeds r P := by
  obtain ⟨a, rfl, ha⟩ := h
  exact ⟨a, rfl, hQP a ha⟩

theorem bind {r : Except Fault α} {f : α → Except Fault β} {P : α → Prop} {Q : β → Prop}
    (h : Succeeds r P) (hf : ∀ a, P a → Succeeds (f a) Q) : Succeeds (r >>= f) Q := by
  obtain ⟨a, rfl, ha⟩ := h
  exact hf a ha

theorem map {r : Except Fault α} {f : α → β} {P : α → Prop} {Q : β → Prop} (h : Succeeds r P)
    (hf : ∀ a, P a → Q (f a)) : Succeeds (f <$> r) Q := by
  obtain ⟨a, rfl, ha⟩ := h
  exact ⟨f a, rfl, hf a ha⟩

theorem mapM {f : α → Except Fault β} {P : β → Prop} {l : List α}
    (h : ∀ a ∈ l, Succeeds (f a) P) :
    Succeeds (l.mapM f) fun bs => bs.length = l.length ∧ ∀ b ∈ bs, P b := by
  induction l with
  | nil => exact ⟨[], rfl, rfl, nofun⟩
  | cons a l ih =>
    rw [List.mapM_cons]
    apply (h a List.mem_cons_self).bind
    intro b hb
    apply (ih fun x hx => h x (List.mem_cons_of_mem _ hx)).bind
    rintro bs ⟨hlength, hbs⟩
    refine ⟨b :: bs, rfl, congrArg (· + 1) hlength, ?_⟩
    intro x hx
    rcases List.mem_cons.mp hx with rfl | hx
    · exact hb
    · exact hbs x hx

end Succeeds

theorem ok_of_bind {α β : Type} {r : Except Fault α} {f : α → Except Fault β} {b : β}
    (h : (r >>= f) = .ok b) : ∃ a, r = .ok a ∧ f a = .ok b := by
  cases r with
  | error fault => cases h
  | ok a => exact ⟨a, rfl, h⟩

theorem error_of_bind {α β : Type} {r : Except Fault α} {f : α → Except Fault β} {fault : Fault}
    (h : (r >>= f) = .error fault) : r = .error fault ∨ ∃ a, r = .ok a ∧ f a = .error fault := by
  cases r with
  | error e =>
    cases h
    exact .inl rfl
  | ok a => exact .inr ⟨a, rfl, h⟩

theorem eq_of_map_eq {α β : Type} {f : α → β} (hf : Function.Injective f) {r r' : Except Fault α}
    (h : f <$> r = f <$> r') : r = r' := by
  cases r with
  | error fault =>
    cases r' with
    | error fault' =>
      cases h
      rfl
    | ok b => cases h
  | ok a =>
    cases r' with
    | error fault' => cases h
    | ok b => rw [hf (Except.ok.inj h)]

theorem mapM_map_ok {α β γ : Type} {f : β → Except Fault γ} {g : α → β} {h : α → γ}
    {l : List α} (hf : ∀ a ∈ l, f (g a) = .ok (h a)) : (l.map g).mapM f = .ok (l.map h) := by
  induction l with
  | nil => rfl
  | cons a l ih =>
    rw [List.map_cons, List.mapM_cons, hf a List.mem_cons_self,
      ih fun x hx => hf x (List.mem_cons_of_mem _ hx)]
    rfl

theorem mapM_eq_ok_iff {α β : Type} {f : α → Except Fault β} {l : List α} {bs : List β} :
    l.mapM f = .ok bs ↔ List.Forall₂ (fun a b => f a = .ok b) l bs := by
  induction l generalizing bs with
  | nil => simp [pure, Except.pure, eq_comm]
  | cons a l ih =>
    rw [List.mapM_cons]
    constructor
    · intro h
      obtain ⟨b, hb, h⟩ := ok_of_bind h
      obtain ⟨rest, hrest, h⟩ := ok_of_bind h
      cases h
      exact .cons hb (ih.mp hrest)
    · rintro (_ | ⟨hb, hrest⟩)
      rw [hb, ih.mpr hrest]
      rfl

theorem mem_of_mapM_ok {α β : Type} {f : α → Except Fault β} {l : List α} {bs : List β}
    (h : l.mapM f = .ok bs) : bs.length = l.length ∧ ∀ b ∈ bs, ∃ a ∈ l, f a = .ok b := by
  induction l generalizing bs with
  | nil =>
    cases h
    exact ⟨rfl, List.forall_mem_nil _⟩
  | cons a l ih =>
    rw [List.mapM_cons] at h
    obtain ⟨b, hb, h⟩ := ok_of_bind h
    obtain ⟨rest, hrest, h⟩ := ok_of_bind h
    cases h
    obtain ⟨hlength, hmem⟩ := ih hrest
    refine ⟨congrArg (· + 1) hlength, ?_⟩
    intro x hx
    rcases List.mem_cons.mp hx with rfl | hx
    · exact ⟨a, List.mem_cons_self, hb⟩
    · obtain ⟨y, hy, hyx⟩ := hmem x hx
      exact ⟨y, List.mem_cons_of_mem _ hy, hyx⟩

theorem getElem?_of_mapM_ok {α β : Type} {f : α → Except Fault β} {l : List α} {bs : List β}
    (h : l.mapM f = .ok bs) {i : Nat} {b : β} (hb : bs[i]? = some b) :
    ∃ a, l[i]? = some a ∧ f a = .ok b := by
  induction l generalizing bs i with
  | nil =>
    cases h
    cases hb
  | cons a l ih =>
    rw [List.mapM_cons] at h
    obtain ⟨first, hfirst, h⟩ := ok_of_bind h
    obtain ⟨rest, hrest, h⟩ := ok_of_bind h
    cases h
    cases i with
    | zero =>
      cases hb
      exact ⟨a, rfl, hfirst⟩
    | succ i => exact ih hrest hb

theorem mem_of_mapM_error {α β : Type} {f : α → Except Fault β} {l : List α} {fault : Fault}
    (h : l.mapM f = .error fault) : ∃ a ∈ l, f a = .error fault := by
  induction l with
  | nil => cases h
  | cons a l ih =>
    rw [List.mapM_cons] at h
    cases hfirst : f a with
    | error e =>
      rw [hfirst] at h
      cases h
      exact ⟨a, List.mem_cons_self, hfirst⟩
    | ok b =>
      rw [hfirst] at h
      cases hrest : l.mapM f with
      | error e =>
        simp only [hrest] at h
        cases h
        obtain ⟨x, hx, hfault⟩ := ih hrest
        exact ⟨x, List.mem_cons_of_mem _ hx, hfault⟩
      | ok bs =>
        simp only [hrest] at h
        cases h

theorem mapM_error_iff {α β : Type} {f : α → Except Fault β} {l : List α} :
    (∃ fault, l.mapM f = .error fault) ↔ ∃ a ∈ l, ∃ fault, f a = .error fault := by
  induction l with
  | nil => simp [pure, Except.pure]
  | cons a l ih =>
    rw [List.mapM_cons]
    cases h : f a with
    | error fault => simp [bind, Except.bind, h]
    | ok b =>
      simp only [List.mem_cons, exists_eq_or_imp, h, reduceCtorEq, exists_false, false_or, ← ih]
      cases l.mapM f <;> simp [bind, Except.bind, pure, Except.pure]

end ProcessorLoad
