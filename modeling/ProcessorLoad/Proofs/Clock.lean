import ProcessorLoad.Proofs.Number.Difference
import ProcessorLoad.Proofs.Observation

/-!
# Looks at the clock

What a clock that does not go back shows over a run, and times that are some way apart from each
other.
-/

set_option autoImplicit false

namespace ProcessorLoad

def looks (es : List Event) : List Binary64 :=
  es.filterMap fun
    | .clock now => some now
    | _ => none

@[simp] theorem looks_clock (now : Binary64) (es : List Event) :
    looks (.clock now :: es) = now :: looks es := rfl

theorem looks_append (es fs : List Event) : looks (es ++ fs) = looks es ++ looks fs :=
  List.filterMap_append

theorem mem_looks {es : List Event} {now : Binary64} (h : .clock now ∈ es) : now ∈ looks es :=
  List.mem_filterMap.mpr ⟨_, h, rfl⟩

theorem mem_looks_of_head? {es : List Event} {now : Binary64} (h : es.head? = some (.clock now)) :
    now ∈ looks es := mem_looks (List.mem_of_head? h)

/-- Finite times of which none is negative or below the one before it. -/
structure Steady (ts : List Binary64) : Prop where
  finite : ∀ t ∈ ts, t.isFinite = true
  nonneg : ∀ t ∈ ts, (0 : Binary64).le t = true
  ordered : ts.Pairwise fun t u => t.le u = true

instance (ts : List Binary64) : Decidable (Steady ts) :=
  decidable_of_iff ((∀ t ∈ ts, t.isFinite = true) ∧ (∀ t ∈ ts, (0 : Binary64).le t = true) ∧
      ts.Pairwise fun t u => t.le u = true)
    ⟨fun ⟨hf, hn, ho⟩ => ⟨hf, hn, ho⟩, fun ⟨hf, hn, ho⟩ => ⟨hf, hn, ho⟩⟩

/-- Finite times that are all one and the same. -/
structure Still (ts : List Binary64) : Prop where
  finite : ∀ t ∈ ts, t.isFinite = true
  same : ∀ t ∈ ts, ∀ u ∈ ts, t.eq u = true

instance (ts : List Binary64) : Decidable (Still ts) :=
  decidable_of_iff ((∀ t ∈ ts, t.isFinite = true) ∧ ∀ t ∈ ts, ∀ u ∈ ts, t.eq u = true)
    ⟨fun ⟨hf, hs⟩ => ⟨hf, hs⟩, fun ⟨hf, hs⟩ => ⟨hf, hs⟩⟩

variable {ts us : List Binary64} {t u : Binary64}

theorem mem_shown_append (ht : t ∈ 0 :: ts) (hu : u ∈ t :: us) : u ∈ 0 :: (ts ++ us) := by
  rcases List.mem_cons.mp hu with rfl | hu
  · exact List.mem_append_left us ht
  · exact List.mem_cons_of_mem _ (List.mem_append_right _ hu)

namespace Steady

theorem left (h : Steady (ts ++ us)) : Steady ts where
  finite t ht := h.finite t (List.mem_append_left _ ht)
  nonneg t ht := h.nonneg t (List.mem_append_left _ ht)
  ordered := (List.pairwise_append.mp h.ordered).1

theorem right (h : Steady (ts ++ us)) : Steady us where
  finite t ht := h.finite t (List.mem_append_right _ ht)
  nonneg t ht := h.nonneg t (List.mem_append_right _ ht)
  ordered := (List.pairwise_append.mp h.ordered).2.1

theorem cons_zero (h : Steady ts) : Steady (0 :: ts) where
  finite := List.forall_mem_cons.mpr ⟨Binary64.isFinite_zero, h.finite⟩
  nonneg := List.forall_mem_cons.mpr ⟨Binary64.le_refl Binary64.isFinite_zero, h.nonneg⟩
  ordered := List.pairwise_cons.mpr ⟨h.nonneg, h.ordered⟩

theorem le (h : Steady (ts ++ us)) (ht : t ∈ ts) (hu : u ∈ us) : t.le u = true :=
  (List.pairwise_append.mp h.ordered).2.2 t ht u hu

theorem le_next (h : Steady (ts ++ us)) (ht : t ∈ 0 :: ts) (hu : u ∈ t :: us) : t.le u = true := by
  have hzero : Steady ((0 :: ts) ++ us) := h.cons_zero
  rcases List.mem_cons.mp hu with rfl | hu
  · exact Binary64.le_refl (hzero.left.finite u ht)
  · exact hzero.le ht hu

theorem le_latest (h : Steady ts) (ht : t ∈ 0 :: ts) : t.le (ts.getLast?.getD 0) = true := by
  induction ts using List.reverseRecOn with
  | nil =>
    rw [List.mem_singleton.mp ht]
    exact Binary64.le_refl Binary64.isFinite_zero
  | append_singleton front last _ =>
    rw [List.getLast?_append, List.getLast?_singleton, Option.some_or, Option.getD_some]
    have hzero : Steady ((0 :: front) ++ [last]) := h.cons_zero
    rw [← List.cons_append] at ht
    rcases List.mem_append.mp ht with ht | ht
    · exact hzero.le ht (List.mem_singleton_self last)
    · rw [List.mem_singleton.mp ht]
      exact Binary64.le_refl
        (h.finite last (List.mem_append_right _ (List.mem_singleton_self last)))

end Steady

theorem Still.right (h : Still (ts ++ us)) : Still us where
  finite t ht := h.finite t (List.mem_append_right _ ht)
  same t ht u hu := h.same t (List.mem_append_right _ ht) u (List.mem_append_right _ hu)

/-- Times from a first one to a last one, each of them some way apart from the one before it. -/
inductive Spaced (far : Binary64 → Bool) : Binary64 → List Binary64 → Binary64 → Prop where
  | refl (t : Binary64) : Spaced far t [] t
  | cons {t u v : Binary64} {us : List Binary64} (h : far (u - t) = true)
    (hus : Spaced far u us v) : Spaced far t (u :: us) v

namespace Spaced
variable {far : Binary64 → Bool} {v : Binary64}

theorem single (h : far (u - t) = true) : Spaced far t [u] u := .cons h (.refl u)

theorem trans (htu : Spaced far t ts u) (huv : Spaced far u us v) : Spaced far t (ts ++ us) v := by
  induction htu with
  | refl => exact huv
  | cons h _ ih => exact .cons h (ih huv)

end Spaced

end ProcessorLoad
