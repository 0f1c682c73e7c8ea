import Mathlib.Data.List.DropRight
import ProcessorLoad.Text.Classes

/-!
# Trimming

A trimmed text is what is left of a text between characters of the class. No other text between such
characters has none of them at its ends, so characters of the class can be put around a trimmed text
and are taken off again.
-/

set_option autoImplicit false

namespace ProcessorLoad

namespace Text

/-- No character of the class stands at an end of the text. -/
structure Trimmed (p : Char → Bool) (t : Text) : Prop where
  head : ∀ c ∈ t.head?, p c = false
  last : ∀ c ∈ t.getLast?, p c = false

section Trim
variable {p : Char → Bool} {t x y : Text}

theorem trim_eq_rdropWhile (p : Char → Bool) (t : Text) :
    trim p t = (t.dropWhile p).rdropWhile p := rfl

theorem dropWhile_append_of_head (ht : ∀ c ∈ t.head?, p c = false) (hne : t ≠ []) (x : Text) :
    (x ++ t).dropWhile p = x.dropWhile p ++ t := by
  obtain ⟨c, r, rfl⟩ := List.exists_cons_of_ne_nil hne
  have hc : ¬p c = true := by simp [ht c rfl]
  induction x with
  | nil => exact List.dropWhile_cons_of_neg hc
  | cons a x ih =>
    rw [List.cons_append, List.dropWhile_cons, List.dropWhile_cons, ih]
    split <;> rfl

/-- A trimmed text that is not empty stays whole whatever surrounds it. -/
theorem trim_around (ht : Trimmed p t) (hne : t ≠ []) (x y : Text) :
    trim p (x ++ t ++ y) = x.dropWhile p ++ t ++ y.rdropWhile p := by
  have hback (w : Text) : (w ++ t ++ y).rdropWhile p = w ++ t ++ y.rdropWhile p := by
    have hhead : ∀ c ∈ (w ++ t).reverse.head?, p c = false := by
      rw [List.head?_reverse, List.getLast?_append_of_ne_nil w hne]
      exact ht.last
    have hne' : (w ++ t).reverse ≠ [] := by simp [hne]
    rw [List.rdropWhile, List.rdropWhile, List.reverse_append, dropWhile_append_of_head hhead hne',
      List.reverse_append, List.reverse_reverse]
  rw [trim_eq_rdropWhile, List.append_assoc, dropWhile_append_of_head]
  · rw [← List.append_assoc, hback]
  · rw [List.head?_append_of_ne_nil t hne]
    exact ht.head
  · simp [hne]

theorem trim_append (hx : ∀ c ∈ x, p c = true) (hy : ∀ c ∈ y, p c = true) (ht : Trimmed p t) :
    trim p (x ++ t ++ y) = t := by
  by_cases hne : t = []
  · subst hne
    have hnone : (x ++ [] ++ y).dropWhile p = [] := by
      rw [List.append_nil, List.dropWhile_append_of_pos hx, List.dropWhile_eq_nil_iff.mpr hy]
    rw [trim_eq_rdropWhile, hnone, List.rdropWhile_nil]
  · rw [trim_around ht hne, List.dropWhile_eq_nil_iff.mpr hx, List.rdropWhile_eq_nil_iff.mpr hy,
      List.append_nil, List.nil_append]

theorem trimmed_trim (p : Char → Bool) (t : Text) : Trimmed p (trim p t) := by
  rw [trim_eq_rdropWhile]
  constructor
  · intro c hc
    obtain ⟨r, hr⟩ := List.head?_eq_some_iff.mp hc
    obtain ⟨back, hback⟩ := List.rdropWhile_prefix p (t.dropWhile p)
    rw [hr, List.cons_append] at hback
    -- What is left starts where the first run of the class has ended.
    have hhead : (t.dropWhile p).head? = some c := by rw [← hback, List.head?_cons]
    simpa [hhead] using List.head?_dropWhile_not p t
  · intro c hc
    obtain ⟨hne, rfl⟩ := List.mem_getLast?_eq_getLast hc
    simpa using List.rdropWhile_last_not p _ hne

theorem exists_append_trim (p : Char → Bool) (t : Text) :
    ∃ x y, t = x ++ trim p t ++ y ∧ (∀ c ∈ x, p c = true) ∧ ∀ c ∈ y, p c = true := by
  refine ⟨t.takeWhile p, (t.dropWhile p).rtakeWhile p, ?_, ?_, ?_⟩
  · rw [trim_eq_rdropWhile, List.append_assoc, List.rdropWhile_append_rtakeWhile,
      List.takeWhile_append_dropWhile]
  · intro c hc
    exact List.mem_takeWhile_imp hc
  · intro c hc
    exact List.mem_rtakeWhile_imp hc

end Trim

theorem trimmed_strip (t : Text) : Trimmed isBlank (strip t) := trimmed_trim isBlank t

theorem strip_append {t x y : Text} (hx : ∀ c ∈ x, isBlank c = true)
    (hy : ∀ c ∈ y, isBlank c = true)
    (ht : Trimmed isBlank t) : strip (x ++ t ++ y) = t := trim_append hx hy ht

end Text

end ProcessorLoad
