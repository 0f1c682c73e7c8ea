import ProcessorLoad.Number.Numeral
import ProcessorLoad.Proofs.Number.Decimal

/-!
# Runs of digits

A run of digits of any script is taken off a text as a whole, and the number that it writes has no
more digits than the run.
-/

set_option autoImplicit false

namespace ProcessorLoad

namespace Text
variable {c : Char} {d : Nat}

theorem exists_zero_of_digit? (h : digit? c = some d) :
    ∃ first ∈ zeroDigits, first ≤ c.toNat ∧ c.toNat < first + 10 ∧ d = c.toNat - first := by
  obtain ⟨first, hfirst, hvalue⟩ := List.exists_of_findSome?_eq_some h
  split at hvalue
  next hrange => exact ⟨first, hfirst, hrange.1, hrange.2, (Option.some.inj hvalue).symm⟩
  next => cases hvalue

theorem digit?_lt (h : digit? c = some d) : d < 10 := by
  obtain ⟨first, -, hlow, hhigh, rfl⟩ := exists_zero_of_digit? h
  omega

theorem blankRanges_apart : ∀ first ∈ zeroDigits, ∀ range ∈ blankRanges,
    range.2 < first ∨ first + 10 ≤ range.1 := by decide +kernel

theorem not_isDigit_of_isBlank (h : isBlank c = true) : isDigit c = false := by
  rw [isDigit, Option.isSome_eq_false_iff, Option.isNone_iff_eq_none]
  cases hdigit : digit? c with
  | none => rfl
  | some d =>
    obtain ⟨first, hfirst, hlow, hhigh, -⟩ := exists_zero_of_digit? hdigit
    obtain ⟨⟨low, high⟩, hrange, hin⟩ := List.any_eq_true.mp h
    simp only [Bool.and_eq_true, decide_eq_true_eq] at hin
    have hapart := blankRanges_apart first hfirst (low, high) hrange
    dsimp only at hapart
    omega

end Text

namespace Numeral
variable {digits rest : Text}

theorem spanDigits_append (hdigits : ∀ c ∈ digits, Text.isDigit c = true)
    (hrest : ∀ c ∈ rest.head?, Text.isDigit c = false) :
    spanDigits (digits ++ rest) = (digits.filterMap Text.digit?, rest) := by
  induction digits with
  | nil =>
    cases rest with
    | nil => rfl
    | cons c r =>
      have hc : Text.digit? c = none := by simpa [Text.isDigit] using hrest c rfl
      rw [List.nil_append, spanDigits, hc]
      rfl
  | cons c digits ih =>
    obtain ⟨hc, hdigits⟩ := List.forall_mem_cons.mp hdigits
    obtain ⟨d, hd⟩ := Option.isSome_iff_exists.mp hc
    rw [List.cons_append, spanDigits, hd, List.filterMap_cons_some hd]
    simp only [ih hdigits]

/-- What is taken off a text is a run of digits. -/
theorem exists_of_spanDigits (t : Text) :
    ∃ digits, t = digits ++ (spanDigits t).2 ∧ (∀ c ∈ digits, Text.isDigit c = true) ∧
      (spanDigits t).1 = digits.filterMap Text.digit? := by
  induction t with
  | nil => exact ⟨[], rfl, nofun, rfl⟩
  | cons c r ih =>
    cases hc : Text.digit? c with
    | none => exact ⟨[], by rw [spanDigits, hc]; rfl, nofun, by rw [spanDigits, hc]; rfl⟩
    | some d =>
      obtain ⟨digits, hsplit, hdigits, hvalues⟩ := ih
      have hspan : spanDigits (c :: r) = (d :: (spanDigits r).1, (spanDigits r).2) := by
        rw [spanDigits, hc]
      rw [hspan]
      refine ⟨c :: digits, congrArg (c :: ·) hsplit, ?_, ?_⟩
      · exact List.forall_mem_cons.mpr ⟨by rw [Text.isDigit, hc]; rfl, hdigits⟩
      · rw [List.filterMap_cons_some hc, hvalues]

theorem length_filterMap_digit? (h : ∀ c ∈ digits, Text.isDigit c = true) :
    (digits.filterMap Text.digit?).length = digits.length := by
  induction digits with
  | nil => rfl
  | cons c digits ih =>
    obtain ⟨hc, hdigits⟩ := List.forall_mem_cons.mp h
    obtain ⟨d, hd⟩ := Option.isSome_iff_exists.mp hc
    rw [List.filterMap_cons_some hd, List.length_cons, List.length_cons, ih hdigits]

theorem ofDigits_lt {values : List Nat} (h : ∀ d ∈ values, d < 10) :
    ofDigits values < tenPow values.length := by
  have hfold (n : Nat) :
      values.foldl (fun n d => 10 * n + d) n < (n + 1) * tenPow values.length := by
    induction values generalizing n with
    | nil => simp [tenPow]
    | cons d values ih =>
      obtain ⟨hd, hvalues⟩ := List.forall_mem_cons.mp h
      calc (d :: values).foldl (fun n d => 10 * n + d) n
          < (10 * n + d + 1) * tenPow values.length := ih hvalues (10 * n + d)
        _ ≤ (n + 1) * 10 * tenPow values.length := Nat.mul_le_mul_right _ (by omega)
        _ = (n + 1) * tenPow (values.length + 1) := by
          rw [tenPow_add, Nat.mul_assoc, Nat.mul_comm 10]
          rfl
  simpa [ofDigits] using hfold 0

end Numeral

end ProcessorLoad
