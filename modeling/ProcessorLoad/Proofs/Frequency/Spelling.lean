import Mathlib.Data.List.TakeWhile
import ProcessorLoad.Frequency
import ProcessorLoad.Proofs.Number.Digits
import ProcessorLoad.Proofs.Text.Search

/-!
# How a frequency is written

A spelling is a decimal numeral, blanks, at most one unit letter, and `Hz`. A text that starts with
a spelling reads as the frequency that it writes, so the first frequency of a text is the one of its
leftmost spelling.
-/

set_option autoImplicit false

namespace ProcessorLoad

namespace Frequency

def unitLetters : List Char := ['k', 'K', 'M', 'G', 'T']

theorem forall_unitLetters {p : Char → Prop} :
    (∀ c ∈ unitLetters, p c) ↔ p 'k' ∧ p 'K' ∧ p 'M' ∧ p 'G' ∧ p 'T' := by
  simp [unitLetters]

/-- A point and the digits behind it, nothing if there are none. -/
def pointed (fraction : Text) : Text := if fraction = [] then [] else '.' :: fraction

structure Spelling where
  whole : Text
  fraction : Text
  blanks : Text
  unit : Option Char
  whole_ne : whole ≠ []
  whole_digits : ∀ c ∈ whole, Text.isDigit c = true
  fraction_digits : ∀ c ∈ fraction, Text.isDigit c = true
  blanks_blank : ∀ c ∈ blanks, Text.isBlank c = true
  unit_mem : ∀ c ∈ unit, c ∈ unitLetters

namespace Spelling

def text (s : Spelling) : Text :=
  s.whole ++ pointed s.fraction ++ s.blanks ++ s.unit.toList ++ ['H', 'z']

/-- The whole number that the digits write without the point. -/
def significand (s : Spelling) : Nat :=
  Numeral.ofDigits ((s.whole ++ s.fraction).filterMap Text.digit?)

def factorOf (unit : Option Char) : Nat := (unit.bind factor?).getD 1

/-- The double nearest to the numeral, times the factor of the unit. -/
def hertz (s : Spelling) : Binary64 :=
  Binary64.quotient s.significand (tenPow s.fraction.length) * Binary64.ofNat (factorOf s.unit)

end Spelling

section Parts
variable {t rest back fraction : Text} {unit : Option Char} {n : Nat} {digits : List Nat}

theorem unit?_append (h : ∀ c ∈ unit, c ∈ unitLetters) (back : Text) :
    unit? (unit.toList ++ 'H' :: 'z' :: back) = some (Spelling.factorOf unit) := by
  cases unit with
  | none => rfl
  | some c =>
    have hletters : ∀ c ∈ unitLetters,
        unit? (c :: 'H' :: 'z' :: back) = some (Spelling.factorOf (some c)) :=
      forall_unitLetters.mpr ⟨rfl, rfl, rfl, rfl, rfl⟩
    exact hletters c (h c rfl)

theorem mem_unitLetters_of_factor? {c : Char} (h : factor? c = some n) : c ∈ unitLetters := by
  unfold factor? at h
  split at h
  case h_6 => cases h
  all_goals decide

theorem exists_of_unit? (h : unit? t = some n) :
    ∃ (unit : Option Char) (back : Text),
      (∀ c ∈ unit, c ∈ unitLetters) ∧ t = unit.toList ++ 'H' :: 'z' :: back := by
  unfold unit? at h
  split at h
  next back => exact ⟨none, back, nofun, rfl⟩
  next c back =>
    refine ⟨some c, back, ?_, rfl⟩
    rintro _ ⟨⟩
    exact mem_unitLetters_of_factor? h
  next => cases h

theorem fraction?_append (hfraction : ∀ c ∈ fraction, Text.isDigit c = true)
    (hrest : ∀ c ∈ rest.head?, Text.isDigit c = false ∧ c ≠ '.') :
    fraction? (pointed fraction ++ rest) = some (fraction.filterMap Text.digit?, rest) := by
  cases fraction with
  | nil =>
    change fraction? rest = some ([], rest)
    unfold fraction?
    split
    next r => exact absurd rfl (hrest '.' rfl).2
    next => rfl
  | cons c digits =>
    have hspan := Numeral.spanDigits_append hfraction fun a ha => (hrest a ha).1
    obtain ⟨d, hd⟩ := Option.isSome_iff_exists.mp (hfraction c List.mem_cons_self)
    change fraction? ('.' :: (c :: digits ++ rest)) = _
    rw [fraction?, hspan, List.filterMap_cons_some hd]
    rfl

theorem exists_of_fraction? (h : fraction? t = some (digits, rest)) :
    ∃ fraction, (∀ c ∈ fraction, Text.isDigit c = true) ∧ t = pointed fraction ++ rest := by
  unfold fraction? at h
  split at h
  next r =>
    obtain ⟨fraction, hsplit, hfraction, hvalues⟩ := Numeral.exists_of_spanDigits r
    dsimp only at h
    split at h
    next => cases h
    next hne =>
      cases h
      refine ⟨fraction, hfraction, ?_⟩
      have hpoint : fraction ≠ [] := by
        rintro rfl
        rw [hvalues] at hne
        exact hne rfl
      rw [pointed, if_neg hpoint, List.cons_append, ← hsplit]
  next =>
    cases h
    exact ⟨[], nofun, rfl⟩

/-- Behind the numeral comes no digit and no point. -/
theorem tail_head {blanks : Text} (hblanks : ∀ c ∈ blanks, Text.isBlank c = true)
    (hunit : ∀ c ∈ unit, c ∈ unitLetters) (back : Text) :
    ∀ c ∈ (blanks ++ (unit.toList ++ 'H' :: 'z' :: back)).head?,
      Text.isDigit c = false ∧ c ≠ '.' := by
  cases blanks with
  | cons b blanks =>
    rintro _ ⟨⟩
    have hb : Text.isBlank b = true := hblanks b List.mem_cons_self
    refine ⟨Text.not_isDigit_of_isBlank hb, ?_⟩
    rintro rfl
    exact absurd hb (by decide)
  | nil =>
    cases unit with
    | none =>
      rintro _ ⟨⟩
      decide
    | some u =>
      rintro _ ⟨⟩
      have hletters : ∀ c ∈ unitLetters, Text.isDigit c = false ∧ c ≠ '.' :=
        forall_unitLetters.mpr (by decide)
      exact hletters u (hunit u rfl)

theorem dropWhile_blanks {blanks : Text} (hblanks : ∀ c ∈ blanks, Text.isBlank c = true)
    (hunit : ∀ c ∈ unit, c ∈ unitLetters) (back : Text) :
    (blanks ++ (unit.toList ++ 'H' :: 'z' :: back)).dropWhile Text.isBlank
      = unit.toList ++ 'H' :: 'z' :: back := by
  rw [List.dropWhile_append_of_pos hblanks]
  cases unit with
  | none => rfl
  | some u =>
    have hletters : ∀ c ∈ unitLetters, ¬Text.isBlank c = true := forall_unitLetters.mpr (by decide)
    exact List.dropWhile_cons_of_neg (hletters u (hunit u rfl))

end Parts

namespace Spelling

theorem text_append (s : Spelling) (back : Text) :
    s.text ++ back
      = s.whole ++ (pointed s.fraction ++ (s.blanks ++ (s.unit.toList ++ 'H' :: 'z' :: back))) := by
  simp [text]

theorem length_digits (s : Spelling) :
    (s.whole.filterMap Text.digit? ++ s.fraction.filterMap Text.digit?).length
      = s.whole.length + s.fraction.length := by
  rw [List.length_append, Numeral.length_filterMap_digit? s.whole_digits,
    Numeral.length_filterMap_digit? s.fraction_digits]

theorem significand_lt (s : Spelling) :
    s.significand < tenPow (s.whole.length + s.fraction.length) := by
  have hdigits : ∀ d ∈ (s.whole ++ s.fraction).filterMap Text.digit?, d < 10 := by
    intro d hd
    obtain ⟨c, -, hc⟩ := List.mem_filterMap.mp hd
    exact Text.digit?_lt hc
  have hlt := Numeral.ofDigits_lt hdigits
  rwa [List.filterMap_append, length_digits, ← List.filterMap_append] at hlt

theorem ofDecimal_eq (s : Spelling) :
    Binary64.ofDecimal false s.significand
        (s.whole.filterMap Text.digit? ++ s.fraction.filterMap Text.digit?).length
        (-((s.fraction.filterMap Text.digit?).length : Int))
      = Binary64.quotient s.significand (tenPow s.fraction.length) := by
  rw [Numeral.length_filterMap_digit? s.fraction_digits, length_digits]
  exact Binary64.ofDecimal_eq_quotient _ s.significand_lt

theorem atHead?_text (s : Spelling) (back : Text) : atHead? (s.text ++ back) = some s.hertz := by
  have htail := tail_head s.blanks_blank s.unit_mem back
  have hpoint : ∀ c ∈ (pointed s.fraction
      ++ (s.blanks ++ (s.unit.toList ++ 'H' :: 'z' :: back))).head?, Text.isDigit c = false := by
    unfold pointed
    split
    next => exact fun c hc => (htail c hc).1
    next =>
      rintro _ ⟨⟩
      decide
  have hwhole := Numeral.spanDigits_append s.whole_digits hpoint
  have hne : (s.whole.filterMap Text.digit?).isEmpty = false := by
    rw [List.isEmpty_eq_false_iff, ← List.length_pos_iff,
      Numeral.length_filterMap_digit? s.whole_digits]
    exact List.length_pos_iff.mpr s.whole_ne
  rw [text_append, atHead?, hwhole]
  simp only [hne, Bool.false_eq_true, if_false, fraction?_append s.fraction_digits htail,
    Option.bind_eq_bind, Option.bind_some, dropWhile_blanks s.blanks_blank s.unit_mem,
    unit?_append s.unit_mem]
  change some _ = some s.hertz
  rw [hertz, ← ofDecimal_eq, significand, List.filterMap_append]

/-- Whatever is read at the head of a text is a spelling. -/
theorem exists_of_atHead? {t : Text} (h : atHead? t ≠ none) :
    ∃ (s : Spelling) (back : Text), t = s.text ++ back := by
  obtain ⟨x, hx⟩ := Option.ne_none_iff_exists'.mp h
  obtain ⟨whole, hwhole, hdigits, hvalues⟩ := Numeral.exists_of_spanDigits t
  unfold atHead? at hx
  dsimp only at hx
  split at hx
  next => cases hx
  next hne =>
    obtain ⟨⟨fractionValues, rest⟩, hfraction, hx⟩ := Option.bind_eq_some_iff.mp hx
    obtain ⟨factor, hfactor, -⟩ := Option.bind_eq_some_iff.mp hx
    obtain ⟨fraction, hfractionDigits, hpointed⟩ := exists_of_fraction? hfraction
    obtain ⟨unit, back, hunit, hrest⟩ := exists_of_unit? hfactor
    have hwhole_ne : whole ≠ [] := by
      rintro rfl
      rw [hvalues] at hne
      exact hne rfl
    let s : Spelling :=
      { whole, fraction, blanks := rest.takeWhile Text.isBlank, unit,
        whole_ne := hwhole_ne, whole_digits := hdigits, fraction_digits := hfractionDigits,
        blanks_blank := fun _ hc => List.mem_takeWhile_imp hc, unit_mem := hunit }
    refine ⟨s, back, ?_⟩
    rw [text_append, ← hrest, List.takeWhile_append_dropWhile, ← hpointed, ← hwhole]

def Heads (t : Text) (s : Spelling) : Prop := ∃ back, t = s.text ++ back

/-- A text that starts with a spelling reads as what it writes, and no other text reads. -/
theorem reads_atHead? : Text.Reads atHead? Heads hertz where
  eq_some := by
    rintro _ s ⟨back, rfl⟩
    exact s.atHead?_text back
  exists_at := exists_of_atHead?

theorem searches_first? : Text.Searches first? atHead? := ⟨rfl, rfl, fun _ _ => rfl⟩

end Spelling

end Frequency

end ProcessorLoad
