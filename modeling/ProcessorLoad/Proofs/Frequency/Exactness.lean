import Mathlib.Tactic.FieldSimp
import Mathlib.Tactic.LinearCombination
import ProcessorLoad.Proofs.Frequency.Reading
import ProcessorLoad.Proofs.Number.Accuracy
import ProcessorLoad.Proofs.Number.Numeral
import ProcessorLoad.Proofs.Text.Trim

/-!
# Frequencies that are read exactly

A frequency goes through two roundings, that of its numeral to a double and that of the product with
the factor of its unit. Below `2 ^ 51` hertz the two together move it by less than half a hertz. So
a whole number of hertz is read as that number, however it is written and whatever comes before and
after it.
-/

set_option autoImplicit false

namespace ProcessorLoad

namespace Frequency

namespace Spelling
variable {s : Spelling} {n : Nat}

/-- The numeral times the factor of the unit is a whole number. -/
def Writes (s : Spelling) (n : Nat) : Prop :=
  s.significand * factorOf s.unit = n * tenPow s.fraction.length

/-- The numeral of a whole number of hertz is zero or far above the smallest doubles. -/
theorem Writes.units_close (h : s.Writes n) :
    twoPow 53 * ((s.units : Int) * tenPow s.fraction.length - s.significand * unitsPerOne).natAbs
      ≤ s.significand * unitsPerOne := by
  obtain ⟨hpos, hfactor⟩ := s.factorOf_bounds
  have hden := tenPow_pos s.fraction.length
  rcases Nat.eq_zero_or_pos n with rfl | hn
  · have hzero : s.significand = 0 := by
      rw [Writes, Nat.zero_mul, Nat.mul_eq_zero] at h
      omega
    have hunits : s.units = 0 := by
      rw [units, hzero, Nat.zero_mul]
      exact (nearestUnits_eq_zero_iff hden).mpr (Nat.zero_le _)
    rw [hzero, hunits, Int.natCast_zero, Int.zero_mul, Int.zero_mul, Int.sub_zero]
    exact Nat.zero_le _
  · have hscale : twoPow 52 * 1000000000000 ≤ unitsPerOne := by decide +kernel
    have hlarge : tenPow s.fraction.length ≤ s.significand * 1000000000000 := by
      calc tenPow s.fraction.length ≤ n * tenPow s.fraction.length := Nat.le_mul_of_pos_left _ hn
        _ = s.significand * factorOf s.unit := h.symm
        _ ≤ s.significand * 1000000000000 := Nat.mul_le_mul_left _ hfactor
    have hclose : twoPow 52 * tenPow s.fraction.length ≤ s.significand * unitsPerOne := by
      calc twoPow 52 * tenPow s.fraction.length
          ≤ twoPow 52 * (s.significand * 1000000000000) := Nat.mul_le_mul_left _ hlarge
        _ = s.significand * (twoPow 52 * 1000000000000) := Nat.mul_left_comm _ _ _
        _ ≤ s.significand * unitsPerOne := Nat.mul_le_mul_left _ hscale
    have hnear := nearestUnits_close hden hclose
    rwa [Int.natCast_mul] at hnear

/-- The factor of the unit carries the distance of the numeral over to the frequency. -/
theorem Writes.distance_eq (h : s.Writes n) :
    ((s.units : Int) * factorOf s.unit - n * unitsPerOne).natAbs * tenPow s.fraction.length
      = factorOf s.unit
        * ((s.units : Int) * tenPow s.fraction.length - s.significand * unitsPerOne).natAbs := by
  have hvalue : (s.significand : Int) * factorOf s.unit = n * tenPow s.fraction.length := by
    exact_mod_cast h
  have hproduct : ((s.units : Int) * factorOf s.unit - n * unitsPerOne) * tenPow s.fraction.length
      = factorOf s.unit
        * ((s.units : Int) * tenPow s.fraction.length - s.significand * unitsPerOne) := by
    linear_combination (unitsPerOne : Int) * hvalue
  simpa only [Int.natAbs_mul, Int.natAbs_natCast] using congrArg Int.natAbs hproduct

theorem Writes.product_close (h : s.Writes n) (hn : n < twoPow 51) :
    4 * ((s.units : Int) * factorOf s.unit - n * unitsPerOne).natAbs ≤ unitsPerOne := by
  have hden := tenPow_pos s.fraction.length
  have hclose : twoPow 53 * ((s.units : Int) * factorOf s.unit - n * unitsPerOne).natAbs
      ≤ n * unitsPerOne := by
    refine Nat.le_of_mul_le_mul_right ?_ hden
    calc twoPow 53 * ((s.units : Int) * factorOf s.unit - n * unitsPerOne).natAbs
          * tenPow s.fraction.length
        = factorOf s.unit * (twoPow 53
          * ((s.units : Int) * tenPow s.fraction.length - s.significand * unitsPerOne).natAbs) := by
          rw [Nat.mul_assoc, h.distance_eq, Nat.mul_left_comm]
      _ ≤ factorOf s.unit * (s.significand * unitsPerOne) := Nat.mul_le_mul_left _ h.units_close
      _ = s.significand * factorOf s.unit * unitsPerOne := by ring
      _ = n * unitsPerOne * tenPow s.fraction.length := by rw [h]; ring
  have hlimit : n * unitsPerOne ≤ twoPow 51 * unitsPerOne :=
    Nat.mul_le_mul_right _ (Nat.le_of_lt hn)
  refine Nat.le_of_mul_le_mul_left ?_ (twoPow_pos 51)
  calc twoPow 51 * (4 * ((s.units : Int) * factorOf s.unit - n * unitsPerOne).natAbs)
      = twoPow 53 * ((s.units : Int) * factorOf s.unit - n * unitsPerOne).natAbs :=
        (Nat.mul_assoc _ _ _).symm
    _ ≤ twoPow 51 * unitsPerOne := Nat.le_trans hclose hlimit

theorem Writes.round_eq (h : s.Writes n) (hn : n < twoPow 51) : s.hertz.round = .ok n := by
  have hfirst := h.product_close hn
  have hunit : unitsPerOne = 4 * twoPow 1072 := by decide +kernel
  have hrange : twoPow 51 * unitsPerOne = twoPow (1124 + 1) := by decide +kernel
  have hplace := Binary64.mul_unitsPerOne_add_le hn
  have hspacing : spacing (s.units * factorOf s.unit) ≤ twoPow 1072 := by
    refine spacing_le (k := 1124) ?_
    have hpos := unitsPerOne_pos
    rw [← hrange]
    have hcast : ((s.units * factorOf s.unit : Nat) : Int) = s.units * factorOf s.unit :=
      Int.natCast_mul ..
    omega
  have hsecond := nearestUnits_near (s.units * factorOf s.unit) Nat.one_pos
  rw [Nat.div_one, Nat.one_mul, Int.natCast_one, Int.mul_one, Int.natCast_mul] at hsecond
  have hhalf {a b c : Int} (hab : 2 * (a - b).natAbs ≤ twoPow 1072)
      (hbc : 4 * (b - c).natAbs ≤ unitsPerOne) :
      2 * (a - c).natAbs < unitsPerOne := by
    have hpos := twoPow_pos 1072
    omega
  rw [hertz_eq_ofRatio]
  exact Binary64.round_ofRatio hn (hhalf (Nat.le_trans hsecond hspacing) hfirst)

section Placed
variable {t front : Text}

theorem exists_cons_of_heads (h : Heads t s) : ∃ c r, t = c :: r ∧ Text.isDigit c = true := by
  obtain ⟨back, rfl⟩ := h
  obtain ⟨c, digits, hwhole⟩ := List.exists_cons_of_ne_nil s.whole_ne
  have hc : Text.isDigit c = true := s.whole_digits c (hwhole ▸ List.mem_cons_self)
  rw [text_append, hwhole, List.cons_append]
  exact ⟨c, _, rfl, hc⟩

theorem trimmed_text (s : Spelling) : Text.Trimmed Text.isBlank s.text where
  head c hc := by
    obtain ⟨a, r, htext, ha⟩ := exists_cons_of_heads (s := s) ⟨[], (List.append_nil s.text).symm⟩
    obtain rfl : a = c := by simpa [htext] using hc
    cases hblank : Text.isBlank a with
    | false => rfl
    | true => rw [Text.not_isDigit_of_isBlank hblank] at ha; cases ha
  last c hc := by
    obtain rfl : 'z' = c := by simpa [text] using hc
    decide

theorem leads_of_no_digit (hfront : ∀ c ∈ front, Text.isDigit c = false) (back : Text) :
    s.Leads (front ++ s.text ++ back) := by
  refine ⟨front, s.text ++ back, List.append_assoc .., ⟨back, rfl⟩, ?_⟩
  intro before after other hsplit hother
  obtain ⟨c, r, rfl, hc⟩ := exists_cons_of_heads hother
  refine Nat.not_lt.mp fun hlt => ?_
  have hplace : front[before.length]? = some c := by
    rw [← List.getElem?_append_left hlt, ← List.append_assoc, hsplit,
      List.getElem?_append_right (Nat.le_refl _), Nat.sub_self, List.getElem?_cons_zero]
  rw [hfront c (List.mem_of_getElem? hplace)] at hc
  cases hc

theorem Writes.read_eq (h : s.Writes n) (hn : n < twoPow 51)
    (hfront : ∀ c ∈ front, Text.isDigit c = false) (back : Text) :
    read (front ++ s.text ++ back) = .ok n := by
  have hne : s.text ≠ [] := by simp [text]
  have hleads : s.Leads (Text.strip (front ++ s.text ++ back)) := by
    rw [Text.strip, Text.trim_around s.trimmed_text hne]
    exact leads_of_no_digit (fun c hc => hfront c ((List.dropWhile_suffix _).subset hc)) _
  rw [read_of_leads hleads, h.round_eq hn]

end Placed

end Spelling

def unitPowers : List (Option Char × Nat) :=
  [(none, 0), (some 'k', 3), (some 'K', 3), (some 'M', 6), (some 'G', 9), (some 'T', 12)]

/-- The number that is written with the digits 0 to 9, the fraction behind a point. -/
def decimalValue (whole fraction : Text) : ℚ :=
  Nat.ofDigitChars 10 (whole ++ fraction) 0 / 10 ^ fraction.length

theorem ofDigits_filterMap {t : Text} (h : ∀ c ∈ t, c.isDigit = true) :
    Numeral.ofDigits (t.filterMap Text.digit?) = Nat.ofDigitChars 10 t 0 := by
  have hvalues : t.filterMap Text.digit? = t.map fun c => c.toNat - 48 := by
    rw [← List.filterMap_eq_map]
    exact List.filterMap_congr fun c hc => Numeral.digit?_of_isDigit (h c hc)
  rw [hvalues, Numeral.ofDigits_map]

/-- A frequency of fewer than `2 ^ 51` hertz is read exactly if it is a whole number of hertz. It
may have any number of digits and any unit, and stand behind any text without digits and in front of
any text. -/
theorem whole_frequency_read {front whole fraction blanks back : Text} {unit : Option Char}
    {power n : Nat} (hfront : ∀ c ∈ front, Text.isDigit c = false) (hwhole : whole ≠ [])
    (hdigits : ∀ c ∈ whole ++ fraction, c.isDigit = true)
    (hblanks : ∀ c ∈ blanks, Text.isBlank c = true) (hunit : (unit, power) ∈ unitPowers)
    (hvalue : decimalValue whole fraction * 10 ^ power = n) (hn : n < 2 ^ 51) :
    read (front ++ (whole ++ pointed fraction ++ blanks ++ unit.toList ++ ['H', 'z']) ++ back)
      = .ok n := by
  have hunits : ∀ pair ∈ unitPowers, Spelling.factorOf pair.1 = 10 ^ pair.2 ∧
      pair.1.all (unitLetters.contains ·) = true := by decide
  obtain ⟨hfactor, hletters⟩ := hunits _ hunit
  have hletter : ∀ c ∈ unit, c ∈ unitLetters := by
    rintro c rfl
    exact List.contains_iff_mem.mp hletters
  have hdigit {c : Char} (hc : c ∈ whole ++ fraction) : Text.isDigit c = true := by
    rw [Text.isDigit, Numeral.digit?_of_isDigit (hdigits c hc)]
    rfl
  let s : Spelling :=
    { whole, fraction, blanks, unit, whole_ne := hwhole, blanks_blank := hblanks,
      unit_mem := hletter, whole_digits := fun _ hc => hdigit (List.mem_append_left _ hc),
      fraction_digits := fun _ hc => hdigit (List.mem_append_right _ hc) }
  have hwrites : s.Writes n := by
    have hcross : (Nat.ofDigitChars 10 (whole ++ fraction) 0 : ℚ) * 10 ^ power
        = n * 10 ^ fraction.length := by
      rw [← hvalue, decimalValue]
      field_simp
    rw [Spelling.Writes, Spelling.significand, ofDigits_filterMap hdigits, hfactor]
    exact_mod_cast hcross
  exact hwrites.read_eq hn hfront back

/-- The largest frequency of which this is said, in a unit in which it has a fraction. -/
theorem whole_frequency_read_largest :
    let front := "Unit @ ".toList
    let whole := "2251".toList
    let fraction := "799813685247".toList
    let back := " or 5Hz".toList
    (∀ c ∈ front, Text.isDigit c = false) ∧ (∀ c ∈ whole ++ fraction, c.isDigit = true) ∧
      decimalValue whole fraction * 10 ^ 12 = (2251799813685247 : Nat) ∧ 2251799813685247 < 2 ^ 51 ∧
      front ++ (whole ++ pointed fraction ++ [' '] ++ (some 'T').toList ++ ['H', 'z']) ++ back
        = "Unit @ 2251.799813685247 THz or 5Hz".toList ∧
      read "Unit @ 2251.799813685247 THz or 5Hz".toList = .ok (2251799813685247 : Nat) := by
  intro front whole fraction back
  have hfront : ∀ c ∈ front, Text.isDigit c = false := by
    have hall : front.all (!Text.isDigit ·) = true := by decide
    simpa using hall
  have hdigits : ∀ c ∈ whole ++ fraction, c.isDigit = true := List.all_eq_true.mp (by decide)
  have hvalue : decimalValue whole fraction * 10 ^ 12 = (2251799813685247 : Nat) := by
    have hnumeral : Nat.ofDigitChars 10 (whole ++ fraction) 0 = 2251799813685247 := by decide
    have hplaces : fraction.length = 12 := by decide
    rw [decimalValue, hnumeral, hplaces]
    norm_num
  have htext : front ++ (whole ++ pointed fraction ++ [' '] ++ (some 'T').toList ++ ['H', 'z'])
      ++ back = "Unit @ 2251.799813685247 THz or 5Hz".toList := by decide
  have hread : read (front ++ (whole ++ pointed fraction ++ [' '] ++ (some 'T').toList
      ++ ['H', 'z']) ++ back) = .ok (2251799813685247 : Nat) :=
    whole_frequency_read hfront (by decide) hdigits (List.all_eq_true.mp (by decide)) (by decide)
      hvalue (by decide)
  exact ⟨hfront, hdigits, hvalue, by decide, htext, htext ▸ hread⟩

end Frequency

end ProcessorLoad
