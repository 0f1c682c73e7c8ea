import ProcessorLoad.Proofs.Frequency.Spelling
import ProcessorLoad.Proofs.Number.Whole

/-!
# Reading a frequency

The first spelling of a text decides what is read. Its numeral is rounded to a double and the
product with the factor of its unit once more, so the product is finite just below a limit. Above it
there is no whole number to answer.
-/

set_option autoImplicit false

namespace ProcessorLoad

namespace Frequency

def Named (t : Text) : Prop := ∃ front rest s, t = front ++ rest ∧ Spelling.Heads rest s

def Spelling.Leads (s : Spelling) (t : Text) : Prop := Text.Leftmost Spelling.Heads t s

namespace Spelling
variable (s : Spelling)

/-- The numeral as a double, in units of the smallest one; also beyond the largest double. -/
def units : Nat := nearestUnits (s.significand * unitsPerOne) (tenPow s.fraction.length)

/-- The numeral as a double, times the factor, is at least half way from the largest double to the
next power of two. -/
def Overflows : Prop := quotientLimit * unitsPerOne ≤ s.units * factorOf s.unit

theorem factorOf_bounds : 0 < factorOf s.unit ∧ factorOf s.unit ≤ 1000000000000 := by
  have hletters : ∀ c ∈ unitLetters, 0 < factorOf (some c) ∧ factorOf (some c) ≤ 1000000000000 :=
    forall_unitLetters.mpr (by decide)
  cases hunit : s.unit with
  | none => decide
  | some c => exact hletters c (s.unit_mem c hunit)

theorem exists_ofNat_factorOf :
    ∃ size : Magnitude, Binary64.ofNat (factorOf s.unit) = .finite false size ∧
      size.units = factorOf s.unit * unitsPerOne := by
  have hbound : factorOf s.unit ≤ twoPow 53 := by
    calc factorOf s.unit ≤ 1000000000000 := s.factorOf_bounds.2
      _ ≤ twoPow 53 := by decide +kernel
  have hdvd : spacing (factorOf s.unit * unitsPerOne) ∣ factorOf s.unit * unitsPerOne :=
    spacing_dvd_mul_twoPow 1074 hbound
  have hlt : factorOf s.unit * unitsPerOne < overflowUnits := by
    calc factorOf s.unit * unitsPerOne ≤ twoPow 53 * unitsPerOne := Nat.mul_le_mul_right _ hbound
      _ < overflowUnits := by decide +kernel
  refine ⟨⟨factorOf s.unit * unitsPerOne, hlt, hdvd⟩, Binary64.ofRatio_eq_finite ?_, rfl⟩
  simpa using nearestUnits_mul_right Nat.one_pos hdvd

theorem not_overflows_iff :
    ¬s.Overflows ↔ nearestUnits (s.units * factorOf s.unit) 1 < overflowUnits := by
  rw [Overflows, ← Nat.not_le, overflowUnits_le_nearestUnits_iff Nat.one_pos, Nat.mul_one]

theorem overflows_of_le_units (h : overflowUnits ≤ s.units) : s.Overflows := by
  obtain ⟨hpos, -⟩ := s.factorOf_bounds
  calc quotientLimit * unitsPerOne ≤ overflowUnits := by decide +kernel
    _ ≤ s.units := h
    _ ≤ s.units * factorOf s.unit := Nat.le_mul_of_pos_right _ hpos

/-- Numerals beyond the largest double are no exception. -/
theorem hertz_eq_ofRatio : s.hertz = Binary64.ofRatio false (s.units * factorOf s.unit) 1 := by
  obtain ⟨factor, hfactor, hunits⟩ := s.exists_ofNat_factorOf
  obtain ⟨hpos, -⟩ := s.factorOf_bounds
  rw [hertz, hfactor, Binary64.quotient_natCast]
  by_cases hlt : s.units < overflowUnits
  · have hnumeral : Binary64.ofRatio false (s.significand * unitsPerOne) (tenPow s.fraction.length)
        = .finite false ⟨s.units, hlt, spacing_nearestUnits_dvd _ _⟩ := dif_pos hlt
    have hscaled := Binary64.ofRatio_mul_mul false (s.units * factorOf s.unit) 1 unitsPerOne_pos
    rw [hnumeral, Binary64.finite_mul_finite, bne_self_eq_false, hunits, ← Nat.mul_assoc,
      ← hscaled, Nat.one_mul]
  · have hnumeral : Binary64.ofRatio false (s.significand * unitsPerOne) (tenPow s.fraction.length)
        = .infinity false := dif_neg hlt
    have hoverflow : ¬nearestUnits (s.units * factorOf s.unit) 1 < overflowUnits := fun h =>
      s.not_overflows_iff.mpr h (s.overflows_of_le_units (Nat.not_lt.mp hlt))
    have hfactor_ne : factor.units ≠ 0 := by
      rw [hunits]
      exact Nat.ne_of_gt (Nat.mul_pos hpos unitsPerOne_pos)
    rw [hnumeral, Binary64.infinity_mul_finite _ _ hfactor_ne, bne_self_eq_false,
      Binary64.ofRatio, dif_neg hoverflow]

theorem round_of_overflows (h : s.Overflows) : s.hertz.round = .error .wholeOfInfinity := by
  have hbeyond : ¬nearestUnits (s.units * factorOf s.unit) 1 < overflowUnits := fun hlt =>
    s.not_overflows_iff.mpr hlt h
  rw [hertz_eq_ofRatio, Binary64.ofRatio, dif_neg hbeyond]
  rfl

theorem round_of_not_overflows (h : ¬s.Overflows) : ∃ n : Nat, s.hertz.round = .ok n := by
  rw [hertz_eq_ofRatio, Binary64.ofRatio, dif_pos (s.not_overflows_iff.mp h)]
  exact ⟨_, rfl⟩

end Spelling

section Read
variable {t : Text} {s : Spelling}

theorem exists_leads_iff : (∃ s : Spelling, s.Leads t) ↔ Named t := by
  have hnone := Spelling.reads_atHead?.search_eq_none_iff (t := t) Spelling.searches_first?
  constructor
  · rintro ⟨s, front, rest, ht, hs, -⟩
    exact ⟨front, rest, s, ht, hs⟩
  · intro hnamed
    cases hfirst : first? t with
    | none => exact absurd hnamed (hnone.mp hfirst)
    | some x =>
      obtain ⟨s, hs, -⟩ :=
        (Spelling.reads_atHead?.search_eq_some_iff Spelling.searches_first?).mp hfirst
      exact ⟨s, hs⟩

theorem read_of_not_named (h : ¬Named (Text.strip t)) : read t = .ok (-1) := by
  rw [read, (Spelling.reads_atHead?.search_eq_none_iff Spelling.searches_first?).mpr h]

theorem read_of_leads (h : s.Leads (Text.strip t)) : read t = s.hertz.round := by
  have hfirst : first? (Text.strip t) = some s.hertz :=
    (Spelling.reads_atHead?.search_eq_some_iff Spelling.searches_first?).mpr ⟨s, h, rfl⟩
  rw [read, hfirst]

/-- The answer is the whole number nearest to the frequency that the first spelling writes. -/
theorem read_eq_ok_iff_roundsTo {n : Int} :
    read t = .ok n ↔ (∃ s : Spelling, s.Leads (Text.strip t) ∧ s.hertz.RoundsTo n) ∨
      n = -1 ∧ ¬Named (Text.strip t) := by
  constructor
  · intro h
    by_cases hnamed : Named (Text.strip t)
    · obtain ⟨s, hleads⟩ := exists_leads_iff.mpr hnamed
      rw [read_of_leads hleads] at h
      exact .inl ⟨s, hleads, Binary64.round_eq_ok_iff.mp h⟩
    · rw [read_of_not_named hnamed] at h
      exact .inr ⟨(Except.ok.inj h).symm, hnamed⟩
  · rintro (⟨s, hleads, hn⟩ | ⟨rfl, hnamed⟩)
    · rw [read_of_leads hleads, Binary64.round_eq_ok_iff.mpr hn]
    · exact read_of_not_named hnamed

def Overlarge (t : Text) : Prop := ∃ s : Spelling, s.Leads t ∧ s.Overflows

theorem read_of_overlarge (h : Overlarge (Text.strip t)) : read t = .error .wholeOfInfinity := by
  obtain ⟨s, hleads, hoverflows⟩ := h
  rw [read_of_leads hleads, s.round_of_overflows hoverflows]

theorem read_of_not_overlarge (hnamed : Named (Text.strip t)) (h : ¬Overlarge (Text.strip t)) :
    ∃ n : Nat, read t = .ok n := by
  obtain ⟨s, hleads⟩ := exists_leads_iff.mpr hnamed
  rw [read_of_leads hleads]
  exact s.round_of_not_overflows fun hoverflows => h ⟨s, hleads, hoverflows⟩

/-- The answer is minus one or a whole number that is not negative. -/
theorem exists_read_iff : (∃ n, read t = .ok n ∧ -1 ≤ n) ↔ ¬Overlarge (Text.strip t) := by
  constructor
  · rintro ⟨n, hn, -⟩ hoverlarge
    rw [read_of_overlarge hoverlarge] at hn
    cases hn
  · intro h
    by_cases hnamed : Named (Text.strip t)
    · obtain ⟨n, hn⟩ := read_of_not_overlarge hnamed h
      exact ⟨n, hn, by omega⟩
    · exact ⟨-1, read_of_not_named hnamed, Int.le_refl _⟩

theorem read_eq_error_iff : read t = .error .wholeOfInfinity ↔ Overlarge (Text.strip t) := by
  refine ⟨fun h => ?_, read_of_overlarge⟩
  by_contra hsmall
  obtain ⟨n, hn, -⟩ := exists_read_iff.mpr hsmall
  rw [h] at hn
  cases hn

theorem read_eq_neg_one_iff : read t = .ok (-1) ↔ ¬Named (Text.strip t) := by
  constructor
  · intro h hnamed
    by_cases hoverlarge : Overlarge (Text.strip t)
    · rw [read_of_overlarge hoverlarge] at h
      cases h
    · obtain ⟨n, hn⟩ := read_of_not_overlarge hnamed hoverlarge
      rw [hn] at h
      have hneg : (n : Int) = -1 := Except.ok.inj h
      omega
  · exact read_of_not_named

end Read

end Frequency

end ProcessorLoad
