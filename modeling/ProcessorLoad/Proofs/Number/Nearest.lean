import ProcessorLoad.Number.Binary64

/-!
# Rounding stays on its side of every double

A quotient that is at most the unit count of some double is rounded to at most that count, and it is
rounded to the count itself where it equals it. So the quotient of a part by its whole is a number
between 0 and 1.
-/

set_option autoImplicit false

namespace ProcessorLoad

theorem spacing_pos (units : Nat) : 0 < spacing units := twoPow_pos _

theorem spacing_dvd_spacing {a b : Nat} (h : a ≤ b) : spacing a ∣ spacing b := by
  apply twoPow_dvd_twoPow
  by_cases ha : a = 0
  · simp [ha]
  · have hlog : a.log2 ≤ b.log2 :=
      (Nat.le_log2 (by omega)).mpr (Nat.le_trans (Nat.log2_self_le ha) h)
    omega

/-- A quotient that is a unit count with few enough bits is not moved. -/
theorem nearestUnits_mul_right {units den : Nat} (hden : 0 < den) (h : spacing units ∣ units) :
    nearestUnits (units * den) den = units := by
  obtain ⟨k, hk⟩ := h
  have hs := spacing_pos units
  rw [nearestUnits, Nat.mul_div_cancel _ hden]
  have : units * den = k * (den * spacing units) := by
    calc units * den = spacing units * k * den := by rw [← hk]
      _ = k * (den * spacing units) := by ac_rfl
  rw [this, roundHalfEven_mul_right _ (Nat.mul_pos hden hs), Nat.mul_comm, ← hk]

/-- Rounding does not get past a unit count with few enough bits. -/
theorem nearestUnits_le {num den units : Nat} (hden : 0 < den) (hdvd : spacing units ∣ units)
    (h : num ≤ units * den) : nearestUnits num den ≤ units := by
  rcases Nat.lt_or_eq_of_le h with hlt | rfl
  · have hq : num / den < units := Nat.div_lt_of_lt_mul (by rwa [Nat.mul_comm])
    obtain ⟨k, hk⟩ := Nat.dvd_trans (spacing_dvd_spacing (Nat.le_of_lt hq)) hdvd
    have hs := spacing_pos (num / den)
    have hround := roundHalfEven_le num (den * spacing (num / den))
    rw [← Nat.div_div_eq_div_mul] at hround
    have hk' : num / den / spacing (num / den) < k := Nat.div_lt_of_lt_mul (hk ▸ hq)
    calc nearestUnits num den
        ≤ k * spacing (num / den) := Nat.mul_le_mul_right _ (by omega)
      _ = units := by rw [Nat.mul_comm, ← hk]
  · exact Nat.le_of_eq (nearestUnits_mul_right hden hdvd)

theorem spacing_twoPow_dvd (k : Nat) : spacing (twoPow k) ∣ twoPow k := by
  rw [spacing, log2_twoPow]
  exact twoPow_dvd_twoPow (Nat.sub_le _ _)

theorem spacing_unitsPerOne_dvd : spacing unitsPerOne ∣ unitsPerOne := spacing_twoPow_dvd _

theorem twoPow_lt_twoPow {a b : Nat} (h : a < b) : twoPow a < twoPow b :=
  Nat.pow_lt_pow_right (by decide) h

theorem unitsPerOne_lt_overflowUnits : unitsPerOne < overflowUnits :=
  twoPow_lt_twoPow (by decide)

namespace Binary64

def InUnit (x : Binary64) : Prop := (0 : Binary64).le x = true ∧ x.le 1 = true

theorem position_ofRatio {num den : Nat} (h : nearestUnits num den < overflowUnits) :
    (ofRatio false num den).position = some (nearestUnits num den : Int) := by
  rw [ofRatio, dif_pos h]
  rfl

theorem isFinite_ofRatio {negative : Bool} {num den : Nat}
    (h : nearestUnits num den < overflowUnits) : (ofRatio negative num den).isFinite = true := by
  rw [ofRatio, dif_pos h]
  rfl

theorem position_ofNat {n units : Nat} (h : nearestUnits (n * unitsPerOne) 1 = units)
    (hlt : units < overflowUnits) : (ofNat n).position = some (units : Int) := by
  subst h
  rw [ofNat]
  exact position_ofRatio hlt

theorem position_zero : (0 : Binary64).position = some ((0 : Nat) : Int) := by
  refine position_ofNat (n := 0) ?_ overflowUnits_pos
  rw [Nat.zero_mul]
  exact nearestUnits_mul_right Nat.one_pos (Nat.dvd_zero (spacing 0))

theorem position_one : (1 : Binary64).position = some (unitsPerOne : Int) := by
  refine position_ofNat (n := 1) ?_ unitsPerOne_lt_overflowUnits
  rw [Nat.mul_comm]
  exact nearestUnits_mul_right Nat.one_pos spacing_unitsPerOne_dvd

theorem le_iff_of_position {x y : Binary64} {a b : Int} (hx : x.position = some a)
    (hy : y.position = some b) : x.le y = true ↔ a ≤ b := by
  simp [le, hx, hy]

theorem inUnit_of_position {x : Binary64} {units : Nat} (hx : x.position = some (units : Int))
    (h : units ≤ unitsPerOne) : x.InUnit :=
  ⟨(le_iff_of_position position_zero hx).mpr (Int.ofNat_le.mpr (Nat.zero_le _)),
    (le_iff_of_position hx position_one).mpr (Int.ofNat_le.mpr h)⟩

theorem inUnit_zero : InUnit 0 := inUnit_of_position position_zero (Nat.zero_le _)

theorem quotient_natCast (part whole : Nat) :
    quotient part whole = ofRatio false (part * unitsPerOne) whole := by
  have hsign : decide ((part : Int) < 0) = false := by simp
  rw [quotient, hsign, Int.natAbs_natCast]

section Quotient
variable {part whole : Nat}

theorem nearestUnits_part_le (hwhole : 0 < whole) (h : part ≤ whole) :
    nearestUnits (part * unitsPerOne) whole ≤ unitsPerOne := by
  apply nearestUnits_le hwhole spacing_unitsPerOne_dvd
  rw [Nat.mul_comm]
  exact Nat.mul_le_mul_left _ h

theorem isFinite_quotient (hwhole : 0 < whole) (h : part ≤ whole) :
    (quotient part whole).isFinite = true := by
  rw [quotient_natCast]
  apply isFinite_ofRatio
  exact Nat.lt_of_le_of_lt (nearestUnits_part_le hwhole h) unitsPerOne_lt_overflowUnits

theorem inUnit_quotient (hwhole : 0 < whole) (h : part ≤ whole) :
    (quotient part whole).InUnit := by
  have hle := nearestUnits_part_le hwhole h
  rw [quotient_natCast]
  apply inUnit_of_position (position_ofRatio _) hle
  exact Nat.lt_of_le_of_lt hle unitsPerOne_lt_overflowUnits

end Quotient

end Binary64

end ProcessorLoad
