import ProcessorLoad.Number.Decimal
import ProcessorLoad.Proofs.Number.Limits

/-!
# Decimal fractions as quotients

The shortcut for very small decimal fractions leads to the double that the exact quotient is rounded
to. So a decimal fraction is its digits by a power of ten, rounded once.
-/

set_option autoImplicit false

namespace ProcessorLoad

theorem tenPow_add (j k : Nat) : tenPow (j + k) = tenPow j * tenPow k := Nat.pow_add 10 j k

namespace Binary64

theorem ofRatio_eq_finite {negative : Bool} {num den : Nat} {size : Magnitude}
    (h : nearestUnits num den = size.units) : ofRatio negative num den = .finite negative size := by
  have hlt : nearestUnits num den < overflowUnits := h ▸ size.representable.lt_overflow
  obtain ⟨units, hunits⟩ := size
  subst h
  rw [ofRatio, dif_pos hlt]

/-- A fraction below the bottom is rounded to zero. -/
theorem nearestUnits_of_tiny {significand digits places : Nat}
    (hdigits : significand < tenPow digits) (htiny : digits + 330 < places) :
    nearestUnits (significand * unitsPerOne) (tenPow places) = 0 := by
  have hbottom : 2 * unitsPerOne ≤ tenPow 330 := by decide +kernel
  apply (nearestUnits_eq_zero_iff (tenPow_pos places)).mpr
  calc 2 * (significand * unitsPerOne) = significand * (2 * unitsPerOne) := by ring
    _ ≤ tenPow digits * tenPow 330 := Nat.mul_le_mul (Nat.le_of_lt hdigits) hbottom
    _ = tenPow (digits + 330) := (tenPow_add digits 330).symm
    _ ≤ tenPow places := tenPow_le_tenPow (Nat.le_of_lt htiny)

theorem ofDecimal_eq_quotient {significand digits : Nat} (places : Nat)
    (hdigits : significand < tenPow digits) :
    ofDecimal false significand digits (-(places : Int))
      = quotient significand (tenPow places) := by
  rw [quotient_natCast, ofDecimal]
  split
  next hzero =>
    have hunits : nearestUnits (significand * unitsPerOne) (tenPow places) = 0 := by
      rcases hzero with rfl | htiny
      · rw [Nat.zero_mul]
        exact (nearestUnits_eq_zero_iff (tenPow_pos places)).mpr (Nat.zero_le _)
      · rw [bottomExponent] at htiny
        exact nearestUnits_of_tiny hdigits (by omega)
    exact (ofRatio_eq_finite hunits).symm
  next =>
    have hone : tenPow (-(places : Int)).toNat = 1 := by
      rw [Int.toNat_eq_zero.mpr (by omega)]
      rfl
    rw [topExponent, if_neg (by omega), hone, Nat.mul_one, neg_neg, Int.toNat_natCast]

end Binary64

end ProcessorLoad
