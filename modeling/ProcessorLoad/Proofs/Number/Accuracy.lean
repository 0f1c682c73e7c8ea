import ProcessorLoad.Proofs.Number.Whole

/-!
# How far rounding goes

Rounding moves a quotient by half the spacing of the doubles around it at most, which is at most one
part in `2 ^ 53` of any quotient that is not among the smallest. So a double less than half away
from a whole number is rounded to that whole number.
-/

set_option autoImplicit false

namespace ProcessorLoad

section Accuracy
variable {num den units k : Nat}

theorem twoPow_mul_spacing_le (h : twoPow 52 ≤ units) : twoPow 52 * spacing units ≤ units := by
  have hpos := twoPow_pos 52
  have hlog : 52 ≤ units.log2 := (Nat.le_log2 (by omega)).mpr h
  calc twoPow 52 * spacing units = twoPow units.log2 := by
        rw [spacing, ← twoPow_add, Nat.add_sub_cancel' hlog]
    _ ≤ units := Nat.log2_self_le (by omega)

theorem spacing_le (h : units < twoPow (k + 1)) : spacing units ≤ twoPow (k - 52) := by
  apply twoPow_le_twoPow
  by_cases hzero : units = 0
  · simp [hzero]
  · have hlog := (log2_lt_iff hzero).mpr h
    omega

theorem nearestUnits_near (num : Nat) (hden : 0 < den) :
    2 * ((nearestUnits num den : Int) * den - num).natAbs ≤ den * spacing (num / den) := by
  have hnear := (nearest_roundHalfEven num (Nat.mul_pos hden (spacing_pos (num / den)))).near
  have hscale : (roundHalfEven num (den * spacing (num / den)) : Int)
      * (den * spacing (num / den) : Nat) = (nearestUnits num den : Int) * den := by
    rw [nearestUnits]
    push_cast
    ring
  rwa [hscale] at hnear

theorem nearestUnits_close (hden : 0 < den) (h : twoPow 52 * den ≤ num) :
    twoPow 53 * ((nearestUnits num den : Int) * den - num).natAbs ≤ num := by
  have hdouble : twoPow 53 = twoPow 52 * 2 := rfl
  have hquotient : twoPow 52 ≤ num / den := (Nat.le_div_iff_mul_le hden).mpr h
  calc twoPow 53 * ((nearestUnits num den : Int) * den - num).natAbs
      = twoPow 52 * (2 * ((nearestUnits num den : Int) * den - num).natAbs) := by
        rw [hdouble, Nat.mul_assoc]
    _ ≤ twoPow 52 * (den * spacing (num / den)) :=
      Nat.mul_le_mul_left _ (nearestUnits_near num hden)
    _ = den * (twoPow 52 * spacing (num / den)) := Nat.mul_left_comm _ _ _
    _ ≤ den * (num / den) := Nat.mul_le_mul_left _ (twoPow_mul_spacing_le hquotient)
    _ ≤ num := Nat.mul_div_le num den

end Accuracy

namespace Binary64

theorem mul_unitsPerOne_add_le {n limit : Nat} (hn : n < limit) :
    n * unitsPerOne + unitsPerOne ≤ limit * unitsPerOne := by
  rw [← Nat.succ_mul]
  exact Nat.mul_le_mul_right _ hn

/-- A double less than half away from a whole number is rounded to it. -/
theorem round_ofRatio {num n : Nat} (hn : n < twoPow 51)
    (h : 2 * ((nearestUnits num 1 : Int) - n * unitsPerOne).natAbs < unitsPerOne) :
    (ofRatio false num 1).round = .ok n := by
  have hbound : twoPow 51 * unitsPerOne < overflowUnits := by decide +kernel
  have hplace := mul_unitsPerOne_add_le hn
  have hlt : nearestUnits num 1 < overflowUnits := by omega
  have hsymm : ((n : Int) * unitsPerOne - (nearestUnits num 1 : Int)).natAbs
      = ((nearestUnits num 1 : Int) - n * unitsPerOne).natAbs := by omega
  refine round_eq_ok_iff.mpr ⟨isFinite_ofRatio hlt, _, position_ofRatio hlt, ?_, ?_⟩
  · rw [hsymm]
    exact Nat.le_of_lt h
  · rw [hsymm]
    omega

end Binary64

end ProcessorLoad
