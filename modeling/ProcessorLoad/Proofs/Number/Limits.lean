import Mathlib.Tactic.Ring
import ProcessorLoad.Proofs.Number.Difference

/-!
# What rounds to zero and what overflows

A quotient of at most half a unit is rounded to no unit at all. One that is half way from the
largest finite double to `2 ^ 1024`, or beyond, is rounded out of the range of doubles. Both hold
exactly.
-/

set_option autoImplicit false

namespace ProcessorLoad

section Round
variable {num den : Nat}

theorem roundHalfEven_eq_zero_iff (hden : 0 < den) : roundHalfEven num den = 0 ↔ 2 * num ≤ den := by
  by_cases hlt : num < den
  · simp only [roundHalfEven, Nat.div_eq_of_lt hlt, Nat.mod_eq_of_lt hlt, Nat.zero_mod, if_true]
    repeat' split
    all_goals omega
  · have hwhole : 1 ≤ num / den := (Nat.one_le_div_iff hden).mpr (by omega)
    have hround := le_roundHalfEven num den
    omega

/-- Less than half a step above a whole number, rounding does not get past it. -/
theorem roundHalfEven_le_of_lt {n : Nat} (h : 2 * num < (2 * n + 1) * den) :
    roundHalfEven num den ≤ n := by
  have hparts := Nat.div_add_mod num den
  have hwhole : num / den < n + 1 := by
    apply Nat.div_lt_of_lt_mul
    have hexpand : (2 * n + 1) * den = 2 * (den * n) + den := by ring
    have hnext : den * (n + 1) = den * n + den := by ring
    omega
  rcases Nat.lt_or_eq_of_le (Nat.lt_succ_iff.mp hwhole) with hlt | heq
  · have hround := roundHalfEven_le num den
    omega
  · have hrest : 2 * (num % den) < den := by
      have hexpand : (2 * n + 1) * den = 2 * (den * n) + den := by ring
      rw [heq] at hparts
      omega
    rw [roundHalfEven, if_pos hrest, heq]

theorem roundHalfEven_mul_mul (num den : Nat) {k : Nat} (hk : 0 < k) :
    roundHalfEven (num * k) (den * k) = roundHalfEven num den := by
  have hless : 2 * (num % den * k) < den * k ↔ 2 * (num % den) < den := by
    rw [← Nat.mul_assoc, Nat.mul_lt_mul_right hk]
  have hmore : den * k < 2 * (num % den * k) ↔ den < 2 * (num % den) := by
    rw [← Nat.mul_assoc, Nat.mul_lt_mul_right hk]
  simp only [roundHalfEven, Nat.mul_div_mul_right _ _ hk, Nat.mul_mod_mul_right, hless, hmore]

theorem nearestUnits_mul_mul (num den : Nat) {k : Nat} (hk : 0 < k) :
    nearestUnits (num * k) (den * k) = nearestUnits num den := by
  have hcomm : den * k * spacing (num / den) = den * spacing (num / den) * k := by ring
  rw [nearestUnits, nearestUnits, Nat.mul_div_mul_right _ _ hk, hcomm, roundHalfEven_mul_mul _ _ hk]

theorem nearestUnits_eq_zero_iff (hden : 0 < den) : nearestUnits num den = 0 ↔ 2 * num ≤ den := by
  by_cases hlt : num < den
  · have hspacing : spacing (num / den) = 1 := by
      rw [Nat.div_eq_of_lt hlt]
      decide
    rw [nearestUnits, hspacing, Nat.mul_one, Nat.mul_one, roundHalfEven_eq_zero_iff hden]
  · have hwhole : num / den ≠ 0 := by
      rw [Nat.div_ne_zero_iff]
      omega
    have hpos := twoPow_pos (num / den).log2
    have hround := twoPow_log2_le_nearestUnits hwhole
    omega

end Round

/-- Half way from the largest finite double to `2 ^ 1024`. -/
def quotientLimit : Nat := twoPow 1024 - twoPow 970

theorem quotientLimit_pos : 0 < quotientLimit := by decide +kernel

theorem log2_eq_of_lt {n k : Nat} (hle : twoPow k ≤ n) (hlt : n < twoPow (k + 1)) : n.log2 = k := by
  have hpos := twoPow_pos k
  have hne : n ≠ 0 := by omega
  apply Nat.le_antisymm
  · exact Nat.lt_succ_iff.mp ((log2_lt_iff hne).mpr hlt)
  · exact Nat.not_lt.mp fun h => Nat.not_lt.mpr hle ((log2_lt_iff hne).mp h)

/-- A quotient below the limit is not rounded up to `2 ^ 1024`. -/
theorem nearestUnits_lt_overflowUnits {num den : Nat} (hden : 0 < den)
    (h : num < quotientLimit * unitsPerOne * den) : nearestUnits num den < overflowUnits := by
  by_cases hlow : num / den < twoPow 2097
  · have hle : num ≤ twoPow 2097 * den := by
      have := (Nat.div_lt_iff_lt_mul hden).mp hlow
      omega
    have hround := nearestUnits_le hden (spacing_twoPow_dvd 2097) hle
    exact Nat.lt_of_le_of_lt hround (twoPow_lt_twoPow (by decide))
  · -- In the last power of two the spacing is `2 ^ 2045`.
    have hlimit : quotientLimit * unitsPerOne = (2 * (twoPow 53 - 1) + 1) * twoPow 2044 := by
      decide +kernel
    have hhigh : num / den < twoPow 2098 := by
      apply (Nat.div_lt_iff_lt_mul hden).mpr
      refine Nat.lt_of_lt_of_le h (Nat.mul_le_mul_right den ?_)
      decide +kernel
    have hspacing : spacing (num / den) = 2 * twoPow 2044 := by
      rw [spacing, log2_eq_of_lt (Nat.not_lt.mp hlow) hhigh]
      decide +kernel
    have hround : roundHalfEven num (den * spacing (num / den)) ≤ twoPow 53 - 1 := by
      apply roundHalfEven_le_of_lt
      rw [hspacing]
      rw [hlimit] at h
      calc 2 * num < 2 * ((2 * (twoPow 53 - 1) + 1) * twoPow 2044 * den) := by omega
        _ = (2 * (twoPow 53 - 1) + 1) * (den * (2 * twoPow 2044)) := by ring
    calc nearestUnits num den ≤ (twoPow 53 - 1) * spacing (num / den) :=
          Nat.mul_le_mul_right _ hround
      _ < overflowUnits := by
        rw [hspacing]
        decide +kernel

theorem overflowUnits_le_nearestUnits_iff {num den : Nat} (hden : 0 < den) :
    overflowUnits ≤ nearestUnits num den ↔ quotientLimit * unitsPerOne * den ≤ num := by
  constructor
  · intro h
    refine Nat.not_lt.mp fun hlt => ?_
    exact Nat.not_le.mpr (nearestUnits_lt_overflowUnits hden hlt) h
  · intro h
    have hedge : nearestUnits (quotientLimit * unitsPerOne) 1 = overflowUnits := by decide +kernel
    have hround := nearestUnits_mono den h
    have hscaled := nearestUnits_mul_mul (quotientLimit * unitsPerOne) 1 hden
    rw [Nat.one_mul] at hscaled
    rwa [hscaled, hedge] at hround

namespace Binary64

theorem isFinite_ofRatio_iff {negative : Bool} {num den : Nat} :
    (ofRatio negative num den).isFinite = true ↔ nearestUnits num den < overflowUnits := by
  unfold ofRatio
  split
  next h => simp [isFinite, h]
  next h => simp [isFinite, h]

theorem isFinite_quotient_iff {part : Int} {whole : Nat} (hwhole : 0 < whole) :
    (quotient part whole).isFinite = true ↔ part.natAbs < quotientLimit * whole := by
  have hcomm : quotientLimit * unitsPerOne * whole = quotientLimit * whole * unitsPerOne := by ring
  rw [quotient, isFinite_ofRatio_iff, ← Nat.not_le, overflowUnits_le_nearestUnits_iff hwhole, hcomm,
    Nat.mul_le_mul_right_iff unitsPerOne_pos, Nat.not_le]

/-- A quotient below zero is at zero just if it is rounded to no unit at all. -/
theorem position_quotient_of_neg {part : Int} {whole : Nat} (hpart : part < 0)
    (hfinite : (quotient part whole).isFinite = true) :
    (quotient part whole).position
      = some (-(nearestUnits (part.natAbs * unitsPerOne) whole : Int)) := by
  rw [quotient, isFinite_ofRatio_iff] at hfinite
  rw [quotient, position_ofRatio_capped, capped, if_pos hfinite, decide_eq_true hpart,
    signedNat, if_pos rfl]

section BelowZero
variable {part : Int} {whole : Nat}

theorem nearestUnits_part_eq_zero_iff (hwhole : 0 < whole) :
    nearestUnits (part.natAbs * unitsPerOne) whole = 0 ↔ twoPow 1075 * part.natAbs ≤ whole := by
  have hdouble : twoPow 1075 = 2 * unitsPerOne := by decide +kernel
  have hcomm : 2 * (part.natAbs * unitsPerOne) = 2 * unitsPerOne * part.natAbs := by ring
  rw [nearestUnits_eq_zero_iff hwhole, hdouble, hcomm]

/-- A double takes a quotient below zero for zero if it is at most half the smallest double. -/
theorem inUnit_quotient_of_neg_iff (hpart : part < 0) (hwhole : 0 < whole)
    (hfinite : (quotient part whole).isFinite = true) :
    (quotient part whole).InUnit ↔ twoPow 1075 * part.natAbs ≤ whole := by
  have hposition := position_quotient_of_neg hpart hfinite
  rw [InUnit, le_iff_of_position position_zero hposition,
    le_iff_of_position hposition position_one, ← nearestUnits_part_eq_zero_iff hwhole]
  omega

theorem quotient_lt_zero_iff (hpart : part < 0) (hwhole : 0 < whole)
    (hfinite : (quotient part whole).isFinite = true) :
    (quotient part whole).lt 0 = true ↔ whole < twoPow 1075 * part.natAbs := by
  have hzero : nearestUnits (part.natAbs * unitsPerOne) whole = 0 ↔ _ :=
    nearestUnits_part_eq_zero_iff hwhole
  rw [lt, position_quotient_of_neg hpart hfinite, position_zero]
  simp only [decide_eq_true_eq]
  omega

theorem InUnit.not_lt_zero {x : Binary64} (h : x.InUnit) : ¬ x.lt 0 = true := by
  have hle := h.1
  rw [le, position_zero] at hle
  rw [lt, position_zero]
  cases hposition : x.position with
  | none => simp
  | some n =>
    simp only [hposition, decide_eq_true_eq] at hle ⊢
    omega

end BelowZero

end Binary64

end ProcessorLoad
