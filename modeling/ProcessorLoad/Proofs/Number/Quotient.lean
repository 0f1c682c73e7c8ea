import ProcessorLoad.Proofs.Number.Limits

/-!
# Quotients and products in order

A quotient of whole numbers is rounded from the exact ratio, so it does not depend on the terms that
the ratio is given in, and of two ratios the smaller one is never rounded to the larger number. A
product is rounded once as well, so a factor that is not negative keeps the order.
-/

set_option autoImplicit false

namespace ProcessorLoad

/-- Ratios are compared by cross-products. -/
theorem nearestUnits_le_of_ratio {a b c d : Nat} (hb : 0 < b) (hd : 0 < d) (h : a * d ≤ c * b) :
    nearestUnits a b ≤ nearestUnits c d := by
  calc nearestUnits a b = nearestUnits (a * d) (b * d) := (nearestUnits_mul_mul a b hd).symm
    _ ≤ nearestUnits (c * b) (b * d) := nearestUnits_mono (b * d) h
    _ = nearestUnits (c * b) (d * b) := by rw [Nat.mul_comm b d]
    _ = nearestUnits c d := nearestUnits_mul_mul c d hb

namespace Binary64

theorem ofRatio_mul_mul (negative : Bool) (num den : Nat) {k : Nat} (hk : 0 < k) :
    ofRatio negative (num * k) (den * k) = ofRatio negative num den := by
  simp only [ofRatio, nearestUnits_mul_mul num den hk]

theorem quotient_mul_mul (part : Int) (whole : Nat) {k : Nat} (hk : 0 < k) :
    quotient (k * part) (k * whole) = quotient part whole := by
  have hpos : (0 : Int) < k := Int.natCast_pos.mpr hk
  have hsign : decide ((k : Int) * part < 0) = decide (part < 0) := by
    rw [decide_eq_decide, Int.mul_neg_iff]
    omega
  have hsize : ((k : Int) * part).natAbs * unitsPerOne = part.natAbs * unitsPerOne * k := by
    rw [Int.natAbs_mul, Int.natAbs_natCast]
    ring
  rw [quotient, quotient, hsign, hsize, Nat.mul_comm k whole, ofRatio_mul_mul _ _ _ hk]

theorem quotient_natCast_one (n : Nat) : quotient n 1 = ofNat n := by rw [quotient_natCast, ofNat]

theorem quotient_zero {whole : Nat} (h : 0 < whole) : quotient (0 : Nat) whole = 0 := by
  have hscaled := quotient_mul_mul (0 : Nat) 1 h
  rw [Int.natCast_zero, Int.mul_zero, Nat.mul_one] at hscaled
  exact hscaled.trans (quotient_natCast_one 0)

theorem quotient_self {whole : Nat} (h : 0 < whole) : quotient whole whole = 1 := by
  have hscaled := quotient_mul_mul (1 : Nat) 1 h
  rw [Int.natCast_one, Int.mul_one, Nat.mul_one] at hscaled
  exact hscaled.trans (quotient_natCast_one 1)

theorem quotient_le_quotient {a b c d : Nat} (hb : 0 < b) (hd : 0 < d) (h : a * d ≤ c * b) :
    (quotient a b).le (quotient c d) = true := by
  have hcross : a * unitsPerOne * d ≤ c * unitsPerOne * b := by
    calc a * unitsPerOne * d = a * d * unitsPerOne := by ring
      _ ≤ c * b * unitsPerOne := Nat.mul_le_mul_right _ h
      _ = c * unitsPerOne * b := by ring
  rw [quotient_natCast, quotient_natCast,
    le_iff_of_position (position_ofRatio_capped ..) (position_ofRatio_capped ..)]
  exact Int.ofNat_le.mpr (capped_mono (nearestUnits_le_of_ratio hb hd hcross))

theorem quotientPlace_signedNat (negative : Bool) (units : Nat) {den : Nat} (hden : 0 < den) :
    quotientPlace (signedNat negative units) den
      = signedNat negative (capped (nearestUnits units den)) := by
  have habs : (signedNat negative units).natAbs = units := by cases negative <;> simp [signedNat]
  rw [quotientPlace, habs]
  cases negative with
  | false =>
    have hsign : ¬signedNat false units < 0 := by simp [signedNat]
    rw [decide_eq_false hsign]
  | true =>
    rcases Nat.eq_zero_or_pos units with rfl | hpos
    · -- Zero has two signs and one place.
      have hzero : nearestUnits 0 den = 0 := (nearestUnits_eq_zero_iff hden).mpr (by omega)
      have hcapped : capped 0 = 0 := by simp [capped, overflowUnits_pos]
      rw [hzero, hcapped]
      rfl
    · have hsign : signedNat true units < 0 := by
        simp only [signedNat, if_true]
        omega
      rw [decide_eq_true hsign]

theorem finite_mul_finite (s t : Bool) (a b : Magnitude) :
    finite s a * finite t b = ofRatio (s != t) (a.units * b.units) unitsPerOne := by
  change mul (finite s a) (finite t b) = _
  rw [mul]

theorem infinity_mul_finite (s t : Bool) {b : Magnitude} (h : b.units ≠ 0) :
    infinity s * finite t b = infinity (s != t) := if_neg h

/-- The product of finite doubles is rounded once, from the exact product. -/
theorem position_mul {x y : Binary64} {a b : Int} (hx : x.isFinite = true) (hy : y.isFinite = true)
    (hxa : x.position = some a) (hyb : y.position = some b) :
    (x * y).position = some (quotientPlace (a * b) unitsPerOne) := by
  obtain ⟨s, m, rfl⟩ := isFinite_iff.mp hx
  obtain ⟨t, n, rfl⟩ := isFinite_iff.mp hy
  cases hxa
  cases hyb
  have hproduct : m.signed s * n.signed t = signedNat (s != t) (m.units * n.units) := by
    cases s <;> cases t <;> simp [Magnitude.signed, signedNat]
  rw [hproduct, quotientPlace_signedNat _ _ unitsPerOne_pos, finite_mul_finite,
    position_ofRatio_capped]

theorem mul_le_mul {x y c : Binary64} (hx : x.isFinite = true) (hy : y.isFinite = true)
    (hc : c.isFinite = true) (hpos : (0 : Binary64).le c = true) (h : x.le y = true) :
    (x * c).le (y * c) = true := by
  obtain ⟨a, b, hxa, hyb, hab⟩ := position_of_le h
  obtain ⟨k, hk, -⟩ := position_of_isFinite hc
  have hnonneg : ((0 : Nat) : Int) ≤ k := (le_iff_of_position position_zero hk).mp hpos
  rw [le_iff_of_position (position_mul hx hc hxa hk) (position_mul hy hc hyb hk)]
  exact quotientPlace_mono _ (Int.mul_le_mul_of_nonneg_right hab hnonneg)

theorem isFinite_of_mul {x y : Binary64} (h : (x * y).isFinite = true) : x.isFinite = true := by
  cases x with
  | finite s m => rfl
  | nan => cases h
  | infinity s =>
    cases y with
    | nan => cases h
    | infinity t => cases h
    | finite t n =>
      change (if n.units = 0 then nan else infinity (s != t)).isFinite = true at h
      split at h <;> cases h

end Binary64

end ProcessorLoad
