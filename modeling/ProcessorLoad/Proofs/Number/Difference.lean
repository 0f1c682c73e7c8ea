import ProcessorLoad.Proofs.Number.Nearest

/-!
# Differences of doubles

Rounding follows the order of what is rounded. So a difference does not get smaller when its first
number grows, however often doubles were rounded on the way, and taking off zero moves nothing.
-/

set_option autoImplicit false

namespace ProcessorLoad

theorem roundHalfEven_mono {a b : Nat} (den : Nat) (h : a ≤ b) :
    roundHalfEven a den ≤ roundHalfEven b den := by
  have hdiv : a / den ≤ b / den := Nat.div_le_div_right h
  rcases Nat.lt_or_eq_of_le hdiv with hlt | heq
  · calc roundHalfEven a den ≤ a / den + 1 := roundHalfEven_le a den
      _ ≤ b / den := hlt
      _ ≤ roundHalfEven b den := le_roundHalfEven b den
  · -- Between the same two whole numbers the rests are in order.
    have hrest : a % den ≤ b % den := by
      have ha := Nat.div_add_mod a den
      have hb := Nat.div_add_mod b den
      rw [heq] at ha
      omega
    unfold roundHalfEven
    simp only [heq]
    repeat' split
    all_goals omega

/-- The power of two below a quotient is a unit count, so rounding does not get below it. -/
theorem twoPow_log2_le_nearestUnits {num den : Nat} (h : num / den ≠ 0) :
    twoPow (num / den).log2 ≤ nearestUnits num den := by
  have hle : twoPow (num / den).log2 ≤ num / den := Nat.log2_self_le h
  obtain ⟨k, hk⟩ : spacing (num / den) ∣ twoPow (num / den).log2 :=
    twoPow_dvd_twoPow (Nat.sub_le _ _)
  have hkle : k ≤ roundHalfEven num (den * spacing (num / den)) := by
    refine Nat.le_trans ?_ (le_roundHalfEven _ _)
    rw [← Nat.div_div_eq_div_mul, Nat.le_div_iff_mul_le (spacing_pos _), Nat.mul_comm, ← hk]
    exact hle
  calc twoPow (num / den).log2 = k * spacing (num / den) := by rw [hk, Nat.mul_comm]
    _ ≤ nearestUnits num den := Nat.mul_le_mul_right _ hkle

theorem nearestUnits_mono {a b : Nat} (den : Nat) (h : a ≤ b) :
    nearestUnits a den ≤ nearestUnits b den := by
  have hdiv : a / den ≤ b / den := Nat.div_le_div_right h
  by_cases hlog : (a / den).log2 < (b / den).log2
  · -- The power of two between the quotients stays between them.
    have hden : 0 < den := by
      rcases Nat.eq_zero_or_pos den with rfl | hden
      · simp at hlog
      · exact hden
    have hb : b / den ≠ 0 := by
      intro h0
      simp [h0] at hlog
    have ha : a / den < twoPow (b / den).log2 :=
      Nat.lt_of_lt_of_le (lt_twoPow_log2 _) (twoPow_le_twoPow hlog)
    have hle : a ≤ twoPow (b / den).log2 * den := by
      have := (Nat.div_lt_iff_lt_mul hden).mp ha
      omega
    exact Nat.le_trans (nearestUnits_le hden (spacing_twoPow_dvd _) hle)
      (twoPow_log2_le_nearestUnits hb)
  · have hspacing : spacing (a / den) = spacing (b / den) := by
      apply Nat.dvd_antisymm (spacing_dvd_spacing hdiv)
      exact twoPow_dvd_twoPow (by omega)
    rw [nearestUnits, nearestUnits, hspacing]
    exact Nat.mul_le_mul_right _ (roundHalfEven_mono _ h)

namespace Binary64

/-- Rounded unit counts, where what reaches `2 ^ 1024` stands for an infinity. -/
def capped (units : Nat) : Nat := if units < overflowUnits then units else overflowUnits

theorem capped_mono {a b : Nat} (h : a ≤ b) : capped a ≤ capped b := by
  unfold capped
  split <;> split <;> omega

theorem position_ofRatio_capped (negative : Bool) (num den : Nat) :
    (ofRatio negative num den).position
      = some (signedNat negative (capped (nearestUnits num den))) := by
  unfold ofRatio capped
  split
  next h => rfl
  next h => cases negative <;> rfl

/-- The place of the double nearest to a quotient of units. -/
def quotientPlace (n : Int) (den : Nat) : Int :=
  signedNat (decide (n < 0)) (capped (nearestUnits n.natAbs den))

theorem quotientPlace_mono {a b : Int} (den : Nat) (h : a ≤ b) :
    quotientPlace a den ≤ quotientPlace b den := by
  unfold quotientPlace signedNat
  by_cases ha : a < 0
  · by_cases hb : b < 0
    · have hround : b.natAbs ≤ a.natAbs := by omega
      have := capped_mono (nearestUnits_mono den hround)
      simp only [ha, hb, decide_true, if_true]
      omega
    · simp only [ha, hb, decide_true, decide_false, if_true, Bool.false_eq_true, if_false]
      omega
  · have hb : ¬b < 0 := by omega
    have hround : a.natAbs ≤ b.natAbs := by omega
    have := capped_mono (nearestUnits_mono den hround)
    simp only [ha, hb, decide_false, Bool.false_eq_true, if_false]
    omega

/-- The place of the double nearest to a whole number of units. -/
def nearestPlace (n : Int) : Int :=
  signedNat (decide (n < 0)) (capped (nearestUnits n.natAbs 1))

theorem nearestPlace_mono {a b : Int} (h : a ≤ b) : nearestPlace a ≤ nearestPlace b :=
  quotientPlace_mono 1 h

theorem nearestUnits_zero : nearestUnits 0 1 = 0 := by
  have h : nearestUnits (0 * 1) 1 = 0 := nearestUnits_mul_right Nat.one_pos (Nat.dvd_zero _)
  rwa [Nat.zero_mul] at h

theorem nearestPlace_zero : nearestPlace 0 = 0 := by
  simp [nearestPlace, nearestUnits_zero, signedNat, capped, overflowUnits_pos]

theorem nearestPlace_signed (negative : Bool) (size : Magnitude) :
    nearestPlace (size.signed negative) = size.signed negative := by
  have habs : (size.signed negative).natAbs = size.units := by
    cases negative <;> simp [Magnitude.signed]
  have hround : nearestUnits size.units 1 = size.units := by
    have h := nearestUnits_mul_right Nat.one_pos size.representable.spacing_dvd
    rwa [Nat.mul_one] at h
  rw [nearestPlace, habs, hround, capped, if_pos size.representable.lt_overflow]
  cases negative with
  | false =>
    have hsign : ¬(size.units : Int) < 0 := by omega
    simp [Magnitude.signed, signedNat, hsign]
  | true =>
    simp only [Magnitude.signed, signedNat, if_true, decide_eq_true_eq]
    split <;> omega

theorem isFinite_iff {x : Binary64} : x.isFinite = true ↔ ∃ s m, x = finite s m := by
  cases x with
  | finite s m => simp [isFinite]
  | _ => simp [isFinite]

theorem position_of_isFinite {x : Binary64} (h : x.isFinite = true) :
    ∃ a, x.position = some a ∧ nearestPlace a = a := by
  obtain ⟨s, m, rfl⟩ := isFinite_iff.mp h
  exact ⟨m.signed s, rfl, nearestPlace_signed s m⟩

theorem position_of_isNaN {x : Binary64} (h : x.isNaN = false) : ∃ a, x.position = some a := by
  cases x with
  | nan => cases h
  | infinity s => cases s <;> exact ⟨_, rfl⟩
  | finite s m => exact ⟨_, rfl⟩

theorem isFinite_ofNat {n : Nat} (h : nearestUnits (n * unitsPerOne) 1 < overflowUnits) :
    (ofNat n).isFinite = true := isFinite_ofRatio h

theorem isFinite_zero : (0 : Binary64).isFinite = true := by
  refine isFinite_ofNat (n := 0) ?_
  rw [Nat.zero_mul, nearestUnits_zero]
  exact overflowUnits_pos

/-- The difference of finite doubles is rounded once, from the exact difference. -/
theorem position_sub {x y : Binary64} {a b : Int} (hx : x.isFinite = true) (hy : y.isFinite = true)
    (hxa : x.position = some a) (hyb : y.position = some b) :
    (x - y).position = some (nearestPlace (a - b)) := by
  obtain ⟨s, m, rfl⟩ := isFinite_iff.mp hx
  obtain ⟨t, n, rfl⟩ := isFinite_iff.mp hy
  cases hxa
  cases hyb
  have hneg : n.signed (!t) = -n.signed t := by cases t <;> simp [Magnitude.signed]
  change (add (finite s m) (finite (!t) n)).position = _
  simp only [add, hneg, ← Int.sub_eq_add_neg]
  split
  next h =>
    rw [h, nearestPlace_zero]
    simp [position, Magnitude.signed, Magnitude.zero]
  next h => exact position_ofRatio_capped _ _ _

theorem lt_iff_of_position {x y : Binary64} {a b : Int} (hx : x.position = some a)
    (hy : y.position = some b) : x.lt y = true ↔ a < b := by
  simp [lt, hx, hy]

theorem position_of_le {x y : Binary64} (h : x.le y = true) :
    ∃ a b, x.position = some a ∧ y.position = some b ∧ a ≤ b := by
  unfold le at h
  split at h
  next a b hx hy => exact ⟨a, b, hx, hy, of_decide_eq_true h⟩
  next => cases h

theorem le_refl {x : Binary64} (h : x.isFinite = true) : x.le x = true := by
  obtain ⟨a, hx, -⟩ := position_of_isFinite h
  exact (le_iff_of_position hx hx).mpr (Int.le_refl a)

theorem isNaN_of_isFinite {x : Binary64} (h : x.isFinite = true) : x.isNaN = false := by
  obtain ⟨s, m, rfl⟩ := isFinite_iff.mp h
  rfl

theorem isNaN_of_le {x y : Binary64} (h : x.le y = true) : y.isNaN = false := by
  obtain ⟨a, b, -, hy, -⟩ := position_of_le h
  cases y with
  | nan => cases hy
  | _ => rfl

theorem le_eq_false_iff {x y : Binary64} (hx : x.isNaN = false) (hy : y.isNaN = false) :
    x.le y = false ↔ y.lt x = true := by
  obtain ⟨a, ha⟩ := position_of_isNaN hx
  obtain ⟨b, hb⟩ := position_of_isNaN hy
  rw [← Bool.not_eq_true, le_iff_of_position ha hb, lt_iff_of_position hb ha]
  omega

theorem lt_eq_false_iff {x y : Binary64} (hx : x.isNaN = false) (hy : y.isNaN = false) :
    x.lt y = false ↔ y.le x = true := by
  obtain ⟨a, ha⟩ := position_of_isNaN hx
  obtain ⟨b, hb⟩ := position_of_isNaN hy
  rw [← Bool.not_eq_true, lt_iff_of_position ha hb, le_iff_of_position hb ha]
  omega

section Difference
variable {x y z w : Binary64}

theorem isNaN_sub (hx : x.isFinite = true) (hy : y.isFinite = true) : (x - y).isNaN = false := by
  obtain ⟨a, hxa, -⟩ := position_of_isFinite hx
  obtain ⟨b, hyb, -⟩ := position_of_isFinite hy
  have h := position_sub hx hy hxa hyb
  cases hxy : x - y with
  | nan =>
    rw [hxy] at h
    cases h
  | _ => rfl

theorem lt_sub_of_le (hz : z.isFinite = true) (hx : x.isFinite = true) (hy : y.isFinite = true)
    (hxy : x.le y = true) (h : w.lt (x - z) = true) : w.lt (y - z) = true := by
  obtain ⟨a, b, hxa, hyb, hab⟩ := position_of_le hxy
  obtain ⟨c, hzc, -⟩ := position_of_isFinite hz
  have hxz := position_sub hx hz hxa hzc
  have hyz := position_sub hy hz hyb hzc
  have hle : nearestPlace (a - c) ≤ nearestPlace (b - c) := nearestPlace_mono (by omega)
  cases hw : w.position with
  | none => simp [lt, hw] at h
  | some d =>
    rw [lt_iff_of_position hw hxz] at h
    rw [lt_iff_of_position hw hyz]
    omega

theorem position_sub_zero (hx : x.isFinite = true) : (x - 0).position = x.position := by
  obtain ⟨a, hxa, ha⟩ := position_of_isFinite hx
  have h := position_sub hx isFinite_zero hxa position_zero
  rw [h, hxa, Int.natCast_zero, Int.sub_zero, ha]

theorem sub_zero_le (hx : x.isFinite = true) : (x - 0).le y = x.le y := by
  unfold le
  rw [position_sub_zero hx]

theorem position_of_eq (h : x.eq y = true) : x.position = y.position := by
  unfold eq at h
  split at h
  next a b hx hy => rw [hx, hy, of_decide_eq_true h]
  next => cases h

/-- Equal times are as far from any other one, even from one that is not finite. -/
theorem position_sub_congr (hx : x.isFinite = true) (hy : y.isFinite = true) (h : x.eq y = true)
    (z : Binary64) : (x - z).position = (y - z).position := by
  cases hz : z.isFinite with
  | true =>
    obtain ⟨a, hxa, -⟩ := position_of_isFinite hx
    obtain ⟨c, hzc, -⟩ := position_of_isFinite hz
    rw [position_sub hx hz hxa hzc, position_sub hy hz (position_of_eq h ▸ hxa) hzc]
  | false =>
    obtain ⟨s, m, rfl⟩ := isFinite_iff.mp hx
    obtain ⟨t, n, rfl⟩ := isFinite_iff.mp hy
    cases z with
    | nan => rfl
    | infinity u => rfl
    | finite u k => cases hz

theorem sub_le_congr (hx : x.isFinite = true) (hy : y.isFinite = true) (h : x.eq y = true)
    (z w : Binary64) : (x - z).le w = (y - z).le w := by
  unfold le
  rw [position_sub_congr hx hy h z]

theorem sub_le_of_eq (hx : x.isFinite = true) (hy : y.isFinite = true) (h : x.eq y = true)
    (hw : (0 : Binary64).le w = true) : (x - y).le w = true := by
  obtain ⟨a, hxa, -⟩ := position_of_isFinite hx
  have hdifference := position_sub hx hy hxa (position_of_eq h ▸ hxa)
  rw [Int.sub_self, nearestPlace_zero] at hdifference
  unfold le at hw ⊢
  rw [position_zero, Int.natCast_zero] at hw
  rwa [hdifference]

theorem cases_of_position {a : Int} (ha : a ≠ 0) (hx : x.position = some a) :
    (x = infinity (decide (a < 0)) ∧ a.natAbs = overflowUnits) ∨
      ∃ m : Magnitude, x = finite (decide (a < 0)) m ∧ a.natAbs = m.units := by
  have hlimit := overflowUnits_pos
  cases x with
  | nan => cases hx
  | infinity s =>
    cases s with
    | false =>
      obtain rfl : (overflowUnits : Int) = a := Option.some.inj hx
      have hpos : ¬(overflowUnits : Int) < 0 := by omega
      exact .inl ⟨by rw [decide_eq_false hpos], Int.natAbs_natCast _⟩
    | true =>
      obtain rfl : -(overflowUnits : Int) = a := Option.some.inj hx
      have hneg : -(overflowUnits : Int) < 0 := by omega
      exact .inl ⟨by rw [decide_eq_true hneg], by rw [Int.natAbs_neg, Int.natAbs_natCast]⟩
  | finite s m =>
    refine .inr ⟨m, ?_⟩
    cases s with
    | false =>
      obtain rfl : (m.units : Int) = a := Option.some.inj hx
      exact ⟨by simp, Int.natAbs_natCast _⟩
    | true =>
      obtain rfl : -(m.units : Int) = a := Option.some.inj hx
      have hneg : -(m.units : Int) < 0 := by omega
      exact ⟨by rw [decide_eq_true hneg], by rw [Int.natAbs_neg, Int.natAbs_natCast]⟩

/-- Away from zero there is one double at a place. -/
theorem eq_of_position {a : Int} (ha : a ≠ 0) (hx : x.position = some a)
    (hy : y.position = some a) :
    x = y := by
  rcases cases_of_position ha hx with ⟨rfl, hlimit⟩ | ⟨m, rfl, hm⟩
  · rcases cases_of_position ha hy with ⟨rfl, -⟩ | ⟨n, -, hn⟩
    · rfl
    · have hlt := n.representable.lt_overflow
      omega
  · rcases cases_of_position ha hy with ⟨-, hlimit⟩ | ⟨n, rfl, hn⟩
    · have hlt := m.representable.lt_overflow
      omega
    · obtain ⟨units, hunits⟩ := m
      obtain rfl : units = n.units := hm.symm.trans hn
      rfl

theorem max_eq_right (hpositive : (0 : Binary64).lt x = true) (h : x.le y = true) :
    x.max y = y := by
  obtain ⟨a, b, hxa, hyb, hab⟩ := position_of_le h
  have ha : 0 < a := (lt_iff_of_position position_zero hxa).mp hpositive
  unfold max
  split
  next => rfl
  next hlt =>
    have hba : b ≤ a := by
      rw [lt_iff_of_position hxa hyb] at hlt
      omega
    obtain rfl : a = b := Int.le_antisymm hab hba
    exact eq_of_position (by omega) hxa hyb

end Difference

end Binary64

end ProcessorLoad
