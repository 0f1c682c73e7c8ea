/-!
# Powers and rounding

The powers that number formats are made of, and the nearest whole number to a quotient. Every
inexact number of this library is an exact quotient that went through `roundHalfEven` once.
-/

set_option autoImplicit false

namespace ProcessorLoad

def twoPow (k : Nat) : Nat := Nat.pow 2 k

def tenPow (k : Nat) : Nat := Nat.pow 10 k

theorem twoPow_pos (k : Nat) : 0 < twoPow k := Nat.two_pow_pos k

theorem twoPow_add (j k : Nat) : twoPow (j + k) = twoPow j * twoPow k := Nat.pow_add 2 j k

theorem twoPow_le_twoPow {j k : Nat} (h : j ≤ k) : twoPow j ≤ twoPow k :=
  Nat.pow_le_pow_right (by decide) h

theorem twoPow_dvd_twoPow {j k : Nat} (h : j ≤ k) : twoPow j ∣ twoPow k := Nat.pow_dvd_pow 2 h

theorem log2_twoPow (k : Nat) : (twoPow k).log2 = k := Nat.log2_two_pow

theorem log2_lt_iff {n k : Nat} (h : n ≠ 0) : n.log2 < k ↔ n < twoPow k := Nat.log2_lt h

theorem lt_twoPow_log2 (n : Nat) : n < twoPow (n.log2 + 1) := Nat.lt_log2_self

theorem tenPow_pos (k : Nat) : 0 < tenPow k := Nat.pow_pos (by decide)

theorem tenPow_le_tenPow {j k : Nat} (h : j ≤ k) : tenPow j ≤ tenPow k :=
  Nat.pow_le_pow_right (by decide) h

/-- The whole number nearest to `num / den`; a half goes to the even neighbour. -/
def roundHalfEven (num den : Nat) : Nat :=
  let whole := num / den
  let rest := num % den
  if 2 * rest < den then whole
  else if den < 2 * rest then whole + 1
  else if whole % 2 = 0 then whole else whole + 1

theorem le_roundHalfEven (num den : Nat) : num / den ≤ roundHalfEven num den := by
  unfold roundHalfEven
  dsimp only
  repeat' split
  all_goals omega

theorem roundHalfEven_le (num den : Nat) : roundHalfEven num den ≤ num / den + 1 := by
  unfold roundHalfEven
  dsimp only
  repeat' split
  all_goals omega

theorem roundHalfEven_mul_right (n : Nat) {den : Nat} (h : 0 < den) :
    roundHalfEven (n * den) den = n := by
  simp [roundHalfEven, Nat.mul_div_cancel n h, h]

end ProcessorLoad
