import ProcessorLoad.Number.Binary64
import ProcessorLoad.Proofs.Number.Quotient

/-!
# The nearest whole number

Rounding a double to a whole number gives the one nearest to it, and of two nearest ones the even
one. That names one number, and the order of doubles is kept.
-/

set_option autoImplicit false

namespace ProcessorLoad

/-- The whole number `n` is the one nearest to `place / den`; a half goes to the even neighbour. -/
structure Nearest (den : Nat) (place n : Int) : Prop where
  near : 2 * (n * den - place).natAbs ≤ den
  even : 2 * (n * den - place).natAbs = den → n % 2 = 0

section Nearest
variable {den : Nat} {a b m n : Int}

theorem nearest_roundHalfEven (num : Nat) {den : Nat} (hden : 0 < den) :
    Nearest den num (roundHalfEven num den) := by
  have hparts : num = num / den * den + num % den := (Nat.div_add_mod' num den).symm
  have hrest : num % den < den := Nat.mod_lt num hden
  have hbelow : (((num / den : Nat) : Int) * den - num).natAbs = num % den := by omega
  have habove : (((num / den + 1 : Nat) : Int) * den - num).natAbs = den - num % den := by
    rw [Int.natCast_add, Int.add_mul]
    omega
  unfold roundHalfEven
  dsimp only
  repeat' split
  all_goals exact ⟨by omega, by omega⟩

theorem Nearest.neg (h : Nearest den a n) : Nearest den (-a) (-n) := by
  have habs : (-n * den - -a).natAbs = (n * den - a).natAbs := by
    rw [Int.neg_mul, ← Int.natAbs_neg]
    congr 1
    omega
  refine ⟨habs ▸ h.near, ?_⟩
  rw [habs]
  intro hhalf
  have := h.even hhalf
  omega

/-- The order is kept, so there is no other nearest whole number. -/
theorem Nearest.le (hden : 0 < den) (hm : Nearest den a m) (hn : Nearest den b n) (h : a ≤ b) :
    m ≤ n := by
  by_contra hlt
  have hstep : (n + 1) * den ≤ m * den := Int.mul_le_mul_of_nonneg_right (by omega) (by omega)
  rw [Int.add_mul, Int.one_mul] at hstep
  have hmnear := hm.near
  have hnnear := hn.near
  -- Both are half a step away, so both are even, yet they are neighbours.
  have hmeven := hm.even (by omega)
  have hneven := hn.even (by omega)
  have hnext : m * den ≤ (n + 1) * den := by
    rw [Int.add_mul, Int.one_mul]
    omega
  have hle : m ≤ n + 1 := Int.le_of_mul_le_mul_right hnext (by omega)
  omega

theorem Nearest.eq (hden : 0 < den) (hm : Nearest den a m) (hn : Nearest den a n) : m = n :=
  Int.le_antisymm (hm.le hden hn (Int.le_refl a)) (hn.le hden hm (Int.le_refl a))

end Nearest

namespace Binary64

/-- The double is finite, and the whole number is the one nearest to it. -/
def RoundsTo (x : Binary64) (n : Int) : Prop :=
  x.isFinite = true ∧ ∃ place, x.position = some place ∧ Nearest unitsPerOne place n

section RoundsTo
variable {x y : Binary64} {m n : Int}

theorem roundsTo_of_round (h : x.round = .ok n) : x.RoundsTo n := by
  cases x with
  | nan => cases h
  | infinity s => cases h
  | finite s size =>
    obtain rfl : signedNat s (nearestWhole size) = n := Except.ok.inj h
    have hnearest := nearest_roundHalfEven size.units unitsPerOne_pos
    refine ⟨rfl, size.signed s, rfl, ?_⟩
    cases s with
    | false => exact hnearest
    | true => exact hnearest.neg

theorem RoundsTo.le (hx : x.RoundsTo m) (hy : y.RoundsTo n) (h : x.le y = true) : m ≤ n := by
  obtain ⟨-, a, hxa, hm⟩ := hx
  obtain ⟨-, b, hyb, hn⟩ := hy
  exact hm.le unitsPerOne_pos hn ((le_iff_of_position hxa hyb).mp h)

theorem round_eq_ok_iff : x.round = .ok n ↔ x.RoundsTo n := by
  constructor
  · exact roundsTo_of_round
  · intro h
    obtain ⟨m, hm⟩ : ∃ m, x.round = .ok m := by
      obtain ⟨s, size, rfl⟩ := isFinite_iff.mp h.1
      exact ⟨_, rfl⟩
    obtain ⟨-, a, hxa, hnearest⟩ := roundsTo_of_round hm
    obtain ⟨-, b, hxb, hother⟩ := h
    obtain rfl : a = b := Option.some.inj (hxa.symm.trans hxb)
    rw [hm, hnearest.eq unitsPerOne_pos hother]

end RoundsTo

end Binary64

end ProcessorLoad
