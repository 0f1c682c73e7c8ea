import ProcessorLoad.Number.Binary64
import ProcessorLoad.Proofs.Number.Difference

/-!
# The whole part

Dropping the fraction of a double goes toward zero, down from the numbers above it and up from the
ones below. It is not the largest whole number below a double, but it keeps the order of doubles all
the same.
-/

set_option autoImplicit false

namespace ProcessorLoad.Binary64

/-- The double is finite, and the whole number is what is left of it without the fraction. -/
def TruncatesTo (x : Binary64) (n : Int) : Prop :=
  x.isFinite = true ∧ ∃ place, x.position = some place ∧ n = place.tdiv unitsPerOne

section TruncatesTo
variable {x y : Binary64} {m n : Int}

theorem signedNat_wholePart (negative : Bool) (size : Magnitude) :
    signedNat negative (wholePart size) = (size.signed negative).tdiv unitsPerOne := by
  cases negative with
  | false => exact Int.natCast_ediv size.units unitsPerOne
  | true =>
    change -((size.units / unitsPerOne : Nat) : Int) = (-(size.units : Int)).tdiv unitsPerOne
    rw [Int.neg_tdiv]
    rfl

theorem truncate_eq_ok_iff : x.truncate = .ok n ↔ x.TruncatesTo n := by
  constructor
  · intro h
    cases x with
    | nan => cases h
    | infinity s => cases h
    | finite s size =>
      obtain rfl : signedNat s (wholePart size) = n := Except.ok.inj h
      exact ⟨rfl, size.signed s, rfl, signedNat_wholePart s size⟩
  · rintro ⟨hfinite, place, hplace, rfl⟩
    obtain ⟨s, size, rfl⟩ := isFinite_iff.mp hfinite
    obtain rfl : size.signed s = place := Option.some.inj hplace
    exact congrArg Except.ok (signedNat_wholePart s size)

theorem exists_truncatesTo (h : x.isFinite = true) : ∃ n, x.TruncatesTo n := by
  obtain ⟨place, hplace, -⟩ := position_of_isFinite h
  exact ⟨_, h, place, hplace, rfl⟩

/-- The order is kept on both sides of zero and across it. -/
theorem TruncatesTo.le (hx : x.TruncatesTo m) (hy : y.TruncatesTo n) (h : x.le y = true) :
    m ≤ n := by
  obtain ⟨-, a, hxa, rfl⟩ := hx
  obtain ⟨-, b, hyb, rfl⟩ := hy
  exact Int.tdiv_le_tdiv (Int.natCast_pos.mpr unitsPerOne_pos) ((le_iff_of_position hxa hyb).mp h)

end TruncatesTo

end ProcessorLoad.Binary64
