import ProcessorLoad.Number.Binary64
import ProcessorLoad.Text.Basic

/-!
# Decimal fractions

From a decimal fraction to the nearest double, and from a double to a numeral with a fixed number of
places. Both go through the exact value and round once.
-/

set_option autoImplicit false

namespace ProcessorLoad.Binary64

/-- A decimal exponent from which on no nonzero significand gives a finite double. -/
def topExponent : Int := 310

/-- A power of ten below which everything is nearer to zero than to the smallest double. -/
def bottomExponent : Int := -330

/-- The double nearest to `significand * 10 ^ exponent`, where the significand has at most `digits`
digits. The first two cases spare a power of ten that would not change the answer. -/
def ofDecimal (negative : Bool) (significand digits : Nat) (exponent : Int) : Binary64 :=
  if significand = 0 ∨ exponent + digits < bottomExponent then finite negative .zero
  else if topExponent ≤ exponent then infinity negative
  else ofRatio negative (significand * tenPow exponent.toNat * unitsPerOne)
    (tenPow (-exponent).toNat)

def tenth : Binary64 := ofDecimal false 1 1 (-1)

def placesText (places scaled : Nat) : Text :=
  let fraction := Text.numeral (scaled % tenPow places)
  Text.numeral (scaled / tenPow places)
    ++ '.' :: (List.replicate (places - fraction.length) '0' ++ fraction)

/-- The numeral of a double with a fixed number of places, at least one; a half goes to the even
neighbour. The sign of a zero is shown. -/
def fixed (places : Nat) : Binary64 → Text
  | nan => "nan".toList
  | infinity negative => if negative then "-inf".toList else "inf".toList
  | finite negative size =>
    let digits := placesText places (roundHalfEven (size.units * tenPow places) unitsPerOne)
    if negative then '-' :: digits else digits

end ProcessorLoad.Binary64
