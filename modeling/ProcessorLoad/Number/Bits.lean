import ProcessorLoad.Number.Binary64

/-!
# The bit layout of a double

One sign bit, eleven exponent bits and 52 fraction bits, as one number below `2 ^ 64`.
-/

set_option autoImplicit false

namespace ProcessorLoad.Binary64

/-- The unit count with exponent field `field` and fraction `fraction`. Field 0 and field 1 have the
same spacing; each further field doubles it. -/
def fieldUnits (field fraction : Nat) : Nat :=
  if field = 0 then fraction else (twoPow 52 + fraction) * twoPow (field - 1)

theorem add_lt_twoPow_53 {fraction : Nat} (h : fraction < twoPow 52) :
    twoPow 52 + fraction < twoPow 53 := by
  have : twoPow 53 = twoPow 52 + twoPow 52 := by decide
  omega

theorem fieldUnits_lt_overflow {field fraction : Nat} (hfield : field < 2047)
    (hfraction : fraction < twoPow 52) : fieldUnits field fraction < overflowUnits := by
  unfold fieldUnits overflowUnits
  split
  · exact Nat.lt_of_lt_of_le hfraction (twoPow_le_twoPow (by decide))
  · calc (twoPow 52 + fraction) * twoPow (field - 1)
        < twoPow 53 * twoPow (field - 1) :=
          Nat.mul_lt_mul_of_pos_right (add_lt_twoPow_53 hfraction) (twoPow_pos _)
      _ = twoPow (53 + (field - 1)) := (twoPow_add ..).symm
      _ ≤ twoPow 2098 := twoPow_le_twoPow (by omega)

theorem representable_fieldUnits {field fraction : Nat} (hfield : field < 2047)
    (hfraction : fraction < twoPow 52) : Representable (fieldUnits field fraction) := by
  refine ⟨fieldUnits_lt_overflow hfield hfraction, ?_⟩
  unfold fieldUnits
  have h := add_lt_twoPow_53 hfraction
  split
  · have h := spacing_dvd_mul_twoPow (m := fraction) 0 (by omega)
    rwa [show twoPow 0 = 1 from rfl, Nat.mul_one] at h
  · exact spacing_dvd_mul_twoPow _ (by omega)

/-- The double with the given bits; every pattern that is not a number is the one `nan`. -/
def ofBits (bits : Nat) : Binary64 :=
  let negative := decide (bits / twoPow 63 % 2 = 1)
  let field := bits / twoPow 52 % 2048
  let fraction := bits % twoPow 52
  if h : field < 2047 then
    .finite negative
      ⟨fieldUnits field fraction, representable_fieldUnits h (Nat.mod_lt _ (twoPow_pos 52))⟩
  else if fraction = 0 then .infinity negative
  else .nan

/-- Exponent field and fraction of a unit count, side by side. The leading bit of the significand
carries into the field. -/
def fieldBits (units : Nat) : Nat :=
  let shift := units.log2 - 52
  shift * twoPow 52 + units / twoPow shift

def signBits (negative : Bool) : Nat := if negative then twoPow 63 else 0

def toBits : Binary64 → Nat
  | nan => 0x7ff8000000000000
  | infinity s => signBits s + 2047 * twoPow 52
  | finite s m => signBits s + fieldBits m.units

end ProcessorLoad.Binary64
