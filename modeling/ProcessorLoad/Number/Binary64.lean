import ProcessorLoad.Fault
import ProcessorLoad.Number.Rounding

/-!
# Double-precision numbers, exactly

A finite double is a whole number of units of `2 ^ -1074`, the smallest positive double. `Magnitude`
holds the unit counts that doubles can have: at most 53 significant bits, and below `2 ^ 1024`.
`Binary64.ofRatio` is the one place that rounds: each operation forms its exact result as a quotient
of whole numbers and hands it over, so no operation rounds twice.
-/

set_option autoImplicit false

namespace ProcessorLoad

def unitsPerOne : Nat := twoPow 1074

/-- How many units make `2 ^ 1024`, the first power of two that no finite double reaches. -/
def overflowUnits : Nat := twoPow 2098

theorem unitsPerOne_pos : 0 < unitsPerOne := twoPow_pos 1074

theorem overflowUnits_pos : 0 < overflowUnits := twoPow_pos 2098

/-- The distance between neighbouring doubles at `units`, in units. -/
def spacing (units : Nat) : Nat := twoPow (units.log2 - 52)

structure Representable (units : Nat) : Prop where
  lt_overflow : units < overflowUnits
  spacing_dvd : spacing units ∣ units

/-- The size of a finite double, as a count of units of `2 ^ -1074`. -/
structure Magnitude where
  units : Nat
  representable : Representable units
  deriving DecidableEq

inductive Binary64 where
  | nan
  | infinity (negative : Bool)
  | finite (negative : Bool) (size : Magnitude)
  deriving DecidableEq

/-- A significand of at most 53 bits can be shifted freely. -/
theorem spacing_dvd_mul_twoPow {m : Nat} (k : Nat) (h : m ≤ twoPow 53) :
    spacing (m * twoPow k) ∣ m * twoPow k := by
  by_cases h0 : m = 0
  · simp [h0]
  have hne : m * twoPow k ≠ 0 := Nat.mul_ne_zero h0 (Nat.ne_of_gt (twoPow_pos k))
  unfold spacing
  by_cases htop : m = twoPow 53
  · rw [htop, ← twoPow_add, log2_twoPow]
    exact twoPow_dvd_twoPow (Nat.sub_le _ _)
  · have hlt : m * twoPow k < twoPow (53 + k) := by
      rw [twoPow_add]
      exact Nat.mul_lt_mul_of_pos_right (Nat.lt_of_le_of_ne h htop) (twoPow_pos k)
    have hlog : (m * twoPow k).log2 < 53 + k := (log2_lt_iff hne).2 hlt
    exact Nat.dvd_trans (twoPow_dvd_twoPow (by omega)) (Nat.dvd_mul_left _ _)

/-- The unit count nearest to `num / den` among those of at most 53 significant bits; a half goes to
the even neighbour. -/
def nearestUnits (num den : Nat) : Nat :=
  roundHalfEven num (den * spacing (num / den)) * spacing (num / den)

theorem roundHalfEven_spacing_le (num den : Nat) :
    roundHalfEven num (den * spacing (num / den)) ≤ twoPow 53 := by
  have h := roundHalfEven_le num (den * spacing (num / den))
  rw [← Nat.div_div_eq_div_mul] at h
  have hq : num / den < twoPow 53 * spacing (num / den) := by
    rw [spacing, ← twoPow_add]
    exact Nat.lt_of_lt_of_le (lt_twoPow_log2 _) (twoPow_le_twoPow (by omega))
  have := Nat.div_lt_of_lt_mul (Nat.mul_comm _ _ ▸ hq)
  omega

theorem spacing_nearestUnits_dvd (num den : Nat) :
    spacing (nearestUnits num den) ∣ nearestUnits num den :=
  spacing_dvd_mul_twoPow _ (roundHalfEven_spacing_le num den)

namespace Magnitude

def zero : Magnitude := ⟨0, ⟨overflowUnits_pos, Nat.dvd_zero _⟩⟩

def signed (size : Magnitude) (negative : Bool) : Int :=
  if negative then -(size.units : Int) else size.units

end Magnitude

namespace Binary64

/-- The double nearest to `num / den` units, with the given sign; a half goes to the even neighbour
and what reaches `2 ^ 1024` becomes infinite. -/
def ofRatio (negative : Bool) (num den : Nat) : Binary64 :=
  if h : nearestUnits num den < overflowUnits then
    .finite negative ⟨nearestUnits num den, ⟨h, spacing_nearestUnits_dvd num den⟩⟩
  else .infinity negative

def ofNat (n : Nat) : Binary64 := ofRatio false (n * unitsPerOne) 1

def ofInt (n : Int) : Binary64 := ofRatio (decide (n < 0)) (n.natAbs * unitsPerOne) 1

instance (n : Nat) : OfNat Binary64 n := ⟨ofNat n⟩

instance : Inhabited Binary64 := ⟨0⟩

def neg : Binary64 → Binary64
  | nan => nan
  | infinity s => infinity !s
  | finite s m => finite (!s) m

/-- A sum; equal sizes of opposite sign give positive zero. -/
def add : Binary64 → Binary64 → Binary64
  | nan, _ => nan
  | _, nan => nan
  | infinity s, infinity t => if s = t then infinity s else nan
  | infinity s, finite _ _ => infinity s
  | finite _ _, infinity t => infinity t
  | finite s a, finite t b =>
    let sum := a.signed s + b.signed t
    if sum = 0 then finite (s && t) .zero else ofRatio (decide (sum < 0)) sum.natAbs 1

def sub (x y : Binary64) : Binary64 := add x (neg y)

def mul : Binary64 → Binary64 → Binary64
  | nan, _ => nan
  | _, nan => nan
  | infinity s, infinity t => infinity (s != t)
  | infinity s, finite t b => if b.units = 0 then nan else infinity (s != t)
  | finite s a, infinity t => if a.units = 0 then nan else infinity (s != t)
  | finite s a, finite t b => ofRatio (s != t) (a.units * b.units) unitsPerOne

def div : Binary64 → Binary64 → Binary64
  | nan, _ => nan
  | _, nan => nan
  | infinity _, infinity _ => nan
  | infinity s, finite t _ => infinity (s != t)
  | finite s _, infinity t => finite (s != t) .zero
  | finite s a, finite t b =>
    if b.units = 0 then if a.units = 0 then nan else infinity (s != t)
    else ofRatio (s != t) (a.units * unitsPerOne) b.units

instance : Neg Binary64 := ⟨neg⟩
instance : Add Binary64 := ⟨add⟩
instance : Sub Binary64 := ⟨sub⟩
instance : Mul Binary64 := ⟨mul⟩
instance : Div Binary64 := ⟨div⟩

/-- The quotient of two whole numbers, rounded once; `den` is positive. -/
def quotient (num : Int) (den : Nat) : Binary64 :=
  ofRatio (decide (num < 0)) (num.natAbs * unitsPerOne) den

def isNaN : Binary64 → Bool
  | nan => true
  | _ => false

def isFinite : Binary64 → Bool
  | finite _ _ => true
  | _ => false

/-- The place on the number line, in units; the infinities stand just outside the finite doubles. -/
def position : Binary64 → Option Int
  | nan => none
  | infinity true => some (-(overflowUnits : Int))
  | infinity false => some overflowUnits
  | finite s m => some (m.signed s)

def lt (x y : Binary64) : Bool :=
  match x.position, y.position with
  | some a, some b => decide (a < b)
  | _, _ => false

def le (x y : Binary64) : Bool :=
  match x.position, y.position with
  | some a, some b => decide (a ≤ b)
  | _, _ => false

/-- The same place on the number line; false when either side is not a number. The zeros are
equal. -/
def eq (x y : Binary64) : Bool :=
  match x.position, y.position with
  | some a, some b => decide (a = b)
  | _, _ => false

/-- The second number where it is above the first, else the first, also when they cannot be
compared. -/
def max (x y : Binary64) : Binary64 := if x.lt y then y else x

def min (x y : Binary64) : Binary64 := if y.lt x then y else x

def signedNat (negative : Bool) (n : Nat) : Int := if negative then -(n : Int) else n

def wholePart (size : Magnitude) : Nat := size.units / unitsPerOne

def nearestWhole (size : Magnitude) : Nat := roundHalfEven size.units unitsPerOne

def toWhole (f : Magnitude → Nat) : Binary64 → Except Fault Int
  | nan => .error .wholeOfNaN
  | infinity _ => .error .wholeOfInfinity
  | finite negative size => .ok (signedNat negative (f size))

def truncate (x : Binary64) : Except Fault Int := x.toWhole wholePart

def round (x : Binary64) : Except Fault Int := x.toWhole nearestWhole

end Binary64

end ProcessorLoad
