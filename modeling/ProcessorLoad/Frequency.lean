import ProcessorLoad.Number.Numeral

/-!
# Frequencies

A frequency is a decimal numeral, optional blanks, an optional unit letter and `Hz`. Surrounding
text is passed over: the leftmost place at which a frequency starts counts.
-/

set_option autoImplicit false

namespace ProcessorLoad.Frequency

def factor? : Char → Option Nat
  | 'k' => some 1000
  | 'K' => some 1000
  | 'M' => some 1000000
  | 'G' => some 1000000000
  | 'T' => some 1000000000000
  | _ => none

def unit? : Text → Option Nat
  | 'H' :: 'z' :: _ => some 1
  | c :: 'H' :: 'z' :: _ => factor? c
  | _ => none

/-- The fraction digits after a whole part, and the rest; a point needs a digit behind it. -/
def fraction? : Text → Option (List Nat × Text)
  | '.' :: r => let (digits, rest) := Numeral.spanDigits r
    if digits.isEmpty then none else some (digits, rest)
  | t => some ([], t)

/-- The frequency in hertz that starts at the head of a text: the numeral as a double, times the
factor of its unit. -/
def atHead? (t : Text) : Option Binary64 := do
  let (whole, afterWhole) := Numeral.spanDigits t
  if whole.isEmpty then none else do
    let (fraction, rest) ← fraction? afterWhole
    let factor ← unit? (rest.dropWhile Text.isBlank)
    let digits := whole ++ fraction
    let value := Binary64.ofDecimal false (Numeral.ofDigits digits) digits.length (-fraction.length)
    return value * Binary64.ofNat factor

def first? : Text → Option Binary64
  | [] => none
  | c :: r => (atHead? (c :: r)).orElse fun _ => first? r

/-- The frequency of a text in whole hertz, -1 if it names none. -/
def read (t : Text) : Except Fault Int :=
  match first? (Text.strip t) with
  | some x => x.round
  | none => .ok (-1)

end ProcessorLoad.Frequency
