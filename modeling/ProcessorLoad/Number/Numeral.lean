import ProcessorLoad.Fault
import ProcessorLoad.Number.Decimal
import ProcessorLoad.Text.Classes

/-!
# Reading numbers

Numerals may stand between blanks, carry a sign, use the decimal digits of any script, and group
their digits by single underscores, each between two digits.
-/

set_option autoImplicit false

namespace ProcessorLoad.Numeral

/-- The blanks that may surround a numeral: all but the four information separators. -/
def isPadding (c : Char) : Bool := Text.isBlank c && !Text.inRanges [(0x1c, 0x1f)] c.toNat

/-- The sign in front of a numeral, true for minus, and the rest. -/
def splitSign : Text → Bool × Text
  | '-' :: r => (true, r)
  | '+' :: r => (false, r)
  | t => (false, t)

/-- The text without its underscores, if each stands between two digits. `afterDigit` tells whether
a digit comes right before the text. -/
def ungroup (afterDigit : Bool) : Text → Option Text
  | [] => some []
  | '_' :: d :: r =>
    if afterDigit && Text.isDigit d then (ungroup true r).map (d :: ·) else none
  | c :: r => if c = '_' then none else (ungroup (Text.isDigit c) r).map (c :: ·)

def digits? (t : Text) : Option (List Nat) := t.mapM Text.digit?

def ofDigits (digits : List Nat) : Nat := digits.foldl (fun n d => 10 * n + d) 0

def spanDigits : Text → List Nat × Text
  | [] => ([], [])
  | c :: r =>
    match Text.digit? c with
    | some d => let (digits, rest) := spanDigits r; (d :: digits, rest)
    | none => ([], c :: r)

/-- The digits of the leading run of digits and underscores, and the rest, if each underscore of
the run stands between two digits. `afterDigit` tells whether a digit comes right before the
text. -/
def spanGrouped? (afterDigit : Bool) : Text → Option (List Nat × Text)
  | [] => some ([], [])
  | c :: r =>
    match Text.digit? c with
    | some d => (spanGrouped? true r).map fun (digits, rest) => (d :: digits, rest)
    | none =>
      if c = '_' then
        if afterDigit && r.head?.any Text.isDigit then spanGrouped? false r else none
      else some ([], c :: r)

def splitWhole? (t : Text) : Option (Bool × List Nat × Text) := do
  let (negative, body) := splitSign (t.dropWhile isPadding)
  let (digits, rest) ← spanGrouped? false body
  if digits.isEmpty then none else some (negative, digits, rest)

/-- A whole number of at most `Fault.digitLimit` digits. The digits are counted before what follows
them is looked at, so of the two faults an excess of digits wins. -/
def readWhole (t : Text) : Except Fault Int :=
  match splitWhole? t with
  | none => .error (.notWhole t)
  | some (negative, digits, rest) =>
    if Fault.digitLimit < digits.length then .error (.tooManyDigits digits.length)
    else if rest.all isPadding then .ok (Binary64.signedNat negative (ofDigits digits))
    else .error (.notWhole t)

def exponent? : Text → Option Int
  | [] => some 0
  | e :: r =>
    if e = 'e' ∨ e = 'E' then do
      let (negative, body) := splitSign r
      let digits ← digits? body
      if digits.isEmpty then none else some (Binary64.signedNat negative (ofDigits digits))
    else none

def spanFraction : Text → List Nat × Text
  | '.' :: r => spanDigits r
  | t => ([], t)

/-- A decimal fraction without sign: whole part, fraction, exponent. At least one of the first two
has a digit. -/
def readDecimal? (negative : Bool) (t : Text) : Option Binary64 := do
  let (whole, afterWhole) := spanDigits t
  let (fraction, afterFraction) := spanFraction afterWhole
  let exponent ← exponent? afterFraction
  let digits := whole ++ fraction
  if digits.isEmpty then none
  else some (.ofDecimal negative (ofDigits digits) digits.length (exponent - fraction.length))

def lowerLetter (c : Char) : Char := c.toLower

def readName? (negative : Bool) (t : Text) : Option Binary64 :=
  let name := t.map lowerLetter
  if name = "nan".toList then some .nan
  else if name = "inf".toList ∨ name = "infinity".toList then some (.infinity negative)
  else none

def readReal (t : Text) : Except Fault Binary64 :=
  let (negative, body) := splitSign (Text.trim isPadding t)
  match readName? negative body, (ungroup false body).bind (readDecimal? negative) with
  | some x, _ => .ok x
  | none, some x => .ok x
  | none, none => .error (.notNumber t)

end ProcessorLoad.Numeral
