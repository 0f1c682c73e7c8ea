import ProcessorLoad.Text.Printable

/-!
# Quoted texts

A text as a message shows it: between single quotes, or between double quotes where it holds single
ones and no double one. A backslash and the quote in use get a backslash in front; what cannot be
printed is written by its code.
-/

set_option autoImplicit false

namespace ProcessorLoad.Text

def quoteFor (t : Text) : Char := if t.contains '\'' && !t.contains '"' then '"' else '\''

def hexNumeral (width n : Nat) : Text :=
  let digits := Nat.toDigits 16 n
  List.replicate (width - digits.length) '0' ++ digits

/-- A character by its code, in the shortest of the three widths that holds it. -/
def escapeCode (c : Char) : Text :=
  let n := c.toNat
  if n < 0x100 then '\\' :: 'x' :: hexNumeral 2 n
  else if n < 0x10000 then '\\' :: 'u' :: hexNumeral 4 n
  else '\\' :: 'U' :: hexNumeral 8 n

def escapeChar (quote c : Char) : Text :=
  if c = '\\' ∨ c = quote then ['\\', c]
  else if c = '\n' then ['\\', 'n']
  else if c = '\r' then ['\\', 'r']
  else if c = '\t' then ['\\', 't']
  else if isPrintable c then [c]
  else escapeCode c

def quoted (t : Text) : Text :=
  let quote := quoteFor t
  quote :: t.flatMap (escapeChar quote) ++ [quote]

end ProcessorLoad.Text
