import ProcessorLoad.Text.Basic

/-!
# Classes of characters

Blanks, decimal digits and line breaks of any script. Blanks separate words and are stripped from
the ends of a text. Reading a file turns each carriage return, alone or before a line feed, into a
line feed; lines then end at any line break, and a break at the end of a text starts no further
line.
-/

set_option autoImplicit false

namespace ProcessorLoad.Text

def blankRanges : List (Nat × Nat) :=
  [(0x09, 0x0d), (0x1c, 0x20), (0x85, 0x85), (0xa0, 0xa0), (0x1680, 0x1680), (0x2000, 0x200a),
    (0x2028, 0x2029), (0x202f, 0x202f), (0x205f, 0x205f), (0x3000, 0x3000)]

def isBlank (c : Char) : Bool := inRanges blankRanges c.toNat

def strip (t : Text) : Text := trim isBlank t

def words (t : Text) : List Text := (cut isBlank t).filter (· ≠ [])

theorem words_append_cons {c : Char} (hc : isBlank c = true) (x y : Text) :
    words (x ++ c :: y) = words x ++ words y := by
  simp only [words, cut_append_cons hc, List.filter_append]

/-- The digit zero of each script, in order. -/
def zeroDigits : List Nat :=
  [
    0x30, 0x660, 0x6f0, 0x7c0, 0x966, 0x9e6, 0xa66, 0xae6, 0xb66, 0xbe6, 0xc66, 0xce6, 0xd66,
    0xde6, 0xe50, 0xed0, 0xf20, 0x1040, 0x1090, 0x17e0, 0x1810, 0x1946, 0x19d0, 0x1a80, 0x1a90,
    0x1b50, 0x1bb0, 0x1c40, 0x1c50, 0xa620, 0xa8d0, 0xa900, 0xa9d0, 0xa9f0, 0xaa50, 0xabf0,
    0xff10, 0x104a0, 0x10d30, 0x11066, 0x110f0, 0x11136, 0x111d0, 0x112f0, 0x11450, 0x114d0,
    0x11650, 0x116c0, 0x11730, 0x118e0, 0x11950, 0x11c50, 0x11d50, 0x11da0, 0x16a60, 0x16ac0,
    0x16b50, 0x1d7ce, 0x1d7d8, 0x1d7e2, 0x1d7ec, 0x1d7f6, 0x1e140, 0x1e2f0, 0x1e950, 0x1fbf0]

def digit? (c : Char) : Option Nat :=
  zeroDigits.findSome? fun first =>
    if first ≤ c.toNat ∧ c.toNat < first + 10 then some (c.toNat - first) else none

def isDigit (c : Char) : Bool := (digit? c).isSome

/-- Every line end written as one line feed. -/
def unifyNewlines : Text → Text
  | [] => []
  | '\r' :: '\n' :: r => '\n' :: unifyNewlines r
  | c :: r => (if c = '\r' then '\n' else c) :: unifyNewlines r

/-- Line feed, vertical tab, form feed, carriage return, the file, group and record separators, next
line, and the line and paragraph separators. -/
def lineBreakRanges : List (Nat × Nat) :=
  [(0x0a, 0x0d), (0x1c, 0x1e), (0x85, 0x85), (0x2028, 0x2029)]

def isLineBreak (c : Char) : Bool := inRanges lineBreakRanges c.toNat

def dropLastEmpty (pieces : List Text) : List Text :=
  if pieces.getLast? = some [] then pieces.dropLast else pieces

def lines (t : Text) : List Text := dropLastEmpty (cut isLineBreak (unifyNewlines t))

end ProcessorLoad.Text
