/-!
# Texts

A text is the list of its characters. Cutting and trimming are said here for any class of
characters.
-/

set_option autoImplicit false

namespace ProcessorLoad

abbrev Text := List Char

namespace Text

def inRanges (ranges : List (Nat × Nat)) (n : Nat) : Bool :=
  ranges.any fun (first, last) => decide (first ≤ n) && decide (n ≤ last)

/-- The pieces between the characters of a class, empty pieces included; never an empty list. -/
def cut (p : Char → Bool) : Text → List Text
  | [] => [[]]
  | c :: r =>
    if p c then [] :: cut p r else (cut p r).modifyHead (c :: ·)

theorem cut_ne_nil (p : Char → Bool) : ∀ t : Text, cut p t ≠ []
  | [] => by simp [cut]
  | c :: r => by
    have ih := cut_ne_nil p r
    by_cases hc : p c = true <;> simp [cut, hc, ih]

/-- A character of the class ends one piece and starts the next. -/
theorem cut_append_cons {p : Char → Bool} {c : Char} (hc : p c = true) (x y : Text) :
    cut p (x ++ c :: y) = cut p x ++ cut p y := by
  induction x with
  | nil => simp [cut, hc]
  | cons a x ih =>
    obtain ⟨w, ws, hw⟩ := List.exists_cons_of_ne_nil (cut_ne_nil p x)
    by_cases ha : p a = true <;> simp [cut, ha, ih, hw]

theorem cut_eq_singleton {p : Char → Bool} {t : Text} (h : ∀ c ∈ t, p c = false) :
    cut p t = [t] := by
  induction t with
  | nil => rfl
  | cons c r ih =>
    have hr := ih fun a ha => h a (List.mem_cons_of_mem _ ha)
    simp [cut, h c List.mem_cons_self, hr]

def trim (p : Char → Bool) (t : Text) : Text :=
  ((t.dropWhile p).reverse.dropWhile p).reverse

/-- What stands before and after the first occurrence of a separator that is not empty. -/
def splitFirst? (separator : Text) : Text → Option (Text × Text)
  | [] => none
  | c :: r =>
    if separator.isPrefixOf (c :: r) then some ([], (c :: r).drop separator.length)
    else (splitFirst? separator r).map fun (before, after) => (c :: before, after)

def padLeft (width : Nat) (t : Text) : Text := List.replicate (width - t.length) ' ' ++ t

def numeral (n : Nat) : Text := Nat.toDigits 10 n

end Text

end ProcessorLoad
