import ProcessorLoad.Number.Numeral

/-!
# Reading back a decimal numeral

The digits of a whole number read as that number, as long as there are no more of them than are
read. A text that does not read is refused with one of the faults of such texts.
-/

set_option autoImplicit false

namespace ProcessorLoad

/-- The faults of a text that does not read. -/
def Fault.isUnread : Fault → Bool
  | .notWhole _ => true
  | .tooManyDigits _ => true
  | .notNumber _ => true
  | .notFinite _ => true
  | .notFlag _ => true
  | .unknownLevel _ => true
  | _ => false

namespace Numeral
variable {text : Text} {fault : Fault} {c : Char}

theorem unread_of_readWhole (h : readWhole text = .error fault) : fault.isUnread = true := by
  unfold readWhole at h
  split at h
  · cases h
    rfl
  · split at h
    · cases h
      rfl
    · split at h
      · cases h
      · cases h
        rfl

theorem unread_of_readReal (h : readReal text = .error fault) : fault.isUnread = true := by
  unfold readReal at h
  dsimp only at h
  split at h
  · cases h
  · cases h
  · cases h
    rfl

section Digits

theorem toNat_of_isDigit (h : c.isDigit = true) : 48 ≤ c.toNat ∧ c.toNat < 58 := by
  have hrange : 48 ≤ c.toNat ∧ c.toNat ≤ 57 := Char.isDigit_iff_toNat.mp h
  omega

theorem digit?_of_isDigit (h : c.isDigit = true) : Text.digit? c = some (c.toNat - 48) := by
  have hc := toNat_of_isDigit h
  rw [Text.digit?, Text.zeroDigits, List.findSome?_cons, if_pos (by omega)]

theorem isBlank_of_isDigit (h : c.isDigit = true) : Text.isBlank c = false := by
  have hc := toNat_of_isDigit h
  simp only [Text.isBlank, Text.inRanges, Text.blankRanges, List.any_cons, List.any_nil,
    Bool.or_eq_false_iff, Bool.and_eq_false_iff, decide_eq_false_iff_not, and_true]
  omega

theorem splitSign_of_isDigit (h : c.isDigit = true) (t : Text) :
    splitSign (c :: t) = (false, c :: t) := by
  unfold splitSign
  split
  next heq => cases heq; cases h
  next heq => cases heq; cases h
  next => rfl

theorem spanGrouped?_of_isDigit {t : Text} (h : ∀ c ∈ t, c.isDigit = true) (afterDigit : Bool) :
    spanGrouped? afterDigit t = some (t.map fun c => c.toNat - 48, []) := by
  induction t generalizing afterDigit with
  | nil => rfl
  | cons c t ih =>
    obtain ⟨hc, ht⟩ := List.forall_mem_cons.mp h
    rw [spanGrouped?, digit?_of_isDigit hc]
    simp [ih ht]

theorem splitWhole?_of_isDigit {t : Text} (hne : t ≠ []) (h : ∀ c ∈ t, c.isDigit = true) :
    splitWhole? t = some (false, t.map fun c => c.toNat - 48, []) := by
  obtain ⟨c, t, rfl⟩ := List.exists_cons_of_ne_nil hne
  have hc := h c List.mem_cons_self
  have hpadding : isPadding c = false := by rw [isPadding, isBlank_of_isDigit hc, Bool.false_and]
  rw [splitWhole?, List.dropWhile_cons_of_neg (by simp [hpadding]), splitSign_of_isDigit hc]
  simp [spanGrouped?_of_isDigit h]

end Digits

theorem ofDigits_map (t : Text) :
    ofDigits (t.map fun c => c.toNat - 48) = Nat.ofDigitChars 10 t 0 := by
  rw [ofDigits, List.foldl_map, Nat.ofDigitChars_eq_foldl]
  rfl

theorem readWhole_of_isDigit {t : Text} (hne : t ≠ []) (h : ∀ c ∈ t, c.isDigit = true)
    (hlength : t.length ≤ Fault.digitLimit) :
    readWhole t = .ok (Nat.ofDigitChars 10 t 0 : Nat) := by
  rw [readWhole, splitWhole?_of_isDigit hne h]
  dsimp only
  rw [if_neg (by rw [List.length_map]; omega), List.all_nil, if_pos rfl, ofDigits_map]
  rfl

section Numeral
variable {n : Nat}

theorem isDigit_of_mem_numeral (h : c ∈ Text.numeral n) : c.isDigit = true :=
  Nat.isDigit_of_mem_toDigits (by decide) (by decide) h

theorem numeral_ne_nil (n : Nat) : Text.numeral n ≠ [] := Nat.toDigits_ne_nil

theorem numeral_injective : Function.Injective Text.numeral := by
  intro m n h
  calc m = Nat.ofDigitChars 10 (Text.numeral m) 0 := Nat.ofDigitChars_ten_toDigits.symm
    _ = Nat.ofDigitChars 10 (Text.numeral n) 0 := by rw [h]
    _ = n := Nat.ofDigitChars_ten_toDigits

theorem length_numeral_le_iff {k : Nat} (hk : 0 < k) :
    (Text.numeral n).length ≤ k ↔ n < tenPow k := Nat.length_toDigits_le_iff (by decide) hk

theorem readWhole_numeral (h : n < tenPow Fault.digitLimit) :
    readWhole (Text.numeral n) = .ok n := by
  have hlength := (length_numeral_le_iff (by decide)).mpr h
  rw [readWhole_of_isDigit (numeral_ne_nil n) (fun c => isDigit_of_mem_numeral) hlength,
    Text.numeral, Nat.ofDigitChars_ten_toDigits]

end Numeral

end Numeral

end ProcessorLoad
