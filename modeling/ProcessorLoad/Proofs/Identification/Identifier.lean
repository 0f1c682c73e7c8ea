import ProcessorLoad.Identification

/-!
# The words of an identifier

A built identifier has the words of its head and of its parts, each part behind its own key. A key
that none of them has for a word is therefore followed by its part.
-/

set_option autoImplicit false

namespace ProcessorLoad

namespace Identification

def keys : List Text := [familyKey, modelKey, steppingKey]

/-- No word of the text is a key. -/
def KeyFree (t : Text) : Prop := ∀ w ∈ Text.words t, w ∉ keys

instance (t : Text) : Decidable (KeyFree t) :=
  inferInstanceAs (Decidable (∀ w ∈ Text.words t, w ∉ keys))

/-- What comes after the first occurrence of `key` that has something after it. -/
def following (key : Text) (ws : List Text) : Option Text := (ws.zip ws.tail).lookup key

theorem wordAfter_eq (key text : Text) :
    wordAfter key text = (following key (Text.words text)).getD [] := rfl

theorem following_cons {key w : Text} (h : key ≠ w) (ws : List Text) :
    following key (w :: ws) = following key ws := by
  cases ws with
  | nil => rfl
  | cons v ws =>
    change List.lookup key ((w, v) :: (v :: ws).zip ws) = _
    rw [List.lookup_cons, beq_false_of_ne h]
    rfl

theorem following_append {key : Text} {front : List Text} (h : key ∉ front) (w : Text)
    (rest : List Text) : following key (front ++ key :: w :: rest) = some w := by
  induction front with
  | nil =>
    change List.lookup key ((key, w) :: (w :: rest).zip rest) = _
    rw [List.lookup_cons, beq_self_eq_true]
  | cons v front ih =>
    rw [List.mem_cons, not_or] at h
    rw [List.cons_append, following_cons h.1, ih h.2]

theorem wordAfter_of_words {key w text : Text} {front rest : List Text}
    (h : Text.words text = front ++ key :: w :: rest) (hfront : key ∉ front) :
    wordAfter key text = w := by
  rw [wordAfter_eq, h, following_append hfront, Option.getD_some]

theorem words_identifierText (head family model stepping : Text) :
    Text.words (identifierText head family model stepping)
      = Text.words head ++ familyKey :: (Text.words family ++ modelKey :: (Text.words model
          ++ steppingKey :: Text.words stepping)) := by
  have hblank : Text.isBlank ' ' = true := by decide
  have hkeys : Text.words familyKey = [familyKey] ∧ Text.words modelKey = [modelKey] ∧
      Text.words steppingKey = [steppingKey] := by decide
  obtain ⟨hfamily, hmodel, hstepping⟩ := hkeys
  simp only [identifierText, List.append_assoc, List.cons_append, Text.words_append_cons hblank,
    hfamily, hmodel, hstepping, List.nil_append]

section Parts
variable {head family model stepping w : Text}

theorem KeyFree.not_mem {t key : Text} (h : KeyFree t) (hkey : key ∈ keys) : key ∉ Text.words t :=
  fun hmem => h key hmem hkey

theorem wordAfter_family (hhead : KeyFree head) (hfamily : Text.words family = [w]) :
    wordAfter familyKey (identifierText head family model stepping) = w := by
  have hwords := words_identifierText head family model stepping
  rw [hfamily, List.singleton_append] at hwords
  exact wordAfter_of_words hwords (hhead.not_mem (by decide))

theorem wordAfter_model (hhead : KeyFree head) (hfamily : KeyFree family)
    (hmodel : Text.words model = [w]) :
    wordAfter modelKey (identifierText head family model stepping) = w := by
  have hwords : Text.words (identifierText head family model stepping)
      = (Text.words head ++ familyKey :: Text.words family)
          ++ modelKey :: w :: steppingKey :: Text.words stepping := by
    simp only [words_identifierText, hmodel, List.append_assoc, List.cons_append, List.nil_append]
  apply wordAfter_of_words hwords
  simp only [List.mem_append, List.mem_cons, not_or]
  exact ⟨hhead.not_mem (by decide), by decide, hfamily.not_mem (by decide)⟩

theorem wordAfter_stepping (hhead : KeyFree head) (hfamily : KeyFree family)
    (hmodel : KeyFree model) (hstepping : Text.words stepping = [w]) :
    wordAfter steppingKey (identifierText head family model stepping) = w := by
  have hwords : Text.words (identifierText head family model stepping)
      = (Text.words head ++ familyKey :: (Text.words family ++ modelKey :: Text.words model))
          ++ [steppingKey, w] := by
    simp only [words_identifierText, hstepping, List.append_assoc, List.cons_append]
  apply wordAfter_of_words hwords
  simp only [List.mem_append, List.mem_cons, not_or]
  exact ⟨hhead.not_mem (by decide), by decide, hfamily.not_mem (by decide), by decide,
    hmodel.not_mem (by decide)⟩

end Parts

end Identification

end ProcessorLoad
