import ProcessorLoad.Proofs.Identification.Reading
import ProcessorLoad.Proofs.Text.Lines

/-!
# Parts read back from an identifier

A part reads as the word behind the first occurrence of its key that has a word behind it. So parts
of one word that is no key, built into an identifier, are read back from it, whatever was read
before.
-/

set_option autoImplicit false

namespace ProcessorLoad

namespace Identification

/-- The word is the one behind the first occurrence of the key that has a word behind it; it is
empty if no occurrence has. -/
inductive Follows (key : Text) (ws : List Text) : Text → Prop where
  | found {front rest : List Text} {w : Text} (hws : ws = front ++ key :: w :: rest)
      (hfirst : key ∉ front) : Follows key ws w
  | absent (h : ∀ front w rest, ws ≠ front ++ key :: w :: rest) : Follows key ws []

section Follows
variable {key text w : Text} {ws : List Text}

theorem exists_of_following (h : following key ws = some w) :
    ∃ front rest, ws = front ++ key :: w :: rest ∧ key ∉ front := by
  induction ws with
  | nil => cases h
  | cons v ws ih =>
    by_cases hv : key = v
    · subst hv
      cases ws with
      | nil => cases h
      | cons u ws =>
        have hnext : following key ([] ++ key :: u :: ws) = some u :=
          following_append List.not_mem_nil u ws
        obtain rfl : u = w := Option.some.inj (hnext.symm.trans h)
        exact ⟨[], ws, rfl, List.not_mem_nil⟩
    · rw [following_cons hv] at h
      obtain ⟨front, rest, rfl, hfront⟩ := ih h
      exact ⟨v :: front, rest, rfl, by simp [hv, hfront]⟩

/-- An occurrence with a word behind it may have others in front of it, and these have one as well.
-/
theorem following_ne_none {front rest : List Text} (hws : ws = front ++ key :: w :: rest) :
    following key ws ≠ none := by
  subst hws
  by_cases hmem : key ∈ front
  · obtain ⟨before, after, rfl, hbefore⟩ := List.eq_append_cons_of_mem hmem
    obtain ⟨u, us, hrest⟩ := List.exists_cons_of_ne_nil
      (List.append_ne_nil_of_right_ne_nil after (List.cons_ne_nil key (w :: rest)))
    rw [List.append_assoc, List.cons_append, hrest, following_append hbefore]
    exact Option.some_ne_none u
  · rw [following_append hmem]
    exact Option.some_ne_none w

theorem wordAfter_eq_iff : wordAfter key text = w ↔ Follows key (Text.words text) w := by
  rw [wordAfter_eq]
  constructor
  · rintro rfl
    cases hnext : following key (Text.words text) with
    | some v =>
      obtain ⟨front, rest, hws, hfront⟩ := exists_of_following hnext
      exact .found hws hfront
    | none => exact .absent fun front v rest hws => following_ne_none hws hnext
  · intro h
    cases h with
    | found hws hfront => rw [hws, following_append hfront, Option.getD_some]
    | absent habsent =>
      cases hnext : following key (Text.words text) with
      | none => rfl
      | some v =>
        obtain ⟨front, rest, hws, -⟩ := exists_of_following hnext
        exact absurd hws (habsent front v rest)

end Follows

inductive Part where
  | family
  | model
  | stepping
  deriving DecidableEq

namespace Part

def key : Part → Text
  | family => familyKey
  | model => modelKey
  | stepping => steppingKey

def known (i : Identification) : Part → Option Text
  | family => i.family
  | model => i.model
  | stepping => i.stepping

def read : Part → Action Identification Text
  | family => readFamily
  | model => readModel
  | stepping => readStepping

end Part

structure PlainWord (t : Text) : Prop where
  ne_nil : t ≠ []
  not_blank : ∀ c ∈ t, Text.isBlank c = false
  not_key : t ∉ keys

theorem plainWord_iff {t : Text} :
    t ≠ [] ∧ t.any Text.isBlank = false ∧ t ∉ keys ↔ PlainWord t := by
  constructor
  · rintro ⟨hne, hblank, hkey⟩
    exact ⟨hne, fun c hc => Bool.not_eq_true _ ▸ List.any_eq_false.mp hblank c hc, hkey⟩
  · intro h
    refine ⟨h.ne_nil, List.any_eq_false.mpr fun c hc => ?_, h.not_key⟩
    rw [h.not_blank c hc]
    exact Bool.false_ne_true

instance (t : Text) : Decidable (PlainWord t) := decidable_of_iff _ plainWord_iff

section Parts
variable {i t : Identification} {text w : Text}

theorem PlainWord.words (h : PlainWord w) : Text.words w = [w] := by
  rw [Text.words_eq_runs, Text.runs_eq_singleton h.ne_nil h.not_blank]

theorem PlainWord.keyFree (h : PlainWord w) : KeyFree w := by
  intro v hv
  rw [h.words, List.mem_singleton] at hv
  rw [hv]
  exact h.not_key

theorem settles_readPart (hi : i.Unambiguous) (part : Part) :
    i.Settles part.read (.ok (i.partText (part.known i) part.key)) := by
  cases part with
  | family => exact settles_family hi
  | model => exact settles_model hi
  | stepping => exact settles_stepping hi

theorem filled_readAll (hi : i.Unambiguous) (fields : List Field) (ht : i.Filled t) :
    i.Filled (readAll fields t).2 := by
  induction fields generalizing t with
  | nil => exact ht
  | cons field fields ih => exact ih (settles_read hi field t ht).2

theorem unambiguous_of_identifier (text : Text) : Unambiguous { identifier := some text } := by
  intro known hknown
  obtain rfl : known = none := by simpa using hknown
  decide

theorem result_readPart {known : Identification → Option Text}
    {keep : Text → Identification → Identification} {key : Text} (hunset : known i = none)
    (htext : i.identifier = some text) :
    ((readPart known keep key).run i).result = .ok (wordAfter key text) := by
  have hends : (readPart known keep key).Ends i fun r _ => r = .ok (wordAfter key text) := by
    apply Action.ends_get_bind.mpr
    rw [hunset, htext]
    rfl
  exact hends

theorem Part.result_read {part : Part} (hunset : part.known i = none)
    (htext : i.identifier = some text) :
    (part.read.run i).result = .ok (wordAfter part.key text) := by
  cases part with
  | family => exact result_readPart hunset htext
  | model => exact result_readPart hunset htext
  | stepping => exact result_readPart hunset htext

theorem wordAfter_identifierText {head : Text} {parts : Part → Text} (hhead : KeyFree head)
    (hparts : ∀ part, PlainWord (parts part)) (part : Part) :
    wordAfter part.key (identifierText head (parts .family) (parts .model) (parts .stepping))
      = parts part := by
  cases part with
  | family => exact wordAfter_family hhead (hparts .family).words
  | model => exact wordAfter_model hhead (hparts .family).keyFree (hparts .model).words
  | stepping =>
    exact wordAfter_stepping hhead (hparts .family).keyFree (hparts .model).keyFree
      (hparts .stepping).words

end Parts

/-- The parts are read back from the identifier that is built of them, and from any identifier each
part that is not known reads as the word that follows its key. -/
theorem parts_read_back :
    (∀ (i : Identification) (parts : Part → Text), i.identifier = none → KeyFree i.vendorText →
      (∀ part, part.known i = some (parts part) ∧ PlainWord (parts part)) →
      ∃ text, (readIdentifier.run i).result = .ok text ∧
        ∀ (before : List Field) (part : Part),
          (part.read.run (readAll before { identifier := some text }).2).result
            = .ok (parts part)) ∧
    ∀ (i : Identification) (text : Text) (part : Part), i.identifier = some text →
      part.known i = none →
      ∀ w, (part.read.run i).result = .ok w ↔ Follows part.key (Text.words text) w := by
  constructor
  · intro i parts hunset hvendor hparts
    have hfamily : i.family = some (parts .family) := (hparts .family).1
    have hmodel : i.model = some (parts .model) := (hparts .model).1
    have hstepping : i.stepping = some (parts .stepping) := (hparts .stepping).1
    have hwords (part : Part) : PlainWord (parts part) := (hparts part).2
    have hi : i.Unambiguous := by
      simp only [Unambiguous, hfamily, hmodel, hstepping, List.forall_mem_cons, Option.getD_some]
      exact ⟨hvendor, (hwords .family).keyFree, (hwords .model).keyFree,
        (hwords .stepping).keyFree, nofun⟩
    refine ⟨i.fullText, (settles_identifier hi i (.refl i)).1, ?_⟩
    intro before part
    have hbuilt : i.fullText
        = identifierText i.headText (parts .family) (parts .model) (parts .stepping) := by
      simp only [fullText, builtText, partText, hunset, hfamily, hmodel, hstepping,
        Option.getD_none, Option.getD_some]
    have hfresh := unambiguous_of_identifier i.fullText
    have hread := (settles_readPart hfresh part _ (filled_readAll hfresh before (.refl _))).1
    have hnone : part.known { identifier := some i.fullText } = none := by cases part <;> rfl
    rw [hread, partText, hnone, Option.getD_none, Option.elim_some, hbuilt,
      wordAfter_identifierText hi.head hwords part]
  · intro i text part htext hunset w
    rw [part.result_read hunset htext, ← wordAfter_eq_iff, Except.ok.injEq]

theorem parts_read_back_intel :
    let i : Identification :=
      { vendor := some intelVendor, is64Bit := some true, family := some ['6'],
        model := some "158".toList, stepping := some "10".toList }
    let text := "Intel64 Family 6 Model 158 Stepping 10".toList
    let other := "ARMv8 Model Model 1 Family".toList
    (readIdentifier.run i).result = .ok text ∧
      (readModel.run (readAll [.stepping, .model] { identifier := some text }).2).result
        = .ok "158".toList ∧
      (readModel.run { identifier := some other }).result = .ok modelKey ∧
      (readFamily.run { identifier := some other }).result = .ok [] := by
  intro i text other
  obtain ⟨hbuilt, hread⟩ := parts_read_back
  have hparts (part : Part) : part.known i = some ((part.known i).getD []) ∧
      PlainWord ((part.known i).getD []) := by
    cases part <;> exact ⟨rfl, by decide⟩
  obtain ⟨built, htext, hback⟩ := hbuilt i _ rfl (by decide) hparts
  have hintel : (readIdentifier.run i).result = .ok text := by decide +kernel
  obtain rfl : text = built := Except.ok.inj (hintel.symm.trans htext)
  have hmodel : Follows modelKey (Text.words other) modelKey := wordAfter_eq_iff.mp (by decide)
  have hfamily : Follows familyKey (Text.words other) [] := wordAfter_eq_iff.mp (by decide)
  exact ⟨hintel, hback [.stepping, .model] .model,
    (hread { identifier := some other } other .model rfl rfl modelKey).mpr hmodel,
    (hread { identifier := some other } other .family rfl rfl []).mpr hfamily⟩

end Identification

end ProcessorLoad
