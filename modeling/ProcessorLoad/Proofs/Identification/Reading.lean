import ProcessorLoad.Proofs.Action
import ProcessorLoad.Proofs.Identification.Identifier

/-!
# Reading an identification

A reading may work a field out and keep it. What is kept is always what the reading gave, and
building the identifier changes no answer: the parts that are not known stand in it as the question
marks that they were read as before. So the answers do not depend on what was read before them.
-/

set_option autoImplicit false

namespace ProcessorLoad

namespace Identification

/-- What can be read; `label` is the text that stands for the whole processor. -/
inductive Field where
  | vendor
  | name
  | is64Bit
  | vendorFrequency
  | identifier
  | family
  | model
  | stepping
  | label
  deriving DecidableEq

inductive Value where
  | text (t : Text)
  | flag (b : Bool)
  | hertz (n : Int)
  deriving DecidableEq

def read : Field → Action Identification Value
  | .vendor => do return .text (← readVendor)
  | .name => do return .text (← readName)
  | .is64Bit => do return .flag (← readIs64Bit)
  | .vendorFrequency => do return .hertz (← readVendorFrequency)
  | .identifier => do return .text (← readIdentifier)
  | .family => do return .text (← readFamily)
  | .model => do return .text (← readModel)
  | .stepping => do return .text (← readStepping)
  | .label => do return .text (← readName)

/-- The answers to a sequence of readings, and what is known in the end. -/
def readAll (fields : List Field) (i : Identification) :
    List (Except Fault Value) × Identification :=
  Action.runAll read (fun field s => ((read field).run s).result) fields i

/-- No word of the vendor and of the parts is a key of the identifier. -/
def Unambiguous (i : Identification) : Prop :=
  ∀ t ∈ [i.vendor, i.family, i.model, i.stepping], KeyFree (t.getD [])

instance (i : Identification) : Decidable i.Unambiguous :=
  inferInstanceAs (Decidable (∀ t ∈ [i.vendor, i.family, i.model, i.stepping], KeyFree (t.getD [])))

section Answers
variable (i : Identification)

def vendorText : Text := i.vendor.getD []

def nameText : Text := i.name.getD []

def says64Bit : Bool := i.is64Bit.getD false

def frequency : Except Fault Int :=
  match i.vendorFrequency with
  | some n => .ok n
  | none =>
    match rated? i.nameText with
    | some text => Frequency.read text
    | none => .ok (-1)

def partText (part : Option Text) (key : Text) : Text :=
  part.getD (i.identifier.elim ['?'] (wordAfter key))

def headText : Text :=
  if i.vendorText = intelVendor then if i.says64Bit then "Intel64".toList else "x86".toList
  else i.vendorText

def builtText : Text :=
  identifierText i.headText (i.partText i.family familyKey) (i.partText i.model modelKey)
    (i.partText i.stepping steppingKey)

def fullText : Text := i.identifier.getD i.builtText

/-- What the first reading of a field answers. -/
def answer : Field → Except Fault Value
  | .vendor => .ok (.text i.vendorText)
  | .name => .ok (.text i.nameText)
  | .is64Bit => .ok (.flag i.says64Bit)
  | .vendorFrequency => .hertz <$> i.frequency
  | .identifier => .ok (.text i.fullText)
  | .family => .ok (.text (i.partText i.family familyKey))
  | .model => .ok (.text (i.partText i.model modelKey))
  | .stepping => .ok (.text (i.partText i.stepping steppingKey))
  | .label => .ok (.text i.nameText)

end Answers

/-- A field that is as it was, or that was not known and now holds the answer to its reading. -/
def Fills {α : Type} (known : Option α) (answer : Except Fault α) (now : Option α) : Prop :=
  now = known ∨ known = none ∧ ∃ a, answer = .ok a ∧ now = some a

theorem Fills.eq_none {α : Type} {known : Option α} {answer : Except Fault α}
    (h : Fills known answer none) : known = none := by
  rcases h with hsame | ⟨-, _, -, hfilled⟩
  · exact hsame.symm
  · cases hfilled

theorem Fills.answer_eq {α : Type} {known : Option α} {answer : Except Fault α} {a : α}
    (h : Fills known answer (some a)) (hknown : ∀ b, known = some b → answer = .ok b) :
    answer = .ok a := by
  rcases h with hsame | ⟨-, b, hanswer, hfilled⟩
  · exact hknown a hsame.symm
  · cases hfilled
    exact hanswer

/-- What becomes of an identification by readings. -/
structure Filled (i t : Identification) : Prop where
  vendor : Fills i.vendor (.ok i.vendorText) t.vendor
  name : Fills i.name (.ok i.nameText) t.name
  is64Bit : Fills i.is64Bit (.ok i.says64Bit) t.is64Bit
  vendorFrequency : Fills i.vendorFrequency i.frequency t.vendorFrequency
  identifier : Fills i.identifier (.ok i.fullText) t.identifier
  family : Fills i.family (.ok (i.partText i.family familyKey)) t.family
  model : Fills i.model (.ok (i.partText i.model modelKey)) t.model
  stepping : Fills i.stepping (.ok (i.partText i.stepping steppingKey)) t.stepping

theorem Filled.refl (i : Identification) : i.Filled i :=
  ⟨.inl rfl, .inl rfl, .inl rfl, .inl rfl, .inl rfl, .inl rfl, .inl rfl, .inl rfl⟩

/-- From every state that readings lead to, the action ends as said and in such a state. -/
def Settles {α : Type} (i : Identification) (a : Action Identification α) (x : Except Fault α) :
    Prop := ∀ t, i.Filled t → a.Ends t fun r u => r = x ∧ i.Filled u

section Settles
variable {α β : Type} {i : Identification}

theorem Settles.bind {a : Action Identification α} {k : α → Action Identification β} {x : α}
    {y : Except Fault β} (ha : i.Settles a (.ok x)) (hk : i.Settles (k x) y) :
    i.Settles (a >>= k) y := by
  intro t ht
  apply (ha t ht).bind
  · rintro _ u ⟨⟨⟩, hu⟩
    exact hk u hu
  · rintro fault u ⟨⟨⟩, _⟩

theorem Settles.map {a : Action Identification α} {x : Except Fault α} (ha : i.Settles a x)
    (f : α → β) : i.Settles (a >>= fun y => pure (f y)) (f <$> x) := by
  intro t ht
  apply Action.ends_map.mpr
  apply (ha t ht).mono
  rintro _ u ⟨rfl, hu⟩
  exact ⟨rfl, hu⟩

theorem settles_pure (x : α) : i.Settles (pure x) (.ok x) := fun _ ht => ⟨rfl, ht⟩

theorem settles_ofExcept (x : Except Fault α) : i.Settles (Action.ofExcept x) x :=
  fun _ ht => ⟨rfl, ht⟩

section Memo
variable {known : Identification → Option α} {keep : α → Identification → Identification}

theorem settles_memo {workOut : Action Identification α} {x : Except Fault α}
    (hfills : ∀ t, i.Filled t → Fills (known i) x (known t))
    (hknown : ∀ a, known i = some a → x = .ok a) (hworkOut : known i = none → i.Settles workOut x)
    (hkeep : ∀ a t, known i = none → x = .ok a → i.Filled t → i.Filled (keep a t)) :
    i.Settles (memo known keep workOut) x := by
  intro t ht
  have hnow := hfills t ht
  apply Action.ends_get_bind.mpr
  cases hcase : known t with
  | some a =>
    rw [hcase] at hnow
    exact ⟨(hnow.answer_eq hknown).symm, ht⟩
  | none =>
    rw [hcase] at hnow
    apply (hworkOut hnow.eq_none t ht).bind
    · rintro a u ⟨hx, hu⟩
      exact ⟨hx, hkeep a u hnow.eq_none hx.symm hu⟩
    · rintro fault u ⟨hx, hu⟩
      exact ⟨hx, hu⟩

theorem settles_default {default : α}
    (hfills : ∀ t, i.Filled t → Fills (known i) (.ok ((known i).getD default)) (known t))
    (hkeep : ∀ t, known i = none → i.Filled t → i.Filled (keep default t)) :
    i.Settles (memo known keep (pure default)) (.ok ((known i).getD default)) := by
  apply settles_memo hfills
  · intro a ha
    rw [ha, Option.getD_some]
  · intro hnone
    rw [hnone, Option.getD_none]
    exact settles_pure default
  · intro a t hnone ha ht
    rw [hnone, Option.getD_none] at ha
    cases ha
    exact hkeep t hnone ht

end Memo

theorem settles_vendor : i.Settles readVendor (.ok i.vendorText) := by
  apply settles_default
  · exact fun t ht => ht.vendor
  · intro t hnone ht
    exact { ht with vendor := .inr ⟨hnone, [], by rw [vendorText, hnone, Option.getD_none], rfl⟩ }

theorem settles_name : i.Settles readName (.ok i.nameText) := by
  apply settles_default
  · exact fun t ht => ht.name
  · intro t hnone ht
    exact { ht with name := .inr ⟨hnone, [], by rw [nameText, hnone, Option.getD_none], rfl⟩ }

theorem settles_is64Bit : i.Settles readIs64Bit (.ok i.says64Bit) := by
  apply settles_default
  · exact fun t ht => ht.is64Bit
  · intro t hnone ht
    have hsays : i.says64Bit = false := by rw [says64Bit, hnone, Option.getD_none]
    exact { ht with is64Bit := .inr ⟨hnone, false, congrArg Except.ok hsays, rfl⟩ }

theorem settles_vendorFrequency : i.Settles readVendorFrequency i.frequency := by
  apply settles_memo
  · exact fun t ht => ht.vendorFrequency
  · intro n hn
    rw [frequency, hn]
  · intro hnone
    rw [frequency, hnone]
    apply settles_name.bind
    cases rated? i.nameText with
    | none => exact settles_pure _
    | some text => exact settles_ofExcept _
  · intro n t hnone hn ht
    exact { ht with vendorFrequency := .inr ⟨hnone, n, hn, rfl⟩ }

theorem settles_head : i.Settles readIdentifierHead (.ok i.headText) := by
  apply settles_vendor.bind
  rw [headText]
  split
  · exact settles_is64Bit.map _
  · exact settles_pure _

/-- A part answers the same before and after the identifier is built, if a built one says of the
part that it is unknown as long as it is. -/
theorem settles_part {known : Identification → Option Text}
    {keep : Text → Identification → Identification} {key : Text}
    (hbuilt : i.identifier = none → known i = none → wordAfter key i.builtText = ['?'])
    (hfills : ∀ t, i.Filled t → Fills (known i) (.ok (i.partText (known i) key)) (known t))
    (hkeep : ∀ v t, known i = none → i.partText (known i) key = v → i.Filled t →
      i.Filled (keep v t)) :
    i.Settles (readPart known keep key) (.ok (i.partText (known i) key)) := by
  intro t ht
  have hnow := hfills t ht
  have hidentifier := ht.identifier
  apply Action.ends_get_bind.mpr
  cases hcase : known t with
  | some v =>
    rw [hcase] at hnow
    refine ⟨(hnow.answer_eq ?_).symm, ht⟩
    intro w hw
    rw [partText, hw, Option.getD_some]
  | none =>
    rw [hcase] at hnow
    have hnone := hnow.eq_none
    cases htext : t.identifier with
    | none =>
      rw [htext] at hidentifier
      rw [partText, hnone, Option.getD_none, hidentifier.eq_none]
      exact ⟨rfl, ht⟩
    | some text =>
      rw [htext] at hidentifier
      have hword : i.partText (known i) key = wordAfter key text := by
        rw [partText, hnone, Option.getD_none]
        rcases hidentifier with hsame | ⟨hunset, _, hfull, hfilled⟩
        · rw [← hsame, Option.elim_some]
        · cases hfilled
          cases hfull
          rw [hunset, Option.elim_none, fullText, hunset, Option.getD_none, hbuilt hunset hnone]
      exact ⟨congrArg Except.ok hword.symm, hkeep _ t hnone hword ht⟩

theorem words_partText {part : Option Text} (hunset : i.identifier = none) (hnone : part = none)
    (key : Text) : Text.words (i.partText part key) = [['?']] := by
  rw [partText, hnone, Option.getD_none, hunset, Option.elim_none]
  decide

section Unambiguous
variable (hi : i.Unambiguous)
include hi

theorem Unambiguous.head : KeyFree i.headText := by
  have hvendor : KeyFree i.vendorText := hi _ (by simp)
  rw [headText]
  split
  · split <;> decide
  · exact hvendor

theorem Unambiguous.part {part : Option Text}
    (hpart : part ∈ [i.vendor, i.family, i.model, i.stepping])
    (hunset : i.identifier = none) (key : Text) : KeyFree (i.partText part key) := by
  rw [partText, hunset, Option.elim_none]
  cases part with
  | none => decide
  | some t => exact hi _ hpart

theorem settles_family : i.Settles readFamily (.ok (i.partText i.family familyKey)) := by
  apply settles_part
  · intro hunset hnone
    exact wordAfter_family hi.head (words_partText hunset hnone _)
  · exact fun t ht => ht.family
  · intro v t hnone hv ht
    exact { ht with family := .inr ⟨hnone, v, congrArg Except.ok hv, rfl⟩ }

theorem settles_model : i.Settles readModel (.ok (i.partText i.model modelKey)) := by
  apply settles_part
  · intro hunset hnone
    exact wordAfter_model hi.head (hi.part (by simp) hunset _) (words_partText hunset hnone _)
  · exact fun t ht => ht.model
  · intro v t hnone hv ht
    exact { ht with model := .inr ⟨hnone, v, congrArg Except.ok hv, rfl⟩ }

theorem settles_stepping : i.Settles readStepping (.ok (i.partText i.stepping steppingKey)) := by
  apply settles_part
  · intro hunset hnone
    exact wordAfter_stepping hi.head (hi.part (by simp) hunset _) (hi.part (by simp) hunset _)
      (words_partText hunset hnone _)
  · exact fun t ht => ht.stepping
  · intro v t hnone hv ht
    exact { ht with stepping := .inr ⟨hnone, v, congrArg Except.ok hv, rfl⟩ }

theorem settles_identifier : i.Settles readIdentifier (.ok i.fullText) := by
  apply settles_memo
  · exact fun t ht => ht.identifier
  · intro text htext
    rw [fullText, htext, Option.getD_some]
  · intro hunset
    rw [fullText, hunset, Option.getD_none]
    apply settles_head.bind
    apply (settles_family hi).bind
    apply (settles_model hi).bind
    exact (settles_stepping hi).map _
  · intro text t hunset htext ht
    exact { ht with identifier := .inr ⟨hunset, text, htext, rfl⟩ }

theorem settles_read (field : Field) : i.Settles (read field) (i.answer field) := by
  cases field with
  | vendor => exact settles_vendor.map _
  | name => exact settles_name.map _
  | is64Bit => exact settles_is64Bit.map _
  | vendorFrequency => exact settles_vendorFrequency.map _
  | identifier => exact (settles_identifier hi).map _
  | family => exact (settles_family hi).map _
  | model => exact (settles_model hi).map _
  | stepping => exact (settles_stepping hi).map _
  | label => exact settles_name.map _

/-- The run lemma: in a state that readings lead to, all fields answer as at first. -/
theorem answers_readAll (fields : List Field) {t : Identification} (ht : i.Filled t) :
    (readAll fields t).1 = fields.map i.answer := by
  induction fields generalizing t with
  | nil => rfl
  | cons field fields ih =>
    obtain ⟨hanswer, hfilled⟩ := settles_read hi field t ht
    exact congrArg₂ List.cons hanswer (ih hfilled)

end Unambiguous

end Settles

/-- Whatever is known of a processor, as long as no word of the vendor and of the parts is a key of
the identifier: in any sequence of readings each field answers as if it were read first. -/
theorem readings_do_not_interfere {i : Identification} (hi : i.Unambiguous) (fields : List Field) :
    (readAll fields i).1 = fields.map fun field => ((read field).run i).result := by
  rw [answers_readAll hi fields (.refl i)]
  apply List.map_congr_left
  intro field _
  obtain ⟨hanswer, -⟩ := settles_read hi field i (.refl i)
  exact hanswer.symm

/-- The family and the stepping are unknown, and the model has two words. -/
def partlyKnown : Identification where
  vendor := some "Some Vendor".toList
  name := some "Unit @ 2.60GHz".toList
  model := some "a b".toList

theorem readings_do_not_interfere_partly :
    let fields : List Field :=
      [.family, .vendorFrequency, .identifier, .family, .stepping, .identifier]
    partlyKnown.Unambiguous ∧
      (readAll fields partlyKnown).1
        = fields.map (fun field => ((read field).run partlyKnown).result) ∧
      fields.map (fun field => ((read field).run partlyKnown).result)
        = [.ok (.text ['?']), .ok (.hertz 2600000000),
          .ok (.text "Some Vendor Family ? Model a b Stepping ?".toList), .ok (.text ['?']),
          .ok (.text ['?']), .ok (.text "Some Vendor Family ? Model a b Stepping ?".toList)] := by
  intro fields
  have hunambiguous : partlyKnown.Unambiguous := by decide
  refine ⟨hunambiguous, readings_do_not_interfere hunambiguous fields, ?_⟩
  decide +kernel

/-- Where the vendor has a key for a word, the family changes once the identifier is built. -/
example : (readAll [.family, .identifier, .family] { vendor := some "A Family".toList }).1
    = [.ok (.text ['?']), .ok (.text "A Family Family ? Model ? Stepping ?".toList),
      .ok (.text "Family".toList)] := by decide +kernel

end Identification

end ProcessorLoad
