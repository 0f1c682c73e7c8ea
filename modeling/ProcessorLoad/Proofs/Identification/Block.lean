import ProcessorLoad.Identification
import ProcessorLoad.Proofs.KeyValue

/-!
# The block of lines that an identification is read from

Blank lines in front of the first block are passed over, and the next blank line ends it. Of a
block, only the first line of each key matters, so lines with distinct keys can change places and
lines without a colon can come and go.
-/

set_option autoImplicit false

namespace ProcessorLoad

namespace Identification

def IsBlankLine (line : Text) : Prop := ∀ c ∈ line, Text.isBlank c = true

theorem all_isBlank_iff {line : Text} : line.all Text.isBlank = true ↔ IsBlankLine line :=
  List.all_eq_true

instance (line : Text) : Decidable (IsBlankLine line) := decidable_of_iff _ all_isBlank_iff

def DistinctKeys (lines : List Text) : Prop :=
  lines.Pairwise fun a b => ∀ key v w, Fields.Gives ':' a key v → ¬Fields.Gives ':' b key w

/-- What a block of lines tells of a processor. -/
structure Tells (block : List Text) (i : Identification) : Prop where
  vendor : ∀ t, i.vendor = some t ↔ Fields.FirstGives ':' block "vendor_id".toList t
  name : ∀ t, i.name = some t ↔ Fields.FirstGives ':' block "model name".toList t
  family : ∀ t, i.family = some t ↔ Fields.FirstGives ':' block "cpu family".toList t
  model : ∀ t, i.model = some t ↔ Fields.FirstGives ':' block "model".toList t
  stepping : ∀ t, i.stepping = some t ↔ Fields.FirstGives ':' block "stepping".toList t
  is64Bit : ∃ flag, i.is64Bit = some flag ∧
    (flag = true ↔ ∃ t, Fields.FirstGives ':' block "flags".toList t ∧ "lm".toList ∈ Text.words t)
  unset : i.vendorFrequency = none ∧ i.identifier = none

section Block
variable {blanks block rest part other front back : List Text}

/-- Blank lines in front of a block, and what a blank line parts from it, are not of it. -/
theorem firstBlock_append (hblanks : ∀ line ∈ blanks, IsBlankLine line) (hne : block ≠ [])
    (hblock : ∀ line ∈ block, ¬IsBlankLine line) (hrest : ∀ line ∈ rest.head?, IsBlankLine line) :
    firstBlock (blanks ++ block ++ rest) = block := by
  have hkept : ∀ line ∈ block, (!line.all Text.isBlank) = true := by
    intro line hline
    rw [Bool.not_eq_true', ← Bool.not_eq_true, all_isBlank_iff]
    exact hblock line hline
  have hstop : rest.takeWhile (!·.all Text.isBlank) = [] := by
    cases rest with
    | nil => rfl
    | cons line lines =>
      rw [List.takeWhile_cons_of_neg]
      simpa using all_isBlank_iff.mpr (hrest line rfl)
  have hskip : (blanks ++ block ++ rest).dropWhile (·.all Text.isBlank) = block ++ rest := by
    rw [List.append_assoc,
      List.dropWhile_append_of_pos fun line h => all_isBlank_iff.mpr (hblanks line h)]
    obtain ⟨line, lines, rfl⟩ := List.exists_cons_of_ne_nil hne
    rw [List.cons_append, List.dropWhile_cons_of_neg]
    simpa using hkept line List.mem_cons_self
  rw [firstBlock, hskip, List.takeWhile_append_of_pos hkept, hstop, List.append_nil]

theorem firstBlock_of_not_blank (hblock : ∀ line ∈ block, ¬IsBlankLine line) :
    firstBlock block = block := by
  cases block with
  | nil => rfl
  | cons line lines =>
    have h : firstBlock ([] ++ (line :: lines) ++ []) = line :: lines :=
      firstBlock_append nofun (List.cons_ne_nil line lines) hblock nofun
    rwa [List.nil_append, List.append_nil] at h

theorem ofFields_congr {fields others : Fields} (h : ∀ key, fields.lookup key = others.lookup key) :
    ofFields fields = ofFields others := by
  simp only [ofFields, h]

theorem tells_ofFields (block : List Text) : Tells block (ofFields (.ofLines [':'] block)) where
  vendor _ := Fields.lookup_ofLines_eq_some_iff
  name _ := Fields.lookup_ofLines_eq_some_iff
  family _ := Fields.lookup_ofLines_eq_some_iff
  model _ := Fields.lookup_ofLines_eq_some_iff
  stepping _ := Fields.lookup_ofLines_eq_some_iff
  is64Bit := by
    refine ⟨_, rfl, ?_⟩
    rw [List.contains_iff_mem]
    simp only [← Fields.lookup_ofLines_eq_some_iff]
    cases List.lookup "flags".toList (Fields.ofLines [':'] block) with
    | none => simp [Text.words, Text.cut]
    | some t => simp
  unset := ⟨rfl, rfl⟩

theorem distinctKeys_iff {lines : List Text} :
    DistinctKeys lines ↔ ((lines.filterMap (Fields.ofLine? [':'])).map Prod.fst).Nodup := by
  rw [List.Nodup, List.pairwise_map, List.pairwise_filterMap]
  constructor
  · intro h
    apply h.imp
    rintro a b hab ⟨key, v⟩ ha ⟨other, w⟩ hb rfl
    exact hab key v w (Fields.ofLine?_eq_some_iff.mp ha) (Fields.ofLine?_eq_some_iff.mp hb)
  · intro h
    apply h.imp
    intro a b hab key v w ha hb
    exact hab (key, v) (Fields.ofLine?_eq_some_iff.mpr ha) (key, w)
      (Fields.ofLine?_eq_some_iff.mpr hb) rfl

instance (lines : List Text) : Decidable (DistinctKeys lines) :=
  decidable_of_iff _ distinctKeys_iff.symm

theorem lookup_of_perm (hperm : part.Perm other) (hkeys : DistinctKeys part) (key : Text) :
    (Fields.ofLines [':'] (front ++ other ++ back)).lookup key
      = (Fields.ofLines [':'] (front ++ part ++ back)).lookup key := by
  have hpart := lookup_eq_of_perm (a := key) (hperm.filterMap (Fields.ofLine? [':']))
    (distinctKeys_iff.mp hkeys)
  simp only [Fields.lookup_ofLines, List.filterMap_append, List.lookup_append, hpart]

/-- Lines without a colon are no part of what is read. -/
theorem filterMap_filter (lines : List Text) :
    (lines.filter (':' ∈ ·)).filterMap (Fields.ofLine? [':'])
      = lines.filterMap (Fields.ofLine? [':']) := by
  induction lines with
  | nil => rfl
  | cons line lines ih =>
    by_cases h : ':' ∈ line
    · rw [List.filter_cons_of_pos (by simpa using h), List.filterMap_cons, List.filterMap_cons, ih]
    · rw [List.filter_cons_of_neg (by simpa using h), ih,
        List.filterMap_cons_none (Fields.ofLine?_eq_none h)]

theorem ofLines_of_not_blank (hblock : ∀ line ∈ block, ¬IsBlankLine line) :
    ofLines block = ofFields (.ofLines [':'] block) := by
  rw [ofLines, firstBlock_of_not_blank hblock]

end Block

/-- Whatever stands around the first block of lines, only that block is read, and from it the first
line of each key. Lines with distinct keys can change places, and lines without a colon can be put
in and taken out. -/
theorem first_block_counts {blanks block rest : List Text}
    (hblanks : ∀ line ∈ blanks, IsBlankLine line) (hne : block ≠ [])
    (hblock : ∀ line ∈ block, ¬IsBlankLine line) (hrest : ∀ line ∈ rest.head?, IsBlankLine line) :
    ofLines (blanks ++ block ++ rest) = ofLines block ∧ Tells block (ofLines block) ∧
      (∀ front part other back, block = front ++ part ++ back → part.Perm other →
        DistinctKeys part → ofLines (front ++ other ++ back) = ofLines block) ∧
      ∀ other, (∀ line ∈ other, ¬IsBlankLine line) →
        other.filter (':' ∈ ·) = block.filter (':' ∈ ·) → ofLines other = ofLines block := by
  rw [ofLines_of_not_blank hblock]
  refine ⟨?_, tells_ofFields block, ?_, ?_⟩
  · rw [ofLines, firstBlock_append hblanks hne hblock hrest]
  · rintro front part other back rfl hperm hkeys
    have hother : ∀ line ∈ front ++ other ++ back, ¬IsBlankLine line := by
      intro line hline
      apply hblock line
      simpa only [List.mem_append, hperm.mem_iff] using hline
    rw [ofLines_of_not_blank hother]
    exact ofFields_congr (lookup_of_perm hperm hkeys)
  · intro other hother hsame
    rw [ofLines_of_not_blank hother, Fields.ofLines, Fields.ofLines,
      ← filterMap_filter other, hsame, filterMap_filter]

theorem first_block_counts_second :
    let blanks := ["".toList, " \t".toList]
    let part := ["model name\t: A: B".toList, "power management:".toList, "model\t\t: 7".toList]
    let other := ["model\t\t: 7".toList, "model name\t: A: B".toList, "power management:".toList]
    let back := ["model : 8".toList, "noise".toList, "flags : fpu lm".toList]
    let rest := ["\u3000".toList, "vendor_id : Other".toList]
    let told : Identification :=
      { name := some "A: B".toList, model := some ['7'], is64Bit := some true }
    DistinctKeys part ∧ ofLines (blanks ++ (part ++ back) ++ rest) = told ∧
      Tells (part ++ back) told ∧ ofLines (other ++ back) = told := by
  intro blanks part other back rest told
  have hkeys : DistinctKeys part := by decide
  have hread : ofLines (part ++ back) = told := by decide +kernel
  have hblanks : ∀ line ∈ blanks, IsBlankLine line := by decide
  have hblock : ∀ line ∈ part ++ back, ¬IsBlankLine line := by decide
  have hrest : ∀ line ∈ rest.head?, IsBlankLine line := by decide
  have hne : part ++ back ≠ [] := List.cons_ne_nil _ _
  obtain ⟨hfirst, htells, hpermuted, -⟩ := first_block_counts hblanks hne hblock hrest
  rw [hread] at hfirst htells hpermuted
  exact ⟨hkeys, hfirst, htells, hpermuted [] part other back rfl (by decide) hkeys⟩

end Identification

end ProcessorLoad
