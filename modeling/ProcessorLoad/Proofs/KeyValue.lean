import ProcessorLoad.KeyValue
import ProcessorLoad.Proofs.Lookup
import ProcessorLoad.Proofs.Text.Trim

/-!
# Keys and values line by line

A line is cut at its first separator, and of the lines with one key the first counts. So lines that
are added change no pair that is there, and lines that spell the pairs out read as these pairs.
-/

set_option autoImplicit false

namespace ProcessorLoad

namespace Text
variable {s : Char} {t before after : Text}

theorem splitFirst?_eq_some_iff :
    splitFirst? [s] t = some (before, after) ↔ t = before ++ s :: after ∧ s ∉ before := by
  induction t generalizing before with
  | nil => simp [splitFirst?]
  | cons c r ih =>
    have hhead : [s].isPrefixOf (c :: r) = (s == c) := Bool.and_true _
    rw [splitFirst?, hhead]
    by_cases hc : s = c
    · subst hc
      rw [if_pos (beq_self_eq_true s)]
      constructor
      · rintro ⟨⟩
        exact ⟨rfl, nofun⟩
      · rintro ⟨hsplit, hbefore⟩
        cases before with
        | nil =>
          cases hsplit
          rfl
        | cons a front =>
          cases hsplit
          exact absurd List.mem_cons_self hbefore
    · rw [if_neg (by simpa using hc), Option.map_eq_some_iff]
      constructor
      · rintro ⟨⟨front, back⟩, hcut, hpair⟩
        cases hpair
        obtain ⟨rfl, hfront⟩ := ih.mp hcut
        exact ⟨rfl, by simp [hc, hfront]⟩
      · rintro ⟨hsplit, hbefore⟩
        cases before with
        | nil => exact absurd (List.cons.inj hsplit).1.symm hc
        | cons a front =>
          cases hsplit
          exact ⟨(front, after), ih.mpr ⟨rfl, fun h => hbefore (List.mem_cons_of_mem _ h)⟩, rfl⟩

theorem splitFirst?_eq_none (h : s ∉ t) : splitFirst? [s] t = none := by
  cases hcut : splitFirst? [s] t with
  | none => rfl
  | some parts =>
    obtain ⟨rfl, -⟩ := splitFirst?_eq_some_iff.mp hcut
    exact absurd (List.mem_append_right _ List.mem_cons_self) h

end Text

namespace Fields

/-- The line has a separator, and the key and the value stand stripped before and after the first
one. -/
def Gives (s : Char) (line key value : Text) : Prop :=
  ∃ before after, line = before ++ s :: after ∧ s ∉ before ∧ Text.strip before = key ∧
    Text.strip after = value

/-- The value is the one that the first line with the key gives. -/
def FirstGives (s : Char) (lines : List Text) (key value : Text) : Prop :=
  ∃ front line back, lines = front ++ line :: back ∧ Gives s line key value ∧
    ∀ earlier ∈ front, ∀ other, ¬Gives s earlier key other

/-- The line is made of the key, the separator and the value, with blanks around the two. None of
those in front of the separator is the separator. -/
def Spells (s : Char) (pair : Text × Text) (line : Text) : Prop :=
  ∃ x y z w, (∀ c ∈ x ++ y, Text.isBlank c = true ∧ c ≠ s) ∧
    (∀ c ∈ z ++ w, Text.isBlank c = true) ∧ line = x ++ pair.1 ++ y ++ s :: (z ++ pair.2 ++ w)

/-- Key and value have no blank at their ends, and the key has no separator. -/
structure Bare (s : Char) (pair : Text × Text) : Prop where
  key : Text.Trimmed Text.isBlank pair.1
  value : Text.Trimmed Text.isBlank pair.2
  undivided : s ∉ pair.1

def keys (fields : Fields) : List Text := fields.map Prod.fst

section Line
variable {s : Char} {line key value : Text} {pair : Text × Text}

theorem ofLine?_eq_some_iff : ofLine? [s] line = some (key, value) ↔ Gives s line key value := by
  rw [ofLine?, Option.map_eq_some_iff]
  constructor
  · rintro ⟨⟨before, after⟩, hcut, hpair⟩
    cases hpair
    obtain ⟨hline, hbefore⟩ := Text.splitFirst?_eq_some_iff.mp hcut
    exact ⟨before, after, hline, hbefore, rfl, rfl⟩
  · rintro ⟨before, after, hline, hbefore, rfl, rfl⟩
    exact ⟨(before, after), Text.splitFirst?_eq_some_iff.mpr ⟨hline, hbefore⟩, rfl⟩

theorem ofLine?_eq_none (h : s ∉ line) : ofLine? [s] line = none := by
  rw [ofLine?, Text.splitFirst?_eq_none h, Option.map_none]

theorem mem_strip {c : Char} {t : Text} (h : c ∈ Text.strip t) : c ∈ t := by
  obtain ⟨x, y, ht, -⟩ := Text.exists_append_trim Text.isBlank t
  rw [ht]
  exact List.mem_append_left _ (List.mem_append_right _ h)

theorem Gives.bare (h : Gives s line key value) : Bare s (key, value) := by
  obtain ⟨before, after, rfl, hbefore, rfl, rfl⟩ := h
  exact ⟨Text.trimmed_strip before, Text.trimmed_strip after, fun h => hbefore (mem_strip h)⟩

theorem Spells.gives (h : Spells s pair line) (hpair : Bare s pair) :
    Gives s line pair.1 pair.2 := by
  obtain ⟨x, y, z, w, hfront, hback, rfl⟩ := h
  rw [List.forall_mem_append] at hfront hback
  obtain ⟨hx, hy⟩ := hfront
  refine ⟨x ++ pair.1 ++ y, z ++ pair.2 ++ w, rfl, ?_, ?_, ?_⟩
  · rw [List.mem_append, List.mem_append]
    rintro ((hmem | hmem) | hmem)
    · exact (hx s hmem).2 rfl
    · exact hpair.undivided hmem
    · exact (hy s hmem).2 rfl
  · exact Text.strip_append (fun c hc => (hx c hc).1) (fun c hc => (hy c hc).1) hpair.key
  · exact Text.strip_append hback.1 hback.2 hpair.value

end Line

section AddNew
variable {acc pairs : Fields} {pair : Text × Text} {key : Text}

theorem keys_append (acc pairs : Fields) : keys (acc ++ pairs) = acc.keys ++ pairs.keys :=
  List.map_append

theorem addNew_of_mem (h : pair.1 ∈ acc.keys) : addNew acc pair = acc := by
  rw [addNew, if_pos]
  rw [Option.isSome_iff_ne_none, Ne, lookup_eq_none_iff, not_not]
  exact h

theorem addNew_of_not_mem (h : pair.1 ∉ acc.keys) : addNew acc pair = acc ++ [pair] := by
  rw [addNew, lookup_eq_none_iff.mpr h, Option.isSome_none, if_neg Bool.false_ne_true]

theorem lookup_addNew : (addNew acc pair).lookup key = (acc.lookup key).or ([pair].lookup key) := by
  by_cases h : pair.1 ∈ acc.keys
  · rw [addNew_of_mem h]
    cases hlookup : acc.lookup key with
    | some value => rfl
    | none =>
      have hne : key ≠ pair.1 := by
        rintro rfl
        exact lookup_eq_none_iff.mp hlookup h
      rw [Option.none_or, List.lookup_cons, beq_false_of_ne hne, List.lookup_nil]
  · rw [addNew_of_not_mem h, List.lookup_append]

theorem lookup_foldl_addNew :
    (pairs.foldl addNew acc).lookup key = (acc.lookup key).or (pairs.lookup key) := by
  induction pairs generalizing acc with
  | nil => rw [List.foldl_nil, List.lookup_nil, Option.or_none]
  | cons pair pairs ih =>
    rw [List.foldl_cons, ih, lookup_addNew, Option.or_assoc, ← List.lookup_append,
      List.singleton_append]

theorem nodup_addNew (h : acc.keys.Nodup) : (addNew acc pair).keys.Nodup := by
  by_cases hmem : pair.1 ∈ acc.keys
  · rwa [addNew_of_mem hmem]
  · rw [addNew_of_not_mem hmem, keys_append]
    exact h.append (List.nodup_singleton pair.1) (List.disjoint_singleton.mpr hmem)

theorem nodup_foldl_addNew (h : acc.keys.Nodup) : (pairs.foldl addNew acc).keys.Nodup := by
  induction pairs generalizing acc with
  | nil => exact h
  | cons pair pairs ih => exact ih (nodup_addNew h)

theorem foldl_addNew (acc pairs : Fields) :
    pairs.foldl addNew acc = acc ++ (pairs.foldl addNew []).filter (·.1 ∉ acc.keys) := by
  induction pairs generalizing acc with
  | nil => simp
  | cons pair pairs ih =>
    have hfirst : (pair :: pairs).foldl addNew []
        = pair :: (pairs.foldl addNew []).filter (·.1 ∉ keys [pair]) := ih [pair]
    rw [List.foldl_cons, ih (addNew acc pair), hfirst]
    by_cases h : pair.1 ∈ acc.keys
    · have hkeys (other : Text × Text) (hother : other.1 ∉ acc.keys) : other.1 ∉ keys [pair] := by
        intro hmem
        rw [List.mem_singleton.mp hmem] at hother
        exact hother h
      rw [addNew_of_mem h, List.filter_cons_of_neg (by simpa using h), List.filter_filter]
      congr 1
      apply List.filter_congr
      intro other _
      rw [← Bool.decide_and, decide_eq_decide, and_iff_left_of_imp (hkeys other)]
    · rw [addNew_of_not_mem h, List.filter_cons_of_pos (by simpa using h), List.filter_filter,
        List.append_assoc, List.singleton_append]
      congr 2
      apply List.filter_congr
      intro other _
      rw [← Bool.decide_and, decide_eq_decide, keys_append, List.mem_append, not_or]

theorem foldl_addNew_of_nodup (h : (keys (acc ++ pairs)).Nodup) :
    pairs.foldl addNew acc = acc ++ pairs := by
  induction pairs generalizing acc with
  | nil => simp
  | cons pair pairs ih =>
    have hnew : pair.1 ∉ acc.keys := by
      rw [keys_append] at h
      intro hmem
      exact (List.nodup_append.mp h).2.2 _ hmem _ List.mem_cons_self rfl
    rw [List.foldl_cons, addNew_of_not_mem hnew]
    rw [List.append_cons] at h
    rw [ih h, List.append_assoc, List.singleton_append]

end AddNew

section Lines
variable {s : Char} {lines more rendered : List Text} {fields : Fields} {key value : Text}

theorem lookup_ofLines :
    (ofLines [s] lines).lookup key = (lines.filterMap (ofLine? [s])).lookup key := by
  rw [ofLines, lookup_foldl_addNew, List.lookup_nil, Option.none_or]

theorem lookup_ofLines_eq_some_iff :
    (ofLines [s] lines).lookup key = some value ↔ FirstGives s lines key value := by
  rw [lookup_ofLines, List.lookup_eq_some_iff]
  constructor
  · rintro ⟨before, after, hpairs, hbefore⟩
    obtain ⟨start, rest, rfl, rfl, hrest⟩ := List.filterMap_eq_append_iff.mp hpairs
    obtain ⟨skipped, line, back, rfl, hskipped, hline, -⟩ := List.filterMap_eq_cons_iff.mp hrest
    refine ⟨start ++ skipped, line, back, by rw [List.append_assoc],
      ofLine?_eq_some_iff.mp hline, ?_⟩
    intro earlier hearlier other hgives
    have hpair := ofLine?_eq_some_iff.mpr hgives
    rcases List.mem_append.mp hearlier with hmem | hmem
    · simpa using hbefore _ (List.mem_filterMap.mpr ⟨earlier, hmem, hpair⟩)
    · rw [hskipped earlier hmem] at hpair
      cases hpair
  · rintro ⟨front, line, back, rfl, hline, hfront⟩
    refine ⟨front.filterMap (ofLine? [s]), back.filterMap (ofLine? [s]), ?_, ?_⟩
    · rw [List.filterMap_append, List.filterMap_cons_some (ofLine?_eq_some_iff.mpr hline)]
    · rintro ⟨other, v⟩ hpair
      obtain ⟨earlier, hearlier, hread⟩ := List.mem_filterMap.mp hpair
      rw [bne_iff_ne]
      rintro rfl
      exact hfront earlier hearlier v (ofLine?_eq_some_iff.mp hread)

theorem nodup_ofLines : (ofLines [s] lines).keys.Nodup := nodup_foldl_addNew List.nodup_nil

theorem mem_ofLines_iff : (key, value) ∈ ofLines [s] lines ↔ FirstGives s lines key value := by
  rw [← lookup_ofLines_eq_some_iff]
  exact (ProcessorLoad.lookup_eq_some_iff nodup_ofLines).symm

theorem ofLines_append :
    ofLines [s] (lines ++ more)
      = ofLines [s] lines ++ (ofLines [s] more).filter (·.1 ∉ (ofLines [s] lines).keys) := by
  rw [ofLines, List.filterMap_append, List.foldl_append, foldl_addNew]
  rfl

theorem filterMap_of_spells (h : List.Forall₂ (Spells s) fields rendered)
    (hfields : ∀ pair ∈ fields, Bare s pair) : rendered.filterMap (ofLine? [s]) = fields := by
  induction h with
  | nil => rfl
  | cons hline _ ih =>
    obtain ⟨hpair, hfields⟩ := List.forall_mem_cons.mp hfields
    rw [List.filterMap_cons_some (ofLine?_eq_some_iff.mpr (hline.gives hpair)), ih hfields]

theorem bare_of_mem {pair : Text × Text} (h : pair ∈ ofLines [s] lines) : Bare s pair := by
  obtain ⟨_, _, _, _, hgives, _⟩ := mem_ofLines_iff.mp h
  exact hgives.bare

theorem ofLines_of_spells (h : List.Forall₂ (Spells s) (ofLines [s] lines) rendered) :
    ofLines [s] rendered = ofLines [s] lines := by
  rw [ofLines, filterMap_of_spells h fun _ hpair => bare_of_mem hpair]
  exact foldl_addNew_of_nodup nodup_ofLines

theorem read_eq (s : Char) (lines : List Text) : read [s] lines = .ok (ofLines [s] lines) :=
  if_neg fun h => List.cons_ne_nil s [] h.1

end Lines

/-- Lines are read for any separator of one character: the first line of each key gives its value,
more lines only add what has a new key, and lines that spell out what was read are read as the same.
-/
theorem first_line_counts (s : Char) (lines more : List Text) :
    ∃ fields others : Fields, read [s] lines = .ok fields ∧ read [s] more = .ok others ∧
      fields.keys.Nodup ∧ (∀ pair ∈ fields, Bare s pair) ∧
      (∀ key value, (key, value) ∈ fields ↔ FirstGives s lines key value) ∧
      read [s] (lines ++ more) = .ok (fields ++ others.filter (·.1 ∉ fields.keys)) ∧
      ∀ rendered, List.Forall₂ (Spells s) fields rendered → read [s] rendered = .ok fields := by
  refine ⟨ofLines [s] lines, ofLines [s] more, read_eq s lines, read_eq s more, nodup_ofLines,
    fun _ hpair => bare_of_mem hpair, fun _ _ => mem_ofLines_iff, ?_, ?_⟩
  · rw [read_eq, ofLines_append]
  · intro rendered hrendered
    rw [read_eq, ofLines_of_spells hrendered]

theorem first_line_counts_twice :
    let lines := ["vendor_id\t: Some Vendor".toList, "noise".toList, "vendor_id : Other".toList,
      "model : a:b".toList]
    let more := ["model : c".toList, ":d".toList]
    let rendered := ["\u3000vendor_id :Some Vendor".toList, "model\t: a:b ".toList]
    let fields : Fields :=
      [("vendor_id".toList, "Some Vendor".toList), ("model".toList, "a:b".toList)]
    read [':'] lines = .ok fields ∧ FirstGives ':' lines "vendor_id".toList "Some Vendor".toList ∧
      read [':'] (lines ++ more) = .ok (fields ++ [([], ['d'])]) ∧
      List.Forall₂ (Spells ':') fields rendered ∧ read [':'] rendered = .ok fields := by
  intro lines more rendered fields
  obtain ⟨found, others, hfound, hothers, -, -, hfirst, happend, hrendered⟩ :=
    first_line_counts ':' lines more
  have hfields : read [':'] lines = .ok fields := by decide +kernel
  have hmore : read [':'] more = .ok [("model".toList, ['c']), ([], ['d'])] := by decide +kernel
  obtain rfl : fields = found := Except.ok.inj (hfields.symm.trans hfound)
  obtain rfl : _ = others := Except.ok.inj (hmore.symm.trans hothers)
  have hspells : List.Forall₂ (Spells ':') fields rendered :=
    .cons ⟨['\u3000'], [' '], [], [],
        List.forall_mem_cons.mpr ⟨by decide, List.forall_mem_singleton.mpr (by decide)⟩, nofun, rfl⟩
      (.cons ⟨[], ['\t'], [' '], [' '], List.forall_mem_singleton.mpr (by decide),
        List.all_eq_true.mp (by decide), rfl⟩ .nil)
  exact ⟨hfields, (hfirst _ _).mp (by decide), happend, hspells, hrendered rendered hspells⟩

end Fields

end ProcessorLoad
