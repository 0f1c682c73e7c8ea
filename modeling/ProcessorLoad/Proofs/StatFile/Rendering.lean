import Mathlib.Data.Finset.Lattice.Fold
import Mathlib.Order.Lattice.Nat
import ProcessorLoad.Proofs.StatFile.Reading

/-!
# Reading back written statistics

A file is written from the counters of the whole system, those of some processors, and further
lines, in any order. What is read from it are these counters, so neither the order nor the further
lines nor the way in which columns and line ends are written matter.
-/

set_option autoImplicit false

namespace ProcessorLoad

theorem Ticks.fit_take (t : Ticks) : fit (t.take TickKind.count) = fit t := by
  simp only [fit, List.take_take, Nat.min_self, List.length_take]
  congr 2
  omega

namespace StatFile

/-- Numerals with spaces or tabs between them. -/
inductive Columns : List Nat → Text → Prop where
  | nil : Columns [] []
  | cons {n : Nat} {ns : List Nat} {gap t : Text} (hn : n < tenPow Fault.digitLimit)
      (hgap : ∀ c ∈ gap, c = ' ' ∨ c = '\t') (hne : ns ≠ [] → gap ≠ []) (h : Columns ns t) :
      Columns (n :: ns) (Text.numeral n ++ gap ++ t)

inductive Entry where
  | total (columns : List Nat)
  | processor (number : Nat) (columns : List Nat)
  | other (line : Text)

namespace Entry

def total? : Entry → Option (List Nat)
  | total columns => some columns
  | _ => none

def processor? : Entry → Option (Nat × List Nat)
  | processor number columns => some (number, columns)
  | _ => none

inductive Writes : Entry → Text → Prop where
  | total {columns : List Nat} {t : Text} (spaces : Nat) (h : Columns columns t) :
      Writes (total columns) (labelStem ++ List.replicate (spaces + 1) ' ' ++ t)
  | processor {number : Nat} {columns : List Nat} {t : Text} (h : Columns (number :: columns) t) :
      Writes (processor number columns) (labelStem ++ t)
  | other {line : Text} (hbreak : ∀ c ∈ line, Text.isLineBreak c = false)
      (hstem : labelStem.isPrefixOf line = false) : Writes (other line) line

end Entry

/-- The text has a line for each entry, in this order. -/
inductive Renders : List Entry → Text → Prop where
  | nil : Renders [] []
  | cons {entry : Entry} {entries : List Entry} {line ending t : Text} (hline : entry.Writes line)
      (hending : ending = ['\n'] ∨ ending = ['\r', '\n']) (h : Renders entries t) :
      Renders (entry :: entries) (line ++ ending ++ t)

/-- The entries give the whole system's columns once, and once the columns of each of the
processors. -/
structure Lists (entries : List Entry) (total : List Nat) (numbers : Finset Nat)
    (columns : Nat → List Nat) : Prop where
  total : entries.filterMap Entry.total? = [total]
  nodup : ((entries.filterMap Entry.processor?).map Prod.fst).Nodup
  mem_iff : ∀ r, r ∈ entries.filterMap Entry.processor? ↔ r.1 ∈ numbers ∧ r.2 = columns r.1

def ticksOf (columns : List Nat) : Ticks := Ticks.fit (columns.map Int.ofNat)

def Entry.rows (entries : List Entry) : List (Int × Ticks) :=
  (entries.filterMap processor?).map fun r => ((r.1 : Int), ticksOf r.2)

section Columns
variable {ns : List Nat} {t w gap : Text}

theorem Columns.lt (h : Columns ns t) : ∀ n ∈ ns, n < tenPow Fault.digitLimit := by
  induction h with
  | nil => exact nofun
  | cons hn _ _ _ ih => exact List.forall_mem_cons.mpr ⟨hn, ih⟩

theorem isBlank_of_gap (hgap : ∀ c ∈ gap, c = ' ' ∨ c = '\t') :
    ∀ c ∈ gap, Text.isBlank c = true := by
  intro c hc
  rcases hgap c hc with rfl | rfl <;> decide

theorem isBlank_of_labelStem : ∀ c ∈ labelStem, Text.isBlank c = false := by
  have hany : labelStem.any Text.isBlank = false := by decide
  intro c hc
  exact eq_false_of_ne_true (List.any_eq_false.mp hany c hc)

theorem isBlank_of_numeral (n : Nat) : ∀ c ∈ Text.numeral n, Text.isBlank c = false :=
  fun _ hc => Numeral.isBlank_of_isDigit (Numeral.isDigit_of_mem_numeral hc)

/-- The first word of columns or of a line of them, and the columns that follow. -/
theorem words_of_gap (hne : w ≠ []) (hw : ∀ c ∈ w, Text.isBlank c = false)
    (hgap : ∀ c ∈ gap, Text.isBlank c = true) (hend : ns ≠ [] → gap ≠ []) (h : Columns ns t) :
    Text.words (w ++ gap ++ t) = w :: Text.words t := by
  have hend' : t ≠ [] → gap ≠ [] := by
    intro ht
    apply hend
    rintro rfl
    cases h
    exact ht rfl
  rw [Text.words_eq_runs, Text.runs_append hgap hend', Text.runs_eq_singleton hne hw]
  rfl

theorem Columns.words (h : Columns ns t) : Text.words t = ns.map Text.numeral := by
  induction h with
  | nil => rfl
  | @cons n ns gap t hn hgap hne h ih =>
    rw [words_of_gap (Numeral.numeral_ne_nil n) (isBlank_of_numeral n) (isBlank_of_gap hgap) hne h,
      ih]
    rfl

theorem Columns.not_isLineBreak (h : Columns ns t) : ∀ c ∈ t, Text.isLineBreak c = false := by
  induction h with
  | nil => exact nofun
  | @cons n ns gap t _ hgap _ _ ih =>
    have hline : ∀ c ∈ gap, Text.isLineBreak c = false := by
      intro c hc
      rcases hgap c hc with rfl | rfl <;> decide
    simp only [List.forall_mem_append]
    exact ⟨⟨fun c hc => Text.isLineBreak_of_not_isBlank (isBlank_of_numeral n c hc), hline⟩, ih⟩

theorem countersOf_numerals (h : ∀ n ∈ ns, n < tenPow Fault.digitLimit) :
    CountersOf (ns.map Text.numeral) (ticksOf ns) := by
  refine ⟨(ns.take TickKind.count).map Int.ofNat, ?_, ?_⟩
  · rw [← List.map_take, List.forall₂_map_left_iff, List.forall₂_map_right_iff, List.forall₂_same]
    exact fun n hn => Numeral.readWhole_numeral (h n (List.mem_of_mem_take hn))
  · rw [List.map_take, Ticks.fit_take, ticksOf]

end Columns

section Lines
variable {entry : Entry} {entries : List Entry} {line t : Text} {written : List Text}

theorem Entry.Writes.not_isLineBreak (h : entry.Writes line) :
    ∀ c ∈ line, Text.isLineBreak c = false := by
  have hlabel : ∀ c ∈ labelStem, Text.isLineBreak c = false := by
    intro c hc
    exact Text.isLineBreak_of_not_isBlank (isBlank_of_labelStem c hc)
  cases h with
  | total spaces h =>
    simp only [List.forall_mem_append]
    refine ⟨⟨hlabel, ?_⟩, h.not_isLineBreak⟩
    intro c hc
    rw [List.eq_of_mem_replicate hc]
    decide
  | processor h => exact List.forall_mem_append.mpr ⟨hlabel, h.not_isLineBreak⟩
  | other hbreak _ => exact hbreak

theorem Renders.lines (h : Renders entries t) :
    List.Forall₂ Entry.Writes entries (Text.lines t) := by
  induction h with
  | nil => exact .nil
  | cons hline hending _ ih =>
    rw [Text.lines_append hline.not_isLineBreak hending]
    exact .cons hline ih

theorem Entry.Writes.read_total {columns : List Nat} (h : (Entry.total columns).Writes line) :
    isTotal line = true ∧ readRow line = .ok (labelStem, ticksOf columns) := by
  cases h with
  | total spaces h =>
    have hblank : ∀ c ∈ List.replicate (spaces + 1) ' ', Text.isBlank c = true := by
      intro c hc
      rw [List.eq_of_mem_replicate hc]
      decide
    refine ⟨rfl, readRow_eq_ok_iff.mpr ⟨_, ?_, countersOf_numerals h.lt⟩⟩
    rw [words_of_gap (by decide) isBlank_of_labelStem hblank (fun _ => List.cons_ne_nil _ _) h,
      h.words]

/-- A digit follows the stem, and no space. -/
theorem isProcessorLine_numeral (n : Nat) (t : Text) :
    isProcessorLine (labelStem ++ (Text.numeral n ++ t)) = true := by
  have hstem (x : Text) : isProcessorLine (labelStem ++ x) = !List.isPrefixOf [' '] x := rfl
  obtain ⟨c, w, hcw⟩ := List.exists_cons_of_ne_nil (Numeral.numeral_ne_nil n)
  have hdigit : c.isDigit = true := Numeral.isDigit_of_mem_numeral (hcw ▸ List.mem_cons_self)
  have hc : ' ' ≠ c := by
    rintro rfl
    cases hdigit
  rw [hstem, hcw]
  simp [List.isPrefixOf, hc]

theorem Entry.Writes.read_processor {number : Nat} {columns : List Nat}
    (h : (Entry.processor number columns).Writes line) :
    isProcessorLine line = true ∧ RowOf line number (ticksOf columns) := by
  cases h with
  | processor h =>
    cases h with
    | @cons _ _ gap t hn hgap hne h =>
      have hword : ∀ c ∈ labelStem ++ Text.numeral number, Text.isBlank c = false :=
        List.forall_mem_append.mpr ⟨isBlank_of_labelStem, isBlank_of_numeral number⟩
      have hlabel : labelStem ++ Text.numeral number ≠ [] :=
        List.append_ne_nil_of_left_ne_nil (by decide) _
      have hwords := words_of_gap hlabel hword (isBlank_of_gap hgap) hne h
      rw [h.words, List.append_assoc, List.append_assoc] at hwords
      rw [List.append_assoc]
      exact ⟨isProcessorLine_numeral number (gap ++ t), _, _, hwords, Numeral.readWhole_numeral hn,
        countersOf_numerals h.lt⟩

theorem filter_isTotal (h : List.Forall₂ Entry.Writes entries written) :
    List.Forall₂ (fun columns line => (Entry.total columns).Writes line)
      (entries.filterMap Entry.total?) (written.filter isTotal) := by
  induction h with
  | nil => exact .nil
  | @cons entry line entries written hline _ ih =>
    cases entry with
    | total columns =>
      rw [List.filter_cons_of_pos hline.read_total.1]
      exact .cons hline ih
    | processor number columns =>
      rw [List.filter_cons_of_neg (by simp [isTotal_of_isProcessorLine hline.read_processor.1])]
      exact ih
    | other line =>
      cases hline with
      | other _ hstem =>
        rw [List.filter_cons_of_neg (by simp [isTotal_of_not_stem hstem])]
        exact ih

theorem rowsOf_written (h : List.Forall₂ Entry.Writes entries written) :
    rowsOf written = Entry.rows entries := by
  induction h with
  | nil => rfl
  | @cons entry line entries written hline _ ih =>
    cases entry with
    | total columns =>
      rw [rowsOf_cons_of_not (by simp [isProcessorLine, hline.read_total.1])]
      exact ih
    | processor number columns =>
      obtain ⟨hprocessor, hrow⟩ := hline.read_processor
      have hcons := rowsOf_append_cons hprocessor hrow [] written
      rw [List.nil_append, ih] at hcons
      exact hcons
    | other line =>
      cases hline with
      | other _ hstem =>
        rw [rowsOf_cons_of_not (by simp [isProcessorLine, hstem])]
        exact ih

theorem Entry.Writes.not_isSpoilt (h : entry.Writes line) : isSpoilt line = false := by
  rw [← Bool.not_eq_true, isSpoilt_iff]
  rintro ⟨hprocessor, hnone⟩
  cases entry with
  | total columns => simp [isProcessorLine, h.read_total.1] at hprocessor
  | processor number columns => exact hnone _ _ h.read_processor.2
  | other line =>
    cases h with
    | other _ hstem => simp [isProcessorLine, hstem] at hprocessor

theorem countP_isSpoilt (h : List.Forall₂ Entry.Writes entries written) :
    written.countP isSpoilt = 0 := by
  induction h with
  | nil => rfl
  | cons hline _ ih => rw [List.countP_cons_of_neg (by simp [hline.not_isSpoilt]), ih]

end Lines

section Rendered
variable {entries : List Entry} {total : List Nat} {numbers : Finset Nat} {columns : Nat → List Nat}

theorem totalTicks_of_read {file : FileState} {line label : Text} {t : Ticks}
    (hfind : (file.lines true).value.find? isTotal = some line)
    (hrow : readRow line = .ok (label, t)) :
    totalTicks file = ⟨t, (file.lines true).log⟩ := by
  rw [← find?_counterLines] at hfind
  have hlog : (totalTicks file).log = ((file.lines true).log ++ []) ++ [] := by
    simp only [totalTicks, Logged.log_bind, hfind, hrow]
    rfl
  have hvalue : (totalTicks file).value = t := by
    simp only [totalTicks, Logged.value_bind, hfind, hrow, Logged.value_pure]
  rw [List.append_nil, List.append_nil] at hlog
  exact congrArg₂ Logged.mk hvalue hlog

theorem Lists.mem_rows (h : Lists entries total numbers columns) (r : Int × Ticks) :
    r ∈ Entry.rows entries ↔ ∃ n ∈ numbers, r = ((n : Int), ticksOf (columns n)) := by
  rw [Entry.rows, List.mem_map]
  constructor
  · rintro ⟨⟨n, ns⟩, hr, rfl⟩
    obtain ⟨hn, hns⟩ := (h.mem_iff _).mp hr
    exact ⟨n, hn, by rw [hns]⟩
  · rintro ⟨n, hn, rfl⟩
    exact ⟨(n, columns n), (h.mem_iff _).mpr ⟨hn, rfl⟩, rfl⟩

theorem Lists.nodup_rows (h : Lists entries total numbers columns) :
    ((Entry.rows entries).map Prod.fst).Nodup := by
  have hfst : (Entry.rows entries).map Prod.fst
      = ((entries.filterMap Entry.processor?).map Prod.fst).map Int.ofNat := by
    rw [Entry.rows, List.map_map, List.map_map]
    rfl
  rw [hfst]
  exact h.nodup.map fun _ _ => Int.ofNat.inj

theorem Lists.length_layOut_rows (h : Lists entries total numbers columns) :
    (layOut (Entry.rows entries)).length = numbers.sup (· + 1) := by
  apply eq_of_forall_lt_iff
  intro i
  rw [lt_length_layOut_iff, Finset.lt_sup_iff]
  constructor
  · rintro ⟨r, hr, hi⟩
    obtain ⟨n, hn, rfl⟩ := (h.mem_rows r).mp hr
    exact ⟨n, hn, by omega⟩
  · rintro ⟨n, hn, hi⟩
    exact ⟨_, (h.mem_rows _).mpr ⟨n, hn, rfl⟩, by omega⟩

theorem Lists.recordOf_rows (h : Lists entries total numbers columns) (i : Nat) :
    recordOf (Entry.rows entries) i = if i ∈ numbers then ticksOf (columns i) else Ticks.zero := by
  by_cases hi : i ∈ numbers
  · rw [if_pos hi]
    exact recordOf_of_mem h.nodup_rows ((h.mem_rows _).mpr ⟨i, hi, rfl⟩)
  · rw [if_neg hi]
    apply recordOf_of_not_mem
    intro hmem
    obtain ⟨r, hr, hri⟩ := List.mem_map.mp hmem
    obtain ⟨n, hn, rfl⟩ := (h.mem_rows r).mp hr
    exact hi (Int.ofNat.inj hri ▸ hn)

theorem Lists.layOut_rows (h : Lists entries total numbers columns) :
    layOut (Entry.rows entries) = (List.range (numbers.sup (· + 1))).map fun i =>
      if i ∈ numbers then ticksOf (columns i) else Ticks.zero := by
  obtain ⟨n, heq, -⟩ := layOut_eq (Entry.rows entries)
  have hn : n = numbers.sup (· + 1) := by simpa [heq] using h.length_layOut_rows
  rw [heq, hn]
  exact List.map_congr_left fun i _ => h.recordOf_rows i

/-- What is read from a written file: the system's columns and those of the processors, each up to
the number of kinds and filled up with zeros. -/
theorem read_rendered {t : Text} (hlists : Lists entries total numbers columns)
    (ht : Renders entries t) :
    totalTicks (.ofText t) = pure (ticksOf total) ∧
      tickTable (.ofText t) = pure ((List.range (numbers.sup (· + 1))).map fun i =>
        if i ∈ numbers then ticksOf (columns i) else Ticks.zero) := by
  have hlines : (FileState.ofText t).lines true = pure (Text.lines t) :=
    FileState.lines_eq_of_text? (FileState.text?_ofText t) true
  constructor
  · have hfilter := filter_isTotal ht.lines
    rw [hlists.total] at hfilter
    obtain ⟨line, _, hline, hrest, heq⟩ := List.forall₂_cons_left_iff.mp hfilter
    have hfind : ((FileState.ofText t).lines true).value.find? isTotal = some line := by
      rw [hlines, Logged.value_pure, ← List.head?_filter, heq, List.head?_cons]
    have hread := totalTicks_of_read hfind hline.read_total.2
    rwa [hlines] at hread
  · have hvalue : (tickTable (.ofText t)).value = layOut (listed (.ofText t)) := rfl
    have hlog := log_tickTable (.ofText t)
    rw [listed_eq, hlines, Logged.value_pure, rowsOf_written ht.lines, hlists.layOut_rows] at hvalue
    rw [hlines, Logged.log_pure, Logged.value_pure, countP_isSpoilt ht.lines] at hlog
    exact congrArg₂ Logged.mk hvalue hlog

/-- A line that says something else, a processor with no columns, the system, an empty line, and a
processor with too many columns. -/
def scattered : List Entry :=
  [.other "intr 5".toList, .processor 3 [], .total [1, 2, 3], .other [],
    .processor 0 [9, 8, 7, 6, 5, 4, 3, 2]]

def scatteredText : Text := "intr 5\r\ncpu3\ncpu  1 2\t \t3\r\n\ncpu0 9 8 7 6 5 4 3 2\n".toList

theorem lists_scattered : Lists scattered [1, 2, 3] {0, 3} fun i =>
    if i = 0 then [9, 8, 7, 6, 5, 4, 3, 2] else [] := by
  refine ⟨rfl, by decide, ?_⟩
  intro r
  have hrows :
      scattered.filterMap Entry.processor? = [(3, []), (0, [9, 8, 7, 6, 5, 4, 3, 2])] := rfl
  rcases r with ⟨n, ns⟩
  simp only [hrows, List.mem_cons, List.not_mem_nil, or_false, Prod.mk.injEq, Finset.mem_insert,
    Finset.mem_singleton]
  constructor
  · rintro (⟨rfl, rfl⟩ | ⟨rfl, rfl⟩) <;> simp
  · rintro ⟨rfl | rfl, hns⟩ <;> simpa using hns

theorem renders_scattered : Renders scattered scatteredText := by
  have hsmall {n : Nat} (hn : n < tenPow 1) : n < tenPow Fault.digitLimit :=
    Nat.lt_of_lt_of_le hn (tenPow_le_tenPow (by decide))
  have hlast {n : Nat} (hn : n < 10) : Columns [n] (Text.numeral n ++ [] ++ []) :=
    .cons (hsmall hn) nofun (absurd rfl) .nil
  have hspace {n : Nat} {ns : List Nat} {t : Text} (hn : n < 10) (h : Columns ns t) :
      Columns (n :: ns) (Text.numeral n ++ [' '] ++ t) := .cons (hsmall hn) (by simp) (by simp) h
  have htabs {n : Nat} {ns : List Nat} {t : Text} (hn : n < 10) (h : Columns ns t) :
      Columns (n :: ns) (Text.numeral n ++ ['\t', ' ', '\t'] ++ t) :=
    .cons (hsmall hn) (by simp) (by simp) h
  have hrow : Columns [9, 8, 7, 6, 5, 4, 3, 2] "9 8 7 6 5 4 3 2".toList := by
    refine hspace ?_
      (hspace ?_ (hspace ?_ (hspace ?_ (hspace ?_ (hspace ?_ (hspace ?_ (hlast ?_)))))))
    all_goals decide
  have htotal : Columns [1, 2, 3] "1 2\t \t3".toList := by
    refine hspace ?_ (htabs ?_ (hlast ?_))
    all_goals decide
  have hbreak : ∀ c ∈ "intr 5".toList, Text.isLineBreak c = false := by
    simp [Text.isLineBreak, Text.inRanges, Text.lineBreakRanges]
  refine .cons (.other hbreak rfl) (.inr rfl) ?_
  refine .cons (.processor (hlast (show 3 < 10 by decide))) (.inl rfl) ?_
  refine .cons (.total 1 htotal) (.inr rfl) ?_
  refine .cons (.other (List.forall_mem_nil _) rfl) (.inl rfl) ?_
  exact .cons (.processor (hspace (show 0 < 10 by decide) hrow)) (.inl rfl) .nil

theorem read_scattered :
    totalTicks (.ofText scatteredText) = pure [1, 2, 3, 0, 0, 0, 0] ∧
      tickTable (.ofText scatteredText)
        = pure [[9, 8, 7, 6, 5, 4, 3], Ticks.zero, Ticks.zero, Ticks.zero] :=
  read_rendered lists_scattered renders_scattered

end Rendered

end StatFile

end ProcessorLoad
