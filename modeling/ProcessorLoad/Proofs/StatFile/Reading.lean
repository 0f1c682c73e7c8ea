import ProcessorLoad.Proofs.Number.Numeral
import ProcessorLoad.Proofs.StatFile.Layout
import ProcessorLoad.Proofs.Text.Lines

/-!
# Reading the statistics line by line

Whatever the file holds, its counters are read, and a line that does not read is logged and has no
other effect: the records of the processors are those of the file without it.
-/

set_option autoImplicit false

namespace ProcessorLoad.StatFile

/-- The first columns are whole numbers; the counters that they leave open are zero. -/
def CountersOf (columns : List Text) (t : Ticks) : Prop :=
  ∃ counters, List.Forall₂ (fun column n => Numeral.readWhole column = .ok n)
    (columns.take TickKind.count) counters ∧ t = Ticks.fit counters

/-- The line's label ends in the number of a processor, and its counters follow. -/
def RowOf (line : Text) (n : Int) (t : Ticks) : Prop :=
  ∃ label columns, Text.words line = label :: columns ∧
    Numeral.readWhole (label.drop labelStem.length) = .ok n ∧ CountersOf columns t

def isProcessorLine (line : Text) : Bool := labelStem.isPrefixOf line && !isTotal line

def isSpoilt (line : Text) : Bool := isProcessorLine line && !(readProcessorRow line).isOk

section Line
variable {line : Text} {fault : Fault}

theorem stem_of_isTotal (h : isTotal line = true) : labelStem.isPrefixOf line = true := by
  rw [isTotal, List.isPrefixOf_iff_prefix] at h
  exact List.isPrefixOf_iff_prefix.mpr ((List.prefix_append _ _).trans h)

theorem isTotal_of_not_stem (h : labelStem.isPrefixOf line = false) : isTotal line = false := by
  rw [← Bool.not_eq_true] at h ⊢
  exact fun htotal => h (stem_of_isTotal htotal)

theorem isTotal_of_isProcessorLine (h : isProcessorLine line = true) : isTotal line = false := by
  rw [isProcessorLine, Bool.and_eq_true, Bool.not_eq_true'] at h
  exact h.2

theorem exists_label (h : labelStem.isPrefixOf line = true) :
    ∃ label columns, Text.words line = label :: columns := by
  obtain ⟨rest, rfl⟩ := List.isPrefixOf_iff_prefix.mp h
  have hc : Text.isBlank 'c' = false := by decide
  obtain ⟨w, ws, hwords⟩ := Text.runs_cons_of_not hc ('p' :: 'u' :: rest)
  exact ⟨_, _, hwords⟩

theorem readRow_eq_ok_iff {label : Text} {t : Ticks} :
    readRow line = .ok (label, t) ↔
      ∃ columns, Text.words line = label :: columns ∧ CountersOf columns t := by
  constructor
  · intro h
    obtain ⟨counters, hcounters, h⟩ := ok_of_bind h
    cases hwords : Text.words line with
    | nil =>
      simp only [hwords] at h
      cases h
    | cons label columns =>
      simp only [hwords] at h hcounters
      cases h
      exact ⟨columns, rfl, counters, mapM_eq_ok_iff.mp hcounters, rfl⟩
  · rintro ⟨columns, hwords, counters, hcounters, rfl⟩
    simp only [readRow, hwords, List.tail_cons, List.head?_cons, mapM_eq_ok_iff.mpr hcounters]
    rfl

theorem readProcessorRow_eq_ok_iff {n : Int} {t : Ticks} :
    readProcessorRow line = .ok (n, t) ↔ RowOf line n t := by
  constructor
  · intro h
    obtain ⟨⟨label, u⟩, hrow, h⟩ := ok_of_bind h
    obtain ⟨number, hnumber, h⟩ := ok_of_bind h
    cases h
    obtain ⟨columns, hwords, hcounters⟩ := readRow_eq_ok_iff.mp hrow
    exact ⟨label, columns, hwords, hnumber, hcounters⟩
  · rintro ⟨label, columns, hwords, hnumber, hcounters⟩
    rw [readProcessorRow, readRow_eq_ok_iff.mpr ⟨columns, hwords, hcounters⟩]
    change (do return (← Numeral.readWhole (label.drop labelStem.length), t)) = _
    rw [hnumber]
    rfl

/-- A line of counters has a label, so only a numeral in it can fail to read. -/
theorem unread_of_readRow (hstem : labelStem.isPrefixOf line = true)
    (h : readRow line = .error fault) : fault.isUnread = true := by
  obtain ⟨label, columns, hwords⟩ := exists_label hstem
  rcases error_of_bind h with h | ⟨counters, -, h⟩
  · obtain ⟨column, -, hcolumn⟩ := mem_of_mapM_error h
    exact Numeral.unread_of_readWhole hcolumn
  · simp only [hwords, List.head?_cons] at h
    cases h

theorem unread_of_readProcessorRow (hstem : labelStem.isPrefixOf line = true)
    (h : readProcessorRow line = .error fault) : fault.isUnread = true := by
  rcases error_of_bind h with h | ⟨⟨label, t⟩, -, h⟩
  · exact unread_of_readRow hstem h
  · rcases error_of_bind h with h | ⟨n, -, h⟩
    · exact Numeral.unread_of_readWhole h
    · cases h

theorem isSpoilt_iff :
    isSpoilt line = true ↔ isProcessorLine line = true ∧ ∀ n t, ¬RowOf line n t := by
  simp only [isSpoilt, Bool.and_eq_true, Bool.not_eq_true', ← readProcessorRow_eq_ok_iff]
  refine and_congr_right fun _ => ?_
  cases readProcessorRow line with
  | error e => simp [Except.isOk, Except.toBool]
  | ok r => simpa [Except.isOk, Except.toBool] using ⟨r.1, r.2, rfl⟩

end Line

section Total
variable {file : FileState}

theorem find?_counterLines (file : FileState) :
    (counterLines file).value.find? isTotal = (file.lines true).value.find? isTotal := by
  change ((file.lines true).value.filter labelStem.isPrefixOf).find? isTotal = _
  rw [List.find?_filter]
  refine congrArg (List.find? · _) (funext fun line => ?_)
  cases h : isTotal line with
  | true => simp [stem_of_isTotal h]
  | false => simp

/-- The counters of the whole system are those of the first line that has them, or zero. -/
structure TotalOf (lines : List Text) (t : Ticks) : Prop where
  shaped : t.Shaped
  absent : (∀ line ∈ lines, isTotal line = false) → t = Ticks.zero
  first : ∀ front line back, lines = front ++ line :: back →
    (∀ l ∈ front, isTotal l = false) → isTotal line = true →
    (∀ u, CountersOf (Text.words line).tail u → t = u) ∧
      ((∀ u, ¬CountersOf (Text.words line).tail u) → t = Ticks.zero)

theorem totalTicks_of_find?_none (h : (file.lines true).value.find? isTotal = none) :
    (totalTicks file).value = Ticks.zero := by
  rw [← find?_counterLines] at h
  simp only [totalTicks, Logged.value_bind, h, Logged.value_pure]

theorem totalTicks_of_find? {line : Text} (h : (file.lines true).value.find? isTotal = some line) :
    (totalTicks file).value = ((readRow line).toOption.map Prod.snd).getD Ticks.zero := by
  rw [← find?_counterLines] at h
  simp only [totalTicks, Logged.value_bind, h]
  cases readRow line <;> rfl

theorem totalOf_totalTicks (file : FileState) :
    TotalOf (file.lines true).value (totalTicks file).value where
  shaped := by
    cases h : (file.lines true).value.find? isTotal with
    | none =>
      rw [totalTicks_of_find?_none h]
      exact Ticks.shaped_zero
    | some line =>
      rw [totalTicks_of_find? h]
      cases hrow : readRow line with
      | error fault => exact Ticks.shaped_zero
      | ok row => exact shaped_readRow hrow
  absent h := totalTicks_of_find?_none (List.find?_eq_none.mpr (by simpa using h))
  first front line back hlines hfront hline := by
    have hfind : (file.lines true).value.find? isTotal = some line :=
      List.find?_eq_some_iff_append.mpr ⟨hline, front, back, hlines, by simpa using hfront⟩
    obtain ⟨label, columns, hwords⟩ := exists_label (stem_of_isTotal hline)
    rw [totalTicks_of_find? hfind, hwords, List.tail_cons]
    constructor
    · intro u hu
      rw [readRow_eq_ok_iff.mpr ⟨columns, hwords, hu⟩]
      rfl
    · intro hnone
      cases hrow : readRow line with
      | error fault => rfl
      | ok row =>
        have hrow' : readRow line = .ok (row.1, row.2) := hrow
        obtain ⟨columns', hwords', hcounters⟩ := readRow_eq_ok_iff.mp hrow'
        obtain ⟨-, rfl⟩ := List.cons.inj (hwords.symm.trans hwords')
        exact absurd hcounters (hnone _)

end Total

section Table
variable {file : FileState} {lines : List Text}

def rowsOf (lines : List Text) : List (Int × Ticks) :=
  (lines.filter isProcessorLine).filterMap fun line => (readProcessorRow line).toOption

theorem processorLines_eq (file : FileState) :
    processorLines file = (file.lines true).value.filter isProcessorLine := by
  change ((file.lines true).value.filter labelStem.isPrefixOf).filter (!isTotal ·) = _
  rw [List.filter_filter]
  exact List.filter_congr fun line _ => Bool.and_comm _ _

theorem listed_eq (file : FileState) : listed file = rowsOf (file.lines true).value := by
  rw [listed, processorLines_eq, rowsOf]

theorem mem_rowsOf {n : Int} {t : Ticks} :
    (n, t) ∈ rowsOf lines ↔ ∃ line ∈ lines, isProcessorLine line = true ∧ RowOf line n t := by
  have hrow (line : Text) : (readProcessorRow line).toOption = some (n, t) ↔ RowOf line n t := by
    rw [← readProcessorRow_eq_ok_iff]
    cases readProcessorRow line <;> simp [Except.toOption]
  simp only [rowsOf, List.mem_filterMap, List.mem_filter, hrow, and_assoc]

theorem rowsOf_append_cons {line : Text} {n : Int} {t : Ticks} (hline : isProcessorLine line = true)
    (h : RowOf line n t) (front back : List Text) :
    rowsOf (front ++ line :: back) = rowsOf front ++ (n, t) :: rowsOf back := by
  have hread : (readProcessorRow line).toOption = some (n, t) := by
    rw [readProcessorRow_eq_ok_iff.mpr h]
    rfl
  simp [rowsOf, hline, hread]

theorem rowsOf_cons_of_not {line : Text} (h : isProcessorLine line = false) (lines : List Text) :
    rowsOf (line :: lines) = rowsOf lines := by
  rw [rowsOf, List.filter_cons_of_neg (Bool.not_eq_true _ ▸ h), rowsOf]

theorem not_mem_rowsOf {n : Int}
    (h : ∀ line ∈ lines, isProcessorLine line = true → ∀ t, ¬RowOf line n t) :
    n ∉ (rowsOf lines).map Prod.fst := by
  intro hmem
  obtain ⟨⟨n, t⟩, hr, rfl⟩ := List.mem_map.mp hmem
  obtain ⟨line, hline, hprocessor, hrow⟩ := mem_rowsOf.mp hr
  exact h line hline hprocessor t hrow

/-- There is a record for each number up to the largest one that is listed: that of the last line
that lists it, or zero. -/
structure TableOf (lines : List Text) (table : TickTable) : Prop where
  shaped : ∀ t ∈ table, t.Shaped
  lt_length_iff : ∀ i : Nat, i < table.length ↔
    ∃ line ∈ lines, isProcessorLine line = true ∧ ∃ n t, RowOf line n t ∧ (i : Int) ≤ n
  last : ∀ front line back (i : Nat) t, lines = front ++ line :: back →
    isProcessorLine line = true → RowOf line i t →
    (∀ l ∈ back, isProcessorLine l = true → ∀ u, ¬RowOf l i u) → table[i]? = some t
  gap : ∀ i : Nat, i < table.length →
    (∀ l ∈ lines, isProcessorLine l = true → ∀ u, ¬RowOf l i u) → table[i]? = some Ticks.zero

theorem tableOf_rowsOf (lines : List Text) : TableOf lines (layOut (rowsOf lines)) where
  shaped t ht := by
    refine shaped_layOut (fun r hr => ?_) ht
    obtain ⟨line, -, -, hrow⟩ := mem_rowsOf.mp (show (r.1, r.2) ∈ rowsOf lines from hr)
    exact shaped_readProcessorRow (readProcessorRow_eq_ok_iff.mpr hrow)
  lt_length_iff i := by
    rw [lt_length_layOut_iff]
    constructor
    · rintro ⟨⟨n, t⟩, hr, hi⟩
      obtain ⟨line, hline, hprocessor, hrow⟩ := mem_rowsOf.mp hr
      exact ⟨line, hline, hprocessor, n, t, hrow, hi⟩
    · rintro ⟨line, hline, hprocessor, n, t, hrow, hi⟩
      exact ⟨(n, t), mem_rowsOf.mpr ⟨line, hline, hprocessor, hrow⟩, hi⟩
  last front line back i t hlines hprocessor hrow hback := by
    have hrows : rowsOf lines = rowsOf front ++ ((i : Int), t) :: rowsOf back := by
      rw [hlines, rowsOf_append_cons hprocessor hrow]
    have hlength : i < (layOut (rowsOf lines)).length := by
      rw [lt_length_layOut_iff, hrows]
      exact ⟨(i, t), by simp, Int.le_refl _⟩
    rw [getElem?_layOut hlength, hrows, recordOf_append_cons (not_mem_rowsOf hback)]
  gap i hi hnone := by rw [getElem?_layOut hi, recordOf_of_not_mem (not_mem_rowsOf hnone)]

theorem length_processorLines (lines : List Text) :
    (lines.filter isProcessorLine).length = (rowsOf lines).length + lines.countP isSpoilt := by
  have hrows : (rowsOf lines).length
      = (lines.filter isProcessorLine).countP fun line => (readProcessorRow line).isOk := by
    rw [rowsOf, List.length_filterMap_eq_countP]
    refine List.countP_congr fun line _ => ?_
    cases readProcessorRow line <;> simp [Except.toOption, Except.isOk, Except.toBool]
  have hspoilt : lines.countP isSpoilt
      = (lines.filter isProcessorLine).countP fun line => !(readProcessorRow line).isOk := by
    rw [List.countP_filter]
    exact List.countP_congr fun line _ => by rw [isSpoilt, Bool.and_comm]
  have hsplit := List.length_eq_countP_add_countP (fun line => (readProcessorRow line).isOk)
    (l := lines.filter isProcessorLine)
  simpa [hrows, hspoilt] using hsplit

theorem log_tickTable (file : FileState) :
    (tickTable file).log = (file.lines true).log ++
      List.replicate ((file.lines true).value.countP isSpoilt) .error := by
  have hlog : (tickTable file).log = ((file.lines true).log ++ []) ++
      List.replicate ((processorLines file).length - (listed file).length) .error := rfl
  have hcount := length_processorLines (file.lines true).value
  rw [← processorLines_eq, ← listed_eq] at hcount
  rw [hlog, List.append_nil, hcount, Nat.add_sub_cancel_left]

/-- Lines that do not read add nothing to what the other lines list. -/
theorem rowsOf_filter (lines : List Text) : rowsOf (lines.filter (!isSpoilt ·)) = rowsOf lines := by
  rw [rowsOf, rowsOf, List.filterMap_filter, List.filterMap_filter, List.filterMap_filter]
  refine List.filterMap_congr fun line _ => ?_
  cases hprocessor : isProcessorLine line with
  | false => simp
  | true =>
    cases hrow : readProcessorRow line with
    | error fault => simp [Except.toOption]
    | ok row => simp [isSpoilt, hrow, Except.isOk, Except.toBool]

end Table

section Deletion

/-- What is no processor's line can go or stay: the processors' lines are runs of the text. -/
theorem rowsOf_lines (t : Text) :
    rowsOf (Text.lines t) = rowsOf (Text.runs Text.isLineBreak t) := by
  have hline (line : Text) :
      (isProcessorLine line && decide (line ≠ [])) = isProcessorLine line := by
    cases line with
    | nil => rfl
    | cons c line => simp
  rw [← Text.filter_lines, rowsOf, rowsOf, List.filter_filter]
  exact congrArg _ (List.filter_congr fun line _ => (hline line).symm)

theorem rowsOf_withoutLines (file : FileState) :
    rowsOf ((file.withoutLines isSpoilt).lines true).value = rowsOf (file.lines true).value := by
  cases htext : file.text? with
  | none => simp only [FileState.withoutLines, htext]
  | some t =>
    have hfile : file.withoutLines isSpoilt = .ofText (t.withoutLines isSpoilt) := by
      simp only [FileState.withoutLines, htext]
    rw [hfile, FileState.lines_eq_of_text? htext,
      FileState.lines_eq_of_text? (FileState.text?_ofText _)]
    simp only [Logged.value_pure, rowsOf_lines, Text.runs_withoutLines, rowsOf_filter]

/-- What the statistics come to, for whatever the file holds. Only faults of numerals come up, and
these are logged; no line is read but the first one about the whole system and those of the
processors; and the table is that of the file without the spoilt lines, which are those that do not
read. -/
structure ReadByLine (file : FileState) : Prop where
  unread : ∀ line ∈ (file.lines true).value, labelStem.isPrefixOf line = true → ∀ fault,
    (readRow line = .error fault ∨ readProcessorRow line = .error fault) → fault.isUnread = true
  total : TotalOf (file.lines true).value (totalTicks file).value
  spoilt_iff : ∀ line, isSpoilt line = true ↔
    isProcessorLine line = true ∧ ∀ n t, ¬RowOf line n t
  table : TableOf (file.lines true).value (tickTable file).value
  log : (tickTable file).log = (file.lines true).log ++
    List.replicate ((file.lines true).value.countP isSpoilt) .error
  without : (tickTable (file.withoutLines isSpoilt)).value = (tickTable file).value

theorem statistics_read_by_line (file : FileState) : ReadByLine file where
  unread line _ hstem fault h := h.elim (unread_of_readRow hstem) (unread_of_readProcessorRow hstem)
  total := totalOf_totalTicks file
  spoilt_iff _ := isSpoilt_iff
  table := by
    have h := tableOf_rowsOf (file.lines true).value
    rwa [← listed_eq] at h
  log := log_tickTable file
  without := by
    change layOut (listed (file.withoutLines isSpoilt)) = layOut (listed file)
    rw [listed_eq, listed_eq, rowsOf_withoutLines]

end Deletion

end ProcessorLoad.StatFile
