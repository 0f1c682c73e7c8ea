import ProcessorLoad.Machine.File
import ProcessorLoad.Text.Classes

/-!
# Runs of characters, and the lines of a text or a file

The runs of a text stand between the characters of a class. Its words are its runs without blanks,
and its lines that are not empty are its runs without line breaks, however its line ends are
written. So lines can be taken out of a text without a change to the others.
-/

set_option autoImplicit false

namespace ProcessorLoad

namespace Text

/-- The longest runs of characters outside a class, in order. -/
def runs (p : Char → Bool) (t : Text) : List Text := (cut p t).filter (· ≠ [])

section Runs
variable {p : Char → Bool} {c : Char} {w e t : Text}

theorem words_eq_runs (t : Text) : words t = runs isBlank t := rfl

@[simp] theorem runs_nil (p : Char → Bool) : runs p [] = [] := rfl

theorem runs_append_cons (hc : p c = true) (x y : Text) :
    runs p (x ++ c :: y) = runs p x ++ runs p y := by
  simp only [runs, cut_append_cons hc, List.filter_append]

theorem runs_cons (hc : p c = true) (t : Text) : runs p (c :: t) = runs p t :=
  runs_append_cons hc [] t

theorem runs_eq_singleton (hne : w ≠ []) (hw : ∀ c ∈ w, p c = false) : runs p w = [w] := by
  simp [runs, cut_eq_singleton hw, hne]

theorem runs_cons_of_not (hc : p c = false) (t : Text) :
    ∃ w ws, runs p (c :: t) = (c :: w) :: ws := by
  obtain ⟨w, ws, hcut⟩ := List.exists_cons_of_ne_nil (cut_ne_nil p t)
  exact ⟨w, ws.filter (· ≠ []), by simp [runs, cut, hc, hcut]⟩

theorem runs_append_left (he : ∀ c ∈ e, p c = true) (t : Text) : runs p (e ++ t) = runs p t := by
  induction e with
  | nil => rfl
  | cons c e ih =>
    rw [List.cons_append, runs_cons (he c List.mem_cons_self)]
    exact ih fun a ha => he a (List.mem_cons_of_mem _ ha)

/-- Characters of the class end the runs before them. None are needed at the end of a text. -/
theorem runs_append (he : ∀ c ∈ e, p c = true) (hne : t ≠ [] → e ≠ []) (w : Text) :
    runs p (w ++ e ++ t) = runs p w ++ runs p t := by
  cases e with
  | nil =>
    cases t with
    | nil => simp
    | cons a t => exact absurd rfl (hne (List.cons_ne_nil a t))
  | cons c e =>
    rw [List.append_assoc, List.cons_append, runs_append_cons (he c List.mem_cons_self)]
    rw [runs_append_left fun a ha => he a (List.mem_cons_of_mem _ ha)]

end Runs

section Lines

theorem isLineBreak_of_not_isBlank {c : Char} (h : isBlank c = false) : isLineBreak c = false := by
  simp only [isBlank, isLineBreak, inRanges, blankRanges, lineBreakRanges, List.any_cons,
    List.any_nil, Bool.or_eq_false_iff, Bool.and_eq_false_iff, decide_eq_false_iff_not,
    and_true] at h ⊢
  omega

/-- How the line ends are written makes no difference to the runs between them. -/
theorem runs_append_unifyNewlines (x t : Text) :
    runs isLineBreak (x ++ unifyNewlines t) = runs isLineBreak (x ++ t) := by
  induction t using unifyNewlines.induct generalizing x with
  | case1 => rfl
  | case2 r ih =>
    rw [unifyNewlines, runs_append_cons (by decide), runs_append_cons (by decide),
      runs_cons (by decide)]
    exact congrArg _ (ih [])
  | case3 c r hne ih =>
    rw [unifyNewlines]
    · by_cases hc : c = '\r'
      · rw [if_pos hc, hc, runs_append_cons (by decide), runs_append_cons (by decide)]
        exact congrArg _ (ih [])
      · rw [if_neg hc, List.append_cons, List.append_cons x c r]
        exact ih (x ++ [c])
    · exact hne

theorem filter_dropLastEmpty (pieces : List Text) :
    (dropLastEmpty pieces).filter (· ≠ []) = pieces.filter (· ≠ []) := by
  unfold dropLastEmpty
  split
  next h =>
    obtain ⟨front, rfl⟩ := List.getLast?_eq_some_iff.mp h
    simp
  next => rfl

theorem filter_lines (t : Text) : (lines t).filter (· ≠ []) = runs isLineBreak t := by
  rw [lines, filter_dropLastEmpty]
  exact runs_append_unifyNewlines [] t

theorem dropLastEmpty_cons (w : Text) {pieces : List Text} (h : pieces ≠ []) :
    dropLastEmpty (w :: pieces) = w :: dropLastEmpty pieces := by
  obtain ⟨v, vs, rfl⟩ := List.exists_cons_of_ne_nil h
  simp only [dropLastEmpty, List.getLast?_cons_cons, List.dropLast_cons_cons]
  split <;> rfl

theorem unifyNewlines_append {w : Text} (hw : ∀ c ∈ w, c ≠ '\r') (t : Text) :
    unifyNewlines (w ++ t) = w ++ unifyNewlines t := by
  induction w with
  | nil => rfl
  | cons c w ih =>
    obtain ⟨hc, hw⟩ := List.forall_mem_cons.mp hw
    rw [List.cons_append, unifyNewlines, if_neg hc, ih hw, List.cons_append]
    exact fun r heq _ => hc heq

/-- A line ends with one line break, or with a carriage return and a line feed, which are one end.
-/
inductive LineEnd : Text → Prop where
  | single {c : Char} (hc : isLineBreak c = true) : LineEnd [c]
  | pair : LineEnd ['\r', '\n']

/-- A line in front of a text is its first line, unless its end and the text come to share a line
end. -/
theorem lines_append_lineEnd {w e t : Text} (hw : ∀ c ∈ w, isLineBreak c = false) (he : LineEnd e)
    (hpair : e = ['\r'] → t.head? ≠ some '\n') : lines (w ++ e ++ t) = w :: lines t := by
  have hreturn : ∀ c ∈ w, c ≠ '\r' := by
    rintro c hc rfl
    exact absurd (hw _ hc) (by decide)
  obtain ⟨c, hc, hend⟩ :
      ∃ c, isLineBreak c = true ∧ unifyNewlines (e ++ t) = c :: unifyNewlines t := by
    cases he with
    | pair => exact ⟨'\n', by decide, rfl⟩
    | @single c hc =>
      refine ⟨if c = '\r' then '\n' else c, ?_, ?_⟩
      · split
        · decide
        · exact hc
      · rw [List.singleton_append, unifyNewlines]
        rintro r rfl rfl
        exact hpair rfl rfl
  have hunify : unifyNewlines (w ++ e ++ t) = w ++ c :: unifyNewlines t := by
    rw [List.append_assoc, unifyNewlines_append hreturn, hend]
  rw [lines, hunify, cut_append_cons hc, cut_eq_singleton hw, List.singleton_append]
  exact dropLastEmpty_cons w (cut_ne_nil _ _)

theorem lines_append {w e : Text} (hw : ∀ c ∈ w, isLineBreak c = false)
    (he : e = ['\n'] ∨ e = ['\r', '\n']) (t : Text) : lines (w ++ e ++ t) = w :: lines t := by
  rcases he with rfl | rfl
  · exact lines_append_lineEnd hw (.single (by decide)) (fun h => absurd h (by decide))
  · exact lines_append_lineEnd hw .pair (fun h => absurd h (by decide))

def pushFront (c : Char) : List Text → List Text
  | [] => [[c]]
  | w :: ws => (c :: w) :: ws

theorem dropLastEmpty_modifyHead (c : Char) {pieces : List Text} (h : pieces ≠ []) :
    dropLastEmpty (pieces.modifyHead (c :: ·)) = pushFront c (dropLastEmpty pieces) := by
  match pieces, h with
  | [w], _ => cases w <;> rfl
  | w :: v :: vs, _ =>
    have hne : v :: vs ≠ [] := List.cons_ne_nil v vs
    rw [List.modifyHead_cons, dropLastEmpty_cons _ hne, dropLastEmpty_cons _ hne]
    rfl

/-- The lines together with the characters that end them. -/
def endedLines : Text → List Text
  | [] => []
  | '\r' :: '\n' :: r => ['\r', '\n'] :: endedLines r
  | c :: r => if isLineBreak c then [c] :: endedLines r else pushFront c (endedLines r)

def bare (line : Text) : Text := line.takeWhile (!isLineBreak ·)

/-- The text without those of its lines that are to go, and without their ends. -/
def withoutLines (goes : Text → Bool) (t : Text) : Text :=
  ((endedLines t).filter fun line => !goes (bare line)).flatten

theorem map_bare_pushFront {c : Char} (hc : isLineBreak c = false) (ws : List Text) :
    (pushFront c ws).map bare = pushFront c (ws.map bare) := by
  cases ws <;> simp [pushFront, bare, hc]

theorem map_bare_endedLines (t : Text) : (endedLines t).map bare = lines t := by
  induction t using endedLines.induct with
  | case1 => rfl
  | case2 r ih =>
    rw [endedLines, List.map_cons, ih, lines, lines, unifyNewlines, cut, if_pos (by decide)]
    exact (dropLastEmpty_cons _ (cut_ne_nil _ _)).symm
  | case3 c r hne hc ih =>
    rw [endedLines, if_pos hc, List.map_cons, ih, lines, lines, unifyNewlines, cut, if_pos]
    · rw [dropLastEmpty_cons _ (cut_ne_nil _ _)]
      simp [bare, hc]
    · split
      · decide
      · exact hc
    · exact hne
    · exact hne
  | case4 c r hne hc ih =>
    have hreturn : c ≠ '\r' := by
      rintro rfl
      exact hc (by decide)
    rw [endedLines, if_neg hc, map_bare_pushFront (by simpa using hc), ih, lines, lines,
      unifyNewlines, if_neg hreturn, cut, if_neg hc, dropLastEmpty_modifyHead c (cut_ne_nil _ _)]
    · exact hne
    · exact hne

/-- Pieces of which each but the last is ended by line breaks. -/
inductive Ended : List Text → Prop where
  | nil : Ended []
  | last {w : Text} (hw : ∀ c ∈ w, isLineBreak c = false) : Ended [w]
  | cons {w e : Text} {ls : List Text} (hw : ∀ c ∈ w, isLineBreak c = false) (hne : e ≠ [])
      (he : ∀ c ∈ e, isLineBreak c = true) (h : Ended ls) : Ended ((w ++ e) :: ls)

theorem Ended.pushFront {ls : List Text} (h : Ended ls) {c : Char} (hc : isLineBreak c = false) :
    Ended (pushFront c ls) := by
  have hcons {w : Text} (hw : ∀ a ∈ w, isLineBreak a = false) :
      ∀ a ∈ c :: w, isLineBreak a = false :=
    List.forall_mem_cons.mpr ⟨hc, hw⟩
  cases h with
  | nil => exact .last (hcons nofun)
  | last hw => exact .last (hcons hw)
  | cons hw hne he h => exact .cons (hcons hw) hne he h

theorem ended_endedLines (t : Text) : Ended (endedLines t) := by
  induction t using endedLines.induct with
  | case1 => exact .nil
  | case2 r ih => exact .cons (w := []) nofun (by simp) (List.all_eq_true.mp (by decide)) ih
  | case3 c r hne hc ih =>
    rw [endedLines, if_pos hc]
    · exact .cons (w := []) nofun (List.cons_ne_nil c []) (by simpa using hc) ih
    · exact hne
  | case4 c r hne hc ih =>
    rw [endedLines, if_neg hc]
    · exact ih.pushFront (by simpa using hc)
    · exact hne

theorem Ended.filter {ls : List Text} (h : Ended ls) (keep : Text → Bool) :
    Ended (ls.filter keep) := by
  induction h with
  | nil => exact .nil
  | @last w hw =>
    cases hkeep : keep w with
    | true => simpa [hkeep] using Ended.last hw
    | false => simpa [hkeep] using Ended.nil
  | cons hw hne he _ ih =>
    rw [List.filter_cons]
    split
    · exact .cons hw hne he ih
    · exact ih

theorem bare_append {w e : Text} (hw : ∀ c ∈ w, isLineBreak c = false)
    (he : ∀ c ∈ e, isLineBreak c = true) : bare (w ++ e) = w := by
  have hstop : e.takeWhile (!isLineBreak ·) = [] := by
    cases e with
    | nil => rfl
    | cons c e => simp [he c List.mem_cons_self]
  rw [bare, List.takeWhile_append_of_pos (by simpa using hw), hstop, List.append_nil]

theorem Ended.runs_flatten {ls : List Text} (h : Ended ls) :
    runs isLineBreak ls.flatten = (ls.map bare).filter (· ≠ []) := by
  have hruns {w : Text} (hw : ∀ c ∈ w, isLineBreak c = false) :
      runs isLineBreak w = [w].filter (· ≠ []) := congrArg (List.filter _) (cut_eq_singleton hw)
  induction h with
  | nil => rfl
  | @last w hw =>
    have hbare : bare (w ++ []) = w := bare_append hw nofun
    rw [List.append_nil] at hbare
    rw [List.flatten_singleton, List.map_singleton, hbare, hruns hw]
  | cons hw hne he _ ih =>
    rw [List.flatten_cons, runs_append he fun _ => hne, ih, List.map_cons, bare_append hw he,
      hruns hw]
    exact (List.filter_append [_] _).symm

/-- Lines that go take no other line with them. At the most, an empty line goes too: a carriage
return and a line feed can come to stand side by side. -/
theorem runs_withoutLines (goes : Text → Bool) (t : Text) :
    runs isLineBreak (withoutLines goes t) = (runs isLineBreak t).filter (!goes ·) := by
  have hkept : ((endedLines t).filter fun line => !goes (bare line)).map bare
      = (lines t).filter (!goes ·) := by
    rw [← map_bare_endedLines, List.filter_map]
    rfl
  rw [withoutLines, ((ended_endedLines t).filter _).runs_flatten, hkept, ← filter_lines,
    List.filter_filter, List.filter_filter]
  exact List.filter_congr fun w _ => Bool.and_comm _ _

end Lines

end Text

namespace FileState

def ofText (t : Text) : FileState := .holding (String.ofList t).toUTF8

theorem text?_ofText (t : Text) : (ofText t).text? = some t := by
  have hdecode : (String.ofList t).toUTF8.utf8Decode? = some t.toArray := by
    rw [String.toUTF8, String.toByteArray_ofList, List.utf8Decode?_utf8Encode]
  rw [ofText, text?, hdecode, Option.map_some, List.toList_toArray]

/-- The file without those of its lines that are to go. -/
def withoutLines (goes : Text → Bool) (file : FileState) : FileState :=
  match file.text? with
  | some t => ofText (t.withoutLines goes)
  | none => file

theorem lines_eq_of_text? {file : FileState} {t : Text} (h : file.text? = some t) (report : Bool) :
    file.lines report = pure (Text.lines t) := by
  rw [lines, h]

end FileState

end ProcessorLoad
