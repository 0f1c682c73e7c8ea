import ProcessorLoad.Proofs.Text.Lines

/-!
# The lines of a file

A file that holds well-formed text is read as the lines that the text is made of, whichever line
ends it uses. Any other file has no lines, and the log tells why. What a text is made of is said
without the reader, and the laws of the lines follow from that.
-/

set_option autoImplicit false

namespace ProcessorLoad

namespace Text

def Unbroken (t : Text) : Prop := ∀ c ∈ t, isLineBreak c = false

/-- The text is made of the lines, each with its end. Only the last may be without one, and then it
is not empty. A carriage return alone is no end in front of a line feed. -/
inductive MadeOf : Text → List Text → Prop where
  | nil : MadeOf [] []
  | last {w : Text} (hw : Unbroken w) (hne : w ≠ []) : MadeOf w [w]
  | cons {w e t : Text} {ls : List Text} (hw : Unbroken w) (he : LineEnd e)
      (hpair : e = ['\r'] → t.head? ≠ some '\n') (h : MadeOf t ls) : MadeOf (w ++ e ++ t) (w :: ls)

def ofLines (ls : List Text) : Text := ls.flatMap (· ++ ['\n'])

/-- The text with another end in the place of each line feed. -/
def respell (e t : Text) : Text := t.flatMap fun c => if c = '\n' then e else [c]

section Made
variable {w e t : Text} {ls : List Text} {c : Char}

theorem unifyNewlines_eq_self (h : ∀ c ∈ t, c ≠ '\r') : unifyNewlines t = t := by
  have hunify := unifyNewlines_append h []
  rwa [List.append_nil, unifyNewlines, List.append_nil] at hunify

theorem Unbroken.not_return (h : Unbroken w) : ∀ c ∈ w, c ≠ '\r' := by
  rintro c hc rfl
  exact absurd (h _ hc) (by decide)

theorem MadeOf.lines_eq (h : MadeOf t ls) : lines t = ls := by
  induction h with
  | nil => rfl
  | last hw hne =>
    rw [lines, unifyNewlines_eq_self hw.not_return, cut_eq_singleton hw, dropLastEmpty, if_neg]
    simpa using hne
  | cons hw he hpair _ ih => rw [lines_append_lineEnd hw he hpair, ih]

theorem MadeOf.pushFront (h : MadeOf t ls) (hc : isLineBreak c = false) :
    MadeOf (c :: t) (pushFront c ls) := by
  have hcons {w : Text} (hw : Unbroken w) : Unbroken (c :: w) := List.forall_mem_cons.mpr ⟨hc, hw⟩
  cases h with
  | nil => exact .last (hcons nofun) (List.cons_ne_nil c [])
  | last hw hne => exact .last (hcons hw) (List.cons_ne_nil c _)
  | cons hw he hpair h => exact .cons (hcons hw) he hpair h

theorem exists_madeOf (t : Text) : ∃ ls, MadeOf t ls := by
  induction t using endedLines.induct with
  | case1 => exact ⟨[], .nil⟩
  | case2 r ih =>
    obtain ⟨ls, h⟩ := ih
    exact ⟨[] :: ls, .cons (List.forall_mem_nil _) .pair (fun h => absurd h (by decide)) h⟩
  | case3 c r hne hc ih =>
    obtain ⟨ls, h⟩ := ih
    refine ⟨[] :: ls, .cons (List.forall_mem_nil _) (.single hc) ?_ h⟩
    intro hreturn hfeed
    obtain ⟨r, rfl⟩ := List.head?_eq_some_iff.mp hfeed
    exact hne r (List.singleton_inj.mp hreturn) rfl
  | case4 c r hne hc ih =>
    obtain ⟨ls, h⟩ := ih
    exact ⟨_, h.pushFront (by simpa using hc)⟩

theorem lines_eq_iff : lines t = ls ↔ MadeOf t ls := by
  constructor
  · rintro rfl
    obtain ⟨ls, h⟩ := exists_madeOf t
    rwa [h.lines_eq]
  · exact MadeOf.lines_eq

theorem madeOf_lines (t : Text) : MadeOf t (lines t) := lines_eq_iff.mp rfl

theorem MadeOf.unbroken (h : MadeOf t ls) : ∀ l ∈ ls, Unbroken l := by
  induction h with
  | nil => nofun
  | last hw _ => exact List.forall_mem_singleton.mpr hw
  | cons hw _ _ _ ih => exact List.forall_mem_cons.mpr ⟨hw, ih⟩

theorem madeOf_ofLines (h : ∀ l ∈ ls, Unbroken l) : MadeOf (ofLines ls) ls := by
  induction ls with
  | nil => exact .nil
  | cons w ls ih =>
    obtain ⟨hw, hls⟩ := List.forall_mem_cons.mp h
    exact .cons hw (.single (by decide)) (fun h => absurd h (by decide)) (ih hls)

section Respell

theorem respell_append (e x y : Text) : respell e (x ++ y) = respell e x ++ respell e y :=
  List.flatMap_append

theorem Unbroken.respell_eq (h : Unbroken w) (e : Text) : respell e w = w := by
  induction w with
  | nil => rfl
  | cons c w ih =>
    obtain ⟨hc, hw⟩ := List.forall_mem_cons.mp h
    have hfeed : c ≠ '\n' := by
      rintro rfl
      exact absurd hc (by decide)
    rw [respell, List.flatMap_cons, if_neg hfeed]
    exact congrArg (c :: ·) (ih hw)

theorem not_mem_respell (h : '\n' ∉ e) (t : Text) : '\n' ∉ respell e t := by
  intro hmem
  obtain ⟨c, -, hc⟩ := List.mem_flatMap.mp hmem
  split at hc
  next => exact h hc
  next hfeed => exact hfeed (List.mem_singleton.mp hc).symm

/-- A text without carriage returns is made of the same lines when its line feeds become ends of
another kind: a carriage return that is put in meets no line feed but its own. -/
theorem MadeOf.respell (h : MadeOf t ls) (hreturn : '\r' ∉ t) (he : e = ['\r', '\n'] ∨ e = ['\r']) :
    MadeOf (respell e t) ls := by
  have hend : LineEnd e := by
    rcases he with rfl | rfl
    · exact .pair
    · exact .single (by decide)
  have hpair (t : Text) (halone : e = ['\r']) : (Text.respell e t).head? ≠ some '\n' := by
    intro hhead
    refine not_mem_respell (e := e) ?_ t (List.mem_of_head? hhead)
    rw [halone]
    decide
  induction h with
  | nil => exact .nil
  | last hw hne =>
    rw [hw.respell_eq]
    exact .last hw hne
  | @cons w old t ls hw hold _ _ ih =>
    simp only [List.mem_append, not_or] at hreturn
    obtain ⟨⟨-, hreturn⟩, hrest⟩ := hreturn
    rw [respell_append, respell_append, hw.respell_eq]
    cases hold with
    | pair => exact absurd List.mem_cons_self hreturn
    | @single c hc =>
      have hsingle : Text.respell e [c] = if c = '\n' then e else [c] := List.flatMap_singleton _ c
      rw [hsingle]
      split
      next => exact .cons hw hend (hpair t) (ih hrest)
      next =>
        refine .cons hw (.single hc) (fun halone => ?_) (ih hrest)
        exact absurd (halone ▸ List.mem_singleton_self '\r') hreturn

end Respell

end Made

end Text

namespace FileState

/-- There is a file, but no text: it is a directory, or its bytes are not well-formed. -/
inductive Unreadable : FileState → Prop where
  | directory : Unreadable .directory
  | malformed {bytes : ByteArray} (h : ¬bytes.IsValidUTF8) : Unreadable (.holding bytes)

theorem ofText_eq (t : Text) : ofText t = .holding t.utf8Encode := by
  rw [ofText, String.toUTF8, String.toByteArray_ofList]

theorem cases_of_reading (file : FileState) :
    file = .missing ∨ file.Unreadable ∨ ∃ t, file = ofText t := by
  cases file with
  | missing => exact .inl rfl
  | directory => exact .inr (.inl .directory)
  | holding bytes =>
    by_cases h : bytes.IsValidUTF8
    · obtain ⟨t, rfl⟩ := h
      exact .inr (.inr ⟨t, (ofText_eq t).symm⟩)
    · exact .inr (.inl (.malformed h))

section Lines
variable (report : Bool)

theorem lines_missing : missing.lines report = ⟨[], if report then [.warning] else []⟩ := rfl

theorem Unreadable.lines_eq {file : FileState} (h : file.Unreadable) :
    file.lines report = ⟨[], if report then [.error] else []⟩ := by
  cases h with
  | directory => rfl
  | @malformed bytes h =>
    have htext : (holding bytes).text? = none := by
      rw [text?, Option.map_eq_none_iff, ← Option.not_isSome_iff_eq_none,
        ByteArray.isSome_utf8Decode?_iff]
      exact h
    rw [lines, htext]
    rfl

theorem lines_ofText (t : Text) : (ofText t).lines report = ⟨Text.lines t, []⟩ :=
  lines_eq_of_text? (text?_ofText t) report

/-- Every file is read without a fault. One that is missing has no lines, and a warning is logged;
one that is unreadable has none either, and an error is logged; neither is logged where no report is
wanted. One that holds a text has the lines that the text is made of. There is no line break in
them, they read back from a file in which each has a line feed, and the line ends of a text can be
written in other ways. -/
theorem lines_of_every_file (report : Bool) :
    (∀ file : FileState, file = .missing ∨ file.Unreadable ∨ ∃ t, file = ofText t) ∧
    missing.lines report = ⟨[], if report then [.warning] else []⟩ ∧
    (∀ file : FileState, file.Unreadable →
      file.lines report = ⟨[], if report then [.error] else []⟩) ∧
    ∀ t : Text, ∃ ls, (ofText t).lines report = ⟨ls, []⟩ ∧ Text.MadeOf t ls ∧
      (∀ l ∈ ls, ∀ c ∈ l, Text.isLineBreak c = false) ∧
      (ofText (Text.ofLines ls)).lines report = ⟨ls, []⟩ ∧
      ('\r' ∉ t → ∀ e, e = ['\r', '\n'] ∨ e = ['\r'] →
        (ofText (Text.respell e t)).lines report = ⟨ls, []⟩) := by
  refine ⟨cases_of_reading, lines_missing report, fun _ h => h.lines_eq report, fun t => ?_⟩
  have hlines := Text.madeOf_lines t
  refine ⟨Text.lines t, lines_ofText report t, hlines, hlines.unbroken, ?_, ?_⟩
  · rw [lines_ofText, (Text.madeOf_ofLines hlines.unbroken).lines_eq]
  · intro hreturn e he
    rw [lines_ofText, (hlines.respell hreturn he).lines_eq]

end Lines

/-- A file separator ends a line like a line feed does, and a carriage return in front of a line
feed is one end with it. A byte that starts no character makes a file unreadable. -/
theorem lines_of_every_file_mixed :
    let t := "a\nb\x1cc\u2028\n".toList
    let ls := [['a'], ['b'], ['c'], []]
    (FileState.holding ⟨#[0xff]⟩).lines true = ⟨[], [.error]⟩ ∧ '\r' ∉ t ∧
      (ofText t).lines true = ⟨ls, []⟩ ∧ (ofText (Text.ofLines ls)).lines true = ⟨ls, []⟩ ∧
      Text.respell ['\r', '\n'] t = "a\r\nb\x1cc\u2028\r\n".toList ∧
      (ofText (Text.respell ['\r', '\n'] t)).lines true = ⟨ls, []⟩ := by
  intro t ls
  obtain ⟨-, -, hunreadable, htext⟩ := lines_of_every_file true
  obtain ⟨found, hfound, -, -, hback, hrespell⟩ := htext t
  have hreturn : '\r' ∉ t := by decide
  have hls : Text.lines t = ls := by decide
  obtain rfl : ls = found := by
    rw [lines_ofText, hls] at hfound
    exact congrArg Logged.value hfound
  have hmalformed : ¬ByteArray.IsValidUTF8 ⟨#[0xff]⟩ := by
    rw [← ByteArray.isSome_utf8Decode?_iff]
    decide
  exact ⟨hunreadable _ (.malformed hmalformed), hreturn, hfound, hback, by decide,
    hrespell hreturn _ (.inl rfl)⟩

end FileState

end ProcessorLoad
