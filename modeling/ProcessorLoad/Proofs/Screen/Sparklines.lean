import Mathlib.Data.List.Forall2
import Mathlib.Data.List.Induction
import Mathlib.Data.List.Nodup
import ProcessorLoad.Proofs.Number.Numeral
import ProcessorLoad.Proofs.Screen.Series

/-!
# The lines of the history

Whatever histories are shown one after the other, there is one line for each processor that any poll
had a load of, it was mounted once, and it shows its processor's loads in the latest history that
had any. How an assignment is taken is up to the widgets. Of them it is only assumed that a line
shows the series that it was given, or still the one before it if the two are equal.
-/

set_option autoImplicit false

namespace ProcessorLoad

/-- Two doubles that are equal as numbers, or one double twice. -/
def Binary64.Same (x y : Binary64) : Prop := x = y ∨ x.eq y = true

namespace Assignment

/-- A line shows the series that it was given, or still the one before it if the two are equal. -/
def Faithful (assignment : Assignment) : Prop :=
  ∀ shown series, assignment shown series = series ∨
    assignment shown series = shown ∧ List.Forall₂ Binary64.Same shown series

theorem Faithful.same {assignment : Assignment} (h : assignment.Faithful)
    (shown series : List Binary64) :
    List.Forall₂ Binary64.Same (assignment shown series) series := by
  rcases h shown series with hnew | ⟨hkept, hsame⟩
  · rw [hnew]
    exact List.forall₂_same.mpr fun x _ => .inl rfl
  · rwa [hkept]

theorem faithful_plain : plain.Faithful := fun _ _ => .inl rfl

theorem forall₂_same_of_isEqv {xs ys : List Binary64} (h : xs.isEqv ys Binary64.eq = true) :
    List.Forall₂ Binary64.Same xs ys := by
  induction xs generalizing ys with
  | nil =>
    cases ys with
    | nil => exact .nil
    | cons y ys => cases h
  | cons x xs ih =>
    cases ys with
    | nil => cases h
    | cons y ys =>
      obtain ⟨hfirst, hrest⟩ := (Bool.and_eq_true _ _).mp h
      exact .cons (.inr hfirst) (ih hrest)

theorem faithful_comparing : comparing.Faithful := by
  intro shown series
  unfold comparing
  split
  next h => exact .inr ⟨rfl, forall₂_same_of_isEqv h⟩
  next => exact .inl rfl

end Assignment

namespace HistoryPanel
variable {assignment : Assignment} {history : List (List Binary64)} {panel : HistoryPanel} {i : Nat}

def nameOf (cpu : Nat) : Text := "history-".toList ++ Text.numeral cpu

def rowOf (cpu : Nat) : HistoryRow := ⟨"cpu".toList ++ Text.numeral cpu, nameOf cpu⟩

theorem nameOf_injective : Function.Injective nameOf := by
  intro m n h
  exact Numeral.numeral_injective (List.append_cancel_left h)

section Update

theorem foldl_mount (cpus : List Nat) (panel : HistoryPanel) :
    cpus.foldl mount panel =
      ⟨panel.lines ++ cpus.map Sparkline.ofCpu, panel.rows ++ cpus.map rowOf⟩ := by
  induction cpus generalizing panel with
  | nil => simp
  | cons cpu cpus ih =>
    rw [List.foldl_cons, ih, List.map_cons, List.map_cons, List.append_cons,
      List.append_cons panel.rows]
    rfl

/-- The numbers of the processors that a history has loads of and that have no line yet. -/
def missing (history : List (List Binary64)) (panel : HistoryPanel) : List Nat :=
  List.range' panel.lines.length (longest history - panel.lines.length)

theorem range_append_missing (history : List (List Binary64)) (panel : HistoryPanel) :
    List.range panel.lines.length ++ missing history panel
      = List.range (max panel.lines.length (longest history)) := by
  have hcount : max panel.lines.length (longest history)
      = panel.lines.length + (longest history - panel.lines.length) := by omega
  rw [hcount, List.range_eq_range', List.range_eq_range', missing]
  simpa using List.range'_append_1 (s := 0)

theorem update_eq (assignment : Assignment) (history : List (List Binary64))
    (panel : HistoryPanel) :
    update assignment history panel
      = assign assignment (seriesByProcessor history)
          ⟨panel.lines ++ (missing history panel).map Sparkline.ofCpu,
            panel.rows ++ (missing history panel).map rowOf⟩ := by
  rw [update, length_seriesByProcessor, foldl_mount, missing]

theorem rows_update : (update assignment history panel).rows
    = panel.rows ++ (missing history panel).map rowOf := by rw [update_eq, assign]

theorem length_update : (update assignment history panel).lines.length
    = max panel.lines.length (longest history) := by
  rw [update_eq, assign, List.length_mapIdx, List.length_append, List.length_map, missing,
    List.length_range']
  omega

theorem getElem?_update :
    (update assignment history panel).lines[i]? =
      (panel.lines ++ (missing history panel).map Sparkline.ofCpu)[i]?.map fun line =>
        { line with data :=
          if i < longest history then assignment line.data (seriesOf i history)
          else line.data } := by
  rw [update_eq, assign, List.getElem?_mapIdx, getElem?_seriesByProcessor]
  split <;> rfl

theorem map_id_update : (update assignment history panel).lines.map Sparkline.id
    = panel.lines.map Sparkline.id ++ (missing history panel).map nameOf := by
  apply List.ext_getElem?
  intro i
  rw [List.getElem?_map, getElem?_update, Option.map_map]
  change ((_ ++ _)[i]?).map Sparkline.id = _
  rw [← List.getElem?_map, List.map_append, List.map_map]
  rfl

end Update

/-- How the panel stands on which histories were shown, the newest last. -/
structure Draws (assignment : Assignment) (histories : List (List (List Binary64)))
    (panel : HistoryPanel) : Prop where
  count_eq : panel.lines.length = longest histories.flatten
  names_eq : panel.lines.map Sparkline.id = (List.range panel.lines.length).map nameOf
  rows_eq : panel.rows = (List.range panel.lines.length).map rowOf
  latest : ∀ i line, panel.lines[i]? = some line → ∃ history shown,
    Latest (fun history => ∃ loads ∈ history, i < loads.length) histories history ∧
      line.data = assignment shown (seriesOf i history)

theorem draws_empty : Draws assignment [] {} := ⟨rfl, rfl, rfl, nofun⟩

theorem Draws.update {histories : List (List (List Binary64))}
    (h : Draws assignment histories panel) (history : List (List Binary64)) :
    Draws assignment (histories ++ [history]) (panel.update assignment history) := by
  constructor
  · rw [length_update, h.count_eq, List.flatten_append, longest_append, List.flatten_singleton]
  · rw [map_id_update, h.names_eq, length_update, ← List.map_append, range_append_missing]
  · rw [rows_update, h.rows_eq, length_update, ← List.map_append, range_append_missing]
  · intro i line hline
    rw [getElem?_update, Option.map_eq_some_iff] at hline
    obtain ⟨old, hold, rfl⟩ := hline
    by_cases hi : i < longest history
    · exact ⟨history, old.data, latest_append_of_pos (lt_longest_iff.mp hi), if_pos hi⟩
    · -- a processor without loads in this history is not a new one
      have hlength : i < panel.lines.length := by
        have hbound := (List.getElem?_eq_some_iff.mp hold).1
        rw [List.length_append, List.length_map, missing, List.length_range'] at hbound
        omega
      rw [List.getElem?_append_left hlength] at hold
      obtain ⟨earlier, shown, hlatest, hdata⟩ := h.latest i old hold
      refine ⟨earlier, shown, hlatest.append_of_neg fun hlong => hi (lt_longest_iff.mpr hlong), ?_⟩
      exact (if_neg hi).trans hdata

def showAll (assignment : Assignment) (histories : List (List (List Binary64))) : HistoryPanel :=
  histories.foldl (fun panel history => panel.update assignment history) {}

theorem draws_showAll (assignment : Assignment) (histories : List (List (List Binary64))) :
    Draws assignment histories (showAll assignment histories) := by
  induction histories using List.reverseRecOn with
  | nil => exact draws_empty
  | append_singleton histories history ih =>
    rw [showAll, List.foldl_append]
    exact ih.update history

/-- A line stands in one row only, since no two processors have the same id. -/
theorem Draws.count_rows {histories : List (List (List Binary64))} {line : Sparkline}
    (h : Draws assignment histories panel) (hline : line ∈ panel.lines) :
    (panel.rows.map HistoryRow.line).count line.id = 1 := by
  have hrows : panel.rows.map HistoryRow.line = panel.lines.map Sparkline.id := by
    rw [h.rows_eq, h.names_eq, List.map_map]
    rfl
  have hnodup : (panel.lines.map Sparkline.id).Nodup := by
    rw [h.names_eq]
    exact List.Nodup.map nameOf_injective List.nodup_range
  rw [hrows]
  exact List.count_eq_one_of_mem hnodup (List.mem_map_of_mem hline)

/-- There are as many lines as the longest list of loads in any history that was shown. The line of
each processor has its number in its id and was mounted once, in a row with the processor as its
label. It was given and shows the loads of its processor in the latest history that had one, one
value for each poll, 0 where a poll had none. -/
theorem lines_of_latest_histories (hassignment : assignment.Faithful)
    (histories : List (List (List Binary64))) :
    let panel := showAll assignment histories
    panel.lines.length = longest histories.flatten ∧
      panel.lines.map Sparkline.id
        = (List.range panel.lines.length).map (fun i => "history-".toList ++ Text.numeral i) ∧
      panel.rows = (List.range panel.lines.length).map
        (fun i => ⟨"cpu".toList ++ Text.numeral i, "history-".toList ++ Text.numeral i⟩) ∧
      (∀ line ∈ panel.lines, (panel.rows.map HistoryRow.line).count line.id = 1) ∧
      ∀ i < panel.lines.length, ∃ history line shown,
        Latest (fun history => ∃ loads ∈ history, i < loads.length) histories history ∧
          panel.lines[i]? = some line ∧
          line.data = assignment shown (history.map fun loads => loads.getD i 0) ∧
          List.Forall₂ Binary64.Same line.data (history.map fun loads => loads.getD i 0) := by
  intro panel
  have hdraws := draws_showAll assignment histories
  refine ⟨hdraws.count_eq, hdraws.names_eq, hdraws.rows_eq, fun line => hdraws.count_rows, ?_⟩
  intro i hi
  have hline : panel.lines[i]? = some panel.lines[i] := List.getElem?_eq_getElem hi
  obtain ⟨history, shown, hlatest, hdata⟩ := hdraws.latest i panel.lines[i] hline
  refine ⟨history, panel.lines[i], shown, hlatest, hline, hdata, ?_⟩
  rw [hdata]
  exact hassignment.same shown _

/-- The second history is empty and no poll of the third one has a load of the second processor, so
the line of that processor is still the one from the first history, whether or not assignments are
compared. -/
theorem lines_of_latest_histories_ragged :
    let histories : List (List (List Binary64)) := [[[1, 2], [3]], [], [[4], [], [5]]]
    let panel := showAll .comparing histories
    Assignment.comparing.Faithful ∧ Assignment.plain.Faithful ∧ panel.lines.length = 2 ∧
      panel.lines.map Sparkline.data = [[4, 0, 5], [2, 0]] ∧
      panel.rows = [⟨"cpu0".toList, "history-0".toList⟩, ⟨"cpu1".toList, "history-1".toList⟩] ∧
      Latest (fun history => ∃ loads ∈ history, 1 < loads.length) histories [[1, 2], [3]] ∧
      (∃ line, panel.lines[1]? = some line ∧ List.Forall₂ Binary64.Same line.data [2, 0]) ∧
      ∃ line, (showAll .plain histories).lines[1]? = some line ∧ line.data = [2, 0] := by
  intro histories panel
  have hfirst : Latest (fun history => ∃ loads ∈ history, 1 < loads.length) histories
      [[1, 2], [3]] := ⟨[], [[], [[4], [], [5]]], rfl, by simp, by simp⟩
  have hlongest : longest histories.flatten = 2 := rfl
  have hshown : panel.lines.map Sparkline.data = [[4, 0, 5], [2, 0]] := by decide +kernel
  obtain ⟨hcount, -, hrows, -, hlines⟩ :=
    lines_of_latest_histories Assignment.faithful_comparing histories
  obtain ⟨hcount', -, -, -, hlines'⟩ :=
    lines_of_latest_histories Assignment.faithful_plain histories
  rw [hlongest] at hcount hcount'
  rw [hcount] at hrows hlines
  rw [hcount'] at hlines'
  obtain ⟨history, line, -, hlatest, hline, -, hdata⟩ := hlines 1 (by decide)
  obtain rfl := hlatest.eq hfirst
  obtain ⟨history', line', shown, hlatest', hline', hdata', -⟩ := hlines' 1 (by decide)
  obtain rfl := hlatest'.eq hfirst
  exact ⟨Assignment.faithful_comparing, Assignment.faithful_plain, hcount, hshown, hrows, hfirst,
    ⟨line, hline, hdata⟩, line', hline', hdata'⟩

end HistoryPanel

end ProcessorLoad
