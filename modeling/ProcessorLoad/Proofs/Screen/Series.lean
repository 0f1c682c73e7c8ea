import Mathlib.Data.List.GetD
import ProcessorLoad.Proofs.Screen.Latest
import ProcessorLoad.Screen.Sparklines

/-!
# Loads by poll and by processor

The history is kept by poll and shown by processor: the series are its columns. Every load stands in
the series of its processor at the place of its poll, and where a poll has no load of the processor
there is a 0. So of a history with any load at all nothing is lost but the lengths of the polls: the
series of its series are the polls again, all of them as long as the longest one.
-/

set_option autoImplicit false

namespace ProcessorLoad

section Series
variable {history : List (List Binary64)} {loads values : List Binary64} {cpu poll width : Nat}

theorem length_seriesByProcessor (history : List (List Binary64)) :
    (seriesByProcessor history).length = longest history := by
  simp [seriesByProcessor, longest]

/-- The loads of one processor, one for each poll. -/
def seriesOf (cpu : Nat) (history : List (List Binary64)) : List Binary64 :=
  history.map fun loads => loads.getD cpu 0

theorem getElem?_seriesByProcessor :
    (seriesByProcessor history)[cpu]?
      = if cpu < longest history then some (seriesOf cpu history) else none := by
  change ((List.range (longest history)).map fun cpu => seriesOf cpu history)[cpu]? = _
  rw [List.getElem?_map]
  split
  next h => rw [List.getElem?_range h, Option.map_some]
  next h => rw [List.getElem?_eq_none (by simpa using h), Option.map_none]

theorem length_seriesOf (cpu : Nat) (history : List (List Binary64)) :
    (seriesOf cpu history).length = history.length := List.length_map _

theorem getElem?_seriesOf (h : history[poll]? = some loads) :
    (seriesOf cpu history)[poll]? = some (loads.getD cpu 0) := by
  rw [seriesOf, List.getElem?_map, h, Option.map_some]

theorem getD_eq_dite (loads : List Binary64) (cpu : Nat) :
    loads.getD cpu 0 = if h : cpu < loads.length then loads[cpu] else 0 := by
  split
  next h => exact List.getD_eq_getElem loads 0 h
  next h => exact List.getD_eq_default loads 0 (Nat.not_lt.mp h)

theorem eq_seriesOf_of_mem (h : values ∈ seriesByProcessor history) :
    ∃ cpu, values = seriesOf cpu history := by
  obtain ⟨cpu, -, hvalues⟩ := List.mem_map.mp h
  exact ⟨cpu, hvalues.symm⟩

section Twice

theorem getElem?_rightpad (h : loads.length ≤ width) :
    (loads.rightpad width 0)[cpu]? = if cpu < width then some (loads.getD cpu 0) else none := by
  rw [List.rightpad]
  by_cases hcpu : cpu < loads.length
  · rw [List.getElem?_append_left hcpu, List.getElem?_eq_getElem hcpu,
      List.getD_eq_getElem loads 0 hcpu, if_pos (Nat.lt_of_lt_of_le hcpu h)]
  · have hlength : loads.length ≤ cpu := Nat.not_lt.mp hcpu
    have hplace : cpu - loads.length < width - loads.length ↔ cpu < width := by omega
    rw [List.getElem?_append_right hlength, List.getElem?_replicate,
      List.getD_eq_default loads 0 hlength]
    simp only [hplace]

theorem rightpad_eq_self_iff : loads.rightpad width 0 = loads ↔ width ≤ loads.length := by
  constructor
  · intro h
    have hlength := congrArg List.length h
    rw [List.length_rightpad] at hlength
    omega
  · intro h
    rw [List.rightpad, Nat.sub_eq_zero_of_le h, List.replicate_zero, List.append_nil]

theorem map_rightpad_eq_self_iff :
    history.map (fun loads => loads.rightpad width 0) = history ↔
      ∀ loads ∈ history, width ≤ loads.length := by
  calc history.map (fun loads => loads.rightpad width 0) = history
      ↔ history.map (fun loads => loads.rightpad width 0) = history.map id := by rw [List.map_id]
    _ ↔ ∀ loads ∈ history, loads.rightpad width 0 = id loads := List.map_inj_left
    _ ↔ ∀ loads ∈ history, width ≤ loads.length := forall₂_congr fun _ _ => rightpad_eq_self_iff

/-- All series are as long as the history, so there are as many polls again as there were. -/
theorem longest_seriesByProcessor (h : 0 < longest history) :
    longest (seriesByProcessor history) = history.length := by
  apply eq_of_forall_lt_iff
  intro poll
  rw [lt_longest_iff]
  constructor
  · rintro ⟨values, hvalues, hpoll⟩
    obtain ⟨cpu, rfl⟩ := eq_seriesOf_of_mem hvalues
    rwa [length_seriesOf] at hpoll
  · intro hpoll
    refine ⟨seriesOf 0 history, ?_, by rwa [length_seriesOf]⟩
    apply List.mem_of_getElem? (i := 0)
    rw [getElem?_seriesByProcessor, if_pos h]

theorem seriesOf_seriesByProcessor (h : history[poll]? = some loads) :
    seriesOf poll (seriesByProcessor history) = loads.rightpad (longest history) 0 := by
  apply List.ext_getElem?
  intro cpu
  rw [getElem?_rightpad (length_le_longest (List.mem_of_getElem? h)), seriesOf, List.getElem?_map,
    getElem?_seriesByProcessor]
  split
  -- What the series of a processor has at the place of the poll is the poll's load of it, or the 0.
  next => rw [Option.map_some, List.getD_eq_getElem?_getD, getElem?_seriesOf h, Option.getD_some]
  next => rfl

/-- Going over to series twice fills up the short polls and changes nothing else. -/
theorem seriesByProcessor_twice (h : 0 < longest history) :
    seriesByProcessor (seriesByProcessor history)
      = history.map fun loads => loads.rightpad (longest history) 0 := by
  apply List.ext_getElem?
  intro poll
  rw [getElem?_seriesByProcessor, longest_seriesByProcessor h, List.getElem?_map]
  split
  next hpoll =>
    have hloads := List.getElem?_eq_getElem hpoll
    rw [seriesOf_seriesByProcessor hloads, hloads, Option.map_some]
  next hpoll => rw [List.getElem?_eq_none (Nat.not_lt.mp hpoll), Option.map_none]

theorem seriesByProcessor_eq_nil (h : longest history = 0) : seriesByProcessor history = [] := by
  rw [← List.length_eq_zero_iff, length_seriesByProcessor, h]

theorem longest_of_rectangular (hne : history ≠ []) (h : ∀ loads ∈ history, loads.length = width) :
    longest history = width := by
  obtain ⟨loads, hloads, hlength⟩ := exists_length_eq_longest hne
  rw [← hlength, h loads hloads]

theorem seriesByProcessor_twice_eq_self_iff :
    seriesByProcessor (seriesByProcessor history) = history ↔
      history = [] ∨ ∃ width > 0, ∀ loads ∈ history, loads.length = width := by
  by_cases hnil : history = []
  · subst hnil
    exact iff_of_true rfl (.inl rfl)
  · rcases Nat.eq_zero_or_pos (longest history) with hzero | hpos
    · -- Polls without loads have no series to come back from.
      rw [seriesByProcessor_eq_nil hzero]
      apply iff_of_false (Ne.symm hnil)
      rintro (hempty | ⟨width, hwidth, hall⟩)
      · exact hnil hempty
      · rw [longest_of_rectangular hnil hall] at hzero
        omega
    · rw [seriesByProcessor_twice hpos, map_rightpad_eq_self_iff]
      constructor
      · intro h
        refine .inr ⟨longest history, hpos, fun loads hloads => ?_⟩
        exact Nat.le_antisymm (length_le_longest hloads) (h loads hloads)
      · rintro (hempty | ⟨width, hwidth, hall⟩) loads hloads
        · exact absurd hempty hnil
        · rw [longest_of_rectangular hnil hall, hall loads hloads]

end Twice

/-- There are as many series as the longest poll has loads, each with one value for each poll: the
load of that processor in that poll, 0 if it has none. Going over to series twice gives the history
back if all its polls have the same number of loads, at least one, and otherwise only if there are
no polls. -/
theorem loads_by_processor (history : List (List Binary64)) :
    let series := seriesByProcessor history
    (∀ loads ∈ history, loads.length ≤ series.length) ∧
      (series.length = 0 ∨ ∃ loads ∈ history, loads.length = series.length) ∧
      (∀ (cpu : Nat) (values : List Binary64), series[cpu]? = some values →
        values.length = history.length ∧
        ∀ (poll : Nat) (loads : List Binary64), history[poll]? = some loads →
          values[poll]? = some (if h : cpu < loads.length then loads[cpu] else 0)) ∧
      (seriesByProcessor series = history ↔
        history = [] ∨ ∃ width > 0, ∀ loads ∈ history, loads.length = width) := by
  intro series
  have hlength : series.length = longest history := length_seriesByProcessor history
  refine ⟨?_, ?_, ?_, seriesByProcessor_twice_eq_self_iff⟩
  · intro loads hloads
    rw [hlength]
    exact length_le_longest hloads
  · rw [hlength]
    by_cases hnil : history = []
    · subst hnil
      exact .inl rfl
    · exact .inr (exists_length_eq_longest hnil)
  · intro cpu values hvalues
    rw [getElem?_seriesByProcessor, Option.ite_none_right_eq_some] at hvalues
    obtain ⟨-, hvalues⟩ := hvalues
    obtain rfl := Option.some.inj hvalues
    refine ⟨length_seriesOf cpu history, fun poll loads hloads => ?_⟩
    rw [getElem?_seriesOf hloads, getD_eq_dite]

/-- The second poll has no load of the second processor. With a 0 there the history comes back,
without it does not. -/
theorem loads_by_processor_ragged :
    let ragged : List (List Binary64) := [[1, 2], [3], [5, 6]]
    let filled : List (List Binary64) := [[1, 2], [3, 0], [5, 6]]
    (∃ values, (seriesByProcessor ragged)[1]? = some values ∧ values.length = 3 ∧
        values[0]? = some 2 ∧ values[1]? = some 0 ∧ values[2]? = some 6) ∧
      seriesByProcessor (seriesByProcessor ragged) ≠ ragged ∧
      seriesByProcessor (seriesByProcessor filled) = filled := by
  intro ragged filled
  obtain ⟨-, -, hvalues, htwice⟩ := loads_by_processor ragged
  obtain ⟨-, -, -, hfilled⟩ := loads_by_processor filled
  have hseries : (seriesByProcessor ragged)[1]? = some (seriesOf 1 ragged) := by
    rw [getElem?_seriesByProcessor, if_pos (by decide)]
  obtain ⟨hlength, hpolls⟩ := hvalues 1 _ hseries
  have hfirst : (seriesOf 1 ragged)[0]? = some 2 := by simpa using hpolls 0 [1, 2] rfl
  have hsecond : (seriesOf 1 ragged)[1]? = some 0 := by simpa using hpolls 1 [3] rfl
  have hthird : (seriesOf 1 ragged)[2]? = some 6 := by simpa using hpolls 2 [5, 6] rfl
  refine ⟨⟨seriesOf 1 ragged, hseries, hlength, hfirst, hsecond, hthird⟩, ?_,
    hfilled.mpr (.inr ⟨2, by decide, by decide⟩)⟩
  rw [ne_eq, htwice]
  rintro (hempty | ⟨width, -, hall⟩)
  · exact List.cons_ne_nil _ _ hempty
  · have hlong : 2 = width := hall [1, 2] List.mem_cons_self
    have hshort : 1 = width := hall [3] (List.mem_cons_of_mem _ List.mem_cons_self)
    omega

end Series

end ProcessorLoad
