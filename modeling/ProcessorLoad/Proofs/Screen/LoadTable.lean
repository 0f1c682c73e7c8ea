import Mathlib.Data.List.Induction
import Mathlib.Data.List.Nodup
import ProcessorLoad.Screen.LoadTable
import ProcessorLoad.Proofs.Number.Numeral
import ProcessorLoad.Proofs.Result
import ProcessorLoad.Proofs.Screen.Gauge
import ProcessorLoad.Proofs.Screen.Latest

/-!
# The rows of the load table

Whatever loads are shown one after the other, the table has one row for each processor that any of
them was for, in the order of their numbers, and each row shows the newest load of its processor. So
the count by which the table tells the rows that it has from the new ones never parts from its rows.
-/

set_option autoImplicit false

namespace ProcessorLoad

namespace LoadTable

/-- The row of a load and its processor's number. -/
def rowOf (load : Binary64 × Nat) : Except Fault LoadRow := do
  return ⟨Text.numeral load.2, ← Gauge.bar load.1 Gauge.green, Gauge.percentage load.1⟩

/-- The keys of the rows are the numbers from the first one on. -/
def Keyed (first : Nat) (rows : List LoadRow) : Prop :=
  rows.map LoadRow.key = (List.range' first rows.length).map Text.numeral

section Keys
variable {first i : Nat} {row old : LoadRow} {rows front back : List LoadRow}

theorem keyed_nil (first : Nat) : Keyed first [] := rfl

theorem keyed_cons_iff :
    Keyed first (row :: rows) ↔ row.key = Text.numeral first ∧ Keyed (first + 1) rows :=
  List.cons_eq_cons

theorem keyed_append_iff :
    Keyed first (front ++ back) ↔ Keyed first front ∧ Keyed (first + front.length) back := by
  induction front generalizing first with
  | nil => simp [keyed_nil]
  | cons row front ih =>
    rw [List.cons_append, keyed_cons_iff, keyed_cons_iff, ih, and_assoc, List.length_cons,
      Nat.add_right_comm, Nat.add_assoc]

theorem Keyed.drop (h : Keyed first rows) (n : Nat) : Keyed (first + n) (rows.drop n) := by
  induction n generalizing first rows with
  | zero => exact h
  | succ n ih =>
    cases rows with
    | nil => rfl
    | cons row rows =>
      rw [List.drop_succ_cons, Nat.add_comm n, ← Nat.add_assoc]
      exact ih (keyed_cons_iff.mp h).2

theorem Keyed.not_mem (h : Keyed first rows) (hi : i < first ∨ first + rows.length ≤ i) :
    Text.numeral i ∉ rows.map LoadRow.key := by
  rw [h, List.mem_map_of_injective Numeral.numeral_injective, List.mem_range'_1]
  omega

theorem updateRow_of_not_mem (h : row.key ∉ rows.map LoadRow.key) : updateRow rows row = rows := by
  have hold : ∀ old ∈ rows, old.key ≠ row.key := by
    rintro old hmem hkey
    exact h (hkey ▸ List.mem_map_of_mem hmem)
  calc updateRow rows row = rows.map id :=
    List.map_congr_left fun old hmem => if_neg (hold old hmem)
    _ = rows := List.map_id rows

theorem addRow_of_not_mem (h : row.key ∉ rows.map LoadRow.key) :
    addRow rows row = rows ++ [row] := by
  rw [addRow, if_neg]
  intro hmem
  obtain ⟨old, hold, hkey⟩ := List.any_eq_true.mp hmem
  exact h (of_decide_eq_true hkey ▸ List.mem_map_of_mem hold)

theorem updateRow_append_cons (hkey : old.key = row.key) (hfront : row.key ∉ front.map LoadRow.key)
    (hback : row.key ∉ back.map LoadRow.key) :
    updateRow (front ++ old :: back) row = front ++ row :: back := by
  calc updateRow (front ++ old :: back) row
      = updateRow front row ++ (if old.key = row.key then row else old) :: updateRow back row :=
        List.map_append
    _ = front ++ row :: back := by
      rw [updateRow_of_not_mem hfront, updateRow_of_not_mem hback, if_pos hkey]

end Keys

section Update
variable {requested : Nat} {load : Binary64} {loads : List Binary64} {row : LoadRow}
  {new front back : List LoadRow} {t : LoadTable}

theorem showLoad_of_rowOf {load : Binary64 × Nat} (h : rowOf load = .ok row) (requested : Nat)
    (rows : List LoadRow) :
    showLoad requested rows load
      = if load.2 < requested then updateRow rows row else addRow rows row := by
  obtain ⟨bar, hbar, hrow⟩ := ok_of_bind h
  cases hrow
  rw [showLoad, hbar]

theorem cells_of_rowOf {cpu : Nat} (h : rowOf (load, cpu) = .ok row) :
    row.key = Text.numeral cpu ∧ Gauge.bar load Gauge.green = .ok row.bar ∧
      row.percentage = Gauge.percentage load := by
  obtain ⟨bar, hbar, hrow⟩ := ok_of_bind h
  cases hrow
  exact ⟨rfl, hbar, rfl⟩

/-- A load takes the place of the row of its processor, or it makes a new row at the end. -/
theorem showLoad_append (hrow : rowOf (load, front.length) = .ok row)
    (hfront : Keyed 0 front) (hback : Keyed front.length back)
    (hcount : max front.length requested = front.length + back.length) :
    showLoad requested (front ++ back) (load, front.length) = (front ++ [row]) ++ back.tail := by
  have hkey := (cells_of_rowOf hrow).1
  have hbefore : row.key ∉ front.map LoadRow.key := hkey ▸ hfront.not_mem (by omega)
  rw [showLoad_of_rowOf hrow]
  cases back with
  | nil =>
    rw [List.length_nil, Nat.add_zero] at hcount
    rw [if_neg (by omega), List.append_nil, addRow_of_not_mem hbefore, List.tail_nil,
      List.append_nil]
  | cons old back =>
    obtain ⟨hold, hrest⟩ := keyed_cons_iff.mp hback
    have hbehind : row.key ∉ back.map LoadRow.key := hkey ▸ hrest.not_mem (by omega)
    rw [List.length_cons] at hcount
    rw [if_pos (by omega), updateRow_append_cons (hold.trans hkey.symm) hbefore hbehind,
      List.append_assoc, List.singleton_append, List.tail_cons]

/-- The loads are shown from one place in the rows on. -/
theorem foldl_showLoad (hnew : (loads.zipIdx front.length).mapM rowOf = .ok new)
    (hfront : Keyed 0 front) (hback : Keyed front.length back)
    (hcount : max front.length requested = front.length + back.length) :
    (loads.zipIdx front.length).foldl (showLoad requested) (front ++ back)
      = front ++ new ++ back.drop loads.length := by
  induction loads generalizing front back new with
  | nil =>
    cases hnew
    simp
  | cons load loads ih =>
    rw [List.zipIdx_cons, List.mapM_cons] at hnew
    obtain ⟨row, hrow, hnew⟩ := ok_of_bind hnew
    obtain ⟨rest, hrest, hnew⟩ := ok_of_bind hnew
    cases hnew
    have hlength : (front ++ [row]).length = front.length + 1 := List.length_append
    have hfront' : Keyed 0 (front ++ [row]) :=
      keyed_append_iff.mpr
        ⟨hfront, keyed_cons_iff.mpr ⟨by simpa using (cells_of_rowOf hrow).1, rfl⟩⟩
    have hback' : Keyed (front.length + 1) back.tail := List.drop_one ▸ hback.drop 1
    have hcount' : max (front.length + 1) requested = front.length + 1 + back.tail.length := by
      rw [List.length_tail]
      omega
    rw [← hlength] at hrest hback' hcount'
    rw [List.zipIdx_cons, List.foldl_cons, showLoad_append hrow hfront hback hcount, ← hlength,
      ih hrest hfront' hback' hcount', List.append_assoc front, List.singleton_append,
      List.length_cons, List.drop_tail]

theorem rows_update (hkeyed : Keyed 0 t.rows) (hcount : t.rows.length = t.requested)
    (hnew : loads.zipIdx.mapM rowOf = .ok new) :
    (t.update loads).rows = new ++ t.rows.drop loads.length := by
  have hfront : Keyed 0 [] := keyed_nil 0
  exact foldl_showLoad hnew hfront hkeyed (by simp [hcount])

theorem keyed_of_mapM {first : Nat} (h : (loads.zipIdx first).mapM rowOf = .ok new) :
    Keyed first new := by
  induction loads generalizing first new with
  | nil =>
    cases h
    rfl
  | cons load loads ih =>
    rw [List.zipIdx_cons, List.mapM_cons] at h
    obtain ⟨row, hrow, h⟩ := ok_of_bind h
    obtain ⟨rest, hrest, h⟩ := ok_of_bind h
    cases h
    exact keyed_cons_iff.mpr ⟨(cells_of_rowOf hrow).1, ih hrest⟩

end Update

/-- How a table stands on which lists of loads were shown, the newest last. -/
structure Shows (calls : List (List Binary64)) (t : LoadTable) : Prop where
  requested_eq : t.requested = longest calls
  length_eq : t.rows.length = t.requested
  keyed : Keyed 0 t.rows
  latest : ∀ i row, t.rows[i]? = some row → ∃ loads load,
    Latest (fun loads => i < loads.length) calls loads ∧ loads[i]? = some load ∧
      rowOf (load, i) = .ok row

theorem shows_nil : Shows [] {} := ⟨rfl, rfl, rfl, nofun⟩

def Drawable (load : Binary64) : Prop := (load * .ofNat Gauge.width).isFinite = true

theorem Drawable.bar {load : Binary64} (h : Drawable load) (color : Text) :
    ∃ bar, Gauge.bar load color = .ok bar := Gauge.exists_bar_iff.mpr h

theorem Drawable.rowOf {load : Binary64} (h : Drawable load) (cpu : Nat) :
    Succeeds (rowOf (load, cpu)) fun _ => True := by
  obtain ⟨bar, hbar⟩ := h.bar Gauge.green
  refine ⟨⟨Text.numeral cpu, bar, Gauge.percentage load⟩, ?_, trivial⟩
  simp only [LoadTable.rowOf, hbar]
  rfl

theorem Shows.update {calls : List (List Binary64)} {t : LoadTable} (h : Shows calls t)
    {loads : List Binary64} (hloads : ∀ load ∈ loads, Drawable load) :
    Shows (calls ++ [loads]) (t.update loads) := by
  obtain ⟨new, hnew, -, -⟩ := Succeeds.mapM (f := rowOf) (l := loads.zipIdx) fun load hload =>
    (hloads load.1 (List.fst_mem_of_mem_zipIdx hload)).rowOf load.2
  have hrows := rows_update h.keyed h.length_eq hnew
  have hlength : new.length = loads.length := by
    rw [(mem_of_mapM_ok hnew).1, List.length_zipIdx]
  constructor
  · rw [longest_append, longest_singleton, ← h.requested_eq]
    rfl
  · change _ = max t.requested loads.length
    rw [hrows, List.length_append, List.length_drop, hlength, h.length_eq]
    omega
  · rw [hrows, keyed_append_iff, Nat.zero_add, hlength]
    exact ⟨keyed_of_mapM hnew, by simpa using h.keyed.drop loads.length⟩
  · intro i row hrow
    rw [hrows] at hrow
    by_cases hi : i < loads.length
    · rw [List.getElem?_append_left (hlength ▸ hi)] at hrow
      obtain ⟨pair, hpair, hrowOf⟩ := getElem?_of_mapM_ok hnew hrow
      rw [List.getElem?_zipIdx, Option.map_eq_some_iff] at hpair
      obtain ⟨load, hload, rfl⟩ := hpair
      rw [Nat.zero_add] at hrowOf
      exact ⟨loads, load, latest_append_of_pos hi, hload, hrowOf⟩
    · rw [List.getElem?_append_right (by omega), List.getElem?_drop, hlength,
        Nat.add_sub_cancel' (Nat.not_lt.mp hi)] at hrow
      obtain ⟨shown, load, hlatest, hload, hrowOf⟩ := h.latest i row hrow
      exact ⟨shown, load, hlatest.append_of_neg hi, hload, hrowOf⟩

def showAll (calls : List (List Binary64)) : LoadTable :=
  calls.foldl (fun t loads => t.update loads) {}

theorem shows_showAll {calls : List (List Binary64)}
    (h : ∀ loads ∈ calls, ∀ load ∈ loads, Drawable load) :
    Shows calls (showAll calls) := by
  induction calls using List.reverseRecOn with
  | nil => exact shows_nil
  | append_singleton calls loads ih =>
    rw [List.forall_mem_append, List.forall_mem_singleton] at h
    rw [showAll, List.foldl_append]
    exact (ih h.1).update h.2

/-- As long as every load has a bar, the table has as many rows as the longest list of loads that
was shown. They are the rows of the processors from the first on, in order and once each, and the
row of a processor has the bar and the percentage of its load in the latest list that had one. -/
theorem rows_of_latest_loads (calls : List (List Binary64))
    (h : ∀ loads ∈ calls, ∀ load ∈ loads, (load * .ofNat Gauge.width).isFinite = true) :
    let t := showAll calls
    t.requested = longest calls ∧
      t.rows.map LoadRow.key = (List.range t.requested).map Text.numeral ∧
      (t.rows.map LoadRow.key).Nodup ∧
      ∀ i < t.requested, ∃ loads load row, Latest (fun loads => i < loads.length) calls loads ∧
        loads[i]? = some load ∧ t.rows[i]? = some row ∧ row.key = Text.numeral i ∧
        Gauge.bar load Gauge.green = .ok row.bar ∧ row.percentage = Gauge.percentage load := by
  intro t
  have hshows : Shows calls t := shows_showAll h
  have hkeys : t.rows.map LoadRow.key = (List.range t.requested).map Text.numeral := by
    rw [← hshows.length_eq, List.range_eq_range']
    exact hshows.keyed
  refine ⟨hshows.requested_eq, hkeys, ?_, fun i hi => ?_⟩
  · rw [hkeys]
    exact List.Nodup.map Numeral.numeral_injective List.nodup_range
  · rw [← hshows.length_eq] at hi
    obtain ⟨loads, load, hlatest, hload, hrow⟩ :=
      hshows.latest i t.rows[i] (List.getElem?_eq_getElem hi)
    exact ⟨loads, load, t.rows[i], hlatest, hload, List.getElem?_eq_getElem hi, cells_of_rowOf hrow⟩

/-- The second list is empty and the third one is short, so the row of the second processor is still
the one from the first list. -/
theorem rows_of_latest_loads_shrinking :
    let calls : List (List Binary64) := [[0, 1], [], [-3]]
    (∀ loads ∈ calls, ∀ load ∈ loads, (load * .ofNat Gauge.width).isFinite = true) ∧
      (showAll calls).requested = 2 ∧ (showAll calls).rows.map LoadRow.key = [['0'], ['1']] ∧
      ∃ row, Latest (fun loads => 1 < loads.length) calls [0, 1] ∧
        (showAll calls).rows[1]? = some row ∧
        Gauge.bar 1 Gauge.green = .ok row.bar ∧ row.percentage = Gauge.percentage 1 := by
  intro calls
  have hfinite : ∀ loads ∈ calls, ∀ load ∈ loads, (load * .ofNat Gauge.width).isFinite = true := by
    decide +kernel
  have hfirst : Latest (fun loads => 1 < loads.length) calls [0, 1] :=
    ⟨[], [[], [-3]], rfl, by decide, by decide⟩
  obtain ⟨hcount, hkeys, -, hrows⟩ := rows_of_latest_loads calls hfinite
  rw [show longest calls = 2 from rfl] at hcount
  rw [hcount] at hkeys hrows
  obtain ⟨loads, load, row, hlatest, hload, hrow, -, hbar, hpercentage⟩ := hrows 1 (by decide)
  obtain rfl := hlatest.eq hfirst
  obtain rfl : 1 = load := Option.some.inj hload
  exact ⟨hfinite, hcount, hkeys, row, hfirst, hrow, hbar, hpercentage⟩

end LoadTable

end ProcessorLoad
