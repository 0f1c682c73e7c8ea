import Mathlib.Data.List.Nodup
import Mathlib.Data.List.Perm.Subperm
import ProcessorLoad.Machine.StatFile
import ProcessorLoad.Proofs.Ticks.Shape

/-!
# The layout of processor records

The file lists processors by number, and its table has one record for each number up to the largest
one. A watch keeps the first records of that table, as many as there are processors. Where the
numbers have no gap, the two agree.
-/

set_option autoImplicit false

namespace ProcessorLoad

namespace StatFile

def processorLines (file : FileState) : List Text := (counterLines file).value.filter (!isTotal ·)

def listed (file : FileState) : List (Int × Ticks) :=
  (processorLines file).filterMap fun line => (readProcessorRow line).toOption

theorem shaped_readRow {line : Text} {r : Text × Ticks} (h : readRow line = .ok r) :
    r.2.Shaped := by
  obtain ⟨counters, -, h⟩ := ok_of_bind h
  split at h
  · cases h
    exact Ticks.shaped_fit counters
  · cases h

theorem shaped_readProcessorRow {line : Text} {r : Int × Ticks}
    (h : readProcessorRow line = .ok r) : r.2.Shaped := by
  obtain ⟨⟨label, t⟩, hrow, h⟩ := ok_of_bind h
  obtain ⟨n, -, h⟩ := ok_of_bind h
  cases h
  exact shaped_readRow hrow

theorem shaped_listed {file : FileState} {r : Int × Ticks} (h : r ∈ listed file) :
    r.2.Shaped := by
  obtain ⟨line, -, hline⟩ := List.mem_filterMap.mp h
  cases hrow : readProcessorRow line with
  | error fault =>
    rw [hrow] at hline
    cases hline
  | ok row =>
    rw [hrow] at hline
    cases hline
    exact shaped_readProcessorRow hrow

/-- The record of a number: zero if it is not listed. -/
def recordOf (rows : List (Int × Ticks)) (i : Nat) : Ticks :=
  (rows.reverse.lookup (i : Int)).getD Ticks.zero

section Rows
variable {rows : List (Int × Ticks)} {k : Nat}

theorem recordOf_of_mem (hnodup : (rows.map Prod.fst).Nodup) {i : Nat} {t : Ticks}
    (h : ((i : Int), t) ∈ rows) : recordOf rows i = t := by
  have hmem : ((i : Int), t) ∈ rows.reverse := List.mem_reverse.mpr h
  have hfst : (rows.reverse.map Prod.fst).Nodup := by
    rw [List.map_reverse]
    exact List.nodup_reverse.mpr hnodup
  obtain ⟨front, back, hsplit⟩ := List.append_of_mem hmem
  have hfront : ∀ p ∈ front, (i : Int) != p.1 := by
    intro p hp
    rw [hsplit, List.map_append, List.map_cons] at hfst
    have hne := (List.nodup_append.mp hfst).2.2 p.1 (List.mem_map_of_mem hp) i List.mem_cons_self
    simpa using Ne.symm hne
  rw [recordOf, List.lookup_eq_some_iff.mpr ⟨front, back, hsplit, hfront⟩]
  rfl

theorem recordOf_append_cons {back : List (Int × Ticks)} {i : Nat}
    (h : (i : Int) ∉ back.map Prod.fst) (front : List (Int × Ticks)) (t : Ticks) :
    recordOf (front ++ ((i : Int), t) :: back) i = t := by
  have hback : back.reverse.lookup (i : Int) = none := by
    rw [List.lookup_eq_none_iff]
    intro q hq
    have hq' : q.1 ∈ back.map Prod.fst := List.mem_map_of_mem (List.mem_reverse.mp hq)
    have hne : (i : Int) ≠ q.1 := fun heq => h (heq ▸ hq')
    simpa using hne
  rw [recordOf, List.reverse_append, List.reverse_cons, List.lookup_append,
    List.lookup_append, hback]
  simp

theorem recordOf_of_not_mem {i : Nat} (h : (i : Int) ∉ rows.map Prod.fst) :
    recordOf rows i = Ticks.zero := by
  have hnone : rows.reverse.lookup (i : Int) = none := by
    rw [List.lookup_eq_none_iff]
    intro p hp
    have hp' : p.1 ∈ rows.map Prod.fst := List.mem_map_of_mem (List.mem_reverse.mp hp)
    have hne : (i : Int) ≠ p.1 := fun heq => h (heq ▸ hp')
    simpa using hne
  rw [recordOf, hnone]
  rfl

theorem recordOf_cases (rows : List (Int × Ticks)) (i : Nat) :
    ((i : Int), recordOf rows i) ∈ rows ∨
      (i : Int) ∉ rows.map Prod.fst ∧ recordOf rows i = Ticks.zero := by
  by_cases h : (i : Int) ∈ rows.map Prod.fst
  · left
    have hsome : (rows.reverse.lookup (i : Int)).isSome := by
      rw [List.lookup_isSome_iff]
      obtain ⟨p, hp, hpi⟩ := List.mem_map.mp h
      exact ⟨p, List.mem_reverse.mpr hp, by simp [hpi]⟩
    obtain ⟨t, ht⟩ := Option.isSome_iff_exists.mp hsome
    obtain ⟨front, back, hsplit, -⟩ := List.lookup_eq_some_iff.mp ht
    have hmem : ((i : Int), t) ∈ rows.reverse := by
      rw [hsplit]
      exact List.mem_append_right _ List.mem_cons_self
    rw [recordOf, ht]
    exact List.mem_reverse.mp hmem
  · exact .inr ⟨h, recordOf_of_not_mem h⟩

/-- The table has a record for each of the first numbers, and the numbers after them are not
listed. -/
theorem layOut_eq (rows : List (Int × Ticks)) :
    ∃ n, layOut rows = (List.range n).map (recordOf rows) ∧
      ∀ i, n ≤ i → (i : Int) ∉ rows.map Prod.fst := by
  cases hmax : (rows.map Prod.fst).max? with
  | none =>
    have hnil : rows.map Prod.fst = [] := List.max?_eq_none_iff.mp hmax
    refine ⟨0, ?_, ?_⟩
    · rw [layOut, hmax]
      rfl
    · intro i _
      rw [hnil]
      exact List.not_mem_nil
  | some top =>
    refine ⟨(top + 1).toNat, ?_, ?_⟩
    · rw [layOut, hmax]
      rfl
    · intro i hi hmem
      have hle := (List.max?_eq_some_iff.mp hmax).2 i hmem
      omega

theorem lt_length_layOut_iff (rows : List (Int × Ticks)) (i : Nat) :
    i < (layOut rows).length ↔ ∃ r ∈ rows, (i : Int) ≤ r.1 := by
  cases hmax : (rows.map Prod.fst).max? with
  | none =>
    have hnil : rows = [] := by simpa using List.max?_eq_none_iff.mp hmax
    simp [hnil, layOut]
  | some top =>
    obtain ⟨htop, hle⟩ := List.max?_eq_some_iff.mp hmax
    rw [layOut, hmax]
    simp only [List.length_map, List.length_range]
    constructor
    · intro hi
      obtain ⟨r, hr, rfl⟩ := List.mem_map.mp htop
      exact ⟨r, hr, by omega⟩
    · rintro ⟨r, hr, hi⟩
      have := hle r.1 (List.mem_map_of_mem hr)
      omega

theorem getElem?_layOut {i : Nat} (h : i < (layOut rows).length) :
    (layOut rows)[i]? = some (recordOf rows i) := by
  obtain ⟨n, heq, -⟩ := layOut_eq rows
  rw [heq, List.length_map, List.length_range] at h
  rw [heq, List.getElem?_map, List.getElem?_range h, Option.map_some]

theorem shaped_layOut (h : ∀ r ∈ rows, r.2.Shaped) {t : Ticks}
    (ht : t ∈ layOut rows) : t.Shaped := by
  obtain ⟨n, heq, -⟩ := layOut_eq rows
  rw [heq] at ht
  obtain ⟨i, -, rfl⟩ := List.mem_map.mp ht
  rcases recordOf_cases rows i with hmem | ⟨-, hzero⟩
  · exact h _ hmem
  · rw [hzero]
    exact Ticks.shaped_zero

/-- The records that a watch keeps of the table: those of the first numbers. -/
theorem kept_layOut (rows : List (Int × Ticks)) (k : Nat) :
    (layOut rows).take k ++ TickTable.zero (k - ((layOut rows).take k).length)
      = (List.range k).map (recordOf rows) := by
  obtain ⟨n, heq, hafter⟩ := layOut_eq rows
  rw [heq]
  apply List.ext_getElem
  · simp only [TickTable.zero, List.length_append, List.length_take, List.length_map,
      List.length_range, List.length_replicate]
    omega
  · intro i hi hi'
    have hik : i < k := by simpa using hi'
    simp only [List.getElem_map, List.getElem_range, TickTable.zero]
    rw [List.getElem_append]
    split
    · simp
    next h =>
      have hni : n ≤ i := by
        simp only [List.length_take, List.length_map, List.length_range] at h
        omega
      simp [recordOf_of_not_mem (hafter i hni)]

/-- As many different numbers as processors: the numbers are the first ones just if each of the
first ones is there. -/
theorem no_gap_iff (hnodup : (rows.map Prod.fst).Nodup) (hk : rows.length = k) :
    (∀ r ∈ rows, 0 ≤ r.1 ∧ r.1 < k) ↔ ∀ i < k, (i : Int) ∈ rows.map Prod.fst := by
  have hfirst : ((List.range k).map fun i : Nat => (i : Int)).Nodup :=
    List.nodup_range.map fun _ _ h => Int.ofNat.inj h
  have hlength :
      ((List.range k).map fun i : Nat => (i : Int)).length = (rows.map Prod.fst).length := by
    simp [hk]
  have hmem_first (n : Int) :
      n ∈ ((List.range k).map fun i : Nat => (i : Int)) ↔ 0 ≤ n ∧ n < k := by
    simp only [List.mem_map, List.mem_range]
    constructor
    · rintro ⟨i, hi, rfl⟩
      omega
    · intro h
      exact ⟨n.toNat, by omega, by omega⟩
  constructor
  · intro h i hi
    have hsub : rows.map Prod.fst ⊆ (List.range k).map fun i : Nat => (i : Int) := by
      intro n hn
      obtain ⟨r, hr, rfl⟩ := List.mem_map.mp hn
      exact (hmem_first _).mpr (h r hr)
    have hperm := (List.subperm_of_subset hnodup hsub).perm_of_length_le (Nat.le_of_eq hlength)
    exact hperm.mem_iff.mpr ((hmem_first _).mpr (by omega))
  · intro h r hr
    have hsub : ((List.range k).map fun i : Nat => (i : Int)) ⊆ rows.map Prod.fst := by
      intro n hn
      obtain ⟨i, hi, rfl⟩ := List.mem_map.mp hn
      exact h i (List.mem_range.mp hi)
    have hperm := (List.subperm_of_subset hfirst hsub).perm_of_length_le (Nat.le_of_eq hlength.symm)
    exact (hmem_first _).mp (hperm.mem_iff.mpr (List.mem_map_of_mem hr))

theorem recordOf_listed (hnodup : (rows.map Prod.fst).Nodup) {r : Int × Ticks} (hr : r ∈ rows)
    {i : Nat} (hi : r.1 = i) : recordOf rows i = r.2 := by
  obtain ⟨n, t⟩ := r
  subst hi
  exact recordOf_of_mem hnodup hr

/-- The first `k` records hold data just if one of the first numbers is listed with data. -/
theorem records_not_zero_iff (hnodup : (rows.map Prod.fst).Nodup) (k : Nat) :
    TickTable.isZero ((List.range k).map (recordOf rows)) = false ↔
      ∃ r ∈ rows, 0 ≤ r.1 ∧ r.1 < k ∧ r.2.isZero = false := by
  rw [TickTable.isZero, List.all_eq_false]
  constructor
  · rintro ⟨t, ht, hzero⟩
    obtain ⟨i, hi, rfl⟩ := List.mem_map.mp ht
    have hi := List.mem_range.mp hi
    rcases recordOf_cases rows i with hmem | ⟨-, hnot⟩
    · exact ⟨_, hmem, by omega, by omega, eq_false_of_ne_true hzero⟩
    · rw [hnot] at hzero
      exact absurd rfl hzero
  · rintro ⟨r, hr, h0, hk, hzero⟩
    refine ⟨r.2, ?_, by simp [hzero]⟩
    have hi : r.1 = (r.1.toNat : Int) := by omega
    rw [← recordOf_listed hnodup hr hi]
    exact List.mem_map_of_mem (List.mem_range.mpr (by omega))

/-- A listed record is among the first `k` ones, for `k` listed processors, if it belongs to one of
the first numbers or looks like one that does; a record without data also looks like a gap. -/
theorem mem_records_iff (hnodup : (rows.map Prod.fst).Nodup) (hk : rows.length = k)
    {r : Int × Ticks} (hr : r ∈ rows) :
    r.2 ∈ (List.range k).map (recordOf rows) ↔
      r.2 = Ticks.zero ∨ ∃ q ∈ rows, q.2 = r.2 ∧ 0 ≤ q.1 ∧ q.1 < k := by
  have hfound {q : Int × Ticks} (hq : q ∈ rows) (h0 : 0 ≤ q.1) (hlt : q.1 < k) :
      q.2 ∈ (List.range k).map (recordOf rows) := by
    have hi : q.1 = (q.1.toNat : Int) := by omega
    rw [← recordOf_listed hnodup hq hi]
    exact List.mem_map_of_mem (List.mem_range.mpr (by omega))
  constructor
  · intro h
    obtain ⟨i, hi, hir⟩ := List.mem_map.mp h
    have hi := List.mem_range.mp hi
    rcases recordOf_cases rows i with hmem | ⟨-, hnot⟩
    · exact .inr ⟨_, hmem, hir, by omega, by omega⟩
    · exact .inl (hir.symm.trans hnot)
  · rintro (hzero | ⟨q, hq, hqr, h0, hlt⟩)
    · by_cases hgap : ∀ i < k, (i : Int) ∈ rows.map Prod.fst
      · obtain ⟨h0, hlt⟩ := (no_gap_iff hnodup hk).mpr hgap r hr
        exact hfound hr h0 hlt
      · -- One of the first numbers is not listed, and its record is zero.
        simp only [not_forall] at hgap
        obtain ⟨i, hi, hnot⟩ := hgap
        rw [hzero, ← recordOf_of_not_mem hnot]
        exact List.mem_map_of_mem (List.mem_range.mpr hi)
    · rw [← hqr]
      exact hfound hq h0 hlt

/-- For `k` listed processors, each one's record is at its number among the first `k` ones just if
the numbers have no gap. -/
theorem records_in_place_iff (hnodup : (rows.map Prod.fst).Nodup) (hk : rows.length = k) :
    (∀ r ∈ rows, ∃ i : Nat, r.1 = i ∧ ((List.range k).map (recordOf rows))[i]? = some r.2) ↔
      ∀ i < k, (i : Int) ∈ rows.map Prod.fst := by
  rw [← no_gap_iff hnodup hk]
  constructor
  · intro h r hr
    obtain ⟨i, hi, hget⟩ := h r hr
    have hlt : i < k := by simpa using (List.getElem?_eq_some_iff.mp hget).1
    omega
  · intro h r hr
    obtain ⟨h0, hlt⟩ := h r hr
    have hi : r.1 = (r.1.toNat : Int) := by omega
    have hk' : r.1.toNat < k := by omega
    refine ⟨r.1.toNat, hi, ?_⟩
    rw [List.getElem?_map, List.getElem?_range hk', Option.map_some, recordOf_listed hnodup hr hi]

end Rows

end StatFile

end ProcessorLoad
