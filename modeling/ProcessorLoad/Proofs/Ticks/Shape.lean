import ProcessorLoad.Proofs.Result
import ProcessorLoad.Ticks.Watch

/-!
# The shape of readings

A fitted reading has an entry for each kind of time, and a fitted table a record for each processor.
What is fitted already stays as it is.
-/

set_option autoImplicit false

namespace ProcessorLoad

namespace Ticks

def Shaped (t : Ticks) : Prop := t.length = TickKind.count

theorem shaped_fit (t : Ticks) : t.fit.Shaped := length_fit t

theorem shaped_zero : zero.Shaped := rfl

theorem Shaped.fit_eq {t : Ticks} (h : t.Shaped) : t.fit = t := by
  have hlength : t.length = TickKind.count := h
  simp [fit, ← hlength]

end Ticks

namespace TickTable

/-- A table of `rows` records that are all as asked. -/
structure Full (rows : Nat) (P : Ticks → Prop) (table : TickTable) : Prop where
  length_eq : table.length = rows
  row : ∀ t ∈ table, P t

theorem full_zero {P : Ticks → Prop} (rows : Nat) (hzero : P Ticks.zero) :
    (zero rows).Full rows P := by
  refine ⟨List.length_replicate, ?_⟩
  intro t ht
  rw [List.eq_of_mem_replicate ht]
  exact hzero

theorem full_append_zero {rows : Nat} {P : Ticks → Prop} {kept : TickTable}
    (hle : kept.length ≤ rows) (hkept : ∀ t ∈ kept, P t) (hzero : P Ticks.zero) :
    Full rows P (kept ++ zero (rows - kept.length)) := by
  have hrest := full_zero (rows - kept.length) hzero
  refine ⟨?_, ?_⟩
  · rw [List.length_append, hrest.length_eq]
    omega
  · intro t ht
    rcases List.mem_append.mp ht with ht | ht
    · exact hkept t ht
    · exact hrest.row t ht

theorem length_loads {s t : TickTable} {xs : List Binary64} (h : loads s t = .ok xs) :
    xs.length = min s.length t.length := by
  rw [(mem_of_mapM_ok h).1, List.length_zip]

end TickTable

namespace TickWatch

theorem shaped_ticksOf {counters : List Counter} {t : Ticks} (h : ticksOf counters = .ok t) :
    t.Shaped := by
  obtain ⟨whole, -, h⟩ := ok_of_bind h
  cases h
  exact Ticks.shaped_fit whole

theorem full_tableOf {rows : Nat} {table : List (List Counter)} {t : TickTable}
    (h : tableOf rows table = .ok t) : t.Full rows Ticks.Shaped := by
  obtain ⟨kept, hkept, h⟩ := ok_of_bind h
  cases h
  obtain ⟨hlength, hmem⟩ := mem_of_mapM_ok hkept
  apply TickTable.full_append_zero
  · exact hlength ▸ List.length_take_le rows table
  · intro u hu
    obtain ⟨counters, -, hcounters⟩ := hmem u hu
    exact shaped_ticksOf hcounters
  · exact Ticks.shaped_zero

theorem ticksOf_ofTicks {t : Ticks} (h : t.Shaped) : ticksOf (Counter.ofTicks t) = .ok t := by
  have hmap : (Counter.ofTicks t).mapM Counter.truncate = .ok (t.map id) :=
    mapM_map_ok fun _ _ => rfl
  have hlength : (Counter.ofTicks t).length = TickKind.count := by
    rw [Counter.ofTicks, List.length_map]
    exact h
  rw [ticksOf, ← hlength, List.take_length, hmap, List.map_id]
  exact congrArg Except.ok h.fit_eq

theorem tableOf_ofTicks (rows : Nat) {table : TickTable} (h : ∀ t ∈ table, t.Shaped) :
    tableOf rows (table.map Counter.ofTicks)
      = .ok (table.take rows ++ TickTable.zero (rows - (table.take rows).length)) := by
  have hmap : ((table.take rows).map Counter.ofTicks).mapM ticksOf
      = .ok ((table.take rows).map id) :=
    mapM_map_ok fun t ht => ticksOf_ofTicks (h t (List.mem_of_mem_take ht))
  rw [tableOf, ← List.map_take, hmap, List.map_id]
  rfl

end TickWatch

end ProcessorLoad
