import ProcessorLoad.Proofs.Ticks.Growth
import ProcessorLoad.Proofs.Watch.Shape

/-!
# Loads of readings of the right shape

No record is too short for the loads between two readings of the right shape, whatever the counters
are. There is a load for each processor, from the two records that stand at its place.
-/

set_option autoImplicit false

namespace ProcessorLoad

namespace Ticks
variable {s t : Ticks} {fault : Fault}

theorem Shaped.exists_idle (h : t.Shaped) : ∃ i, t.idle = .ok i := by
  match t, h with
  | [_, _, _, d, e, _, _], _ => exact ⟨d + e, rfl⟩

theorem share_fault {part : Int} {whole : Nat} (h : share part whole = .error fault) :
    fault = .quotientOverflow := by
  unfold share at h
  dsimp only at h
  split at h
  · cases h
  · cases h
    rfl

theorem Shaped.load_fault (hs : s.Shaped) (ht : t.Shaped) (h : load s t = .error fault) :
    fault = .quotientOverflow := by
  obtain ⟨i, hi⟩ := hs.exists_idle
  obtain ⟨j, hj⟩ := ht.exists_idle
  rw [load_of_idle hi hj] at h
  split at h
  · exact share_fault h
  · cases h

end Ticks

theorem TickTable.Full.loads_fault {rows : Nat} {s t : TickTable} {fault : Fault}
    (hs : s.Full rows Ticks.Shaped) (ht : t.Full rows Ticks.Shaped)
    (h : TickTable.loads s t = .error fault) : fault = .quotientOverflow := by
  obtain ⟨⟨before, after⟩, hmem, hload⟩ := mem_of_mapM_error h
  obtain ⟨hbefore, hafter⟩ := List.of_mem_zip hmem
  exact (hs.row before hbefore).load_fault (ht.row after hafter) hload

namespace TickPair

/-- A load for each of `processors` processors, from the records that stand at its place in the two
readings of a pair. -/
structure Measures (p : TickPair TickTable) (processors : Int) (xs : List Binary64) : Prop where
  length_eq : (xs.length : Int) = processors
  load_eq : ∀ (i : Nat) (x : Binary64), xs[i]? = some x → ∃ before after,
    p.previous[i]? = some before ∧ p.current[i]? = some after ∧ Ticks.load before after = .ok x

theorem measures_of_loads {rows : Nat} {p : TickPair TickTable} {xs : List Binary64}
    (hp : p.All (TickTable.Full rows Ticks.Shaped)) (h : p.loads = .ok xs) :
    p.Measures rows xs where
  length_eq := by
    rw [TickTable.length_loads h, hp.1.length_eq, hp.2.length_eq, Nat.min_self]
  load_eq i x hx := by
    obtain ⟨⟨before, after⟩, hmem, hload⟩ := getElem?_of_mapM_ok h hx
    obtain ⟨hbefore, hafter⟩ := List.getElem?_zip_eq_some.mp hmem
    exact ⟨before, after, hbefore, hafter, hload⟩

end TickPair

end ProcessorLoad
