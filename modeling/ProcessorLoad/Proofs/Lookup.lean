import Mathlib.Data.List.Nodup

/-!
# Looking up a key

In a list of pairs the first one with the key answers. Where the keys are distinct, the order of the
pairs makes no difference.
-/

set_option autoImplicit false

namespace ProcessorLoad

section Lookup
variable {α β : Type} {l m : List (α × β)} {a : α} {b c : β}

theorem eq_of_mem_of_nodup (hl : (l.map Prod.fst).Nodup) (hb : (a, b) ∈ l) (hc : (a, c) ∈ l) :
    b = c :=
  congrArg Prod.snd (List.inj_on_of_nodup_map hl hb hc rfl)

variable [BEq α] [LawfulBEq α]

theorem mem_of_lookup (h : l.lookup a = some b) : (a, b) ∈ l := by
  obtain ⟨front, back, rfl, -⟩ := List.lookup_eq_some_iff.mp h
  exact List.mem_append_right front List.mem_cons_self

theorem lookup_eq_none_iff : l.lookup a = none ↔ a ∉ l.map Prod.fst := by
  rw [List.lookup_eq_none_iff, List.mem_map]
  constructor
  · rintro h ⟨pair, hpair, rfl⟩
    simpa using h pair hpair
  · intro h pair hpair
    rw [bne_iff_ne]
    rintro rfl
    exact h ⟨pair, hpair, rfl⟩

theorem lookup_eq_some_iff (hl : (l.map Prod.fst).Nodup) : l.lookup a = some b ↔ (a, b) ∈ l := by
  constructor
  · exact mem_of_lookup
  · intro h
    cases hlookup : l.lookup a with
    | none => exact absurd (List.mem_map_of_mem h) (lookup_eq_none_iff.mp hlookup)
    | some c => rw [eq_of_mem_of_nodup hl h (mem_of_lookup hlookup)]

theorem lookup_eq_of_perm (h : l.Perm m) (hl : (l.map Prod.fst).Nodup) :
    l.lookup a = m.lookup a := by
  have hm : (m.map Prod.fst).Nodup := (h.map Prod.fst).nodup_iff.mp hl
  apply Option.ext
  intro b
  rw [lookup_eq_some_iff hl, lookup_eq_some_iff hm, h.mem_iff]

end Lookup

end ProcessorLoad
