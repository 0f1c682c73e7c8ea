import Mathlib.Order.MinMax

/-!
# The latest one that counts

A screen keeps what the latest of its updates that had something to show put there, and it grows to
the longest list that it was ever given. Both are said here of any list of updates, the newest one
last.
-/

set_option autoImplicit false

namespace ProcessorLoad

section Latest
variable {α : Type} {p : α → Prop} {l : List α} {x y : α}

/-- The last item of the list that has the property. -/
def Latest (p : α → Prop) (l : List α) (x : α) : Prop :=
  ∃ front back, l = front ++ x :: back ∧ p x ∧ ∀ y ∈ back, ¬p y

theorem latest_append_of_pos (h : p x) : Latest p (l ++ [x]) x := ⟨l, [], rfl, h, nofun⟩

theorem Latest.append_of_neg (h : Latest p l x) (hy : ¬p y) : Latest p (l ++ [y]) x := by
  obtain ⟨front, back, rfl, hx, hback⟩ := h
  refine ⟨front, back ++ [y], by simp, hx, ?_⟩
  exact List.forall_mem_append.mpr ⟨hback, List.forall_mem_singleton.mpr hy⟩

theorem eq_of_cons_eq_append {front back : List α} (h : x :: l = front ++ y :: back) (hy : p y)
    (hl : ∀ z ∈ l, ¬p z) : x = y := by
  cases front with
  | nil => exact (List.cons.inj h).1
  | cons z front =>
    have hmem : y ∈ l := by
      rw [(List.cons.inj h).2]
      exact List.mem_append_right front List.mem_cons_self
    exact absurd hy (hl y hmem)

theorem Latest.eq (hx : Latest p l x) (hy : Latest p l y) : x = y := by
  obtain ⟨front, back, rfl, hpx, hback⟩ := hx
  obtain ⟨front', back', hsplit, hpy, hback'⟩ := hy
  rcases List.append_eq_append_iff.mp hsplit with ⟨between, -, hrest⟩ | ⟨between, -, hrest⟩
  · exact eq_of_cons_eq_append hrest hpy hback
  · exact (eq_of_cons_eq_append hrest hpx hback').symm

end Latest

section Longest
variable {α : Type} {ls more : List (List α)} {l : List α} {i n : Nat}

/-- The largest length of the lists, 0 if there are none. -/
def longest (ls : List (List α)) : Nat := (ls.map List.length).foldl max 0

theorem lt_foldl_max_iff {lengths : List Nat} :
    i < lengths.foldl max n ↔ i < n ∨ ∃ k ∈ lengths, i < k := by
  induction lengths generalizing n with
  | nil => simp
  | cons k lengths ih =>
    simp only [List.foldl_cons, ih, lt_max_iff, or_assoc, List.mem_cons, exists_eq_or_imp]

theorem lt_longest_iff : i < longest ls ↔ ∃ l ∈ ls, i < l.length := by
  simp only [longest, lt_foldl_max_iff, Nat.not_lt_zero, false_or, List.mem_map,
    exists_exists_and_eq_and]

theorem length_le_longest (h : l ∈ ls) : l.length ≤ longest ls := by
  apply le_of_forall_lt
  intro i hi
  exact lt_longest_iff.mpr ⟨l, h, hi⟩

theorem exists_length_eq_longest (h : ls ≠ []) : ∃ l ∈ ls, l.length = longest ls := by
  rcases Nat.eq_zero_or_pos (longest ls) with hzero | hpos
  · obtain ⟨l, hl⟩ := List.exists_mem_of_ne_nil ls h
    have hle := length_le_longest hl
    exact ⟨l, hl, by omega⟩
  · obtain ⟨l, hl, hlong⟩ := lt_longest_iff.mp (Nat.sub_one_lt (Nat.ne_of_gt hpos))
    have hle := length_le_longest hl
    exact ⟨l, hl, by omega⟩

theorem longest_append (ls more : List (List α)) :
    longest (ls ++ more) = max (longest ls) (longest more) := by
  refine eq_of_forall_lt_iff fun i => ?_
  simp only [lt_max_iff, lt_longest_iff, List.mem_append, or_and_right, exists_or]

theorem longest_singleton (l : List α) : longest [l] = l.length := Nat.zero_max l.length

end Longest

end ProcessorLoad
