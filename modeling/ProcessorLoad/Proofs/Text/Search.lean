import ProcessorLoad.Text.Basic

/-!
# The leftmost occurrence

A search tries what is left of a text, from its start on, until something is found at the head. So
what it finds stands at the leftmost place where anything is found. What stands where is said by a
relation, so the leftmost place is described without the search.
-/

set_option autoImplicit false

namespace ProcessorLoad

namespace Text
variable {α β : Type}

/-- The function looks for something at the head of a text, then of what is left behind its first
character, and so on. -/
structure Searches (search head : Text → Option α) : Prop where
  nil : search [] = none
  head_nil : head [] = none
  cons : ∀ c r, search (c :: r) = (head (c :: r)).orElse fun _ => search r

section Searches
variable {search head : Text → Option α} {t : Text} {x : α}

theorem Searches.eq_none_iff (h : Searches search head) :
    search t = none ↔ ∀ front rest, t = front ++ rest → head rest = none := by
  induction t with
  | nil =>
    refine iff_of_true h.nil fun front rest ht => ?_
    obtain ⟨-, rfl⟩ := List.append_eq_nil_iff.mp ht.symm
    exact h.head_nil
  | cons c r ih =>
    rw [h.cons]
    cases hfirst : head (c :: r) with
    | some y =>
      refine iff_of_false (Option.some_ne_none y) fun hnone => ?_
      rw [hnone [] _ rfl] at hfirst
      cases hfirst
    | none =>
      change search r = none ↔ _
      rw [ih]
      constructor
      · rintro hlater (_ | ⟨a, front⟩) rest ht
        · cases ht
          exact hfirst
        · exact hlater front rest (List.cons.inj ht).2
      · intro hnone front rest ht
        exact hnone (c :: front) rest (congrArg (c :: ·) ht)

theorem Searches.eq_some_iff (h : Searches search head) :
    search t = some x ↔ ∃ front rest, t = front ++ rest ∧ head rest = some x ∧
      ∀ before after, t = before ++ after → head after ≠ none → front.length ≤ before.length := by
  induction t with
  | nil =>
    refine iff_of_false (by simp [h.nil]) ?_
    rintro ⟨front, rest, ht, hhead, -⟩
    obtain ⟨-, rfl⟩ := List.append_eq_nil_iff.mp ht.symm
    rw [h.head_nil] at hhead
    cases hhead
  | cons c r ih =>
    rw [h.cons]
    cases hfirst : head (c :: r) with
    | some y =>
      change some y = some x ↔ _
      constructor
      · rintro ⟨⟩
        exact ⟨[], c :: r, rfl, hfirst, fun _ _ _ _ => Nat.zero_le _⟩
      · rintro ⟨front, rest, ht, hhead, hleast⟩
        have hshort := hleast [] (c :: r) rfl (by simp [hfirst])
        obtain rfl : front = [] := List.eq_nil_of_length_eq_zero (Nat.le_zero.mp hshort)
        cases ht
        rw [← hfirst, hhead]
    | none =>
      change search r = some x ↔ _
      rw [ih]
      constructor
      · rintro ⟨front, rest, rfl, hhead, hleast⟩
        refine ⟨c :: front, rest, rfl, hhead, ?_⟩
        rintro (_ | ⟨a, before⟩) after ht hfound
        · cases ht
          exact absurd hfirst hfound
        · exact Nat.succ_le_succ (hleast before after (List.cons.inj ht).2 hfound)
      · rintro ⟨_ | ⟨a, front⟩, rest, ht, hhead, hleast⟩
        · cases ht
          rw [hfirst] at hhead
          cases hhead
        · obtain ⟨rfl, rfl⟩ := List.cons.inj ht
          refine ⟨front, rest, rfl, hhead, fun before after ht hfound => ?_⟩
          exact Nat.le_of_succ_le_succ (hleast (c :: before) after (congrArg (c :: ·) ht) hfound)

end Searches

/-- What stands at the leftmost place of a text where something stands that `At` relates to the rest
of the text. -/
def Leftmost (At : Text → β → Prop) (t : Text) (y : β) : Prop :=
  ∃ front rest, t = front ++ rest ∧ At rest y ∧
    ∀ before after z, t = before ++ after → At after z → front.length ≤ before.length

/-- The function finds what stands at the head of a text, and gives its value. -/
structure Reads (head : Text → Option α) (At : Text → β → Prop) (value : β → α) : Prop where
  eq_some : ∀ {rest y}, At rest y → head rest = some (value y)
  exists_at : ∀ {rest}, head rest ≠ none → ∃ y, At rest y

section Reads
variable {search head : Text → Option α} {At : Text → β → Prop} {value : β → α}
  {t : Text} {x : α}

theorem Reads.ne_none_iff (h : Reads head At value) : head t ≠ none ↔ ∃ y, At t y := by
  refine ⟨h.exists_at, ?_⟩
  rintro ⟨y, hy⟩
  simp [h.eq_some hy]

theorem Reads.search_eq_none_iff (h : Reads head At value) (hsearch : Searches search head) :
    search t = none ↔ ¬∃ front rest y, t = front ++ rest ∧ At rest y := by
  rw [hsearch.eq_none_iff]
  constructor
  · rintro hnone ⟨front, rest, y, ht, hy⟩
    exact h.ne_none_iff.mpr ⟨y, hy⟩ (hnone front rest ht)
  · intro hnone front rest ht
    cases hhead : head rest with
    | none => rfl
    | some x =>
      obtain ⟨y, hy⟩ := h.exists_at (Option.ne_none_iff_exists'.mpr ⟨x, hhead⟩)
      exact absurd ⟨front, rest, y, ht, hy⟩ hnone

theorem Reads.search_eq_some_iff (h : Reads head At value) (hsearch : Searches search head) :
    search t = some x ↔ ∃ y, Leftmost At t y ∧ value y = x := by
  rw [hsearch.eq_some_iff]
  constructor
  · rintro ⟨front, rest, ht, hhead, hleast⟩
    obtain ⟨y, hy⟩ := h.exists_at (Option.ne_none_iff_exists'.mpr ⟨x, hhead⟩)
    refine ⟨y, ⟨front, rest, ht, hy, ?_⟩, Option.some.inj ((h.eq_some hy).symm.trans hhead)⟩
    intro before after z hsplit hz
    exact hleast before after hsplit (h.ne_none_iff.mpr ⟨z, hz⟩)
  · rintro ⟨y, ⟨front, rest, ht, hy, hleast⟩, rfl⟩
    refine ⟨front, rest, ht, h.eq_some hy, fun before after hsplit hfound => ?_⟩
    obtain ⟨z, hz⟩ := h.exists_at hfound
    exact hleast before after z hsplit hz

end Reads

end Text

end ProcessorLoad
