import ProcessorLoad.Proofs.Frequency.Reading
import ProcessorLoad.Proofs.Identification.Reading

/-!
# The frequency in a name

The rated frequency of a processor is what stands behind the first `@ ` of its name that reaches to
the end of the name. It is answered for every name, apart from those in which it is too large for a
double.
-/

set_option autoImplicit false

namespace ProcessorLoad

namespace Identification
variable {name t : Text}

/-- The text starts with `@ `, behind which stands `t` up to the end, or up to a line feed that ends
it. -/
def EndsRated (text t : Text) : Prop :=
  ∃ ending, text = '@' :: ' ' :: (t ++ ending) ∧ '\n' ∉ t ∧ (ending = [] ∨ ending = ['\n'])

/-- A name that ends in `@ ` and `t`, from the first place on at which it ends so. -/
def Rated (name t : Text) : Prop := Text.Leftmost EndsRated name t

theorem reads_ratedAtHead? : Text.Reads ratedAtHead? EndsRated id where
  eq_some := by
    rintro _ t ⟨ending, rfl, hline, hending⟩
    have hkept : ∀ c ∈ t, decide (c ≠ '\n') = true := by
      intro c hc
      apply decide_eq_true
      rintro rfl
      exact hline hc
    have hstop : ending.dropWhile (· ≠ '\n') = ending ∧ ending.takeWhile (· ≠ '\n') = [] := by
      rcases hending with rfl | rfl <;> decide
    rw [ratedAtHead?, List.dropWhile_append_of_pos hkept, List.takeWhile_append_of_pos hkept,
      hstop.1, hstop.2, List.append_nil, if_pos hending, id]
  exists_at := by
    intro text h
    unfold ratedAtHead? at h
    split at h
    next r =>
      dsimp only at h
      split at h
      next hending =>
        refine ⟨r.takeWhile (· ≠ '\n'), r.dropWhile (· ≠ '\n'), ?_, ?_, hending⟩
        · rw [List.takeWhile_append_dropWhile]
        · intro hline
          have hkept := List.mem_takeWhile_imp hline
          simp at hkept
      next => exact absurd rfl h
    next => exact absurd rfl h

theorem searches_rated? : Text.Searches rated? ratedAtHead? := ⟨rfl, rfl, fun _ _ => rfl⟩

theorem rated?_eq_some_iff : rated? name = some t ↔ Rated name t := by
  rw [reads_ratedAtHead?.search_eq_some_iff searches_rated?]
  constructor
  · rintro ⟨t, ht, rfl⟩
    exact ht
  · intro ht
    exact ⟨t, ht, rfl⟩

/-- No frequency is known yet, and the one in the name is too large for a double. -/
def Unreadable (i : Identification) : Prop :=
  i.vendorFrequency = none ∧ ∃ t, Rated i.nameText t ∧ Frequency.Overlarge (Text.strip t)

theorem frequency_of_unreadable {i : Identification} (h : i.Unreadable) :
    i.frequency = .error .wholeOfInfinity := by
  obtain ⟨hunset, t, hrated, hoverlarge⟩ := h
  rw [frequency, hunset, rated?_eq_some_iff.mpr hrated]
  exact Frequency.read_of_overlarge hoverlarge

theorem frequency_of_not_unreadable {i : Identification} (h : ¬i.Unreadable) :
    ∃ n, i.frequency = .ok n := by
  rw [frequency]
  cases hset : i.vendorFrequency with
  | some n => exact ⟨n, rfl⟩
  | none =>
    cases hrated : rated? i.nameText with
    | none => exact ⟨-1, rfl⟩
    | some t =>
      have hsmall : ¬Frequency.Overlarge (Text.strip t) := fun hoverlarge =>
        h ⟨hset, t, rated?_eq_some_iff.mp hrated, hoverlarge⟩
      obtain ⟨n, hn, -⟩ := Frequency.exists_read_iff.mpr hsmall
      exact ⟨n, hn⟩

theorem result_readVendorFrequency (i : Identification) :
    (readVendorFrequency.run i).result = i.frequency :=
  (settles_vendorFrequency i (.refl i)).1

/-- A text is answered just if the first frequency in it is not too large, with that frequency
rounded, and by minus one just if there is none in it. So the frequency of a processor is answered
just if the one in the name is not too large. -/
theorem frequency_answered_iff (t : Text) (i : Identification) :
    (((∃ n, Frequency.read t = .ok n ∧ -1 ≤ n) ↔ ¬Frequency.Overlarge (Text.strip t)) ∧
      (Frequency.read t = .error .wholeOfInfinity ↔ Frequency.Overlarge (Text.strip t)) ∧
      (Frequency.read t = .ok (-1) ↔ ¬Frequency.Named (Text.strip t)) ∧
      ∀ n, Frequency.read t = .ok n ↔
        (∃ s : Frequency.Spelling, s.Leads (Text.strip t) ∧ s.hertz.RoundsTo n) ∨
          n = -1 ∧ ¬Frequency.Named (Text.strip t)) ∧
    ((∃ n, (readVendorFrequency.run i).result = .ok n) ↔ ¬i.Unreadable) ∧
    ((readVendorFrequency.run i).result = .error .wholeOfInfinity ↔ i.Unreadable) := by
  constructor
  · exact ⟨Frequency.exists_read_iff, Frequency.read_eq_error_iff, Frequency.read_eq_neg_one_iff,
      fun _ => Frequency.read_eq_ok_iff_roundsTo⟩
  · rw [result_readVendorFrequency]
    by_cases h : i.Unreadable
    · rw [frequency_of_unreadable h]
      exact ⟨iff_of_false (by simp) (not_not_intro h), iff_of_true rfl h⟩
    · obtain ⟨n, hn⟩ := frequency_of_not_unreadable h
      rw [hn]
      exact ⟨iff_of_true ⟨n, rfl⟩ h, iff_of_false (by simp) h⟩

theorem long_numeral_unanswered :
    let t : Text := '1' :: (List.replicate 309 '0' ++ "Hz".toList)
    let i : Identification := { name := some ("Unit @ ".toList ++ t) }
    ¬(∃ n, Frequency.read t = .ok n ∧ -1 ≤ n) ∧ Frequency.read t = .error .wholeOfInfinity ∧
      (readVendorFrequency.run i).result = .error .wholeOfInfinity := by
  intro t i
  have hread : Frequency.read t = .error .wholeOfInfinity := by decide +kernel
  have hname : (readVendorFrequency.run i).result = .error .wholeOfInfinity := by decide +kernel
  refine ⟨?_, hread, hname⟩
  rintro ⟨n, hn, -⟩
  rw [hread] at hn
  cases hn

end Identification

end ProcessorLoad
