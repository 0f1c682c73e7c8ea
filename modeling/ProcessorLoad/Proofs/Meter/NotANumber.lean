import ProcessorLoad.Proofs.Meter.OwnLoad

/-!
# When the load of the machine's own is not a number

A later reading that is not a number is passed over, but the first one, from the set-up, is kept as
it is. So a meter answers with what is not a number as long as it has read nothing else.
-/

set_option autoImplicit false

namespace ProcessorLoad

namespace OwnReading

def Numberless (reads : List (Binary64 × Option Binary64)) : Prop :=
  ∀ read ∈ reads, ∀ x, read.2 = some x → x.isNaN = true

def numbers (reads : List (Binary64 × Option Binary64)) : List Binary64 :=
  reads.filterMap fun read => read.2.filter (!·.isNaN)

variable {reads : List (Binary64 × Option Binary64)} {x : Binary64}

theorem not_isNaN_of_mem_numbers (h : x ∈ numbers reads) : x.isNaN = false := by
  obtain ⟨read, -, hx⟩ := List.mem_filterMap.mp h
  simpa using (Option.filter_eq_some_iff.mp hx).2

theorem numbers_eq_nil_iff : numbers reads = [] ↔ Numberless reads := by
  simp [numbers, Numberless, List.filterMap_eq_nil_iff, Option.filter_eq_none_iff]

theorem isNaN_latest_iff (first : OwnReading) :
    (first.latest reads).load.isNaN = true ↔ first.load.isNaN = true ∧ Numberless reads := by
  change ((numbers reads).getLast?.getD first.load).isNaN = true ↔ _
  rw [← numbers_eq_nil_iff]
  cases hlast : (numbers reads).getLast? with
  | none => simp [List.getLast?_eq_none_iff.mp hlast]
  | some x =>
    have hmem := List.mem_of_getLast? hlast
    simp [not_isNaN_of_mem_numbers hmem, List.ne_nil_of_mem hmem]

end OwnReading

theorem Held.load_of_answersOwn {own : OwnReading} {interval x : Binary64} {es : List Event}
    (h : AnswersOwn own interval (.ok (.load x)) es) :
    x = (own.latest (OwnReading.completed es)).load := by
  obtain ⟨now, h⟩ := h
  split at h
  next =>
    obtain ⟨rfl, hanswer⟩ := h
    cases hanswer
    rfl
  next =>
    obtain ⟨answer, rfl, hanswer⟩ := h
    cases answer with
    | error fault => cases hanswer
    | ok answer =>
      cases hanswer
      rfl

namespace Meter

deriving instance DecidableEq for Reply

variable {σ : Type} (m : Machine σ)

/-- The readings of a run and of a further query about the instant load. -/
def readsOf (queries : List Query) (s : Meter σ) : List (Binary64 × Option Binary64) :=
  ownReads ((run m queries s).1 ++ [stepOf m .instant (run m queries s).2])

/-- Over every run of queries. A meter that goes by the machine's own load answers with what is not
a number just if the set-up found nothing better and no reading since then has. -/
theorem instant_isNaN_iff (settings : Settings) (identity : Option Identification) (machine : σ)
    {s : Meter σ} (hsetUp : ((setUp m settings identity).run machine).result = .ok s)
    (hbasis : s.basis = .own) :
    ∃ (first : OwnReading) (fs : List Event),
      setUpEvents m settings identity machine
        = .ownLoad (.ok (some first.load)) :: .clock first.time :: fs ∧
      ∀ (queries : List Query) (x : Binary64),
        (stepOf m .instant (run m queries s).2).result = .ok (.load x) →
        (x.isNaN = true ↔ first.load.isNaN = true ∧
          OwnReading.Numberless (readsOf m queries s)) := by
  have hbegins := begins_setUp m settings identity machine hsetUp
  obtain ⟨first, hown⟩ := exists_own_of_basis hbasis
  obtain ⟨-, fs, hes, -⟩ := hbegins.own_some hown
  refine ⟨first, fs, hes, ?_⟩
  intro queries x hanswer
  have hkeeps := (keepsOwn_run m hown queries).instant
  rw [hanswer] at hkeeps
  rw [Held.load_of_answersOwn hkeeps, readsOf, ownReads_append, ← OwnReading.latest_append,
    OwnReading.isNaN_latest_iff]

/-- Its own load is not a number at first, and a quarter later. -/
def numberLater (n : Nat) : Option Binary64 := if n < 9 then some .nan else some (.quotient 1 4)

def numberlessMeter : Meter Nat := { thirdsMeter with own := some ⟨.nan, .ofNat 1000⟩ }

theorem instant_isNaN_iff_later :
    let m := counting numberLater
    ((setUp m {} none).run 0).result = .ok numberlessMeter ∧ numberlessMeter.basis = .own ∧
      (stepOf m .instant (run m [] numberlessMeter).2).result = .ok (.load .nan) ∧
      OwnReading.Numberless (readsOf m [] numberlessMeter) ∧
      (stepOf m .instant (run m [.instant] numberlessMeter).2).result
        = .ok (.load (.quotient 1 4)) ∧
      ¬OwnReading.Numberless (readsOf m [.instant] numberlessMeter) := by
  intro m
  have hsetUp : ((setUp m {} none).run 0).result = .ok numberlessMeter := by decide +kernel
  have hearly : (stepOf m .instant (run m [] numberlessMeter).2).result = .ok (.load .nan) := by
    decide +kernel
  have hlate : (stepOf m .instant (run m [.instant] numberlessMeter).2).result
      = .ok (.load (.quotient 1 4)) := by
    decide +kernel
  obtain ⟨first, _, hes, hiff⟩ := instant_isNaN_iff m {} none 0 hsetUp rfl
  have hnumberless := (hiff [] .nan hearly).mp rfl
  refine ⟨hsetUp, rfl, hearly, hnumberless.2, hlate, ?_⟩
  intro hnone
  have hnan := (hiff [.instant] (.quotient 1 4) hlate).mpr ⟨hnumberless.1, hnone⟩
  exact absurd hnan (by decide +kernel)

/-- The set-up keeps what is not a number, and the next query answers with it. -/
theorem numberless_probe_answered :
    let m := counting fun _ => some .nan
    ((setUp m {} none).run 0).result = .ok numberlessMeter ∧ numberlessMeter.basis = .own ∧
      (stepOf m .instant numberlessMeter).result = .ok (.load .nan) := by
  decide +kernel

end Meter

end ProcessorLoad
