import ProcessorLoad.Machine.CpuTimes
import ProcessorLoad.Proofs.Result
import ProcessorLoad.Proofs.Ticks.Shape

/-!
# When times become ticks

Ticks come out of an answer whose times are all finite in milliseconds, and out of a failure that is
absorbed. Any other answer or failure is passed on as a fault.
-/

set_option autoImplicit false

namespace ProcessorLoad

/-- The faults of what has no nearest whole number. -/
def Fault.IsOfTime (fault : Fault) : Prop := fault = .wholeOfNaN ∨ fault = .wholeOfInfinity

theorem Binary64.round_of_isFinite {x : Binary64} (h : x.isFinite = true) :
    ∃ n, x.round = .ok n := by
  cases x with
  | nan => cases h
  | infinity negative => cases h
  | finite negative size => exact ⟨_, rfl⟩

theorem Binary64.fault_of_round {x : Binary64} {fault : Fault} (h : x.round = .error fault) :
    fault.IsOfTime := by
  cases x with
  | nan =>
    cases h
    exact .inl rfl
  | infinity negative =>
    cases h
    exact .inr rfl
  | finite negative size => cases h

theorem Binary64.round_of_not_isFinite {x : Binary64} (h : x.isFinite = false) :
    ∃ fault, x.round = .error fault := by
  cases x with
  | nan => exact ⟨_, rfl⟩
  | infinity negative => exact ⟨_, rfl⟩
  | finite negative size => cases h

theorem TickKind.mem_all (k : TickKind) : k ∈ all := by cases k <;> simp [all]

namespace CpuTimes
variable {σ α β : Type}

def Convertible (times : CpuTimes) : Prop := ∀ k, (times.seconds k * 1000).isFinite = true

section Ticks
variable {times : CpuTimes} {table : List CpuTimes} {fault : Fault}

theorem Convertible.ticks (h : times.Convertible) : Succeeds times.ticks Ticks.Shaped := by
  have hkinds : ∀ k ∈ TickKind.all, Succeeds (times.milliseconds k) fun _ => True := by
    intro k _
    rcases Binary64.round_of_isFinite (h k) with ⟨n, hn⟩
    exact ⟨n, hn, trivial⟩
  apply (Succeeds.mapM hkinds).mono
  intro t ht
  exact ht.1

theorem fault_of_ticks (h : times.ticks = .error fault) : fault.IsOfTime := by
  rcases mem_of_mapM_error h with ⟨k, -, hk⟩
  exact Binary64.fault_of_round hk

theorem ticks_of_not_convertible (h : ¬times.Convertible) :
    ∃ fault, times.ticks = .error fault ∧ fault.IsOfTime := by
  rw [Convertible, not_forall] at h
  rcases h with ⟨k, hk⟩
  have hround : ∃ fault, times.milliseconds k = .error fault :=
    Binary64.round_of_not_isFinite (eq_false_of_ne_true hk)
  rcases mapM_error_iff.mpr ⟨k, k.mem_all, hround⟩ with ⟨fault, hfault⟩
  exact ⟨fault, hfault, fault_of_ticks hfault⟩

theorem ticks_of_table (h : ∀ times ∈ table, times.Convertible) :
    Succeeds (table.mapM CpuTimes.ticks) fun rows => ∀ t ∈ rows, t.Shaped := by
  apply (Succeeds.mapM fun times htimes => (h times htimes).ticks).mono
  intro rows hrows
  exact hrows.2

theorem ticks_of_not_table (h : ¬∀ times ∈ table, times.Convertible) :
    ∃ fault, table.mapM CpuTimes.ticks = .error fault ∧ fault.IsOfTime := by
  simp only [not_forall] at h
  rcases h with ⟨times, hmem, htimes⟩
  rcases ticks_of_not_convertible htimes with ⟨fault, hticks, -⟩
  rcases mapM_error_iff.mpr ⟨times, hmem, fault, hticks⟩ with ⟨first, hfirst⟩
  rcases mem_of_mapM_error hfirst with ⟨row, -, hrow⟩
  exact ⟨first, hfirst, fault_of_ticks hrow⟩

end Ticks

/-- How a conversion ends, by how the question to the statistics ended. -/
inductive Conversion (f : α → Except Fault β) (empty : β) :
    Outcome σ α → Outcome σ β → Prop where
  | answered (a : α) (s : σ) (log : List LogLevel) :
      Conversion f empty ⟨.ok a, s, log⟩ ⟨f a, s, log⟩
  | absorbed {fault : Fault} (h : fault.isFailure isAbsorbed = true) (s : σ) (log : List LogLevel) :
      Conversion f empty ⟨.error fault, s, log⟩ ⟨.ok empty, s, log ++ [.error]⟩
  | passed {fault : Fault} (h : fault.isFailure isAbsorbed = false) (s : σ) (log : List LogLevel) :
      Conversion f empty ⟨.error fault, s, log⟩ ⟨.error fault, s, log⟩

theorem conversion_convert (ask : Action σ α) (f : α → Except Fault β) (empty : β) (s : σ) :
    Conversion f empty (ask.run s) ((convert ask f empty).run s) := by
  generalize ho : ask.run s = o
  rcases o with ⟨result, t, log⟩
  have hattempt : ask.attempt.run s = ⟨.ok result, t, log⟩ := by
    change (⟨.ok (ask.run s).result, (ask.run s).state, (ask.run s).log⟩ : Outcome σ _) = _
    rw [ho]
  rw [convert, Action.run_bind_ok hattempt]
  rcases result with fault | a
  · cases fault with
    | machine failure message =>
      have hkind : (Fault.machine failure message).isFailure isAbsorbed = isAbsorbed failure := rfl
      dsimp only
      split
      next h => exact .absorbed (hkind.trans h) t log
      next h =>
        have hpassed := hkind.trans (eq_false_of_ne_true h)
        simpa [Action.fail, Action.ofExcept, Action.run] using Conversion.passed hpassed t log
    | _ => simpa [Action.fail, Action.ofExcept, Action.run] using Conversion.passed rfl t log
  · simpa [Action.ofExcept, Action.run] using Conversion.answered a t log

/-- The question ended with an answer that can be used, or with a fault that counts as no data. -/
def Usable (fine : α → Prop) : Except Fault α → Prop
  | .ok a => fine a
  | .error fault => fault.isFailure isAbsorbed = true

/-- The ticks come out if and only if the question ended usably. Without data they are the empty
ones, and one error is logged. Otherwise the fault is that of the statistics, or of a time. -/
structure Reads (fine : α → Prop) (shaped : β → Prop) (empty : β) (asked : Outcome σ α)
    (read : Outcome σ β) : Prop where
  succeeds_iff : Succeeds read.result shaped ↔ Usable fine asked.result
  absorbed : ∀ fault, asked.result = .error fault → fault.isFailure isAbsorbed = true →
    read = ⟨.ok empty, asked.state, asked.log ++ [.error]⟩
  passed : ¬Usable fine asked.result →
    ∃ fault, read.result = .error fault ∧ (asked.result = .error fault ∨ fault.IsOfTime)

theorem Conversion.reads {f : α → Except Fault β} {empty : β} {fine : α → Prop} {shaped : β → Prop}
    {asked : Outcome σ α} {read : Outcome σ β} (h : Conversion f empty asked read)
    (hempty : shaped empty) (hfine : ∀ a, fine a → Succeeds (f a) shaped)
    (hnot : ∀ a, ¬fine a → ∃ fault, f a = .error fault ∧ fault.IsOfTime) :
    Reads fine shaped empty asked read := by
  cases h with
  | answered a s log =>
    refine ⟨⟨?_, hfine a⟩, nofun, ?_⟩
    · rintro ⟨b, hb, -⟩
      by_contra hbad
      rcases hnot a hbad with ⟨fault, hfault, -⟩
      cases hb.symm.trans hfault
    · intro hbad
      rcases hnot a hbad with ⟨fault, hfault, htime⟩
      exact ⟨fault, hfault, .inr htime⟩
  | absorbed h s log =>
    refine ⟨⟨fun _ => h, fun _ => ⟨empty, rfl, hempty⟩⟩, ?_, fun hbad => absurd h hbad⟩
    intro fault _ _
    rfl
  | @passed fault h s log =>
    refine ⟨⟨?_, ?_⟩, ?_, fun _ => ⟨fault, rfl, .inl rfl⟩⟩
    · rintro ⟨b, hb, -⟩
      cases hb
    · intro husable
      cases h.symm.trans husable
    · intro other hother habsorbed
      cases hother
      cases h.symm.trans habsorbed

/-- The total and the table are read from whatever the statistics answer, and however they fail, if
the times convert and the failure is absorbed, and not otherwise. -/
theorem read_iff_usable (total : Action σ CpuTimes) (table : Action σ (List CpuTimes)) (s : σ) :
    Reads Convertible Ticks.Shaped Ticks.zero (total.run s) ((totalTicks total).run s) ∧
      Reads (fun rows => ∀ times ∈ rows, times.Convertible) (fun rows => ∀ t ∈ rows, t.Shaped) []
        (table.run s) ((tickTable table).run s) := by
  constructor
  · apply (conversion_convert total ticks Ticks.zero s).reads Ticks.shaped_zero
    · intro times
      exact Convertible.ticks
    · intro times
      exact ticks_of_not_convertible
  · apply (conversion_convert table _ [] s).reads nofun
    · intro rows
      exact ticks_of_table
    · intro rows
      exact ticks_of_not_table

/-- Statistics that the machine does not offer, and a time that is not a number. -/
theorem unusable_not_absorbed :
    let unsupported : Fault := .machine .unsupported "boom".toList
    let undefined : CpuTimes := [("user".toList, .nan)]
    ((totalTicks (Action.fail unsupported : Action Unit CpuTimes)).run ()).result
      = .error unsupported ∧
      ((tickTable (Action.fail unsupported : Action Unit (List CpuTimes))).run ()).result
        = .error unsupported ∧
      ((totalTicks (pure undefined : Action Unit CpuTimes)).run ()).result = .error .wholeOfNaN ∧
      ((tickTable (pure [undefined] : Action Unit (List CpuTimes))).run ()).result
        = .error .wholeOfNaN := by
  intro unsupported undefined
  exact ⟨rfl, rfl, rfl, rfl⟩

end CpuTimes

end ProcessorLoad
