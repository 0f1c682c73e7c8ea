import Mathlib.Data.List.Forall2
import ProcessorLoad.Proofs.Number.Nearest
import ProcessorLoad.Proofs.Ticks.Shape

/-!
# Loads between growing counters

Where no counter runs backwards, the load between two readings exists and is a number from 0 to 1. A
reading that is all zero may follow any other one: its load is 0.
-/

set_option autoImplicit false

namespace ProcessorLoad

namespace Ticks

structure Counts (t : Ticks) : Prop where
  shaped : t.Shaped
  nonneg : ∀ n ∈ t, 0 ≤ n

/-- No counter runs backwards, unless the later record holds no data. -/
def GrowsTo (s t : Ticks) : Prop := t.isZero = true ∨ List.Forall₂ (· ≤ ·) s t

instance (s t : Ticks) : Decidable (s.GrowsTo t) := inferInstanceAs (Decidable (_ ∨ _))

theorem GrowsTo.refl (t : Ticks) : t.GrowsTo t := .inr (List.forall₂_refl t)

theorem isZero_iff {t : Ticks} : t.isZero = true ↔ ∀ n ∈ t, n = 0 := by simp [isZero]

theorem Counts.entries {t : Ticks} (h : t.Counts) :
    ∃ a b c d e f g : Int, t = [a, b, c, d, e, f, g] ∧
    0 ≤ a ∧ 0 ≤ b ∧ 0 ≤ c ∧ 0 ≤ d ∧ 0 ≤ e ∧ 0 ≤ f ∧ 0 ≤ g := by
  obtain ⟨hlength, hnonneg⟩ := h
  match t, hlength, hnonneg with
  | [a, b, c, d, e, f, g], _, hnonneg =>
    refine ⟨a, b, c, d, e, f, g, rfl, ?_⟩
    simpa using hnonneg

theorem share_inUnit {part whole : Int} (hwhole : 0 < whole) (hpart : 0 ≤ part)
    (hle : part ≤ whole) : Succeeds (share part whole.toNat) Binary64.InUnit := by
  obtain ⟨p, rfl⟩ := Int.eq_ofNat_of_zero_le hpart
  have hpos : 0 < whole.toNat := by omega
  have hle : p ≤ whole.toNat := by omega
  rw [share, if_pos (Binary64.isFinite_quotient hpos hle)]
  exact ⟨_, rfl, Binary64.inUnit_quotient hpos hle⟩

theorem load_of_idle {s t : Ticks} {i j : Int} (hs : s.idle = .ok i) (ht : t.idle = .ok j) :
    load s t = if 0 < elapsed s t ∧ 0 ≤ j - i then
      share (elapsed s t - (j - i)) (elapsed s t).toNat else .ok 0 := by
  rw [load, hs, ht]
  rfl

/-- The load is in range if the time without work is no longer than all the time that went by. -/
theorem load_inUnit_of_idle {s t : Ticks} {i j : Int} (hs : s.idle = .ok i) (ht : t.idle = .ok j)
    (h : 0 < elapsed s t → j - i ≤ elapsed s t) : Succeeds (load s t) Binary64.InUnit := by
  rw [load_of_idle hs ht]
  split
  next hpos => exact share_inUnit hpos.1 (Int.sub_nonneg.mpr (h hpos.1)) (by omega)
  next => exact ⟨0, rfl, Binary64.inUnit_zero⟩

theorem GrowsTo.load_inUnit {s t : Ticks} (hs : s.Counts) (ht : t.Counts) (h : s.GrowsTo t) :
    Succeeds (load s t) Binary64.InUnit := by
  obtain ⟨a, b, c, d, e, f, g, rfl, ha, hb, hc, hd, he, hf, hg⟩ := hs.entries
  obtain ⟨a', b', c', d', e', f', g', rfl, -⟩ := ht.entries
  apply load_inUnit_of_idle (i := d + e) (j := d' + e') rfl rfl
  change 0 < a' - a + (b' - b + (c' - c + (d' - d + (e' - e + (f' - f + (g' - g + 0)))))) →
    _ ≤ a' - a + (b' - b + (c' - c + (d' - d + (e' - e + (f' - f + (g' - g + 0))))))
  rcases h with hzero | hle
  · -- From counts to zeros no time goes by.
    rw [isZero_iff] at hzero
    simp only [List.mem_cons, List.not_mem_nil, or_false, forall_eq_or_imp, forall_eq] at hzero
    omega
  · simp only [List.forall₂_cons, List.forall₂_nil_left_iff, and_true] at hle
    omega

end Ticks

namespace TickTable

def GrowsTo (s t : TickTable) : Prop := List.Forall₂ Ticks.GrowsTo s t

instance (s t : TickTable) : Decidable (s.GrowsTo t) :=
  inferInstanceAs (Decidable (List.Forall₂ _ _ _))

theorem GrowsTo.refl (t : TickTable) : t.GrowsTo t := by
  rw [GrowsTo, List.forall₂_same]
  exact fun t _ => Ticks.GrowsTo.refl t

theorem GrowsTo.loads_inUnit {rows : Nat} {s t : TickTable} (hs : s.Full rows Ticks.Counts)
    (ht : t.Full rows Ticks.Counts) (h : s.GrowsTo t) :
    Succeeds (loads s t) fun xs => xs.length = rows ∧ ∀ x ∈ xs, x.InUnit := by
  have hrow : ∀ p ∈ s.zip t, Succeeds (Ticks.load p.1 p.2) Binary64.InUnit := by
    rintro ⟨u, v⟩ hmem
    have hgrow : u.GrowsTo v := (List.forall₂_iff_zip.mp h).2 hmem
    obtain ⟨hu, hv⟩ := List.of_mem_zip hmem
    exact hgrow.load_inUnit (hs.row u hu) (ht.row v hv)
  apply (Succeeds.mapM hrow).mono
  rintro xs ⟨hlength, hxs⟩
  refine ⟨?_, hxs⟩
  rw [hlength, List.length_zip, hs.length_eq, ht.length_eq, Nat.min_self]

end TickTable

def Counter.isCount : Counter → Bool
  | whole n => decide (0 ≤ n)
  | real _ => false

theorem Counter.truncate_isCount {c : Counter} (h : c.isCount = true) :
    Succeeds c.truncate (0 ≤ ·) := by
  cases c with
  | whole n => exact ⟨n, rfl, of_decide_eq_true h⟩
  | real x => cases h

namespace TickWatch

theorem counts_fit {t : Ticks} (h : ∀ n ∈ t, 0 ≤ n) : (Ticks.fit t).Counts := by
  refine ⟨Ticks.shaped_fit t, ?_⟩
  intro n hn
  rcases List.mem_append.mp hn with hn | hn
  · exact h n (List.mem_of_mem_take hn)
  · exact Int.le_of_eq (List.eq_of_mem_replicate hn).symm

theorem counts_ticksOf {counters : List Counter} (h : counters.all Counter.isCount = true) :
    Succeeds (ticksOf counters) Ticks.Counts := by
  have htruncate : ∀ c ∈ counters.take TickKind.count, Succeeds c.truncate (0 ≤ ·) :=
    fun c hc => Counter.truncate_isCount (List.all_eq_true.mp h c (List.mem_of_mem_take hc))
  exact (Succeeds.mapM htruncate).map fun t ht => counts_fit ht.2

theorem counts_zero : Ticks.zero.Counts := counts_fit (t := []) nofun

theorem counts_tableOf {rows : Nat} {table : List (List Counter)}
    (h : table.all (·.all Counter.isCount) = true) :
    Succeeds (tableOf rows table) (TickTable.Full rows Ticks.Counts) := by
  have hrow : ∀ counters ∈ table.take rows, Succeeds (ticksOf counters) Ticks.Counts :=
    fun counters hc => counts_ticksOf (List.all_eq_true.mp h counters (List.mem_of_mem_take hc))
  apply (Succeeds.mapM hrow).bind
  rintro kept ⟨hlength, hkept⟩
  have hle : kept.length ≤ rows := hlength ▸ List.length_take_le rows table
  exact ⟨_, rfl, TickTable.full_append_zero hle hkept counts_zero⟩

end TickWatch

end ProcessorLoad
