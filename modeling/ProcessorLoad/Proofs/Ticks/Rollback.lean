import ProcessorLoad.Proofs.Number.Limits
import ProcessorLoad.Proofs.Watch.Loads

/-!
# Loads between counters that ran back

Where time went by, the load is the share of the ticks that were work. Idle time that ran backwards
makes it 0; work that ran backwards does not, and then the load is below zero, or no double is wide
enough for it. These are the only loads outside the range from 0 to 1.
-/

set_option autoImplicit false

namespace ProcessorLoad

def TickKind.isIdle : TickKind → Bool
  | idle | iowait => true
  | _ => false

namespace Ticks

def ofKinds (p : TickKind → Bool) (t : Ticks) : Int :=
  (List.zipWith (fun k n => if p k then n else 0) TickKind.all t).sum

def worked (s t : Ticks) : Int := t.ofKinds (!·.isIdle) - s.ofKinds (!·.isIdle)

def rested (s t : Ticks) : Int := t.ofKinds (·.isIdle) - s.ofKinds (·.isIdle)

/-- Work ran back while time went by, and by more than what a double takes for zero: half the
smallest one. -/
structure RunsBack (s t : Ticks) : Prop where
  elapsed_pos : 0 < elapsed s t
  seen : elapsed s t < twoPow 1075 * -worked s t

theorem sum_split (p : TickKind → Bool) {kinds : List TickKind} {t : Ticks}
    (h : t.length = kinds.length) :
    (List.zipWith (fun k n => if !p k then n else 0) kinds t).sum
      + (List.zipWith (fun k n => if p k then n else 0) kinds t).sum = t.sum := by
  induction kinds generalizing t with
  | nil =>
    rw [List.eq_nil_of_length_eq_zero h]
    rfl
  | cons k kinds ih =>
    cases t with
    | nil => cases h
    | cons n t =>
      simp only [List.zipWith_cons_cons, List.sum_cons, ← ih (Nat.succ.inj h)]
      cases p k <;> simp <;> omega

theorem elapsed_eq_sum {s t : Ticks} (h : s.length = t.length) : elapsed s t = t.sum - s.sum := by
  induction s generalizing t with
  | nil =>
    rw [List.eq_nil_of_length_eq_zero h.symm]
    rfl
  | cons before s ih =>
    cases t with
    | nil => cases h
    | cons after t =>
      change after - before + elapsed s t = _
      rw [ih (Nat.succ.inj h), List.sum_cons, List.sum_cons]
      omega

section Shaped
variable {s t : Ticks}

theorem Shaped.idle_eq (h : t.Shaped) : t.idle = .ok (t.ofKinds (·.isIdle)) := by
  match t, h with
  | [_, _, _, d, e, _, _], _ =>
    change Except.ok (d + e) = .ok (0 + (0 + (0 + (d + (e + (0 + (0 + 0)))))))
    congr 1
    omega

theorem Shaped.elapsed_eq (hs : s.Shaped) (ht : t.Shaped) :
    elapsed s t = worked s t + rested s t := by
  have hbefore := sum_split (·.isIdle) hs
  have hafter := sum_split (·.isIdle) ht
  rw [elapsed_eq_sum (hs.trans ht.symm), ← hbefore, ← hafter, worked, rested]
  simp only [ofKinds]
  omega

theorem Shaped.load_eq (hs : s.Shaped) (ht : t.Shaped) :
    load s t = if 0 < elapsed s t ∧ 0 ≤ rested s t then share (worked s t) (elapsed s t).toNat
      else .ok 0 := by
  have hwork : elapsed s t - rested s t = worked s t := by
    rw [hs.elapsed_eq ht, Int.add_sub_cancel]
  rw [load_of_idle hs.idle_eq ht.idle_eq, ← hwork, rested]

/-- Work that did not run back keeps the load in range, whatever else did. -/
theorem Shaped.load_inUnit_of_worked (hs : s.Shaped) (ht : t.Shaped) (h : 0 ≤ worked s t) :
    Succeeds (load s t) Binary64.InUnit := by
  have helapsed := hs.elapsed_eq ht
  rw [hs.load_eq ht]
  split
  next hpos => exact share_inUnit hpos.1 h (by omega)
  next => exact ⟨0, rfl, Binary64.inUnit_zero⟩

end Shaped

section Share
variable {lost whole : Nat}

/-- What overflows is not taken for zero. -/
theorem seen_of_limit (hwhole : 0 < whole) (h : quotientLimit * whole ≤ lost) :
    whole < twoPow 1075 * lost := by
  have hle : whole ≤ quotientLimit * whole := Nat.le_mul_of_pos_left whole quotientLimit_pos
  have htwo : 2 * lost ≤ twoPow 1075 * lost := Nat.mul_le_mul_right lost (by decide +kernel)
  omega

/-- The share of lost work has three outcomes: zero, a number below zero, and no number. -/
theorem share_lost (hlost : 0 < lost) (hwhole : 0 < whole) :
    (Succeeds (share (-lost) whole) Binary64.InUnit ↔ ¬ whole < twoPow 1075 * lost) ∧
      (Succeeds (share (-lost) whole) (fun x => x.lt 0 = true) ↔
        whole < twoPow 1075 * lost ∧ lost < quotientLimit * whole) ∧
      (share (-lost) whole = .error .quotientOverflow ↔
        whole < twoPow 1075 * lost ∧ quotientLimit * whole ≤ lost) := by
  have hneg : -(lost : Int) < 0 := by omega
  have hsize : (-(lost : Int)).natAbs = lost := by omega
  have hlimit : (Binary64.quotient (-(lost : Int)) whole).isFinite = true ↔ _ :=
    Binary64.isFinite_quotient_iff hwhole
  rw [hsize] at hlimit
  by_cases hfinite : (Binary64.quotient (-(lost : Int)) whole).isFinite = true
  · have hzero := Binary64.inUnit_quotient_of_neg_iff hneg hwhole hfinite
    have hbelow := Binary64.quotient_lt_zero_iff hneg hwhole hfinite
    have hlt := hlimit.mp hfinite
    rw [hsize] at hzero hbelow
    rw [share, if_pos hfinite]
    simp [Succeeds, hzero, hbelow, hlt]
  · have hle : quotientLimit * whole ≤ lost := Nat.not_lt.mp fun hlt => hfinite (hlimit.mpr hlt)
    have hseen := seen_of_limit hwhole hle
    rw [share, if_neg hfinite]
    simp [Succeeds, hseen, hle]

end Share

section Back
variable {s t : Ticks}

theorem runsBack_iff {lost whole : Nat} (hwork : worked s t = -lost)
    (helapsed : elapsed s t = whole)
    (hwhole : 0 < whole) : s.RunsBack t ↔ whole < twoPow 1075 * lost := by
  have hseen : elapsed s t < twoPow 1075 * -worked s t ↔ whole < twoPow 1075 * lost := by
    rw [hwork, helapsed, Int.neg_neg, ← Int.natCast_mul, Int.ofNat_lt]
  constructor
  · exact fun h => hseen.mp h.seen
  · exact fun h => ⟨by omega, hseen.mpr h⟩

theorem RunsBack.lost (h : s.RunsBack t) : worked s t < 0 := by
  have hprod : 0 < twoPow 1075 * -worked s t := Int.lt_trans h.elapsed_pos h.seen
  have hwork := Int.pos_of_mul_pos_right hprod (Int.natCast_pos.mpr (twoPow_pos 1075))
  omega

theorem Shaped.load_cases (hs : s.Shaped) (ht : t.Shaped) :
    (Succeeds (load s t) Binary64.InUnit ∧ ¬ s.RunsBack t) ∨
      ∃ lost whole : Nat, 0 < lost ∧ 0 < whole ∧ worked s t = -lost ∧ elapsed s t = whole ∧
        load s t = share (-lost) whole := by
  by_cases hwork : 0 ≤ worked s t
  · refine .inl ⟨hs.load_inUnit_of_worked ht hwork, fun h => ?_⟩
    have hlost := h.lost
    omega
  by_cases hpos : 0 < elapsed s t
  · have helapsed := hs.elapsed_eq ht
    refine .inr
      ⟨(worked s t).natAbs, (elapsed s t).toNat, by omega, by omega, by omega, by omega, ?_⟩
    rw [hs.load_eq ht, if_pos (by omega)]
    congr 1
    omega
  · refine .inl ⟨?_, fun h => hpos h.elapsed_pos⟩
    rw [hs.load_eq ht, if_neg fun hboth => hpos hboth.1]
    exact ⟨0, rfl, Binary64.inUnit_zero⟩

/-- The load of two records is in range just if work did not run back. If it did, the load is below
zero, or the quotient is beyond every double. -/
theorem load_inUnit_iff_not_runsBack (hs : s.Shaped) (ht : t.Shaped) :
    (Succeeds (load s t) Binary64.InUnit ↔ ¬ s.RunsBack t) ∧
      (Succeeds (load s t) (fun x => x.lt 0 = true) ↔
        s.RunsBack t ∧ -worked s t < quotientLimit * elapsed s t) ∧
      (load s t = .error .quotientOverflow ↔
        s.RunsBack t ∧ quotientLimit * elapsed s t ≤ -worked s t) := by
  rcases hs.load_cases ht with ⟨⟨x, hx, hunit⟩, hback⟩ | hlost
  · rw [hx]
    refine ⟨⟨fun _ => hback, fun _ => ⟨x, rfl, hunit⟩⟩, ⟨?_, fun h => absurd h.1 hback⟩,
      ⟨nofun, fun h => absurd h.1 hback⟩⟩
    rintro ⟨y, hy, hlt⟩
    cases hy
    exact absurd hlt hunit.not_lt_zero
  · obtain ⟨lost, whole, hlost, hwhole, hwork, helapsed, hload⟩ := hlost
    have hlimit : -worked s t < quotientLimit * elapsed s t ↔ lost < quotientLimit * whole := by
      rw [hwork, helapsed, Int.neg_neg, ← Int.natCast_mul, Int.ofNat_lt]
    rw [hload, ← Int.not_lt, hlimit, Nat.not_lt, runsBack_iff hwork helapsed hwhole]
    exact share_lost hlost hwhole

/-- Fifty ticks of work are lost, and the idle time makes up for more than that. -/
theorem load_inUnit_iff_not_runsBack_fifty :
    let s : Ticks := [100, 0, 0, 0, 0, 0, 0]
    let t : Ticks := [50, 0, 0, 100, 0, 0, 0]
    s.Shaped ∧ t.Shaped ∧ s.RunsBack t ∧ ¬ Succeeds (load s t) Binary64.InUnit ∧
      Succeeds (load s t) (fun x => x.lt 0 = true) := by
  intro s t
  have hback : s.RunsBack t := ⟨by decide +kernel, by decide +kernel⟩
  have hlimit : -worked s t < quotientLimit * elapsed s t := by decide +kernel
  obtain ⟨hunit, hbelow, -⟩ := load_inUnit_iff_not_runsBack (s := s) (t := t) rfl rfl
  exact ⟨rfl, rfl, hback, fun h => hunit.mp h hback, hbelow.mpr ⟨hback, hlimit⟩⟩

/-- Counters that only work ran back on: one load is -1, and one quotient is beyond every double. -/
theorem load_of_counts_outside_unit :
    let s : Ticks := [100, 0, 0, 0, 0, 0, 0]
    let t : Ticks := [50, 0, 0, 100, 0, 0, 0]
    let u : Ticks := [tenPow 400, 0, 0, 0, 0, 0, 0]
    let v : Ticks := [0, 0, 0, tenPow 400 + 1, 0, 0, 0]
    (s.Counts ∧ t.Counts ∧ load s t = .ok (-1) ∧ ¬ Succeeds (load s t) Binary64.InUnit) ∧
      (u.Counts ∧ v.Counts ∧ load u v = .error .quotientOverflow) := by
  intro s t u v
  have hload : load s t = .ok (-1) := by decide +kernel
  have hout : ¬ (-1 : Binary64).InUnit := fun h => absurd h.1 (by decide +kernel)
  refine ⟨⟨⟨rfl, by decide⟩, ⟨rfl, by decide⟩, hload, ?_⟩, ?_⟩
  · rintro ⟨x, hx, hunit⟩
    rw [hload] at hx
    exact hout (Except.ok.inj hx ▸ hunit)
  · exact ⟨⟨rfl, by decide +kernel⟩, ⟨rfl, by decide +kernel⟩, by decide +kernel⟩

end Back

end Ticks

end ProcessorLoad
