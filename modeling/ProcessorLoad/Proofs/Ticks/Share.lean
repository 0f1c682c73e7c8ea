import ProcessorLoad.Proofs.Number.Quotient
import ProcessorLoad.Proofs.Ticks.Rollback

/-!
# Loads by the share of work

The load goes by the work and the rest between two readings alone. So it makes no difference from
where and in which unit ticks are counted, and the load does not fall with more work and less rest.
-/

set_option autoImplicit false

namespace ProcessorLoad

namespace Ticks

def shift (t d : Ticks) : Ticks := List.zipWith (· + ·) t d

def scale (t : Ticks) (k : Int) : Ticks := t.map (k * ·)

/-- The share of work in some ticks, 0 if there are none. -/
def shareOf (work rest : Nat) : Binary64 :=
  if work + rest = 0 then 0 else .quotient work (work + rest)

section Kinds
variable {s t d : Ticks} (p : TickKind → Bool)

theorem sum_shift (kinds : List TickKind) (h : t.length = d.length) :
    (List.zipWith (fun k n => if p k then n else 0) kinds (t.shift d)).sum
      = (List.zipWith (fun k n => if p k then n else 0) kinds t).sum
        + (List.zipWith (fun k n => if p k then n else 0) kinds d).sum := by
  induction kinds generalizing t d with
  | nil => rfl
  | cons k kinds ih =>
    match t, d, h with
    | [], [], _ => rfl
    | n :: t, e :: d, h =>
      have hrest := ih (Nat.succ.inj h)
      simp only [shift, List.zipWith_cons_cons, List.sum_cons] at hrest ⊢
      rw [hrest]
      cases p k with
      | false => simp
      | true =>
        simp only [if_true]
        omega

theorem sum_scale (kinds : List TickKind) (t : Ticks) (k : Int) :
    (List.zipWith (fun k n => if p k then n else 0) kinds (t.scale k)).sum
      = k * (List.zipWith (fun k n => if p k then n else 0) kinds t).sum := by
  induction kinds generalizing t with
  | nil => simp
  | cons kind kinds ih =>
    cases t with
    | nil => simp [scale]
    | cons n t =>
      have hrest := ih t
      simp only [scale, List.map_cons, List.zipWith_cons_cons, List.sum_cons] at hrest ⊢
      rw [hrest, Int.mul_add]
      cases p kind <;> simp

theorem sum_le (kinds : List TickKind) (h : List.Forall₂ (· ≤ ·) s t) :
    (List.zipWith (fun k n => if p k then n else 0) kinds s).sum
      ≤ (List.zipWith (fun k n => if p k then n else 0) kinds t).sum := by
  induction h generalizing kinds with
  | nil => exact Int.le_refl _
  | cons hle _ ih =>
    cases kinds with
    | nil => exact Int.le_refl _
    | cons k kinds =>
      have hrest := ih kinds
      simp only [List.zipWith_cons_cons, List.sum_cons]
      cases p k
      · simpa using hrest
      · exact Int.add_le_add hle hrest

end Kinds

section Shaped
variable {s t u v d : Ticks} {k : Int}

theorem Shaped.shift (ht : t.Shaped) (hd : d.Shaped) : (t.shift d).Shaped := by
  unfold Shaped at ht hd ⊢
  rw [Ticks.shift, List.length_zipWith, ht, hd, Nat.min_self]

theorem Shaped.scale (ht : t.Shaped) (k : Int) : (t.scale k).Shaped := by
  unfold Shaped at ht ⊢
  rw [Ticks.scale, List.length_map, ht]

theorem Shaped.load_congr (hs : s.Shaped) (ht : t.Shaped) (hu : u.Shaped) (hv : v.Shaped)
    (hwork : worked s t = worked u v) (hrest : rested s t = rested u v) : load s t = load u v := by
  rw [hs.load_eq ht, hu.load_eq hv, hs.elapsed_eq ht, hu.elapsed_eq hv, hwork, hrest]

theorem Shaped.load_shift (hs : s.Shaped) (ht : t.Shaped) (hd : d.Shaped) :
    load (s.shift d) (t.shift d) = load s t := by
  have hkinds (p : TickKind → Bool) :
      (t.shift d).ofKinds p - (s.shift d).ofKinds p = t.ofKinds p - s.ofKinds p := by
    simp only [ofKinds]
    rw [sum_shift p _ (hs.trans hd.symm), sum_shift p _ (ht.trans hd.symm)]
    omega
  exact (hs.shift hd).load_congr (ht.shift hd) hs ht (hkinds _) (hkinds _)

theorem share_mul_mul (part : Int) (whole : Nat) {k : Nat} (hk : 0 < k) :
    share (k * part) (k * whole) = share part whole := by
  simp only [share, Binary64.quotient_mul_mul part whole hk]

theorem Shaped.load_scale (hs : s.Shaped) (ht : t.Shaped) (hk : 1 ≤ k) :
    load (s.scale k) (t.scale k) = load s t := by
  have hpos : 0 < k := by omega
  have hkinds (p : TickKind → Bool) :
      (t.scale k).ofKinds p - (s.scale k).ofKinds p = k * (t.ofKinds p - s.ofKinds p) := by
    simp only [ofKinds]
    rw [sum_scale, sum_scale, Int.mul_sub]
  have hwork : worked (s.scale k) (t.scale k) = k * worked s t := hkinds _
  have hrest : rested (s.scale k) (t.scale k) = k * rested s t := hkinds _
  have helapsed : elapsed (s.scale k) (t.scale k) = k * elapsed s t := by
    rw [(hs.scale k).elapsed_eq (ht.scale k), hs.elapsed_eq ht, hwork, hrest, Int.mul_add]
  -- The guard looks at signs only, and a positive factor changes none.
  have hguard : 0 < k * elapsed s t ∧ 0 ≤ k * rested s t ↔ 0 < elapsed s t ∧ 0 ≤ rested s t := by
    have helapsed : k * 0 < k * elapsed s t ↔ 0 < elapsed s t := Int.mul_lt_mul_left hpos
    have hrest : k * 0 ≤ k * rested s t ↔ 0 ≤ rested s t := Int.mul_le_mul_left hpos
    rw [Int.mul_zero] at helapsed hrest
    rw [helapsed, hrest]
  rw [(hs.scale k).load_eq (ht.scale k), hs.load_eq ht, helapsed, hwork, hrest]
  simp only [hguard]
  split
  next h =>
    obtain ⟨n, rfl⟩ := Int.eq_ofNat_of_zero_le (Int.le_of_lt hpos)
    obtain ⟨e, he⟩ := Int.eq_ofNat_of_zero_le (Int.le_of_lt h.1)
    rw [he, ← Int.natCast_mul, Int.toNat_natCast, Int.toNat_natCast]
    exact share_mul_mul _ _ (Int.natCast_pos.mp hpos)
  next => rfl

end Shaped

section Order
variable {s t u v : Ticks} {work rest work' rest' : Nat}

theorem shareOf_zero_left (rest : Nat) : shareOf 0 rest = 0 := by
  unfold shareOf
  split
  next => rfl
  next h => exact Binary64.quotient_zero (by omega)

theorem shareOf_zero_right (h : 0 < work) : shareOf work 0 = 1 := by
  rw [shareOf, if_neg (by omega), Nat.add_zero]
  exact Binary64.quotient_self h

theorem inUnit_shareOf (work rest : Nat) : (shareOf work rest).InUnit := by
  unfold shareOf
  split
  next => exact Binary64.inUnit_zero
  next h => exact Binary64.inUnit_quotient (by omega) (Nat.le_add_right work rest)

theorem shareOf_le_shareOf (hwork : work ≤ work') (hrest : rest' ≤ rest) :
    (shareOf work rest).le (shareOf work' rest') = true := by
  rcases Nat.eq_zero_or_pos work with rfl | hpos
  · rw [shareOf_zero_left]
    exact (inUnit_shareOf work' rest').1
  · rw [shareOf, shareOf, if_neg (by omega), if_neg (by omega)]
    apply Binary64.quotient_le_quotient (by omega) (by omega)
    have hcross : work * rest' ≤ work' * rest := Nat.mul_le_mul hwork hrest
    calc work * (work' + rest') = work * work' + work * rest' := Nat.mul_add ..
      _ ≤ work * work' + work' * rest := Nat.add_le_add_left hcross _
      _ = work' * (work + rest) := by ring

/-- Where neither work nor rest ran back, the load is the share of work. -/
theorem Shaped.load_eq_shareOf (hs : s.Shaped) (ht : t.Shaped) (hwork : worked s t = work)
    (hrest : rested s t = rest) : load s t = .ok (shareOf work rest) := by
  have helapsed : elapsed s t = (work + rest : Nat) := by
    rw [hs.elapsed_eq ht, hwork, hrest, Int.natCast_add]
  rw [hs.load_eq ht, helapsed, hwork, hrest, shareOf]
  split
  next h =>
    have hfinite := Binary64.isFinite_quotient (by omega) (Nat.le_add_right work rest)
    rw [if_neg (by omega), Int.toNat_natCast, share, if_pos hfinite]
  next h => rw [if_pos (by omega)]

theorem ofKinds_le (p : TickKind → Bool) (h : List.Forall₂ (· ≤ ·) s t) :
    s.ofKinds p ≤ t.ofKinds p := sum_le p TickKind.all h

/-- Loads do not depend on where and in which unit ticks are counted. Between counters that only
grow, more work and less rest give no smaller load, from 0 without work to 1 without rest. -/
theorem load_by_share :
    (∀ s t d : Ticks, s.Shaped → t.Shaped → d.Shaped → load (s.shift d) (t.shift d) = load s t) ∧
      (∀ (s t : Ticks) (k : Int), s.Shaped → t.Shaped → 1 ≤ k →
        load (s.scale k) (t.scale k) = load s t) ∧
      ∀ s t u v : Ticks, s.Shaped → t.Shaped → u.Shaped → v.Shaped →
        List.Forall₂ (· ≤ ·) s t → List.Forall₂ (· ≤ ·) u v →
        worked s t ≤ worked u v → rested u v ≤ rested s t →
        ∃ x y, load s t = .ok x ∧ load u v = .ok y ∧ x.le y = true ∧
          (worked s t = 0 → x = 0) ∧ (0 < worked u v → rested u v = 0 → y = 1) := by
  refine ⟨fun s t d hs ht hd => hs.load_shift ht hd, fun s t k hs ht hk => hs.load_scale ht hk, ?_⟩
  intro s t u v hs ht hu hv hst huv hwork hrest
  have hworked := ofKinds_le (!·.isIdle) hst
  have hrested := ofKinds_le (·.isIdle) huv
  obtain ⟨work, hw⟩ := Int.eq_ofNat_of_zero_le (Int.sub_nonneg.mpr hworked)
  obtain ⟨rest', hr'⟩ := Int.eq_ofNat_of_zero_le (Int.sub_nonneg.mpr hrested)
  change worked s t = work at hw
  change rested u v = rest' at hr'
  obtain ⟨work', hw'⟩ := Int.eq_ofNat_of_zero_le (a := worked u v) (by omega)
  obtain ⟨rest, hr⟩ := Int.eq_ofNat_of_zero_le (a := rested s t) (by omega)
  refine ⟨_, _, hs.load_eq_shareOf ht hw hr, hu.load_eq_shareOf hv hw' hr', ?_, ?_, ?_⟩
  · exact shareOf_le_shareOf (by omega) (by omega)
  · intro hnone
    obtain rfl : work = 0 := by omega
    exact shareOf_zero_left rest
  · intro hsome hnone
    obtain rfl : rest' = 0 := by omega
    exact shareOf_zero_right (by omega)

/-- The ticks are moved and refined, and a third of work becomes a half. -/
theorem load_by_share_half :
    let s : Ticks := [5, 0, 1, 7, 2, 0, 0]
    let t : Ticks := [6, 0, 2, 9, 4, 0, 0]
    let d : Ticks := [-9, 3, 0, 0, 40, 0, 1]
    let u : Ticks := [0, 0, 0, 0, 0, 0, 0]
    let v : Ticks := [1, 0, 0, 2, 0, 0, 1]
    load (s.shift d) (t.shift d) = load s t ∧ load (u.scale 10) (v.scale 10) = load u v ∧
      worked s t ≤ worked u v ∧ rested u v ≤ rested s t ∧
      ∃ x y, load s t = .ok x ∧ load u v = .ok y ∧ x.le y = true := by
  intro s t d u v
  obtain ⟨hshift, hscale, horder⟩ := load_by_share
  have hwork : worked s t ≤ worked u v := by decide
  have hrest : rested u v ≤ rested s t := by decide
  obtain ⟨x, y, hx, hy, hle, -⟩ :=
    horder s t u v rfl rfl rfl rfl (by decide) (by decide) hwork hrest
  exact ⟨hshift s t d rfl rfl rfl, hscale u v 10 rfl rfl (by decide), hwork, hrest, x, y, hx,
    hy, hle⟩

end Order

end Ticks

end ProcessorLoad
