import ProcessorLoad.Proofs.Number.Quotient
import ProcessorLoad.Proofs.Number.WholePart
import ProcessorLoad.Screen.Gauge

/-!
# Bars of fixed width

A bar has twenty cells whatever load it shows, the filled ones first. How many they are can be read
off the text, in every colour, and a larger load never fills fewer: rounding the product, dropping
its fraction and holding it between none and all each keep the order.
-/

set_option autoImplicit false

namespace ProcessorLoad.Gauge

/-- The text is a bar of twenty cells, the given number of them filled in the colour and then empty
ones. -/
structure IsBar (color : Text) (filled : Nat) (text : Text) : Prop where
  filled_le : filled ≤ 20
  text_eq : text =
    (List.replicate filled ("[".toList ++ color ++ "]█[/".toList ++ color ++ "]".toList) ++
      List.replicate (20 - filled) "[dim]░[/dim]".toList).flatten

section Cells
variable {full empty : Text} {color text : Text} {j k n : Nat}

theorem eq_of_flatten_replicate (hn : 0 < n)
    (h : (List.replicate n full).flatten = (List.replicate n empty).flatten) : full = empty := by
  have hlength : n * full.length = n * empty.length := by
    simpa [List.length_flatten] using congrArg List.length h
  obtain ⟨m, rfl⟩ := Nat.exists_eq_succ_of_ne_zero (Nat.ne_of_gt hn)
  rw [List.replicate_succ, List.replicate_succ, List.flatten_cons, List.flatten_cons] at h
  exact (List.append_inj h (Nat.eq_of_mul_eq_mul_left hn hlength)).1

/-- With more cells of the one kind in front the text is another one. -/
theorem le_of_flatten_eq (hne : full ≠ empty) (hk : k ≤ n)
    (h : (List.replicate j full ++ List.replicate (n - j) empty).flatten
      = (List.replicate k full ++ List.replicate (n - k) empty).flatten) : k ≤ j := by
  apply Nat.not_lt.mp
  intro hlt
  -- What is left between the common front and the common back is filled on one side only.
  have hfront : List.replicate k full = List.replicate j full ++ List.replicate (k - j) full := by
    rw [List.replicate_append_replicate, Nat.add_sub_cancel' (Nat.le_of_lt hlt)]
  have hback : List.replicate (n - j) empty
      = List.replicate (k - j) empty ++ List.replicate (n - k) empty := by
    rw [List.replicate_append_replicate]
    congr 1
    omega
  rw [hfront, hback, List.append_assoc, List.flatten_append, List.flatten_append,
    List.flatten_append, List.flatten_append] at h
  have hbetween := List.append_cancel_right (List.append_cancel_left h)
  exact hne (eq_of_flatten_replicate (by omega) hbetween.symm)

/-- A filled cell is no empty one, even in a colour of the name dim. -/
theorem filled_ne_empty (color : Text) :
    "[".toList ++ color ++ "]█[/".toList ++ color ++ "]".toList ≠ "[dim]░[/dim]".toList := by
  intro h
  have hfilled : '█' ∈ "[".toList ++ color ++ "]█[/".toList ++ color ++ "]".toList := by simp
  have hempty : '█' ∉ "[dim]░[/dim]".toList := by decide
  exact hempty (h ▸ hfilled)

theorem IsBar.unique (hj : IsBar color j text) (hk : IsBar color k text) : j = k := by
  have hcells := hj.text_eq.symm.trans hk.text_eq
  have hne := filled_ne_empty color
  exact Nat.le_antisymm (le_of_flatten_eq hne hj.filled_le hcells.symm)
    (le_of_flatten_eq hne hk.filled_le hcells)

theorem filledCell_eq (color : Text) :
    filledCell color = "[".toList ++ color ++ "]█[/".toList ++ color ++ "]".toList := by
  simp [filledCell]

theorem isBar_barOf (color : Text) (h : n ≤ width) : IsBar color n (barOf color n) := by
  refine ⟨h, ?_⟩
  rw [barOf, filledCell_eq]
  rfl

end Cells

section Bar
variable {load more : Binary64} {cells : Int} {color : Text}

theorem filledCells_of_truncatesTo (h : (load * 20).TruncatesTo cells) :
    filledCells load = .ok (max 0 (min cells 20)).toNat := by
  have htruncate : (load * .ofNat width).truncate = .ok cells := Binary64.truncate_eq_ok_iff.mpr h
  have hclamp : min (max cells 0) (width : Int) = max 0 (min cells 20) := by
    rw [width]
    omega
  rw [filledCells, htruncate, ← hclamp]
  rfl

theorem exists_isBar (h : (load * 20).TruncatesTo cells) (color : Text) :
    ∃ text, bar load color = .ok text ∧ IsBar color (max 0 (min cells 20)).toNat text := by
  refine ⟨_, ?_, isBar_barOf color ?_⟩
  · rw [bar, filledCells_of_truncatesTo h]
    rfl
  · rw [width]
    omega

theorem exists_bar_iff : (∃ text, bar load color = .ok text) ↔ (load * 20).isFinite = true := by
  constructor
  · -- Without a whole part to clamp there is no number of cells.
    rintro ⟨text, htext⟩
    cases hproduct : (load * .ofNat width).truncate with
    | error fault =>
      rw [bar, filledCells, hproduct] at htext
      cases htext
    | ok cells => exact (Binary64.truncate_eq_ok_iff.mp hproduct).1
  · intro h
    obtain ⟨cells, hcells⟩ := Binary64.exists_truncatesTo h
    obtain ⟨text, htext, -⟩ := exists_isBar hcells color
    exact ⟨text, htext⟩

theorem truncatesTo_le {fewer : Int} (hle : load.le more = true) (h : (load * 20).TruncatesTo fewer)
    (hmore : (more * 20).TruncatesTo cells) : fewer ≤ cells := by
  have hfinite : (20 : Binary64).isFinite = true := by decide +kernel
  have hpos : (0 : Binary64).le 20 = true := by decide +kernel
  have hproduct : (load * 20).le (more * 20) = true :=
    Binary64.mul_le_mul (Binary64.isFinite_of_mul h.1)
      (Binary64.isFinite_of_mul hmore.1) hfinite hpos hle
  exact h.le hmore hproduct

/-- A load whose product with twenty is finite has a bar of twenty cells in every colour. As many
are filled as the product has wholes, none if it is below zero and all if it is above twenty, and
the text says how many they are. The bar of a load that is as large or larger has as many filled
cells or more, in whatever colour. -/
theorem bar_follows_load (h : (load * 20).isFinite = true) (color : Text) :
    ∃ (cells : Int) (filled : Nat) (text : Text), (load * 20).TruncatesTo cells ∧
      (filled : Int) = max 0 (min cells 20) ∧ bar load color = .ok text ∧ IsBar color filled text ∧
      (∀ n, IsBar color n text → n = filled) ∧
      ∀ more other, (more * 20).isFinite = true → load.le more = true →
        ∃ (filled' : Nat) (text' : Text), bar more other = .ok text' ∧ IsBar other filled' text' ∧
          filled ≤ filled' := by
  obtain ⟨cells, hcells⟩ := Binary64.exists_truncatesTo h
  obtain ⟨text, htext, hbar⟩ := exists_isBar hcells color
  refine ⟨cells, _, text, hcells, by omega, htext, hbar, fun n hn => hn.unique hbar, ?_⟩
  intro more other hmore hle
  obtain ⟨cells', hcells'⟩ := Binary64.exists_truncatesTo hmore
  obtain ⟨text', htext', hbar'⟩ := exists_isBar hcells' other
  refine ⟨_, text', htext', hbar', ?_⟩
  have horder := truncatesTo_le hle hcells hcells'
  omega

/-- The double nearest to 0.15 is below it, and its product with twenty is rounded up to 3. The
product of the larger load is 30. -/
theorem bar_follows_load_rounded_up :
    let load : Binary64 := .ofDecimal false 15 2 (-2)
    let more : Binary64 := .ofDecimal false 15 2 (-1)
    (load * 20).isFinite = true ∧ (more * 20).isFinite = true ∧ load.le more = true ∧
      ∃ text text' filled, bar load green = .ok text ∧ IsBar green 3 text ∧
        bar more cyan = .ok text' ∧ IsBar cyan filled text' ∧ 3 ≤ filled := by
  intro load more
  have hfinite : (load * 20).isFinite = true := by decide +kernel
  have hmore : (more * 20).isFinite = true := by decide +kernel
  have hle : load.le more = true := by decide +kernel
  obtain ⟨cells, filled, text, hcells, hfilled, htext, hbar, -, horder⟩ :=
    bar_follows_load hfinite green
  have hthree : (load * 20).truncate = .ok 3 := by decide +kernel
  obtain rfl : 3 = cells :=
    Except.ok.inj (hthree.symm.trans (Binary64.truncate_eq_ok_iff.mpr hcells))
  obtain rfl : filled = 3 := by omega
  obtain ⟨filled', text', htext', hbar', hless⟩ := horder more cyan hmore hle
  exact ⟨hfinite, hmore, hle, text, text', filled', htext, hbar, htext', hbar', hless⟩

end Bar

end ProcessorLoad.Gauge
