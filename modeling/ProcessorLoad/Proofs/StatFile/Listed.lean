import ProcessorLoad.Machine.Script
import ProcessorLoad.Proofs.StatFile.Layout
import ProcessorLoad.Proofs.Watch.Shape

/-!
# Which listed processors a watch keeps

A watch on the file of processor statistics, for as many processors as the file lists. It keeps the
records of the first numbers, so a gap in the numbers pushes the last processors out of its table.
-/

set_option autoImplicit false

namespace ProcessorLoad

namespace TickWatch
variable (load : LoadOrigin) (counts : CountOrigin)

def recordsOf (s : TickWatch Script) : TickTable :=
  (List.range s.rows).map (StatFile.recordOf (StatFile.listed s.machine.statFile))

theorem fetchTable_statFile (s : TickWatch Script) :
    (fetchTable (Script.machine .statFile load counts)).Ends s fun r t =>
      r = .ok s.recordsOf ∧ t = s := by
  have hread : (onMachine (Script.machine .statFile load counts).tickTable).Ends s fun r t =>
      r = .ok ((StatFile.layOut (StatFile.listed s.machine.statFile)).map Counter.ofTicks) ∧
        t = s :=
    ⟨rfl, rfl⟩
  apply hread.bind
  · rintro _ t ⟨⟨⟩, rfl⟩
    refine ⟨?_, rfl⟩
    have hshaped : ∀ u ∈ StatFile.layOut (StatFile.listed t.machine.statFile), u.Shaped :=
      fun u => StatFile.shaped_layOut fun r => StatFile.shaped_listed
    exact (tableOf_ofTicks t.rows hshaped).trans (congrArg Except.ok (StatFile.kept_layOut _ _))
  · rintro fault t ⟨h, -⟩
    cases h

theorem readTable_statFile (s : TickWatch Script) :
    (readTable (Script.machine .statFile load counts)).Ends s fun r t =>
      r = .ok (!s.recordsOf.isZero) ∧ t.rows = s.rows ∧
        (r = .ok true → t.processors.previous = s.processors.current ∧
          t.processors.current = s.recordsOf) := by
  apply (fetchTable_statFile load counts s).bind
  · rintro _ t ⟨⟨⟩, rfl⟩
    cases hzero : t.recordsOf.isZero with
    | true =>
      rw [if_pos rfl]
      refine ⟨rfl, rfl, ?_⟩
      intro h
      cases h
    | false =>
      rw [if_neg Bool.false_ne_true]
      exact ⟨rfl, rfl, fun _ => ⟨rfl, rfl⟩⟩
  · rintro fault t ⟨h, -⟩
    cases h

def Reached {σ : Type} (m : Machine σ) (processors : Int) (s : TickWatch σ) : Prop :=
  ∃ machine operations, s = (run m operations (new machine processors)).2

def refreshed (s : TickWatch Script) : Outcome (TickWatch Script) Bool :=
  (readTable (Script.machine .statFile load counts)).run s

/-- A watch for as many processors as the file lists, in any state that it gets into. A refresh is
accepted just if one of the first numbers is listed with data. After it, the table has every listed
processor's record if each one that is listed beyond the first numbers looks like one of the kept
ones, and each at its own place just if the numbers have no gap. There is one load for each
processor that is counted, whether it is listed or not. -/
theorem listed_kept_iff_no_gap {s : TickWatch Script} {k : Nat} (hk : 1 ≤ k)
    (hs : Reached (Script.machine .statFile load counts) k s)
    (hlength : (StatFile.listed s.machine.statFile).length = k)
    (hnodup : ((StatFile.listed s.machine.statFile).map Prod.fst).Nodup) :
    ((refreshed load counts s).result = .ok true ↔
      ∃ r ∈ StatFile.listed s.machine.statFile, 0 ≤ r.1 ∧ r.1 < k ∧ r.2.isZero = false) ∧
    ((refreshed load counts s).result = .ok true →
      ((∀ r ∈ StatFile.listed s.machine.statFile,
          r.2 ∈ (refreshed load counts s).state.processors.current) ↔
        ∀ r ∈ StatFile.listed s.machine.statFile, r.2 = Ticks.zero ∨
          ∃ q ∈ StatFile.listed s.machine.statFile, q.2 = r.2 ∧ 0 ≤ q.1 ∧ q.1 < k) ∧
      ((∀ r ∈ StatFile.listed s.machine.statFile, ∃ i : Nat,
          r.1 = i ∧ (refreshed load counts s).state.processors.current[i]? = some r.2) ↔
        ∀ i < k, (i : Int) ∈ (StatFile.listed s.machine.statFile).map Prod.fst) ∧
      ∀ xs, (refreshed load counts s).state.processors.loads = .ok xs → xs.length = k) := by
  obtain ⟨script, operations, hrun⟩ := hs
  obtain ⟨hrows, hshaped⟩ :=
    shaped_run (Script.machine .statFile load counts) operations (shaped_new script k)
  rw [← hrun] at hrows hshaped
  have hrows : s.rows = k := by
    rw [hrows]
    change (max 1 (k : Int)).toNat = k
    omega
  have hrecords : s.recordsOf
      = (List.range k).map (StatFile.recordOf (StatFile.listed s.machine.statFile)) := by
    rw [recordsOf, hrows]
  obtain ⟨hresult, -, hpair⟩ := readTable_statFile load counts s
  change (refreshed load counts s).result = _ at hresult
  change (refreshed load counts s).result = _ →
    (refreshed load counts s).state.processors.previous = _
    ∧ (refreshed load counts s).state.processors.current = _ at hpair
  rw [hrecords] at hresult hpair
  refine ⟨?_, ?_⟩
  · rw [← StatFile.records_not_zero_iff hnodup, hresult, Except.ok.injEq, Bool.not_eq_true']
  · intro haccepted
    obtain ⟨hprevious, hcurrent⟩ := hpair haccepted
    refine ⟨?_, ?_, ?_⟩
    · rw [hcurrent]
      exact forall₂_congr fun r hr => StatFile.mem_records_iff hnodup hlength hr
    · rw [hcurrent]
      exact StatFile.records_in_place_iff hnodup hlength
    · intro xs hxs
      have hbefore : (refreshed load counts s).state.processors.previous.length = k :=
        (congrArg List.length hprevious).trans (hshaped.processors.2.length_eq.trans hrows)
      rw [TickTable.length_loads hxs, hbefore, hcurrent]
      simp

def fileScript (text : String) : Script where
  clock := { now := 0 }
  system := .replay (.error .shortList) []
  processors := .replay (.error .shortList) []
  systemTimes := .replay (.error .shortList) []
  processorTimes := .replay (.error .shortList) []
  statFile := .holding text.toUTF8
  own := .replay (.error .shortList) []
  averages := .replay (.error .shortList) []
  processorFile := .missing
  processorName := []
  architecture := []

def onFile (text : String) : TickWatch Script := new (fileScript text) (2 : Nat)

theorem listed_kept_iff_no_gap_two :
    let s := onFile "cpu1 3 0 0 4\ncpu0 1 0 0 1\n"
    1 ≤ 2 ∧ Reached (Script.machine .statFile .loads (.given 2 1)) (2 : Nat) s ∧
      (StatFile.listed s.machine.statFile).length = 2 ∧
      ((StatFile.listed s.machine.statFile).map Prod.fst).Nodup ∧
      (refreshed .loads (.given 2 1) s).result = .ok true ∧
      ∀ r ∈ StatFile.listed s.machine.statFile, ∃ i : Nat, r.1 = i ∧
        (refreshed .loads (.given 2 1) s).state.processors.current[i]? = some r.2 := by
  intro s
  have hs : Reached (Script.machine .statFile .loads (.given 2 1)) (2 : Nat) s := ⟨_, [], rfl⟩
  have hlength : (StatFile.listed s.machine.statFile).length = 2 := by decide +kernel
  have hnodup : ((StatFile.listed s.machine.statFile).map Prod.fst).Nodup := by decide +kernel
  have haccepted : (refreshed .loads (.given 2 1) s).result = .ok true := by decide +kernel
  have hplaces :
      ∀ i < 2, ((i : Nat) : Int) ∈ (StatFile.listed s.machine.statFile).map Prod.fst := by
    decide +kernel
  have h := listed_kept_iff_no_gap .loads (.given 2 1) (by decide) hs hlength hnodup
  exact ⟨by decide, hs, hlength, hnodup, haccepted, (h.2 haccepted).2.1.mpr hplaces⟩

/-- Two processors are listed, but the second one has the number 2: its record is lost. -/
theorem listed_lost_at_gap :
    let s := onFile "cpu0 1 0 0 1\ncpu2 3 0 0 4\n"
    Reached (Script.machine .statFile .loads (.given 2 1)) (2 : Nat) s ∧
      (StatFile.listed s.machine.statFile).length = 2 ∧
      ((StatFile.listed s.machine.statFile).map Prod.fst).Nodup ∧
      (2, [3, 0, 0, 4, 0, 0, 0]) ∈ StatFile.listed s.machine.statFile ∧
      (refreshed .loads (.given 2 1) s).result = .ok true ∧
      [3, 0, 0, 4, 0, 0, 0] ∉ (refreshed .loads (.given 2 1) s).state.processors.current := by
  intro s
  have hs : Reached (Script.machine .statFile .loads (.given 2 1)) (2 : Nat) s := ⟨_, [], rfl⟩
  refine ⟨hs, ?_, ?_, ?_, ?_, ?_⟩
  · decide +kernel
  · decide +kernel
  · decide +kernel
  · decide +kernel
  · decide +kernel

end TickWatch

end ProcessorLoad
