import ProcessorLoad.Meter
import ProcessorLoad.Proofs.Watch.Mirror

/-!
# Asking a meter

The queries that a meter takes after it is set up, and the set-up itself. A meter on an observed
machine answers them as the meter on the machine itself does.
-/

set_option autoImplicit false

namespace ProcessorLoad

deriving instance DecidableEq for TickWatch, Meter

namespace Meter
variable {σ τ α β : Type}

inductive Query where
  | instant
  | sampled
  | perProcessor
  | averages (n : Int)
  | oneMinuteAverage
  | identity
  | name
  | basis
  | counts

inductive Reply where
  | load (x : Binary64)
  | loads (xs : List Binary64)
  | identity (known : Identification)
  | name (text : Text)
  | basis (b : LoadBasis)
  | counts (logical physical : Int)

def ask (m : Machine σ) : Query → Action (Meter σ) Reply
  | .instant => do return .load (← instant m)
  | .sampled => do return .load (← sampled m)
  | .perProcessor => do return .loads (← perProcessor m)
  | .averages n => do return .loads (← averages m n)
  | .oneMinuteAverage => do return .load (← oneMinuteAverage m)
  | .identity => do return .identity (← onIdentity m Action.get)
  | .name => do return .name (← name m)
  | .basis => do return .basis (← Action.get).basis
  | .counts => do
    let s ← Action.get
    return .counts s.logicalProcessors s.physicalProcessors

/-- A machine that counts how often it is asked. Its counters show that number, its clock shows as
many seconds, and its own load is a function of it. -/
def counting (own : Nat → Option Binary64) : Machine Nat where
  clock n := (.ofNat (1000 * n), n + 1)
  totalTicks n := ⟨.ok [.whole n, .whole 0, .whole 0, .whole n], n + 1, []⟩
  tickTable n := ⟨.ok [[.whole n], [.whole n, .whole n]], n + 1, []⟩
  ownLoad n := ⟨.ok (own n), n + 1, []⟩
  logicalProcessors n := ⟨.ok 2, n, []⟩
  physicalProcessors n := ⟨.ok 1, n, []⟩
  averages n := ⟨.ok [], n, []⟩
  identify n := ⟨.ok {}, n, []⟩

section Basis
variable {s : Meter σ}

theorem basis_of_own_none (h : s.own = none) : s.basis = .ticks := by
  rw [basis, h]
  rfl

theorem basis_of_own_some {kept : OwnReading} (h : s.own = some kept) : s.basis = .own := by
  rw [basis, h]
  rfl

theorem own_of_basis (h : s.basis = .ticks) : s.own = none := by
  cases hown : s.own with
  | none => rfl
  | some kept => cases h.symm.trans (basis_of_own_some hown)

theorem exists_own_of_basis (h : s.basis = .own) : ∃ kept, s.own = some kept := by
  cases hown : s.own with
  | none => cases h.symm.trans (basis_of_own_none hown)
  | some kept => exact ⟨kept, rfl⟩

end Basis

/-- What becomes of the machine's answer about its load averages. -/
def standIn (n : Int) : Except Fault (List Binary64) → Action (Meter σ) (List Binary64)
  | .ok averages => return averages.take n.toNat
  | .error (.machine failure message) =>
    if lacksAverages failure then do
      Action.note .warning
      return absentAverages.take n.toNat
    else Action.fail (.machine failure message)
  | .error fault => Action.fail fault

theorem averages_eq (m : Machine σ) (n : Int) :
    averages m n = if n < 1 ∨ 3 < n then Action.fail .averageCount
      else (onMachine m.averages).attempt >>= standIn n := by
  unfold averages
  split
  · rfl
  · refine congrArg ((onMachine m.averages).attempt >>= ·) (funext fun answer => ?_)
    rcases answer with fault | xs
    · cases fault <;> rfl
    · rfl

section Mirrors

def mapMachine (f : σ → τ) (s : Meter σ) : Meter τ :=
  ⟨s.settings, s.logicalProcessors, s.physicalProcessors, s.own, s.identity, s.watch.mapMachine f⟩

def forget (s : Meter (Observed σ)) : Meter σ := s.mapMachine Observed.machine

def observe (s : Meter σ) : Meter (Observed σ) := s.mapMachine Observed.start

@[simp] theorem forget_observe (s : Meter σ) : s.observe.forget = s := rfl

def SameObserved (a : Action (Meter (Observed σ)) α) (b : Action (Meter σ) α) : Prop :=
  Action.Mirrors forget id a b

theorem mirrors_onWatch {a : Action (TickWatch (Observed σ)) α} {b : Action (TickWatch σ) α}
    (h : TickWatch.SameObserved a b) : SameObserved (onWatch a) (onWatch b) :=
  h.on (fun _ => rfl) fun _ _ => rfl

theorem mirrors_onMachine {a : Action (Observed σ) α} {b : Action σ α}
    (h : Action.Mirrors Observed.machine id a b) : SameObserved (onMachine a) (onMachine b) :=
  mirrors_onWatch (TickWatch.mirrors_onMachine h)

theorem mirrors_sampled (m : Machine σ) : SameObserved (sampled m.observed) (sampled m) := by
  refine Action.Mirrors.get.bind fun s => ?_
  refine (mirrors_onWatch (TickWatch.mirrors_refreshIfDue m .system _)).bind_same fun _ => ?_
  exact Action.Mirrors.get.bind fun _ => .ofExcept_id _

theorem mirrors_perProcessor (m : Machine σ) :
    SameObserved (perProcessor m.observed) (perProcessor m) := by
  refine Action.Mirrors.get.bind fun s => ?_
  refine (mirrors_onWatch (TickWatch.mirrors_refreshIfDue m .processors _)).bind_same fun _ => ?_
  exact Action.Mirrors.get.bind fun _ => .ofExcept_id _

theorem mirrors_ownLoad (m : Machine σ) (kept : OwnReading) :
    SameObserved (ownLoad m.observed kept) (ownLoad m kept) := by
  refine (mirrors_onMachine (Observed.mirrors_clock m)).bind_same fun now => ?_
  refine Action.Mirrors.get.bind fun s => .ite (.pure_same _) ?_
  refine (mirrors_onMachine (Observed.mirrors_noted _ _)).bind_same fun answer => ?_
  exact Action.Mirrors.bind_same (.modify fun _ => rfl) fun _ => .pure_same _

theorem mirrors_instant (m : Machine σ) : SameObserved (instant m.observed) (instant m) := by
  refine Action.Mirrors.get.bind fun s => ?_
  have hown : s.forget.own = s.own := rfl
  rw [hown]
  cases s.own with
  | some kept => exact mirrors_ownLoad m kept
  | none => exact mirrors_sampled m

theorem mirrors_standIn (n : Int) (answer : Except Fault (List Binary64)) :
    SameObserved (σ := σ) (standIn n answer) (standIn n answer) := by
  rcases answer with fault | xs
  · cases fault with
    | machine failure message =>
      exact .ite (Action.Mirrors.bind_same (.note _) fun _ => .pure_same _) (.fail _)
    | _ => exact .fail _
  · exact .pure_same _

theorem mirrors_averages (m : Machine σ) (n : Int) :
    SameObserved (averages m.observed n) (averages m n) := by
  rw [averages_eq, averages_eq]
  refine .ite (.fail _) ?_
  refine (Action.Mirrors.attempt (mirrors_onMachine (Observed.mirrors_unnoted _))).bind_same ?_
  exact mirrors_standIn n

theorem mirrors_identify (m : Machine σ) : SameObserved (identify m.observed) (identify m) := by
  refine Action.Mirrors.get.bind fun s => .ite ?_ (.pure_same _)
  refine (mirrors_onMachine (Observed.mirrors_unnoted _)).bind_same fun known => ?_
  exact .modify fun _ => rfl

theorem mirrors_onIdentity (m : Machine σ) (a : Action Identification α) :
    SameObserved (onIdentity m.observed a) (onIdentity m a) := by
  refine (mirrors_identify m).bind_same fun _ => ?_
  have h : Action.Mirrors id id a a := fun i => by simp only [Except.map_id, id]
  exact h.on (fun _ => rfl) fun _ _ => rfl

theorem mirrors_ask (m : Machine σ) (query : Query) :
    SameObserved (ask m.observed query) (ask m query) := by
  cases query with
  | instant => exact (mirrors_instant m).bind_same fun _ => .pure_same _
  | sampled => exact (mirrors_sampled m).bind_same fun _ => .pure_same _
  | perProcessor => exact (mirrors_perProcessor m).bind_same fun _ => .pure_same _
  | averages n => exact (mirrors_averages m n).bind_same fun _ => .pure_same _
  | oneMinuteAverage =>
    refine Action.Mirrors.bind_same ?_ fun _ => .pure_same _
    exact (mirrors_averages m 1).bind_same fun _ => .ofExcept_id _
  | identity => exact (mirrors_onIdentity m _).bind_same fun _ => .pure_same _
  | name => exact (mirrors_onIdentity m _).bind_same fun _ => .pure_same _
  | basis => exact Action.Mirrors.get.bind fun _ => .pure_same _
  | counts => exact Action.Mirrors.get.bind fun _ => .pure_same _

theorem mirrors_probeOwnLoad (m : Machine σ) (settings : Settings) :
    Action.Mirrors Observed.machine id (probeOwnLoad m.observed settings)
      (probeOwnLoad m settings) := by
  refine .ite (.pure_same _) ?_
  refine (Observed.mirrors_noted _ _).bind_same fun answer => ?_
  cases answer with
  | none => exact .pure_same _
  | some load => exact (Observed.mirrors_clock m).bind_same fun _ => .pure_same _

theorem mirrors_setUp (m : Machine σ) (settings : Settings) (identity : Option Identification) :
    Action.Mirrors Observed.machine forget (setUp m.observed settings identity)
      (setUp m settings identity) := by
  refine (Observed.mirrors_unnoted _).bind_same fun logical => ?_
  refine (Observed.mirrors_unnoted _).bind_same fun physical => ?_
  refine (mirrors_probeOwnLoad m settings).bind_same fun own => ?_
  exact (TickWatch.mirrors_start m _).bind fun watch => .pure _

end Mirrors

end Meter

end ProcessorLoad
