import ProcessorLoad.Fault
import ProcessorLoad.LogLevel

/-!
# Computations with a log, a state and faults

`Logged` is a value with the levels that were logged on the way to it. `Action` works on a state and
may stop with a fault; the state and the log keep what happened up to the fault.
-/

set_option autoImplicit false

namespace ProcessorLoad

/-- A value and the levels logged on the way to it. -/
structure Logged (α : Type) where
  value : α
  log : List LogLevel
  deriving DecidableEq

namespace Logged
variable {α β : Type}

def note (level : LogLevel) (a : α) : Logged α := ⟨a, [level]⟩

instance : Monad Logged where
  pure a := ⟨a, []⟩
  bind x f := ⟨(f x.value).value, x.log ++ (f x.value).log⟩

@[simp] theorem value_pure (a : α) : (pure a : Logged α).value = a := rfl

@[simp] theorem log_pure (a : α) : (pure a : Logged α).log = [] := rfl

@[simp] theorem value_bind (x : Logged α) (f : α → Logged β) :
    (x >>= f).value = (f x.value).value := rfl

@[simp] theorem log_bind (x : Logged α) (f : α → Logged β) :
    (x >>= f).log = x.log ++ (f x.value).log := rfl

end Logged

structure Outcome (σ α : Type) where
  result : Except Fault α
  state : σ
  log : List LogLevel

/-- A computation on a state `σ` that may stop with a fault. -/
def Action (σ α : Type) : Type := σ → Outcome σ α

namespace Action
variable {σ τ α β : Type}

def run (a : Action σ α) (s : σ) : Outcome σ α := a s

instance : Monad (Action σ) where
  pure a := fun s => ⟨.ok a, s, []⟩
  bind x f := fun s =>
    match x s with
    | ⟨.ok a, t, log⟩ => let o := f a t; ⟨o.result, o.state, log ++ o.log⟩
    | ⟨.error e, t, log⟩ => ⟨.error e, t, log⟩

def get : Action σ σ := fun s => ⟨.ok s, s, []⟩

def modify (f : σ → σ) : Action σ Unit := fun s => ⟨.ok (), f s, []⟩

def ofExcept (r : Except Fault α) : Action σ α := fun s => ⟨r, s, []⟩

def fail (e : Fault) : Action σ α := ofExcept (.error e)

def ofLogged (x : Logged α) : Action σ α := fun s => ⟨.ok x.value, s, x.log⟩

def reading (f : σ → Logged α) : Action σ α := fun s => ⟨.ok (f s).value, s, (f s).log⟩

def ofState (f : σ → α × σ) : Action σ α := fun s => ⟨.ok (f s).1, (f s).2, []⟩

def note (level : LogLevel) : Action σ Unit := fun s => ⟨.ok (), s, [level]⟩

/-- The computation as a value: a fault becomes an answer like any other. -/
def attempt (a : Action σ α) : Action σ (Except Fault α) := fun s =>
  let o := a s
  ⟨.ok o.result, o.state, o.log⟩

def on (part : τ → σ) (put : σ → τ → τ) (a : Action σ α) : Action τ α := fun t =>
  let o := a (part t)
  ⟨o.result, put o.state t, o.log⟩

theorem run_bind_ok {a : Action σ α} {f : α → Action σ β} {s t : σ} {x : α} {log : List LogLevel}
    (h : a.run s = ⟨.ok x, t, log⟩) :
    (a >>= f).run s = ⟨((f x).run t).result, ((f x).run t).state, log ++ ((f x).run t).log⟩ := by
  simp only [run] at h
  simp [run, bind, h]

theorem run_bind_error {a : Action σ α} {f : α → Action σ β} {s t : σ} {e : Fault}
    {log : List LogLevel} (h : a.run s = ⟨.error e, t, log⟩) :
    (a >>= f).run s = ⟨.error e, t, log⟩ := by
  simp only [run] at h
  simp [run, bind, h]

end Action

end ProcessorLoad
