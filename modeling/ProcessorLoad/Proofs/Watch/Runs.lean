import ProcessorLoad.Proofs.Watch.Mirror

/-!
# Runs of a watch

A run is any sequence of operations; a fault ends nothing but its own operation.
`TickPairs.Performs` lists all that an operation can do to the two pairs.
-/

set_option autoImplicit false

namespace ProcessorLoad

namespace TickWatch
variable {σ : Type}

inductive Operation where
  | prime
  | refresh (kind : Scope)
  | refreshIfDue (kind : Scope) (interval : Binary64)
  | snapshot (kind : Scope)

inductive Answer where
  | primed
  | refreshed (accepted : Bool)
  | system (pair : TickPair Ticks)
  | processors (pair : TickPair TickTable)

def perform (m : Machine σ) : Operation → Action (TickWatch σ) Answer
  | .prime => do
    prime m
    return .primed
  | .refresh kind => do return .refreshed (← refresh m kind)
  | .refreshIfDue kind interval => do return .refreshed (← refreshIfDue m kind interval)
  | .snapshot .system => do return .system (← Action.get).system
  | .snapshot .processors => do return .processors (← Action.get).processors

/-- One operation of a run: how it ended, and the events at the machine meanwhile. -/
structure Step where
  operation : Operation
  result : Except Fault Answer
  events : List Event

def stepOf (m : Machine σ) (operation : Operation) (s : TickWatch σ) : Step where
  operation
  result := ((perform m operation).run s).result
  events := ((perform m.observed operation).run s.observe).state.machine.events

/-- A run of operations, in which a fault ends nothing but its own operation. -/
def run (m : Machine σ) (operations : List Operation) (s : TickWatch σ) :
    List Step × TickWatch σ := Action.runAll (perform m) (stepOf m) operations s

end TickWatch

namespace TickPairs
variable {p q : TickPairs}

inductive Performs (p q : TickPairs) : TickWatch.Step → Prop where
  | prime {es : List Event} {r : Except Fault Unit} (h : p.Primes q es r) :
    Performs p q ⟨.prime, r.map fun _ => .primed, es⟩
  | refresh {kind : Scope} {es : List Event} {r : Except Fault Bool}
    (h : p.Concerns (fun S p q => S.Accepts p es r q) q kind) :
    Performs p q ⟨.refresh kind, r.map .refreshed, es⟩
  | refreshIfDue {kind : Scope} {interval : Binary64} {es : List Event} {r : Except Fault Bool}
    (h : p.Concerns (fun S p q => S.Refreshes interval p es r q) q kind) :
    Performs p q ⟨.refreshIfDue kind interval, r.map .refreshed, es⟩
  | snapshot {kind : Scope} {answer : TickWatch.Answer} (h : q = p) :
    Performs p q ⟨.snapshot kind, .ok answer, []⟩

end TickPairs

namespace TickWatch
variable {σ : Type}

theorem mirrors_perform (m : Machine σ) (operation : Operation) :
    SameObserved (perform m.observed operation) (perform m operation) := by
  cases operation with
  | prime => exact (mirrors_prime m).bind_same fun _ => .pure_same _
  | refresh kind => exact (mirrors_refresh m kind).bind_same fun _ => .pure_same _
  | refreshIfDue kind interval =>
    exact (mirrors_refreshIfDue m kind interval).bind_same fun _ => .pure_same _
  | snapshot kind => cases kind <;> exact Action.Mirrors.get.bind fun _ => .pure_same _

theorem perform_ends (m : Machine σ) (operation : Operation) (s : TickWatch (Observed σ)) :
    (perform m.observed operation).Ends s fun r t =>
      ∃ es, t.machine.events = s.machine.events ++ es ∧ t.rows = s.rows ∧
        s.pairs.Performs t.pairs ⟨operation, r, es⟩ := by
  cases operation with
  | prime =>
    apply Action.ends_map.mpr
    apply prime_ends.mono
    rintro r t ⟨es, he, hr, h⟩
    exact ⟨es, he, hr, .prime h⟩
  | refresh kind =>
    apply Action.ends_map.mpr
    apply (refresh_ends kind).mono
    rintro r t ⟨es, he, hr, h⟩
    exact ⟨es, he, hr, .refresh h⟩
  | refreshIfDue kind interval =>
    apply Action.ends_map.mpr
    apply (refreshIfDue_ends kind interval).mono
    rintro r t ⟨es, he, hr, h⟩
    exact ⟨es, he, hr, .refreshIfDue h⟩
  | snapshot kind =>
    cases kind <;> exact ⟨[], (List.append_nil _).symm, rfl, .snapshot rfl⟩

theorem performs_stepOf (m : Machine σ) (operation : Operation) (s : TickWatch σ) :
    ((perform m operation).run s).state.rows = s.rows ∧
      s.pairs.Performs ((perform m operation).run s).state.pairs (stepOf m operation s) := by
  have hm := mirrors_perform m operation s.observe
  obtain ⟨es, he, hr, h⟩ := perform_ends m operation s.observe
  rw [forget_observe] at hm
  rw [stepOf, hm, he, Except.map_id]
  exact ⟨hr, h⟩

end TickWatch

end ProcessorLoad
