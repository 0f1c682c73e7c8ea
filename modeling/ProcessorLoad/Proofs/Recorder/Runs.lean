import ProcessorLoad.Proofs.Meter.Queries
import ProcessorLoad.Recorder

/-!
# Runs of a recorder

A run is any sequence of operations on a recorder and queries to its meter; a fault ends nothing but
its own operation.
-/

set_option autoImplicit false

namespace ProcessorLoad

namespace Recorder
variable {σ : Type}

inductive Operation where
  | collect
  | poll
  | drain
  | start
  | stop
  | setPollRate (rate : Binary64)
  | ask (query : Meter.Query)

inductive Answer where
  | collected (report : LoadReport)
  | polled (queued : Bool)
  | drained (reports : List LoadReport)
  | started (fresh : Bool)
  | done
  | replied (reply : Meter.Reply)

def perform (m : Machine σ) : Operation → Action (Recorder σ) Answer
  | .collect => do return .collected (← collect m)
  | .poll => do return .polled (← poll m)
  | .drain => do return .drained (← drain)
  | .start => do return .started (← start m)
  | .stop => do
    stop
    return .done
  | .setPollRate rate => do
    Action.modify (setPollRate rate)
    return .done
  | .ask query => do return .replied (← onMeter (Meter.ask m query))

variable (m : Machine σ)

def measured (r : Recorder σ) : Option (List Binary64) :=
  ((Meter.perProcessor m).run r.meter).result.toOption

def collected (r : Recorder σ) : Option LoadReport := ((collect m).run r).result.toOption

/-- The recorder that an operation collects with, if it does. -/
def collecting? (r : Recorder σ) : Operation → Option (Recorder σ)
  | .collect => some r
  | .poll => some r
  | .start => if r.running then none else some { r with running := true }
  | _ => none

/-- One operation of a run: how it ended, what its collection found, and the pair of the processors'
ticks that was held then. -/
structure Entry where
  operation : Operation
  result : Except Fault Answer
  loads : Option (List Binary64)
  report : Option LoadReport
  pair : TickPair TickTable

def entryOf (operation : Operation) (r : Recorder σ) : Entry where
  operation
  result := ((perform m operation).run r).result
  loads := (collecting? r operation).bind (measured m)
  report := (collecting? r operation).bind (collected m)
  pair := ((perform m operation).run r).state.meter.watch.processors

namespace Entry

def queued (entry : Entry) : List LoadReport :=
  match entry.operation, entry.result with
  | .poll, .ok (.polled true) => entry.report.toList
  | .start, .ok (.started true) => entry.report.toList
  | _, _ => []

def drained (entry : Entry) : List LoadReport :=
  match entry.operation, entry.result with
  | .drain, .ok (.drained reports) => reports
  | _, _ => []

/-- The loads of the processors in the answer to an operation that works them out. -/
def answered (entry : Entry) : List (List Binary64) :=
  match entry.operation, entry.result with
  | .collect, .ok (.collected report) => [report.perProcessor]
  | .ask .perProcessor, .ok (.replied (.loads xs)) => [xs]
  | _, _ => []

end Entry

/-- A run of operations, in which a fault ends nothing but its own operation. -/
def journal (operations : List Operation) (r : Recorder σ) : List Entry × Recorder σ :=
  Action.runAll (perform m) (entryOf m) operations r

/-- The part of a report that is read after the loads of the processors. -/
def complete (perProcessor : List Binary64) : Action (Recorder σ) LoadReport := do
  let averages ← onMeter (Meter.averages m 3)
  let instant ← onMeter (Meter.instant m)
  let sampled ← onMeter (Meter.sampled m)
  let averages ← Action.ofExcept ([0, 1, 2].mapM (Meter.item averages))
  let meter := (← Action.get).meter
  return { instant, sampled, perProcessor, averages, basis := meter.basis,
           processors := meter.logicalProcessors }

theorem collect_eq : collect m = (do
    let perProcessor ← onMeter (Meter.perProcessor m)
    remember perProcessor
    complete m perProcessor) := rfl

theorem perProcessor_of_complete {xs : List Binary64} {r : Recorder σ} {report : LoadReport}
    (h : ((complete m xs).run r).result = .ok report) : report.perProcessor = xs := by
  obtain ⟨averages, -, h⟩ := Action.ok_of_run_bind h
  obtain ⟨instant, -, h⟩ := Action.ok_of_run_bind h
  obtain ⟨sampled, -, h⟩ := Action.ok_of_run_bind h
  obtain ⟨items, -, h⟩ := Action.ok_of_run_bind h
  cases h
  rfl

end Recorder

end ProcessorLoad
