import ProcessorLoad.Proofs.Meter.Footprint
import ProcessorLoad.Proofs.Meter.OwnLoad

/-!
# The three streams of loads

The load of the system, the loads of the processors and the machine's own load share a clock, a
machine and a meter. Where the sources of the machine have nothing to do with each other, neither
have they: a query of one stream does not show in any other.
-/

set_option autoImplicit false

namespace ProcessorLoad

/-- The state of a machine whose sources each have a part of it to themselves. -/
structure Parts (α β γ δ : Type) where
  time : Binary64
  system : α
  processors : β
  own : γ
  rest : δ

structure Sources (α β γ δ : Type) where
  totalTicks : Action α (List Counter)
  tickTable : Action β (List (List Counter))
  ownLoad : Action γ (Option Binary64)
  logicalProcessors : Action δ Int
  physicalProcessors : Action δ Int
  averages : Action δ (List Binary64)
  identify : Action δ Identification

namespace Sources
variable {α β γ δ ω : Type}

def onRest (a : Action δ ω) : Action (Parts α β γ δ) ω :=
  a.on Parts.rest fun x s => { s with rest := x }

/-- The machine with these sources. Its clock stands still however often it is looked at. -/
def machine (S : Sources α β γ δ) : Machine (Parts α β γ δ) where
  clock s := (s.time, s)
  totalTicks := S.totalTicks.on Parts.system fun x s => { s with system := x }
  tickTable := S.tickTable.on Parts.processors fun x s => { s with processors := x }
  ownLoad := S.ownLoad.on Parts.own fun x s => { s with own := x }
  logicalProcessors := onRest S.logicalProcessors
  physicalProcessors := onRest S.physicalProcessors
  averages := onRest S.averages
  identify := onRest S.identify

end Sources

inductive Stream where
  | system
  | processors
  | own
  deriving DecidableEq

def Stream.reads : Stream → Event → Bool
  | system, .totalTicks _ => true
  | processors, .tickTable _ => true
  | own, .ownLoad _ => true
  | _, _ => false

/-- The stream that a query is about, if it is about a load. -/
def Meter.Query.stream? (basis : LoadBasis) : Meter.Query → Option Stream
  | .sampled => some .system
  | .perProcessor => some .processors
  | .instant => some (if basis = .own then .own else .system)
  | _ => none

/-- What a stream has to itself: its pair of readings or its last one, and the part of its source.
-/
abbrev Share (α β γ : Type) : Stream → Type
  | .system => TickPair Ticks × α
  | .processors => TickPair TickTable × β
  | .own => Option OwnReading × γ

/-- All that the queries of a stream go by. -/
@[ext]
structure View (τ : Type) where
  settings : Settings
  rows : Nat
  time : Binary64
  share : τ

namespace Meter
variable {α β γ δ : Type}

section Serves
variable {σ : Type} {m : Machine σ} {s t : Meter σ}

def askOwn (m : Machine σ) (kept : OwnReading) : Action (Meter σ) Reply := do
  return .load (← ownLoad m kept)

/-- How a query of a stream is served, in all states in which it is one. -/
inductive Serves (m : Machine σ) : Stream → Action (Meter σ) Reply → Prop where
  | sampled : Serves m .system (ask m .sampled)
  | perProcessor : Serves m .processors (ask m .perProcessor)
  | own (kept : OwnReading) : Serves m .own (askOwn m kept)

theorem ask_instant_own {kept : OwnReading} (hown : s.own = some kept) :
    (ask m .instant).run s = (askOwn m kept).run s := by
  have hget : (Action.get : Action (Meter σ) (Meter σ)).run s = ⟨.ok s, s, []⟩ := rfl
  have hinstant : (instant m).run s = (ownLoad m kept).run s := by
    rw [instant, Action.run_bind_ok hget, hown]
    rfl
  exact Action.run_bind_congr hinstant _

theorem exists_serves {k : Stream} {query : Query} (hquery : query.stream? s.basis = some k) :
    ∃ a, Serves m k a ∧ ∀ t : Meter σ, t.basis = s.basis → (k = .own → t.own = s.own) →
      (ask m query).run t = a.run t := by
  cases query with
  | sampled =>
    cases hquery
    exact ⟨_, .sampled, fun _ _ _ => rfl⟩
  | perProcessor =>
    cases hquery
    exact ⟨_, .perProcessor, fun _ _ _ => rfl⟩
  | instant =>
    cases hown : s.own with
    | none =>
      rw [basis_of_own_none hown] at hquery ⊢
      cases hquery
      exact ⟨_, .sampled, fun t hbasis _ => ask_instant_eq m (own_of_basis hbasis)⟩
    | some kept =>
      rw [basis_of_own_some hown] at hquery
      cases hquery
      exact ⟨_, .own kept, fun t _ hsame => ask_instant_own (hsame rfl)⟩
  | _ => cases hquery

theorem run_ask_observe (m : Machine σ) (query : Query) (s : Meter σ) :
    let o := (ask m.observed query).run s.observe
    (ask m query).run s = ⟨o.result, o.state.forget, o.log⟩ := by
  have h := mirrors_ask m query s.observe
  rw [forget_observe, Except.map_id] at h
  exact h

theorem quiet_of_stream? {basis : LoadBasis} {query : Query} (h : query.stream? basis = none) :
    query.Quiet := by
  cases query <;> trivial

end Serves

def share : (k : Stream) → Meter (Parts α β γ δ) → Share α β γ k
  | .system, s => (s.watch.system, s.watch.machine.system)
  | .processors, s => (s.watch.processors, s.watch.machine.processors)
  | .own, s => (s.own, s.watch.machine.own)

def view (k : Stream) (s : Meter (Parts α β γ δ)) : View (Share α β γ k) :=
  ⟨s.settings, s.watch.rows, s.watch.machine.time, s.share k⟩

def Alike (k : Stream) (s t : Meter (Observed (Parts α β γ δ))) : Prop :=
  view k s.forget = view k t.forget ∧ s.watch.machine.events = t.watch.machine.events

variable (S : Sources α β γ δ)

theorem respects_clock (k : Stream) :
    Action.Respects (Alike k) (onMachine (.ofState S.machine.observed.clock)) := by
  rintro s t ⟨hview, hevents⟩
  have htime : s.watch.machine.machine.time = t.watch.machine.machine.time :=
    congrArg View.time hview
  refine ⟨congrArg Except.ok htime, hview, ?_⟩
  change s.watch.machine.events ++ [.clock s.watch.machine.machine.time]
    = t.watch.machine.events ++ _
  rw [hevents, htime]
  rfl

theorem respects_noted {k : Stream} {ρ ω : Type} (event : Except Fault ω → Event) (a : Action ρ ω)
    {part : Parts α β γ δ → ρ} {put : ρ → Parts α β γ δ → Parts α β γ δ}
    (hpart : ∀ s t : Meter (Parts α β γ δ), view k s = view k t →
      part s.watch.machine = part t.watch.machine)
    (hput : ∀ (s t : Meter (Parts α β γ δ)) (x y : ρ), view k s = view k t → x = y →
      view k { s with watch := { s.watch with machine := put x s.watch.machine } }
        = view k { t with watch := { t.watch with machine := put y t.watch.machine } }) :
    Action.Respects (Alike k) (onMachine (Observed.noted event (a.on part put))) := by
  rintro s t ⟨hview, hevents⟩
  have hrun : a.run (part s.watch.machine.machine) = a.run (part t.watch.machine.machine) :=
    congrArg a.run (hpart s.forget t.forget hview)
  have hresult : (a.run (part s.watch.machine.machine)).result = _ := congrArg Outcome.result hrun
  refine ⟨hresult, ?_, ?_⟩
  · exact hput s.forget t.forget _ _ hview (congrArg Outcome.state hrun)
  · change s.watch.machine.events ++ [event (a.run (part s.watch.machine.machine)).result]
      = t.watch.machine.events ++ [event (a.run (part t.watch.machine.machine)).result]
    rw [hevents, hrun]

theorem settings_of_alike {k : Stream} (s t : Meter (Observed (Parts α β γ δ))) (h : Alike k s t) :
    s.settings = t.settings := congrArg View.settings h.1

theorem respects_ask_sampled :
    Action.Respects (Alike .system) (ask S.machine.observed .sampled) := by
  refine Action.Respects.bind ?_ fun x => .pure _
  refine respects_sampled (respects_clock S .system) settings_of_alike ?_ ?_ ?_
  · refine respects_noted _ _ (fun s t h => congrArg (fun v => v.share.2) h) ?_
    rintro s t x _ h rfl
    obtain ⟨hsettings, hrows, htime, hshare⟩ := View.mk.inj h
    have hpair : s.watch.system = t.watch.system := congrArg Prod.fst hshare
    exact View.ext hsettings hrows htime (Prod.ext hpair rfl)
  · exact fun s t h => congrArg (fun v => v.share.1) h.1
  · rintro g s t ⟨hview, hevents⟩
    obtain ⟨hsettings, hrows, htime, hshare⟩ := View.mk.inj hview
    obtain ⟨hpair, hsource⟩ := Prod.mk.inj hshare
    exact ⟨rfl, View.ext hsettings hrows htime (Prod.ext (congrArg g hpair) hsource), hevents⟩

theorem respects_ask_perProcessor :
    Action.Respects (Alike .processors) (ask S.machine.observed .perProcessor) := by
  refine Action.Respects.bind ?_ fun xs => .pure _
  refine respects_perProcessor (respects_clock S .processors) settings_of_alike ?_ ?_ ?_ ?_
  · refine respects_noted _ _ (fun s t h => congrArg (fun v => v.share.2) h) ?_
    rintro s t x _ h rfl
    obtain ⟨hsettings, hrows, htime, hshare⟩ := View.mk.inj h
    have hpair : s.watch.processors = t.watch.processors := congrArg Prod.fst hshare
    exact View.ext hsettings hrows htime (Prod.ext hpair rfl)
  · exact fun s t h => congrArg View.rows h.1
  · exact fun s t h => congrArg (fun v => v.share.1) h.1
  · rintro g s t ⟨hview, hevents⟩
    obtain ⟨hsettings, hrows, htime, hshare⟩ := View.mk.inj hview
    obtain ⟨hpair, hsource⟩ := Prod.mk.inj hshare
    exact ⟨rfl, View.ext hsettings hrows htime (Prod.ext (congrArg g hpair) hsource), hevents⟩

theorem respects_askOwn (kept : OwnReading) :
    Action.Respects (Alike .own) (askOwn S.machine.observed kept) := by
  refine Action.Respects.bind ?_ fun x => .pure _
  refine respects_ownLoad (respects_clock S .own) settings_of_alike ?_ ?_ kept
  · refine respects_noted _ _ (fun s t h => congrArg (fun v => v.share.2) h) ?_
    rintro s t x _ h rfl
    obtain ⟨hsettings, hrows, htime, hshare⟩ := View.mk.inj h
    have hown : s.own = t.own := congrArg Prod.fst hshare
    exact View.ext hsettings hrows htime (Prod.ext hown rfl)
  · rintro own s t ⟨hview, hevents⟩
    obtain ⟨hsettings, hrows, htime, hshare⟩ := View.mk.inj hview
    obtain ⟨-, hsource⟩ := Prod.mk.inj hshare
    exact ⟨View.ext hsettings hrows htime (Prod.ext rfl hsource), hevents⟩

/-- The queries of a stream differ in nothing but how the stream is found. -/
theorem Serves.respects {k : Stream} {a : Action (Meter (Observed (Parts α β γ δ))) Reply}
    (h : Serves S.machine.observed k a) : Action.Respects (Alike k) a := by
  cases h with
  | sampled => exact respects_ask_sampled S
  | perProcessor => exact respects_ask_perProcessor S
  | own kept => exact respects_askOwn S kept

theorem stepOf_eq_of_view_eq {k : Stream} {query : Query} {s t : Meter (Parts α β γ δ)}
    (hquery : query.stream? s.basis = some k) (hbasis : t.basis = s.basis)
    (hview : view k s = view k t) :
    stepOf S.machine query s = stepOf S.machine query t ∧
      view k ((ask S.machine query).run s).state = view k ((ask S.machine query).run t).state := by
  obtain ⟨a, ha, hrun⟩ := exists_serves (m := S.machine.observed) (s := s.observe) hquery
  have hown (h : k = .own) : t.observe.own = s.observe.own := by
    cases h
    exact congrArg (fun v => v.share.1) hview.symm
  obtain ⟨hresult, hstates, hevents⟩ := ha.respects S s.observe t.observe ⟨hview, rfl⟩
  rw [← hrun s.observe rfl fun _ => rfl, ← hrun t.observe hbasis hown] at hresult hstates hevents
  refine ⟨?_, ?_⟩
  · simp only [stepOf, run_ask_observe S.machine query s, run_ask_observe S.machine query t,
      hresult, hevents]
  · rw [run_ask_observe S.machine query s, run_ask_observe S.machine query t]
    exact hstates

def look (k : Stream) (s : Meter (Observed (Parts α β γ δ))) : View (Share α β γ k) × List Event :=
  (view k s.forget, s.watch.machine.events.filter k.reads)

theorem look_eq {k : Stream} {s t : Meter (Observed (Parts α β γ δ))} {e : Event}
    (hview : view k t.forget = view k s.forget)
    (hevents : t.watch.machine.events = s.watch.machine.events ++ [e]) (he : k.reads e = false) :
    look k t = look k s := by
  have hnone : [e].filter k.reads = [] := List.filter_cons_of_neg (ne_true_of_eq_false he)
  rw [look, look, hview, hevents, List.filter_append, hnone, List.append_nil]

theorem keeps_look_clock (k : Stream) :
    Action.Keeps (look k) (onMachine (.ofState S.machine.observed.clock)) := by
  cases k <;> exact fun s => look_eq rfl rfl rfl

theorem Serves.keeps_look {j k : Stream} (hne : j ≠ k)
    {a : Action (Meter (Observed (Parts α β γ δ))) Reply} (h : Serves S.machine.observed j a) :
    Action.Keeps (look k) a := by
  have hclock := keeps_look_clock S k
  cases h with
  | sampled =>
    refine Action.Keeps.bind ?_ fun x => .pure _
    cases k with
    | system => exact absurd rfl hne
    | _ => exact keeps_sampled hclock (fun s => look_eq rfl rfl rfl) fun _ _ => rfl
  | perProcessor =>
    refine Action.Keeps.bind ?_ fun xs => .pure _
    cases k with
    | processors => exact absurd rfl hne
    | _ => exact keeps_perProcessor hclock (fun s => look_eq rfl rfl rfl) fun _ _ => rfl
  | own kept =>
    refine Action.Keeps.bind ?_ fun x => .pure _
    cases k with
    | own => exact absurd rfl hne
    | _ => exact keeps_ownLoad hclock (fun s => look_eq rfl rfl rfl) (fun _ _ => rfl) kept

theorem keeps_look_quiet {k : Stream} {query : Query} (hquery : query.Quiet) :
    Action.Keeps (look k) (ask S.machine.observed query) := by
  cases k <;> exact keeps_quiet (fun _ => rfl) (fun _ => rfl) (fun _ _ => rfl) hquery

theorem look_ask {k : Stream} {query : Query} {s : Meter (Observed (Parts α β γ δ))}
    (hquery : query.stream? s.basis ≠ some k) :
    look k ((ask S.machine.observed query).run s).state = look k s := by
  cases hstream : query.stream? s.basis with
  | none => exact keeps_look_quiet S (quiet_of_stream? hstream) s
  | some j =>
    obtain ⟨a, ha, hrun⟩ := exists_serves (m := S.machine.observed) hstream
    have hne : j ≠ k := fun h => hquery (hstream.trans (congrArg some h))
    rw [hrun s rfl fun _ => rfl]
    exact ha.keeps_look S hne s

theorem view_ask {k : Stream} {query : Query} {s : Meter (Parts α β γ δ)}
    (hquery : query.stream? s.basis ≠ some k) :
    view k ((ask S.machine query).run s).state = view k s ∧
      ∀ e ∈ (stepOf S.machine query s).events, k.reads e = false := by
  have hlook := look_ask S (s := s.observe) hquery
  obtain ⟨hview, hevents⟩ := Prod.mk.inj hlook
  refine ⟨?_, ?_⟩
  · rw [run_ask_observe S.machine query s]
    exact hview
  · intro e he
    exact eq_false_of_ne_true (List.filter_eq_nil_iff.mp hevents e he)

theorem basis_ask {σ : Type} (m : Machine σ) (query : Query) (s : Meter σ) :
    ((ask m query).run s).state.basis = s.basis := by
  have hanswers := answers_stepOf m query s
  cases hown : s.own with
  | none => rw [basis_of_own_none hown, basis_of_own_none (hanswers.own_none hown).1]
  | some kept => rw [basis_of_own_some hown, basis_of_own_some (hanswers.own_latest hown)]

/-- One turn of a run: the clock is set, or a query is asked. -/
inductive Turn where
  | wait (time : Binary64)
  | ask (query : Query)

/-- Whether a turn is left when all queries are gone but those of a stream. -/
def Turn.concerns (basis : LoadBasis) (k : Stream) : Turn → Bool
  | .wait _ => true
  | .ask query => query.stream? basis = some k

def Step.concerns (basis : LoadBasis) (k : Stream) (step : Step) : Bool :=
  step.query.stream? basis = some k

def setClock (time : Binary64) (s : Meter (Parts α β γ δ)) : Meter (Parts α β γ δ) :=
  { s with watch := { s.watch with machine := { s.watch.machine with time } } }

/-- A run of turns, with a step for each query; a fault ends nothing but its own query. -/
def play : List Turn → Meter (Parts α β γ δ) → List Step × Meter (Parts α β γ δ)
  | [], s => ([], s)
  | .wait time :: rest, s => play rest (setClock time s)
  | .ask query :: rest, s =>
    let later := play rest ((ask S.machine query).run s).state
    (stepOf S.machine query s :: later.1, later.2)

def readings (k : Stream) (steps : List Step) : Nat := (steps.flatMap Step.events).countP k.reads

theorem readings_cons (k : Stream) (step : Step) (steps : List Step) :
    readings k (step :: steps) = step.events.countP k.reads + readings k steps := by
  rw [readings, List.flatMap_cons, List.countP_append]
  rfl

theorem view_setClock {k : Stream} {s t : Meter (Parts α β γ δ)} (time : Binary64)
    (h : view k s = view k t) : view k (setClock time s) = view k (setClock time t) := by
  obtain ⟨hsettings, hrows, -, hshare⟩ := View.mk.inj h
  refine View.ext hsettings hrows rfl ?_
  cases k <;> exact hshare

/-- What a stream is in a run is what it is on its own. -/
structure Alone (basis : LoadBasis) (k : Stream) (alone whole : List Step × Meter (Parts α β γ δ)) :
    Prop where
  steps_eq : alone.1 = whole.1.filter (Step.concerns basis k)
  readings_eq : readings k alone.1 = readings k whole.1
  view_eq : view k alone.2 = view k whole.2

namespace Alone
variable {basis : LoadBasis} {k : Stream} {alone whole : List Step × Meter (Parts α β γ δ)}
variable {step : Step}

theorem cons (h : Alone basis k alone whole) (hstep : step.concerns basis k = true) :
    Alone basis k (step :: alone.1, alone.2) (step :: whole.1, whole.2) where
  steps_eq := by
    rw [List.filter_cons_of_pos hstep, h.steps_eq]
  readings_eq := by
    rw [readings_cons, readings_cons, h.readings_eq]
  view_eq := h.view_eq

theorem skip (h : Alone basis k alone whole) (hstep : ¬step.concerns basis k = true)
    (hsilent : ∀ e ∈ step.events, k.reads e = false) :
    Alone basis k alone (step :: whole.1, whole.2) where
  steps_eq := by
    rw [List.filter_cons_of_neg hstep, h.steps_eq]
  readings_eq := by
    have hnone : step.events.countP k.reads = 0 :=
      List.countP_eq_zero.mpr fun e he => ne_true_of_eq_false (hsilent e he)
    rw [readings_cons, hnone, Nat.zero_add, h.readings_eq]
  view_eq := h.view_eq

end Alone

theorem alone_play {k : Stream} (turns : List Turn) {s t : Meter (Parts α β γ δ)}
    (hbasis : t.basis = s.basis) (hview : view k s = view k t) :
    Alone s.basis k (play S (turns.filter (Turn.concerns s.basis k)) t) (play S turns s) := by
  induction turns generalizing s t with
  | nil => exact ⟨rfl, rfl, hview.symm⟩
  | cons turn rest ih =>
    cases turn with
    | wait time =>
      exact ih (s := setClock time s) (t := setClock time t) hbasis (view_setClock time hview)
    | ask query =>
      have hstays := basis_ask S.machine query s
      by_cases hturn : Turn.concerns s.basis k (.ask query) = true
      · -- both runs take the same step
        obtain ⟨hstep, hviews⟩ := stepOf_eq_of_view_eq S (of_decide_eq_true hturn) hbasis hview
        have hbases := (basis_ask S.machine query t).trans (hbasis.trans hstays.symm)
        have hrest := ih hbases hviews
        rw [hstays] at hrest
        rw [List.filter_cons_of_pos hturn, play, play, ← hstep]
        exact hrest.cons hturn
      · -- only the whole run takes a step, and the stream does not notice
        have hquery : query.stream? s.basis ≠ some k := fun h => hturn (decide_eq_true h)
        obtain ⟨hkept, hsilent⟩ := view_ask S hquery
        have hrest := ih (hbasis.trans hstays.symm) (hkept.trans hview)
        rw [hstays] at hrest
        rw [List.filter_cons_of_neg hturn, play]
        exact hrest.skip hturn hsilent

/-- All that no query of a stream changes. -/
def aside (s : Meter (Parts α β γ δ)) : Int × Int × Option Identification × δ :=
  (s.logicalProcessors, s.physicalProcessors, s.identity, s.watch.machine.rest)

theorem Serves.keeps_aside {k : Stream} {a : Action (Meter (Parts α β γ δ)) Reply}
    (h : Serves S.machine k a) : Action.Keeps aside a := by
  cases h with
  | sampled =>
    exact (keeps_sampled (fun _ => rfl) (fun _ => rfl) fun _ _ => rfl).bind fun x => .pure _
  | perProcessor =>
    exact (keeps_perProcessor (fun _ => rfl) (fun _ => rfl) fun _ _ => rfl).bind fun xs => .pure _
  | own kept =>
    exact (keeps_ownLoad (fun _ => rfl) (fun _ => rfl) (fun _ _ => rfl) kept).bind fun x => .pure _

theorem aside_ask {k : Stream} {query : Query} {s : Meter (Parts α β γ δ)}
    (hquery : query.stream? s.basis = some k) :
    aside ((ask S.machine query).run s).state = aside s := by
  obtain ⟨a, ha, hrun⟩ := exists_serves (m := S.machine) hquery
  rw [hrun s rfl fun _ => rfl]
  exact ha.keeps_aside S s

theorem eq_of_views {s t : Meter (Parts α β γ δ)} (hviews : ∀ k, view k s = view k t)
    (haside : aside s = aside t) : s = t := by
  have hsystem := hviews .system
  have hprocessors := hviews .processors
  have hown := hviews .own
  obtain ⟨_, _, _, _, _, ⟨⟨_, _, _, _, _⟩, _, _, _⟩⟩ := s
  obtain ⟨_, _, _, _, _, ⟨⟨_, _, _, _, _⟩, _, _, _⟩⟩ := t
  simp_all [view, share, aside]

section Swap
variable {j k : Stream} {query other : Query} {s : Meter (Parts α β γ δ)}

theorem stepOf_after (hquery : query.stream? s.basis ≠ some k)
    (hother : other.stream? s.basis = some k) :
    stepOf S.machine other ((ask S.machine query).run s).state = stepOf S.machine other s :=
  (stepOf_eq_of_view_eq S hother (basis_ask S.machine query s) (view_ask S hquery).1.symm).1.symm

theorem aside_play (hquery : query.stream? s.basis = some j)
    (hother : other.stream? s.basis = some k) :
    aside (play S [.ask query, .ask other] s).2 = aside s := by
  rw [← basis_ask S.machine query s] at hother
  exact (aside_ask S hother).trans (aside_ask S hquery)

/-- Queries of two streams can be asked in either order. -/
theorem play_swap (hquery : query.stream? s.basis = some j)
    (hother : other.stream? s.basis = some k) (hne : j ≠ k) :
    (play S [.ask other, .ask query] s).1 = (play S [.ask query, .ask other] s).1.reverse ∧
      (play S [.ask other, .ask query] s).2 = (play S [.ask query, .ask other] s).2 := by
  have hfirst : query.stream? s.basis ≠ some k := by simpa [hquery] using hne
  have hsecond : other.stream? s.basis ≠ some j := by simpa [hother] using hne.symm
  refine ⟨?_, eq_of_views (fun l => ?_) ?_⟩
  · simp only [play, stepOf_after S hfirst hother, stepOf_after S hsecond hquery]
    rfl
  · -- no stream has both of the queries, so to each of them the two runs are the same
    have hsame : [Turn.ask other, .ask query].filter (Turn.concerns s.basis l)
        = [Turn.ask query, .ask other].filter (Turn.concerns s.basis l) := by
      by_cases hl : j = l
      · subst hl
        simp [List.filter, Turn.concerns, hquery, hsecond]
      · simp [List.filter, Turn.concerns, hquery, hl]
    have hleft := (alone_play S (k := l) [.ask query, .ask other] (s := s) rfl rfl).view_eq
    have hright := (alone_play S (k := l) [.ask other, .ask query] (s := s) rfl rfl).view_eq
    rw [hsame] at hright
    exact hright.symm.trans hleft
  · exact (aside_play S hother hquery).trans (aside_play S hquery hother).symm

end Swap

/-- Where the sources have nothing to do with each other and nothing but time moves the clock, the
three streams of loads have nothing to do with each other. Of every run, from every state on, all
queries may be left out but those of one stream: their answers and events stay the same, and so does
what the stream holds at the end, its source included, and how often that was read. So queries of
two streams that are asked one right after the other may change places. -/
theorem streams_do_not_interfere (S : Sources α β γ δ) (s : Meter (Parts α β γ δ)) :
    (∀ (turns : List Turn) (k : Stream),
      Alone s.basis k (play S (turns.filter (Turn.concerns s.basis k)) s) (play S turns s)) ∧
    ∀ (j k : Stream) (query other : Query), query.stream? s.basis = some j →
      other.stream? s.basis = some k → j ≠ k →
        (play S [.ask other, .ask query] s).1 = (play S [.ask query, .ask other] s).1.reverse ∧
          (play S [.ask other, .ask query] s).2 = (play S [.ask query, .ask other] s).2 :=
  ⟨fun turns _ => alone_play S turns rfl rfl, fun _ _ _ _ => play_swap S⟩

/-- Sources that count their readings. Of the tables of ticks, every other one cannot be read. -/
def tally : Sources Nat Nat Nat Unit where
  totalTicks n := ⟨.ok [.whole n, .whole 0, .whole 0, .whole n], n + 1, []⟩
  tickTable n := ⟨if n % 2 = 0 then .ok [[.whole n]] else .error (.machine .system []), n + 1, []⟩
  ownLoad n := ⟨.ok (everyThird n), n + 1, []⟩
  logicalProcessors n := ⟨.ok 1, n, []⟩
  physicalProcessors n := ⟨.ok 1, n, []⟩
  averages n := ⟨.ok [], n, []⟩
  identify n := ⟨.ok {}, n, []⟩

def tallyMeter : Meter (Parts Nat Nat Nat Unit) where
  settings := {}
  logicalProcessors := 1
  physicalProcessors := 1
  own := some ⟨0, 0⟩
  identity := none
  watch :=
    { machine := ⟨0, 1, 1, 1, ()⟩
      rows := 1
      system := .constant [1, 0, 0, 1, 0, 0, 0]
      processors := .constant [[1, 0, 0, 0, 0, 0, 0]] }

theorem streams_do_not_interfere_tally :
    let turns : List Turn :=
      [.ask .sampled, .wait 1000, .ask .sampled, .ask .instant, .ask .perProcessor, .ask .instant,
        .wait 2000, .ask .perProcessor, .ask .sampled, .ask .name]
    let whole := play tally turns tallyMeter
    let alone := play tally (turns.filter (Turn.concerns .own .processors)) tallyMeter
    (whole.1.length, alone.1.length, readings .processors whole.1) = (8, 2, 2) ∧
      Alone .own .processors alone whole ∧
      Query.stream? .own .instant = some .own ∧
      Query.stream? .own .perProcessor = some .processors ∧
      (play tally [.ask .instant, .ask .perProcessor] tallyMeter).2
        = (play tally [.ask .perProcessor, .ask .instant] tallyMeter).2 := by
  intro turns whole alone
  obtain ⟨halone, hswap⟩ := streams_do_not_interfere tally tallyMeter
  obtain ⟨-, hends⟩ := hswap .processors .own .perProcessor .instant rfl rfl nofun
  refine ⟨?_, halone turns .processors, rfl, rfl, hends⟩
  decide +kernel

end Meter

end ProcessorLoad
