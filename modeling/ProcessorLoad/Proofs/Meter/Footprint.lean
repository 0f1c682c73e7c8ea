import ProcessorLoad.Proofs.Meter.Steps

/-!
# What a query goes by and what it changes

A query about a load looks at the clock, at the settings, at its own pair or reading, and at its own
source of the machine, and changes nothing but that pair or reading and that source. So it keeps
whatever these do not show in, and it makes no difference between states in which these are the
same.
-/

set_option autoImplicit false

namespace ProcessorLoad

namespace TickWatch
variable {σ τ α : Type} {m : Machine σ}

section Keeps
variable {f : TickWatch σ → τ}

theorem keeps_accept {fetch : Action (TickWatch σ) α} {edit : Edit σ α}
    (hclock : Action.Keeps f (readClock m)) (hfetch : Action.Keeps f fetch)
    (hedit : ∀ g s, f (edit g s) = f s) (isZero : α → Bool) :
    Action.Keeps f (accept m fetch isZero edit) := by
  refine hfetch.bind fun a => .ite (.pure _) (hclock.bind fun now => ?_)
  exact Action.Keeps.bind (hedit _) fun _ => .pure _

theorem keeps_readTotal (hclock : Action.Keeps f (readClock m))
    (hread : Action.Keeps f (onMachine m.totalTicks)) (hedit : ∀ g s, f (editSystem g s) = f s) :
    Action.Keeps f (refresh m .system) :=
  keeps_accept hclock (hread.bind fun _ => .ofExcept _) hedit _

theorem keeps_readTable (hclock : Action.Keeps f (readClock m))
    (hread : Action.Keeps f (onMachine m.tickTable)) (hedit : ∀ g s, f (editProcessors g s) = f s) :
    Action.Keeps f (refresh m .processors) :=
  keeps_accept hclock (hread.bind fun _ => Action.Keeps.get.bind fun _ => .ofExcept _) hedit _

theorem keeps_refreshIfDue {kind : Scope} (hclock : Action.Keeps f (readClock m))
    (hrefresh : Action.Keeps f (refresh m kind)) (interval : Binary64) :
    Action.Keeps f (refreshIfDue m kind interval) :=
  hclock.bind fun _ => Action.Keeps.get.bind fun _ => .ite (.pure _) hrefresh

end Keeps

section Respects
variable {R : TickWatch σ → TickWatch σ → Prop}

theorem respects_accept {fetch : Action (TickWatch σ) α} {edit : Edit σ α}
    (hclock : Action.Respects R (readClock m)) (hfetch : Action.Respects R fetch)
    (hedit : ∀ g s t, R s t → R (edit g s) (edit g t)) (isZero : α → Bool) :
    Action.Respects R (accept m fetch isZero edit) := by
  refine hfetch.bind fun a => .ite (.pure _) (hclock.bind fun now => ?_)
  exact Action.Respects.bind (.modify (hedit _)) fun _ => .pure _

theorem respects_readTotal (hclock : Action.Respects R (readClock m))
    (hread : Action.Respects R (onMachine m.totalTicks))
    (hedit : ∀ g s t, R s t → R (editSystem g s) (editSystem g t)) :
    Action.Respects R (refresh m .system) :=
  respects_accept hclock (hread.bind fun _ => .ofExcept _) hedit _

theorem respects_readTable (hclock : Action.Respects R (readClock m))
    (hread : Action.Respects R (onMachine m.tickTable)) (hrows : ∀ s t, R s t → s.rows = t.rows)
    (hedit : ∀ g s t, R s t → R (editProcessors g s) (editProcessors g t)) :
    Action.Respects R (refresh m .processors) := by
  refine respects_accept hclock (hread.bind fun table => ?_) hedit _
  refine .get (fun s t h => ?_) fun s => .ofExcept _
  rw [hrows s t h]

theorem respects_refreshIfDue {kind : Scope} (hclock : Action.Respects R (readClock m))
    (htime : ∀ s t, R s t → s.timeOf kind = t.timeOf kind)
    (hrefresh : Action.Respects R (refresh m kind)) (interval : Binary64) :
    Action.Respects R (refreshIfDue m kind interval) := by
  refine hclock.bind fun now => .get (fun s t h => ?_) fun s => .ite (.pure _) hrefresh
  rw [htime s t h]

end Respects

end TickWatch

namespace Meter
variable {σ τ α : Type} {m : Machine σ}

section Keeps
variable {f : Meter σ → τ}

theorem keeps_onWatch {a : Action (TickWatch σ) α}
    (ha : ∀ s : Meter σ, Action.Keeps (fun watch => f { s with watch }) a) :
    Action.Keeps f (onWatch a) := Action.Keeps.on (fun _ => rfl) ha

/-- The two queries about ticks differ in the kind and in the load that is worked out. -/
theorem keeps_refreshed {kind : Scope}
    (hrefresh : ∀ interval, Action.Keeps f (onWatch (TickWatch.refreshIfDue m kind interval)))
    (load : Meter σ → Except Fault α) :
    Action.Keeps f (do
      let interval := (← Action.get).settings.tickInterval
      let _ ← onWatch (TickWatch.refreshIfDue m kind interval)
      Action.ofExcept (load (← Action.get))) := by
  refine Action.Keeps.get.bind fun s => ?_
  refine (hrefresh _).bind fun accepted => ?_
  exact Action.Keeps.get.bind fun t => .ofExcept _

theorem keeps_sampled (hclock : Action.Keeps f (onMachine (.ofState m.clock)))
    (hread : Action.Keeps f (onMachine m.totalTicks))
    (hedit : ∀ (s : Meter σ) system, f { s with watch := { s.watch with system } } = f s) :
    Action.Keeps f (sampled m) := by
  refine keeps_refreshed (fun interval => keeps_onWatch fun s => ?_) _
  have hwatch : Action.Keeps (fun watch => f { s with watch }) (TickWatch.readClock m) :=
    fun watch => hclock { s with watch }
  refine TickWatch.keeps_refreshIfDue hwatch (TickWatch.keeps_readTotal hwatch ?_ ?_) interval
  · exact fun watch => hread { s with watch }
  · exact fun g watch => hedit { s with watch } _

theorem keeps_perProcessor (hclock : Action.Keeps f (onMachine (.ofState m.clock)))
    (hread : Action.Keeps f (onMachine m.tickTable))
    (hedit : ∀ (s : Meter σ) processors, f { s with watch := { s.watch with processors } } = f s) :
    Action.Keeps f (perProcessor m) := by
  refine keeps_refreshed (fun interval => keeps_onWatch fun s => ?_) _
  have hwatch : Action.Keeps (fun watch => f { s with watch }) (TickWatch.readClock m) :=
    fun watch => hclock { s with watch }
  refine TickWatch.keeps_refreshIfDue hwatch (TickWatch.keeps_readTable hwatch ?_ ?_) interval
  · exact fun watch => hread { s with watch }
  · exact fun g watch => hedit { s with watch } _

theorem keeps_ownLoad (hclock : Action.Keeps f (onMachine (.ofState m.clock)))
    (hread : Action.Keeps f (onMachine m.ownLoad))
    (hset : ∀ (s : Meter σ) own, f { s with own := some own } = f s) (kept : OwnReading) :
    Action.Keeps f (ownLoad m kept) := by
  refine hclock.bind fun now => Action.Keeps.get.bind fun s => .ite (.pure _) ?_
  refine hread.bind fun answer => ?_
  exact Action.Keeps.bind (fun s => hset s _) fun _ => .pure _

theorem keeps_instant (hsampled : Action.Keeps f (sampled m))
    (hown : ∀ kept, Action.Keeps f (ownLoad m kept)) : Action.Keeps f (instant m) := by
  refine Action.Keeps.get.bind fun s => ?_
  cases s.own with
  | some kept => exact hown kept
  | none => exact hsampled

theorem keeps_standIn (n : Int) (answer : Except Fault (List Binary64)) :
    Action.Keeps f (standIn n answer) := by
  rcases answer with fault | xs
  · cases fault with
    | machine failure message =>
      exact .ite (Action.Keeps.bind (.note _) fun _ => .pure _) (.ofExcept _)
    | _ => exact .ofExcept _
  · exact .pure _

theorem keeps_averages (hread : Action.Keeps f (onMachine m.averages)) (n : Int) :
    Action.Keeps f (averages m n) := by
  rw [averages_eq]
  exact .ite (.ofExcept _) (Action.Keeps.bind hread (keeps_standIn n))

theorem keeps_onIdentity (hread : Action.Keeps f (onMachine m.identify))
    (hset : ∀ (s : Meter σ) known, f { s with identity := some known } = f s)
    (a : Action Identification α) : Action.Keeps f (onIdentity m a) := by
  refine Action.Keeps.bind ?_ fun _ s => hset s _
  refine Action.Keeps.get.bind fun s => .ite ?_ (.pure _)
  exact hread.bind fun known s => hset s _

/-- What neither shows the identification nor what the machine's other interfaces leave behind is
kept by every query that is not about a load. -/
theorem keeps_quiet (haverages : Action.Keeps f (onMachine m.averages))
    (hidentify : Action.Keeps f (onMachine m.identify))
    (hset : ∀ (s : Meter σ) known, f { s with identity := some known } = f s) {query : Query}
    (hquery : query.Quiet) : Action.Keeps f (ask m query) := by
  cases query with
  | instant => exact hquery.elim
  | sampled => exact hquery.elim
  | perProcessor => exact hquery.elim
  | averages n => exact (keeps_averages haverages n).bind fun xs => .pure _
  | oneMinuteAverage =>
    refine Action.Keeps.bind ?_ fun x => .pure _
    exact (keeps_averages haverages 1).bind fun xs => .ofExcept _
  | identity => exact (keeps_onIdentity hidentify hset _).bind fun known => .pure _
  | name => exact (keeps_onIdentity hidentify hset _).bind fun text => .pure _
  | basis => exact Action.Keeps.get.bind fun s => .pure _
  | counts => exact Action.Keeps.get.bind fun s => .pure _

end Keeps

section Respects
variable {R : Meter σ → Meter σ → Prop}

theorem respects_onWatch {a : Action (TickWatch σ) α}
    (ha : ∀ s t : Meter σ, R s t →
      Action.Respects (fun x y => R { s with watch := x } { t with watch := y }) a) :
    Action.Respects R (onWatch a) := Action.Respects.on (fun _ => rfl) ha

theorem respects_refreshed {kind : Scope}
    (hrefresh : ∀ interval, Action.Respects R (onWatch (TickWatch.refreshIfDue m kind interval)))
    (hsettings : ∀ s t, R s t → s.settings = t.settings) {load : Meter σ → Except Fault α}
    (hload : ∀ s t, R s t → load s = load t) :
    Action.Respects R (do
      let interval := (← Action.get).settings.tickInterval
      let _ ← onWatch (TickWatch.refreshIfDue m kind interval)
      Action.ofExcept (load (← Action.get))) := by
  refine .get (fun s t h => by rw [hsettings s t h]) fun s => ?_
  refine (hrefresh _).bind fun accepted => ?_
  exact .get (fun t u h => by rw [hload t u h]) fun t => .ofExcept _

variable (hclock : Action.Respects R (onMachine (.ofState m.clock)))
variable (hsettings : ∀ s t, R s t → s.settings = t.settings)
include hclock hsettings

theorem respects_sampled (hread : Action.Respects R (onMachine m.totalTicks))
    (hpair : ∀ s t, R s t → s.watch.system = t.watch.system)
    (hedit : ∀ g, Action.Respects R (onWatch (.modify (TickWatch.editSystem g)))) :
    Action.Respects R (sampled m) := by
  refine respects_refreshed (fun interval => respects_onWatch fun s t _ => ?_) hsettings
    fun s t h => congrArg TickPair.load (hpair s t h)
  have hwatch : Action.Respects (fun x y => R { s with watch := x } { t with watch := y })
      (TickWatch.readClock m) := fun x y => hclock { s with watch := x } { t with watch := y }
  refine TickWatch.respects_refreshIfDue hwatch ?_
    (TickWatch.respects_readTotal hwatch ?_ ?_) interval
  · exact fun x y h => congrArg TickPair.time (hpair { s with watch := x } { t with watch := y } h)
  · exact fun x y => hread { s with watch := x } { t with watch := y }
  · exact fun g x y h => (hedit g { s with watch := x } { t with watch := y } h).2

theorem respects_perProcessor (hread : Action.Respects R (onMachine m.tickTable))
    (hrows : ∀ s t, R s t → s.watch.rows = t.watch.rows)
    (hpair : ∀ s t, R s t → s.watch.processors = t.watch.processors)
    (hedit : ∀ g, Action.Respects R (onWatch (.modify (TickWatch.editProcessors g)))) :
    Action.Respects R (perProcessor m) := by
  refine respects_refreshed (fun interval => respects_onWatch fun s t _ => ?_) hsettings
    fun s t h => congrArg TickPair.loads (hpair s t h)
  have hwatch : Action.Respects (fun x y => R { s with watch := x } { t with watch := y })
      (TickWatch.readClock m) := fun x y => hclock { s with watch := x } { t with watch := y }
  refine TickWatch.respects_refreshIfDue hwatch ?_
    (TickWatch.respects_readTable hwatch ?_ ?_ ?_) interval
  · exact fun x y h => congrArg TickPair.time (hpair { s with watch := x } { t with watch := y } h)
  · exact fun x y => hread { s with watch := x } { t with watch := y }
  · exact fun x y h => hrows { s with watch := x } { t with watch := y } h
  · exact fun g x y h => (hedit g { s with watch := x } { t with watch := y } h).2

theorem respects_ownLoad (hread : Action.Respects R (onMachine m.ownLoad))
    (hset : ∀ own s t, R s t → R { s with own := some own } { t with own := some own })
    (kept : OwnReading) : Action.Respects R (ownLoad m kept) := by
  refine hclock.bind fun now => .get (fun s t h => by rw [hsettings s t h]) fun s => ?_
  refine .ite (.pure _) (hread.bind fun answer => ?_)
  exact Action.Respects.bind (.modify (hset _)) fun _ => .pure _

end Respects

end Meter

end ProcessorLoad
