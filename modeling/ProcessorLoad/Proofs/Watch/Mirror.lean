import ProcessorLoad.Proofs.Watch.Steps

/-!
# Observing a watch changes nothing

A watch on an observed machine does what the watch on the machine itself does.
-/

set_option autoImplicit false

namespace ProcessorLoad.TickWatch
variable {σ τ α β : Type}

def mapMachine (f : σ → τ) (s : TickWatch σ) : TickWatch τ :=
  ⟨f s.machine, s.rows, s.system, s.processors⟩

def forget (s : TickWatch (Observed σ)) : TickWatch σ := s.mapMachine Observed.machine

/-- The watch at the beginning of an observation of its machine. -/
def observe (s : TickWatch σ) : TickWatch (Observed σ) := s.mapMachine Observed.start

@[simp] theorem forget_observe (s : TickWatch σ) : s.observe.forget = s := rfl

/-- An action on a watch does the same whether its machine is observed or not. -/
def SameObserved (a : Action (TickWatch (Observed σ)) α) (b : Action (TickWatch σ) α) : Prop :=
  Action.Mirrors forget id a b

theorem mirrors_onMachine {a : Action (Observed σ) α} {b : Action σ α}
    (h : Action.Mirrors Observed.machine id a b) : SameObserved (onMachine a) (onMachine b) :=
  h.on (fun _ => rfl) fun _ _ => rfl

theorem mirrors_readClock (m : Machine σ) : SameObserved (readClock m.observed) (readClock m) :=
  mirrors_onMachine (Observed.mirrors_clock m)

theorem mirrors_fetchTotal (m : Machine σ) : SameObserved (fetchTotal m.observed) (fetchTotal m) :=
  (mirrors_onMachine (Observed.mirrors_noted _ _)).bind_same fun _ => .ofExcept_id _

theorem mirrors_fetchTable (m : Machine σ) : SameObserved (fetchTable m.observed) (fetchTable m) :=
  (mirrors_onMachine (Observed.mirrors_noted _ _)).bind_same fun _ =>
    Action.Mirrors.get.bind fun _ => .ofExcept_id _

section Fetch
variable {fetch : Action (TickWatch (Observed σ)) α} {fetch' : Action (TickWatch σ) α}
variable {edit : Edit (Observed σ) α} {edit' : Edit σ α}

theorem mirrors_edit (hedit : ∀ f s, edit' f s.forget = (edit f s).forget)
    (f : TickPair α → TickPair α) : SameObserved (.modify (edit f)) (.modify (edit' f)) :=
  .modify (hedit f)

theorem mirrors_accept (m : Machine σ) (isZero : α → Bool) (h : SameObserved fetch fetch')
    (hedit : ∀ f s, edit' f s.forget = (edit f s).forget) :
    SameObserved (accept m.observed fetch isZero edit) (accept m fetch' isZero edit') := by
  refine h.bind_same fun a => .ite (.pure_same _) ?_
  refine (mirrors_readClock m).bind_same fun now => ?_
  exact (mirrors_edit hedit _).bind_same fun _ => .pure_same _

theorem mirrors_install (m : Machine σ) (isZero : α → Bool) (h : SameObserved fetch fetch')
    (hedit : ∀ f s, edit' f s.forget = (edit f s).forget) :
    SameObserved (install m.observed fetch isZero edit) (install m fetch' isZero edit') := by
  refine h.bind_same fun a => (mirrors_edit hedit _).bind_same fun _ => .ite (.pure_same _) ?_
  exact (mirrors_readClock m).bind_same fun now => mirrors_edit hedit _

end Fetch

theorem mirrors_refresh (m : Machine σ) (kind : Scope) :
    SameObserved (refresh m.observed kind) (refresh m kind) := by
  cases kind with
  | system =>
    have hedit (f) (s : TickWatch (Observed σ)) :
        editSystem f s.forget = (editSystem f s).forget := rfl
    exact mirrors_accept m _ (mirrors_fetchTotal m) hedit
  | processors =>
    have hedit (f) (s : TickWatch (Observed σ)) :
        editProcessors f s.forget = (editProcessors f s).forget := rfl
    exact mirrors_accept m _ (mirrors_fetchTable m) hedit

theorem mirrors_refreshIfDue (m : Machine σ) (kind : Scope) (interval : Binary64) :
    SameObserved (refreshIfDue m.observed kind interval) (refreshIfDue m kind interval) := by
  refine (mirrors_readClock m).bind_same fun now => Action.Mirrors.get.bind fun s => ?_
  cases kind <;> exact .ite (.pure_same _) (mirrors_refresh m _)

theorem mirrors_prime (m : Machine σ) : SameObserved (prime m.observed) (prime m) := by
  rw [prime_eq, prime_eq]
  refine Action.Mirrors.bind_same (mirrors_install m _ (mirrors_fetchTable m) fun _ _ => rfl)
    fun _ => ?_
  exact mirrors_install m _ (mirrors_fetchTotal m) fun _ _ => rfl

theorem mirrors_start (m : Machine σ) (processors : Int) :
    Action.Mirrors Observed.machine forget (start m.observed processors) (start m processors) := by
  intro o
  have h := mirrors_prime m (new o processors)
  change (prime m).run (new o.machine processors) = _ at h
  simp only [Except.map_id, id] at h
  simp only [start, Action.run] at h ⊢
  rw [h]
  cases ((prime m.observed) (new o processors)).result <;> rfl

end ProcessorLoad.TickWatch
