import Mathlib.Data.List.Induction
import ProcessorLoad.Action
import ProcessorLoad.Proofs.Result

/-!
# How actions end, mirror each other and follow each other

`Action.Ends` says what holds of the result and the state after an action. It goes through a
sequence of steps from the front, so that a longer action is taken apart with one rule.
`Action.Mirrors` says that an action does on a part of a state what another one does on the whole,
`Action.Keeps` that it leaves a part of the state alone, `Action.Advances` that it leads to a
related state, `Action.Respects` that it makes no difference between states that are related, and
`Action.Yields` that it never fails. `Action.runAll` puts any number of actions into a row, where a
fault does not end the row.
-/

set_option autoImplicit false

namespace ProcessorLoad

namespace Action
variable {σ τ α β γ δ : Type}

theorem map_id_eq (a : Action σ α) : id <$> a = a := by
  funext s
  change (a >>= pure) s = a s
  cases h : a s with
  | mk r t log => cases r <;> simp [bind, pure, h]

theorem bind_bind_eq (a : Action σ α) (k : α → Action σ β) (l : β → Action σ γ) :
    a >>= k >>= l = a >>= fun x => k x >>= l := by
  funext s
  cases h : a s with
  | mk r t log =>
    cases r with
    | error e => simp [bind, h]
    | ok x =>
      cases h' : k x t with
      | mk r' u log' => cases r' <;> simp [bind, h, h']

instance : LawfulMonad (Action σ) := LawfulMonad.mk' _ map_id_eq (fun _ _ => rfl) bind_bind_eq

theorem run_bind_congr {a b : Action σ α} {s : σ} (h : a.run s = b.run s) (k : α → Action σ β) :
    (a >>= k).run s = (b >>= k).run s := by
  simp only [run, bind] at h ⊢
  rw [h]

/-- `P` holds of the result and of the state after the action. -/
def Ends (a : Action σ α) (s : σ) (P : Except Fault α → σ → Prop) : Prop :=
  P (a.run s).result (a.run s).state

theorem Ends.mono {a : Action σ α} {s : σ} {P Q : Except Fault α → σ → Prop} (h : a.Ends s Q)
    (hPQ : ∀ r t, Q r t → P r t) : a.Ends s P := hPQ _ _ h

/-- The rule for a sequence: a fault of the first step ends it, and its value goes to the rest. -/
theorem Ends.bind {a : Action σ α} {k : α → Action σ β} {s : σ} {Q : Except Fault α → σ → Prop}
    {P : Except Fault β → σ → Prop} (h : a.Ends s Q)
    (hok : ∀ x t, Q (.ok x) t → (k x).Ends t P)
    (herror : ∀ e t, Q (.error e) t → P (.error e) t) : (a >>= k).Ends s P := by
  unfold Ends at h ⊢
  generalize ho : a.run s = o at h
  obtain ⟨_ | x, t, log⟩ := o
  · rw [run_bind_error ho]
    exact herror _ _ h
  · rw [run_bind_ok ho]
    exact hok x t h

theorem ok_of_run_bind {a : Action σ α} {k : α → Action σ β} {s : σ} {b : β}
    (h : ((a >>= k).run s).result = .ok b) :
    ∃ x, (a.run s).result = .ok x ∧ ((k x).run (a.run s).state).result = .ok b := by
  generalize ho : a.run s = o
  obtain ⟨_ | x, t, log⟩ := o
  · rw [run_bind_error ho] at h
    cases h
  · rw [run_bind_ok ho] at h
    exact ⟨x, rfl, h⟩

theorem ends_attempt {a : Action σ α} {s : σ} {P : Except Fault (Except Fault α) → σ → Prop} :
    a.attempt.Ends s P ↔ a.Ends s fun r t => P (.ok r) t := Iff.rfl

theorem run_map (a : Action σ α) (f : α → β) (s : σ) :
    (a >>= fun x => pure (f x)).run s
      = ⟨f <$> (a.run s).result, (a.run s).state, (a.run s).log⟩ := by
  generalize ho : a.run s = o
  obtain ⟨_ | x, t, log⟩ := o
  · exact run_bind_error ho
  · rw [run_bind_ok ho]
    simp [run, pure, Functor.map, Except.map]

theorem state_map (a : Action σ α) (f : α → β) (s : σ) :
    ((a >>= fun x => pure (f x)).run s).state = (a.run s).state := by rw [run_map]

theorem ends_map {a : Action σ α} {f : α → β} {s : σ} {P : Except Fault β → σ → Prop} :
    (a >>= fun x => pure (f x)).Ends s P ↔ a.Ends s fun r t => P (f <$> r) t := by
  unfold Ends
  rw [run_map]

theorem ends_get_bind {s : σ} {k : σ → Action σ β} {P : Except Fault β → σ → Prop} :
    (get >>= k).Ends s P ↔ (k s).Ends s P := Iff.rfl

theorem ends_modify_bind {s : σ} {f : σ → σ} {k : Unit → Action σ β}
    {P : Except Fault β → σ → Prop} :
    (modify f >>= k).Ends s P ↔ (k ()).Ends (f s) P := Iff.rfl

/-- `b` does at `f s` what `a` does at `s`, with an answer that corresponds by `g`. -/
def Mirrors (f : σ → τ) (g : α → β) (a : Action σ α) (b : Action τ β) : Prop :=
  ∀ s, b.run (f s) = ⟨(a.run s).result.map g, f (a.run s).state, (a.run s).log⟩

namespace Mirrors
variable {f : σ → τ} {g : α → β} {h : γ → δ}

theorem bind {a : Action σ α} {b : Action τ β} {k : α → Action σ γ} {l : β → Action τ δ}
    (hab : Mirrors f g a b) (hkl : ∀ x, Mirrors f h (k x) (l (g x))) :
    Mirrors f h (a >>= k) (b >>= l) := by
  intro s
  have hs := hab s
  generalize ho : a.run s = o at hs
  obtain ⟨_ | x, t, log⟩ := o
  · rw [run_bind_error ho, run_bind_error hs]
    rfl
  · rw [run_bind_ok ho, run_bind_ok hs, hkl x t]

theorem bind_same {a : Action σ α} {b : Action τ α} {k : α → Action σ γ} {l : α → Action τ δ}
    (hab : Mirrors f id a b) (hkl : ∀ x, Mirrors f h (k x) (l x)) :
    Mirrors f h (a >>= k) (b >>= l) := hab.bind hkl

theorem pure (x : α) : Mirrors f g (Pure.pure x) (Pure.pure (g x)) := fun _ => rfl

theorem pure_same (x : α) : Mirrors f id (Pure.pure x) (Pure.pure x) := fun _ => rfl

theorem get : Mirrors f f Action.get Action.get := fun _ => rfl

theorem modify {u : σ → σ} {v : τ → τ} (huv : ∀ s, v (f s) = f (u s)) :
    Mirrors f id (Action.modify u) (Action.modify v) := by
  intro s
  simp only [run, Action.modify, huv, Except.map, id]

theorem ofExcept_id (r : Except Fault α) :
    Mirrors f id (Action.ofExcept r) (Action.ofExcept r) := by
  intro s
  simp only [run, Action.ofExcept, Except.map_id, id]

theorem fail (e : Fault) : Mirrors f g (Action.fail e) (Action.fail e) := fun _ => rfl

theorem note (level : LogLevel) : Mirrors f id (Action.note level) (Action.note level) :=
  fun _ => rfl

theorem attempt {a : Action σ α} {b : Action τ α} (hab : Mirrors f id a b) :
    Mirrors f id a.attempt b.attempt := by
  intro s
  have hs := hab s
  simp only [run, Except.map_id, id] at hs
  simp only [run, Action.attempt, hs]
  rfl

theorem on {ρ ω : Type} {F : ρ → ω} {a : Action σ α} {b : Action τ β} (hab : Mirrors f g a b)
    {part : ρ → σ} {put : σ → ρ → ρ} {part' : ω → τ} {put' : τ → ω → ω}
    (hpart : ∀ t, part' (F t) = f (part t)) (hput : ∀ s t, put' (f s) (F t) = F (put s t)) :
    Mirrors F g (a.on part put) (b.on part' put') := by
  intro t
  have hs := hab (part t)
  simp only [run] at hs
  simp only [run, Action.on, hpart, hs, hput]

theorem ite {c : Prop} [Decidable c] {a a' : Action σ α} {b b' : Action τ β}
    (hab : Mirrors f g a b) (hab' : Mirrors f g a' b') :
    Mirrors f g (if c then a else a') (if c then b else b') := by
  split
  · exact hab
  · exact hab'

end Mirrors

/-- The action leaves a part of the state as it is, also if it fails. -/
def Keeps (f : σ → τ) (a : Action σ α) : Prop := ∀ s, f (a.run s).state = f s

namespace Keeps
variable {f : σ → τ}

theorem bind {a : Action σ α} {k : α → Action σ β} (ha : Keeps f a) (hk : ∀ x, Keeps f (k x)) :
    Keeps f (a >>= k) := by
  intro s
  have hs := ha s
  generalize ho : a.run s = o at hs
  obtain ⟨_ | x, t, log⟩ := o
  · rw [run_bind_error ho]
    exact hs
  · rw [run_bind_ok ho]
    exact (hk x t).trans hs

theorem pure (x : α) : Keeps f (Pure.pure x) := fun _ => rfl

theorem get : Keeps f Action.get := fun _ => rfl

theorem ofExcept (r : Except Fault α) : Keeps f (Action.ofExcept r) := fun _ => rfl

theorem note (level : LogLevel) : Keeps f (Action.note level) := fun _ => rfl

theorem ite {c : Prop} [Decidable c] {a b : Action σ α} (ha : Keeps f a) (hb : Keeps f b) :
    Keeps f (if c then a else b) := by
  split
  · exact ha
  · exact hb

/-- An action on a part keeps what it keeps with the rest held fixed. -/
theorem on {F : τ → β} {a : Action σ α} {part : τ → σ} {put : σ → τ → τ}
    (hput : ∀ t, put (part t) t = t) (ha : ∀ t, Keeps (fun s => F (put s t)) a) :
    Keeps F (a.on part put) := fun t => (ha t (part t)).trans (congrArg F (hput t))

end Keeps

/-- The action leads from every state to one that is related to it, also if it fails. -/
def Advances (R : σ → σ → Prop) (a : Action σ α) : Prop := ∀ s, R s (a.run s).state

namespace Advances
variable {R : σ → σ → Prop}

theorem bind (htrans : ∀ {s t u}, R s t → R t u → R s u) {a : Action σ α} {k : α → Action σ β}
    (ha : Advances R a) (hk : ∀ x, Advances R (k x)) : Advances R (a >>= k) := by
  intro s
  have hs := ha s
  generalize ho : a.run s = o at hs
  obtain ⟨_ | x, t, log⟩ := o
  · rw [run_bind_error ho]
    exact hs
  · rw [run_bind_ok ho]
    exact htrans hs (hk x t)

end Advances

/-- From two states that are related the action comes to the same end, in states that are related
again. -/
def Respects (R : σ → σ → Prop) (a : Action σ α) : Prop := ∀ s t, R s t →
  (a.run s).result = (a.run t).result ∧ R (a.run s).state (a.run t).state

namespace Respects
variable {R : σ → σ → Prop}

theorem bind {a : Action σ α} {k : α → Action σ β} (ha : Respects R a)
    (hk : ∀ x, Respects R (k x)) : Respects R (a >>= k) := by
  intro s t h
  have hst := ha s t h
  generalize hs : a.run s = o at hst
  generalize ht : a.run t = p at hst
  obtain ⟨result, s', log⟩ := o
  obtain ⟨result', t', log'⟩ := p
  obtain ⟨hresult, hstate⟩ := hst
  cases hresult
  cases result with
  | error fault =>
    rw [run_bind_error hs, run_bind_error ht]
    exact ⟨rfl, hstate⟩
  | ok x =>
    rw [run_bind_ok hs, run_bind_ok ht]
    exact hk x s' t' hstate

theorem pure (x : α) : Respects R (Pure.pure x) := fun _ _ h => ⟨rfl, h⟩

theorem ofExcept (r : Except Fault α) : Respects R (Action.ofExcept r) := fun _ _ h => ⟨rfl, h⟩

theorem modify {f : σ → σ} (hf : ∀ s t, R s t → R (f s) (f t)) : Respects R (Action.modify f) :=
  fun s t h => ⟨rfl, hf s t h⟩

/-- What goes by the state may do so only where related states make no difference. -/
theorem get {k : σ → Action σ α} (hsame : ∀ s t, R s t → k s = k t) (hk : ∀ s, Respects R (k s)) :
    Respects R (Action.get >>= k) := by
  intro s t h
  have hrun : (Action.get >>= k).run t = (k s).run t := by
    rw [hsame s t h]
    rfl
  rw [hrun]
  exact hk s s t h

theorem ite {c : Prop} [Decidable c] {a b : Action σ α} (ha : Respects R a) (hb : Respects R b) :
    Respects R (if c then a else b) := by
  split
  · exact ha
  · exact hb

theorem on {R : τ → τ → Prop} {a : Action σ α} {part : τ → σ} {put : σ → τ → τ}
    (hput : ∀ t, put (part t) t = t)
    (ha : ∀ s t, R s t → Respects (fun x y => R (put x s) (put y t)) a) :
    Respects R (a.on part put) := by
  intro s t h
  refine ha s t h (part s) (part t) ?_
  dsimp only
  rwa [hput, hput]

end Respects

def Yields (a : Action σ α) (P : α → Prop) : Prop := ∀ s, Succeeds (a.run s).result P

namespace Yields
variable {a : Action σ α} {P : α → Prop} {Q : β → Prop}

theorem bind {k : α → Action σ β} (ha : a.Yields P) (hk : ∀ x, P x → (k x).Yields Q) :
    (a >>= k).Yields Q := by
  intro s
  obtain ⟨x, hx, hP⟩ := ha s
  generalize ho : a.run s = o at hx
  obtain ⟨result, t, log⟩ := o
  cases hx
  rw [run_bind_ok ho]
  exact hk x hP t

theorem pure {x : α} (h : P x) : Yields (σ := σ) (Pure.pure x) P := fun _ => ⟨x, rfl, h⟩

theorem get : Yields (Action.get : Action σ σ) fun _ => True := fun s => ⟨s, rfl, trivial⟩

theorem modify (f : σ → σ) : Yields (Action.modify f) fun _ => True := fun _ => ⟨(), rfl, trivial⟩

theorem ofState (f : σ → α × σ) : Yields (Action.ofState f) fun _ => True :=
  fun _ => ⟨_, rfl, trivial⟩

theorem ofExcept {r : Except Fault α} (h : Succeeds r P) : Yields (σ := σ) (Action.ofExcept r) P :=
  fun _ => h

theorem on (ha : a.Yields P) (part : τ → σ) (put : σ → τ → τ) : (a.on part put).Yields P :=
  fun t => ha (part t)

end Yields

section Runs
variable {ι ρ : Type} (act : ι → Action σ α) (record : ι → σ → ρ)

/-- One action after the other, also after a fault, with a record of each; the records are oldest
first. -/
def runAll : List ι → σ → List ρ × σ
  | [], s => ([], s)
  | i :: rest, s =>
    let later := runAll rest ((act i).run s).state
    (record i s :: later.1, later.2)

theorem runAll_append (front back : List ι) (s : σ) :
    runAll act record (front ++ back) s =
      ((runAll act record front s).1 ++ (runAll act record back (runAll act record front s).2).1,
        (runAll act record back (runAll act record front s).2).2) := by
  induction front generalizing s with
  | nil => rfl
  | cons i front ih => simp only [List.cons_append, runAll, ih]

/-- Every record of a run is that of an action in the state that the actions before it lead to. -/
theorem exists_of_runAll_eq_append {all : List ι} {s : σ} {front back : List ρ} {r : ρ}
    (h : (runAll act record all s).1 = front ++ r :: back) :
    ∃ earlier i later, all = earlier ++ i :: later ∧ (runAll act record earlier s).1 = front ∧
      record i (runAll act record earlier s).2 = r := by
  induction all generalizing s front with
  | nil => simp [runAll] at h
  | cons i all ih =>
    cases front with
    | nil => exact ⟨[], i, all, rfl, rfl, (List.cons.inj h).1⟩
    | cons r' front =>
      obtain ⟨hfirst, hrest⟩ := List.cons.inj h
      obtain ⟨earlier, j, later, rfl, hfront, hr⟩ := ih hrest
      refine ⟨i :: earlier, j, later, rfl, ?_, hr⟩
      rw [runAll, hfirst, hfront]

/-- What holds at the start and is kept by each step holds at the end of every run. -/
theorem runAll_induction {P : List ρ → σ → Prop} {s : σ} (hstart : P [] s)
    (hstep : ∀ rs t i, P rs t → P (rs ++ [record i t]) ((act i).run t).state) (all : List ι) :
    P (runAll act record all s).1 (runAll act record all s).2 := by
  induction all using List.reverseRecOn with
  | nil => exact hstart
  | append_singleton front i ih =>
    rw [runAll_append]
    exact hstep _ _ i ih

end Runs

end Action

end ProcessorLoad
