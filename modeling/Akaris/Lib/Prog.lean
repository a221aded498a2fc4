import Mathlib

/-!
# Programs that can stop, and runs of a system

Two pieces of semantics that name nothing of the kernel.

**Programs.**  `Prog ε σ α` is imperative code: it reads and updates a state `σ`, and either
returns an `α` or stops with a fault `ε` — a fired assertion, a page fault, a read of an
uninitialised variable.  A proof never unfolds the monad: it goes forward with `run_bind_ok`,
which executes the first statement of a sequence, or backward with `run_bind_iff`, which takes a
run that returned apart.  `zoom` runs code of a smaller state inside a larger one.

**Weakest preconditions.**  `wp x Q E s` says that `x` started in `s` returns with `Q` or stops
with `E`.  The simp set computes it statement by statement; `wp_mono` is the rule of consequence,
and `wp_run` trades a known run for what it ends in.

**Frames.**  `Ignores f x` says that `x` does not look at what `f` changes, so that a run in one
state is a run in the other.

**Runs.**  `Reachable init step` holds of the states a system can get into, and
`Reachable.invariant` is the one induction over runs: what holds initially and is preserved by
every step holds in every reachable state.
-/

namespace Akaris

/-- Imperative code over a state `σ` that may stop with a fault `ε`. -/
abbrev Prog (ε σ α : Type) := StateT σ (Except ε) α

namespace Prog

variable {ε σ τ α β : Type}

/-- Stop with a fault. -/
def fault (e : ε) : Prog ε σ α := fun _ => .error e

/-- Read a component of the state. -/
def gets (f : σ → α) : Prog ε σ α := fun s => .ok (f s, s)

/-- Update the state. -/
def update (f : σ → σ) : Prog ε σ Unit := fun s => .ok ((), f s)

/-- Stop with a fault unless a condition holds. -/
def assert (c : Prop) [Decidable c] (e : ε) : Prog ε σ Unit := if c then pure () else fault e

/-- Run code of the state `σ` on a component of the state `τ`. -/
def zoom {ε' : Type} (get : τ → σ) (set : σ → τ → τ) (lift : ε → ε') (x : Prog ε σ α) :
    Prog ε' τ α := fun t =>
  match x.run (get t) with
  | .ok (a, s) => .ok (a, set s t)
  | .error e => .error (lift e)

@[simp] lemma pure_eq_ok (a : α) : (pure a : Except ε α) = .ok a := rfl

@[simp] lemma ok_bind (a : α) (f : α → Except ε β) : (Except.ok a >>= f) = f a := rfl

@[simp] lemma error_bind (e : ε) (f : α → Except ε β) :
    ((Except.error e : Except ε α) >>= f) = .error e := rfl

@[simp] lemma run_fault (e : ε) (s : σ) : (fault e : Prog ε σ α).run s = .error e := rfl

@[simp] lemma run_gets (f : σ → α) (s : σ) : (gets f : Prog ε σ α).run s = .ok (f s, s) := rfl

@[simp] lemma run_update (f : σ → σ) (s : σ) : (update f : Prog ε σ Unit).run s = .ok ((), f s) :=
  rfl

@[simp] lemma run_pure (a : α) (s : σ) : (pure a : Prog ε σ α).run s = .ok (a, s) := rfl

/-- Going forward: the first statement of a sequence returned, so the rest runs on what it left. -/
lemma run_bind_ok {x : Prog ε σ α} {f : α → Prog ε σ β} {s s' : σ} {a : α}
    (h : x.run s = .ok (a, s')) : (x >>= f).run s = (f a).run s' := by
  rw [StateT.run_bind, h]
  rfl

/-- A sequence whose first statement stops, stops. -/
lemma run_bind_error {x : Prog ε σ α} {f : α → Prog ε σ β} {s : σ} {e : ε}
    (h : x.run s = .error e) : (x >>= f).run s = .error e := by
  rw [StateT.run_bind, h]
  rfl

/-- Going backward: a sequence returns when both its parts do. -/
lemma run_bind_iff {x : Prog ε σ α} {f : α → Prog ε σ β} {s : σ} {r : β × σ} :
    (x >>= f).run s = .ok r ↔ ∃ a s', x.run s = .ok (a, s') ∧ (f a).run s' = .ok r := by
  rw [StateT.run_bind]
  cases h : x.run s with
  | error e => simp [Bind.bind, Except.bind]
  | ok p =>
      obtain ⟨a, s'⟩ := p
      simp [Bind.bind, Except.bind]

/-- The state a run ends in; it stays where it was when the run stops. -/
def after (x : Prog ε σ α) (s : σ) : σ :=
  match x.run s with
  | .ok p => p.2
  | .error _ => s

/-- A run whose result is known: only the result has to be computed. -/
lemma run_after {x : Prog ε σ α} {s : σ} {a : α}
    (h : (x.run s).toOption.map Prod.fst = some a) : x.run s = .ok (a, after x s) := by
  unfold after
  cases hx : x.run s with
  | error e => simp [hx, Except.toOption] at h
  | ok p =>
      obtain ⟨b, s'⟩ := p
      simp only [hx, Except.toOption, Option.map_some, Option.some.injEq] at h
      rw [h]

@[simp] lemma run_bind_gets (g : σ → α) (f : α → Prog ε σ β) (s : σ) :
    (gets g >>= f).run s = (f (g s)).run s := rfl

@[simp] lemma run_bind_update (g : σ → σ) (f : Unit → Prog ε σ β) (s : σ) :
    (update g >>= f).run s = (f ()).run (g s) := rfl

@[simp] lemma run_bind_pure (a : α) (f : α → Prog ε σ β) (s : σ) :
    (pure a >>= f).run s = (f a).run s := rfl

@[simp] lemma run_bind_fault (e : ε) (f : α → Prog ε σ β) (s : σ) :
    (fault e >>= f).run s = .error e := rfl

@[simp] lemma run_bind_assert {c : Prop} [Decidable c] (h : c) (e : ε) (f : Unit → Prog ε σ β)
    (s : σ) : (assert c e >>= f).run s = (f ()).run s := by
  rw [assert, if_pos h, run_bind_pure]

/-- An assertion that holds does nothing. -/
lemma assert_bind {c : Prop} [Decidable c] (h : c) (e : ε) (f : Unit → Prog ε σ β) :
    (assert c e >>= f) = f () := by
  rw [assert, if_pos h, pure_bind]

/-- What is behind an assertion that let the run pass. -/
lemma assert_of_run {c : Prop} [Decidable c] {e : ε} {f : Unit → Prog ε σ β} {s : σ} {r : β × σ}
    (hrun : (assert c e >>= f).run s = .ok r) : c ∧ (f ()).run s = .ok r := by
  by_cases h : c
  · rw [assert_bind h] at hrun
    exact ⟨h, hrun⟩
  · rw [assert, if_neg h, run_bind_fault] at hrun
    exact absurd hrun (by simp)

/-- A zoomed run returns when the run of the component does. -/
lemma run_zoom_ok {ε' : Type} {get : τ → σ} {set : σ → τ → τ} {lift : ε → ε'} {x : Prog ε σ α}
    {t : τ} {a : α} {s : σ} (h : x.run (get t) = .ok (a, s)) :
    (zoom get set lift x).run t = .ok (a, set s t) := by
  show zoom get set lift x t = _
  rw [zoom, h]

/-! ### Weakest preconditions -/

/-- `x` started in `s` returns with `Q` or stops with `E`. -/
def wp (x : Prog ε σ α) (Q : α → σ → Prop) (E : ε → Prop) (s : σ) : Prop :=
  match x.run s with
  | .ok (a, s') => Q a s'
  | .error e => E e

section Wp

variable {Q R : α → σ → Prop} {E F : ε → Prop} {s : σ}

@[simp] lemma wp_pure (a : α) : wp (pure a : Prog ε σ α) Q E s ↔ Q a s := Iff.rfl

@[simp] lemma wp_fault (e : ε) : wp (fault e : Prog ε σ α) Q E s ↔ E e := Iff.rfl

@[simp] lemma wp_gets {Q : β → σ → Prop} (f : σ → β) : wp (gets f) Q E s ↔ Q (f s) s := Iff.rfl

@[simp] lemma wp_update {Q : Unit → σ → Prop} (f : σ → σ) :
    wp (update f) Q E s ↔ Q () (f s) := Iff.rfl

@[simp] lemma wp_assert {Q : Unit → σ → Prop} (c : Prop) [Decidable c] (e : ε) :
    wp (assert c e) Q E s ↔ (c → Q () s) ∧ (¬c → E e) := by
  by_cases hc : c <;> simp [assert, hc]

/-- The rule for a sequence. -/
@[simp] lemma wp_bind {Q : β → σ → Prop} (x : Prog ε σ α) (f : α → Prog ε σ β) :
    wp (x >>= f) Q E s ↔ wp x (fun a => wp (f a) Q E) E s := by
  unfold wp
  cases h : x.run s with
  | error e => rw [run_bind_error h]
  | ok p =>
      have h' : x.run s = .ok (p.1, p.2) := h
      rw [run_bind_ok h']

/-- The rule of consequence. -/
lemma wp_mono {x : Prog ε σ α} (h : wp x Q E s) (hQ : ∀ a s', Q a s' → R a s')
    (hE : ∀ e, E e → F e) : wp x R F s := by
  unfold wp at h ⊢
  cases hx : x.run s with
  | error e => rw [hx] at h; exact hE _ h
  | ok p => rw [hx] at h; exact hQ _ _ h

/-- Two things that are promised are both promised. -/
lemma wp_and {x : Prog ε σ α} (h : wp x Q E s) (h' : wp x R F s) :
    wp x (fun a s' => Q a s' ∧ R a s') (fun e => E e ∧ F e) s := by
  unfold wp at h h' ⊢
  cases hx : x.run s with
  | error e =>
      rw [hx] at h h'
      exact ⟨h, h'⟩
  | ok p =>
      rw [hx] at h h'
      exact ⟨h, h'⟩

/-- Code of which nothing is asked. -/
lemma wp_any (x : Prog ε σ α) (s : σ) : wp x (fun _ _ => True) (fun _ => True) s := by
  unfold wp
  cases x.run s <;> trivial

/-- Code that runs in the same way promises the same. -/
lemma wp_congr {x y : Prog ε σ α} {s' : σ} (h : x.run s = y.run s') :
    wp x Q E s ↔ wp y Q E s' := by
  rw [wp, wp, h]

/-- A known run: its result decides. -/
lemma wp_of_run {x : Prog ε σ α} {a : α} {s' : σ} (hx : x.run s = .ok (a, s')) :
    wp x Q E s ↔ Q a s' := by
  rw [wp, hx]

/-- What a precondition promises of a run that returned. -/
lemma wp_run {x : Prog ε σ α} {a : α} {s' : σ} (h : wp x Q E s) (hx : x.run s = .ok (a, s')) :
    Q a s' := by
  rw [wp, hx] at h
  exact h

/-- What a precondition promises of a run that stopped. -/
lemma wp_stop {x : Prog ε σ α} {e : ε} (h : wp x Q E s) (hx : x.run s = .error e) : E e := by
  rw [wp, hx] at h
  exact h

/-- Code that does not stop returns. -/
lemma wp_returns {x : Prog ε σ α} (h : wp x Q (fun _ => False) s) :
    ∃ a s', x.run s = .ok (a, s') ∧ Q a s' := by
  unfold wp at h
  cases hx : x.run s with
  | error e =>
      rw [hx] at h
      exact h.elim
  | ok p =>
      rw [hx] at h
      exact ⟨p.1, p.2, rfl, h⟩

/-- Every run ends in itself. -/
lemma wp_self (x : Prog ε σ α) (s : σ) :
    wp x (fun a s' => x.run s = .ok (a, s')) (fun e => x.run s = .error e) s := by
  unfold wp
  cases h : x.run s <;> rfl

/-- The rule for a component: its own precondition, on the component. -/
@[simp] lemma wp_zoom {ε' : Type} {get : τ → σ} {set : σ → τ → τ} {lift : ε → ε'}
    {x : Prog ε σ α} {Q : α → τ → Prop} {E : ε' → Prop} {t : τ} :
    wp (zoom get set lift x) Q E t ↔
      wp x (fun a s => Q a (set s t)) (fun e => E (lift e)) (get t) := by
  unfold wp
  have hrun : (zoom get set lift x).run t = match x.run (get t) with
    | .ok (a, s) => .ok (a, set s t)
    | .error e => .error (lift e) := rfl
  rw [hrun]
  cases x.run (get t) <;> rfl

end Wp

/-! ### What a program does not look at -/

/-- `x` neither reads nor writes what `f` changes: it runs in the same way before and after. -/
def Ignores (f : σ → σ) (x : Prog ε σ α) : Prop :=
  ∀ s, x.run (f s) = (x.run s).map fun p => (p.1, f p.2)

section Ignores

variable {f : σ → σ}

lemma Ignores.pure (a : α) : Ignores f (Pure.pure a : Prog ε σ α) := fun _ => rfl

lemma Ignores.fault (e : ε) : Ignores f (Prog.fault e : Prog ε σ α) := fun _ => rfl

lemma Ignores.gets {g : σ → α} (hg : ∀ s, g (f s) = g s) : Ignores f (Prog.gets g : Prog ε σ α) := by
  intro s
  rw [run_gets, run_gets, hg]
  rfl

lemma Ignores.update {g : σ → σ} (hg : ∀ s, g (f s) = f (g s)) :
    Ignores f (Prog.update g : Prog ε σ Unit) := by
  intro s
  rw [run_update, run_update, hg]
  rfl

lemma Ignores.bind {x : Prog ε σ α} {g : α → Prog ε σ β} (hx : Ignores f x)
    (hg : ∀ a, Ignores f (g a)) : Ignores f (x >>= g) := by
  intro s
  rw [StateT.run_bind, StateT.run_bind, hx s]
  cases x.run s with
  | error e => rfl
  | ok p => exact hg p.1 p.2

lemma Ignores.ite {x y : Prog ε σ α} {c : Prop} [Decidable c] (hx : Ignores f x)
    (hy : Ignores f y) : Ignores f (if c then x else y) := by
  split_ifs
  · exact hx
  · exact hy

end Ignores

end Prog

/-! ## Runs -/

section Runs

variable {σ : Type} {init : σ → Prop} {step : σ → σ → Prop}

/-- The states that a run from an initial state passes through. -/
inductive Reachable (init : σ → Prop) (step : σ → σ → Prop) : σ → Prop
  | base {s : σ} : init s → Reachable init step s
  | tail {s s' : σ} : Reachable init step s → step s s' → Reachable init step s'

/-- **The induction over runs.**  An invariant holds of every reachable state. -/
theorem Reachable.invariant {I : σ → Prop} (hinit : ∀ s, init s → I s)
    (hstep : ∀ s s', I s → step s s' → I s') {s : σ} (h : Reachable init step s) : I s := by
  induction h with
  | base h => exact hinit _ h
  | tail _ hs ih => exact hstep _ _ ih hs

end Runs

end Akaris
