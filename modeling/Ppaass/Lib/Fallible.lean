import Mathlib.Control.Lawful

/-!
# Methods that return early and keep their changes

A method `fn f(&mut self, …) -> Result<T, E>` that leaves with `?` keeps
every change it made to `self` before it left. In Lean it is a computation
of `ExceptT ε (StateM σ)`, whose `throw` keeps the state, unlike
`StateT σ (Except ε)`.

`Triple x s Q E` is its Hoare triple: run from `s`, `x` returns `a` in a
state where `Q a` holds, or fails with `e` in a state where `E e` holds.
The rules below follow the shape of a method body: one per primitive
(`pure`, `throw`, `get`, `set`, `modify`, a lifted `Result`), the
sequencing rule `Triple.bind`, the consequence rule `Triple.mono`, and
`Triple.of_run_ok` and `Triple.of_run_error`, which read a triple back at a
run, and `Triple.run_eq`, which reads a run off a triple that rules failure
out.
-/

namespace Ppaass.Fallible

variable {σ ε α β : Type}

/-- Run from `s`, `x` returns into `Q` or fails into `E`. -/
def Triple (x : ExceptT ε (StateM σ) α) (s : σ) (Q : α → σ → Prop) (E : ε → σ → Prop) : Prop :=
  match x.run.run s with
  | (.ok a, s') => Q a s'
  | (.error e, s') => E e s'

theorem run_bind (x : ExceptT ε (StateM σ) α) (f : α → ExceptT ε (StateM σ) β) (s : σ) :
    (x >>= f).run.run s = match x.run.run s with
      | (.ok a, s') => (f a).run.run s'
      | (.error e, s') => (.error e, s') := by
  rw [ExceptT.run_bind, StateT.run_bind]
  rcases x.run.run s with ⟨_ | _, _⟩ <;> rfl

variable {x : ExceptT ε (StateM σ) α} {s : σ} {Q : α → σ → Prop} {E : ε → σ → Prop}

/-- The sequencing rule: the second part runs from what the first returned. -/
theorem Triple.bind {f : α → ExceptT ε (StateM σ) β} {R : α → σ → Prop} {Q : β → σ → Prop}
    (hx : Triple x s R E) (hf : ∀ a s', R a s' → Triple (f a) s' Q E) :
    Triple (x >>= f) s Q E := by
  unfold Triple at hx ⊢
  rw [run_bind]
  revert hx
  rcases x.run.run s with ⟨_ | a, s'⟩
  · exact id
  · exact hf a s'

theorem Triple.pure {a : α} (h : Q a s) : Triple (pure a) s Q E := h

theorem Triple.throw {e : ε} (h : E e s) : Triple (throw e : ExceptT ε (StateM σ) α) s Q E := h

theorem Triple.get {Q : σ → σ → Prop} (h : Q s s) : Triple (get : ExceptT ε (StateM σ) σ) s Q E :=
  h

theorem Triple.set {s' : σ} {Q : PUnit → σ → Prop} (h : Q ⟨⟩ s') :
    Triple (set s' : ExceptT ε (StateM σ) PUnit) s Q E := h

theorem Triple.modify {f : σ → σ} {Q : PUnit → σ → Prop} (h : Q ⟨⟩ (f s)) :
    Triple (modify f : ExceptT ε (StateM σ) PUnit) s Q E := h

/-- A `Result` used with `?`: the state is left as it is either way. -/
theorem Triple.lift {r : Except ε α} (hok : ∀ a, r = .ok a → Q a s)
    (herr : ∀ e, r = .error e → E e s) : Triple (monadLift r : ExceptT ε (StateM σ) α) s Q E := by
  unfold Triple
  cases r with
  | error e => exact herr e rfl
  | ok a => exact hok a rfl

/-- The consequence rule. -/
theorem Triple.mono {Q' : α → σ → Prop} {E' : ε → σ → Prop} (h : Triple x s Q E)
    (hQ : ∀ a s', Q a s' → Q' a s') (hE : ∀ e s', E e s' → E' e s') : Triple x s Q' E' := by
  unfold Triple at h ⊢
  revert h
  rcases x.run.run s with ⟨_ | a, s'⟩
  · exact hE _ _
  · exact hQ _ _

theorem Triple.of_run_ok (h : Triple x s Q E) {a : α} {s' : σ} (hrun : x.run.run s = (.ok a, s')) :
    Q a s' := by
  unfold Triple at h
  rw [hrun] at h
  exact h

theorem Triple.of_run_error (h : Triple x s Q E) {e : ε} {s' : σ}
    (hrun : x.run.run s = (.error e, s')) : E e s' := by
  unfold Triple at h
  rw [hrun] at h
  exact h

/-- The run of `x`, from a triple whose failure side is empty. -/
theorem Triple.run_eq {a : α} {s' : σ}
    (h : Triple x s (fun b t => b = a ∧ t = s') (fun _ _ => False)) :
    x.run.run s = (.ok a, s') := by
  unfold Triple at h
  revert h
  rcases x.run.run s with ⟨_ | b, t⟩
  · exact False.elim
  · rintro ⟨rfl, rfl⟩
    rfl

end Ppaass.Fallible
