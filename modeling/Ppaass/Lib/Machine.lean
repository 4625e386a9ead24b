import Mathlib.Logic.Relation

/-!
# Machines, runs and simulations

Two shapes of stateful component recur in the development. A deterministic
machine answers each request with an output and a next state; its run over a
list of requests is the list of outputs. A nondeterministic system is a step
relation over states; what holds of it holds of every reachable state.

`run_simulation` is the refinement rule for the first shape: a relation that
every step preserves, with equal outputs, makes two machines give the same
outputs on every list of requests. `run_simulationOn` is its form for a
machine against an abstract one that reads other requests and gives other
answers, under a guard on the requests. `final_history` is the invariant rule
for what holds of a state with the requests and outputs that led to it.
`Reachable.induction_on` is the invariant rule for the second.
-/

namespace Ppaass.Machine

-- ---------------------------------------------------------------------------
-- Deterministic machines
-- ---------------------------------------------------------------------------

section Run

variable {σ τ ι ο : Type _}

/-- The outputs of a machine `step` started in `s` on the requests `is`. -/
def run (step : σ → ι → σ × ο) : σ → List ι → List ο
  | _, [] => []
  | s, i :: is => (step s i).2 :: run step (step s i).1 is

/-- The state a machine is left in after the requests `is`. -/
def final (step : σ → ι → σ × ο) : σ → List ι → σ
  | s, [] => s
  | s, i :: is => final step (step s i).1 is

@[simp] theorem run_nil (step : σ → ι → σ × ο) (s : σ) : run step s [] = [] := rfl

@[simp] theorem run_cons (step : σ → ι → σ × ο) (s : σ) (i : ι) (is : List ι) :
    run step s (i :: is) = (step s i).2 :: run step (step s i).1 is := rfl

@[simp] theorem final_nil (step : σ → ι → σ × ο) (s : σ) : final step s [] = s := rfl

@[simp] theorem final_cons (step : σ → ι → σ × ο) (s : σ) (i : ι) (is : List ι) :
    final step s (i :: is) = final step (step s i).1 is := rfl

theorem length_run (step : σ → ι → σ × ο) (s : σ) (is : List ι) :
    (run step s is).length = is.length := by
  induction is generalizing s with
  | nil => rfl
  | cons i is ih => simp [ih]

/-- A relation between the states of two machines that each request keeps,
giving the same output on both sides. -/
def Simulates (step : σ → ι → σ × ο) (step' : τ → ι → τ × ο) (R : σ → τ → Prop) : Prop :=
  ∀ s t i, R s t → R (step s i).1 (step' t i).1 ∧ (step s i).2 = (step' t i).2

theorem final_simulation {step : σ → ι → σ × ο} {step' : τ → ι → τ × ο} {R : σ → τ → Prop}
    (hsim : Simulates step step' R) {s : σ} {t : τ} (hst : R s t) (is : List ι) :
    R (final step s is) (final step' t is) := by
  induction is generalizing s t with
  | nil => exact hst
  | cons i is ih => exact ih (hsim s t i hst).1

theorem run_simulation {step : σ → ι → σ × ο} {step' : τ → ι → τ × ο} {R : σ → τ → Prop}
    (hsim : Simulates step step' R) {s : σ} {t : τ} (hst : R s t) (is : List ι) :
    run step s is = run step' t is := by
  induction is generalizing s t with
  | nil => rfl
  | cons i is ih =>
    obtain ⟨hnext, hout⟩ := hsim s t i hst
    simp only [run_cons, hout, ih hnext]

/-- A relation between the states of a machine and of an abstract one that
every request the guard `G` admits keeps, the machine, given the request as
`inp` presents it, answering as `out` presents the abstract answer. -/
def SimulatesOn {κ π : Type _} (step : σ → ι → σ × ο) (step' : τ → κ → τ × π) (inp : κ → ι)
    (out : π → ο) (G : τ → κ → Prop) (R : σ → τ → Prop) : Prop :=
  ∀ s t k, R s t → G t k →
    R (step s (inp k)).1 (step' t k).1 ∧ (step s (inp k)).2 = out (step' t k).2

/-- The guard `G` admits every request of a list in the abstract state the
requests before it leave. -/
def Admits {κ π : Type _} (step' : τ → κ → τ × π) (G : τ → κ → Prop) : τ → List κ → Prop
  | _, [] => True
  | t, k :: ks => G t k ∧ Admits step' G (step' t k).1 ks

theorem admits_iff {κ π : Type _} (step' : τ → κ → τ × π) (G : τ → κ → Prop) (t : τ)
    (ks : List κ) :
    Admits step' G t ks ↔ ∀ n (hn : n < ks.length), G (final step' t (ks.take n)) ks[n] := by
  induction ks generalizing t with
  | nil => simp [Admits]
  | cons k ks ih =>
    rw [Admits, ih]
    constructor
    · rintro ⟨hk, hks⟩ n hn
      cases n with
      | zero => exact hk
      | succ n => exact hks n (by simpa using hn)
    · intro h
      exact ⟨h 0 (by simp), fun n hn => h (n + 1) (by simpa using hn)⟩

theorem run_simulationOn {κ π : Type _} {step : σ → ι → σ × ο} {step' : τ → κ → τ × π}
    {inp : κ → ι} {out : π → ο} {G : τ → κ → Prop} {R : σ → τ → Prop}
    (hsim : SimulatesOn step step' inp out G R) {s : σ} {t : τ} (hst : R s t) (ks : List κ)
    (hadm : Admits step' G t ks) : run step s (ks.map inp) = (run step' t ks).map out := by
  induction ks generalizing s t with
  | nil => rfl
  | cons k ks ih =>
    obtain ⟨hk, hks⟩ := hadm
    obtain ⟨hnext, hout⟩ := hsim s t k hst hk
    simp only [List.map_cons, run_cons, hout, ih hnext hks]

/-- A state predicate that every request keeps. -/
def Preserved (step : σ → ι → σ × ο) (P : σ → Prop) : Prop :=
  ∀ s i, P s → P (step s i).1

theorem final_preserved {step : σ → ι → σ × ο} {P : σ → Prop} (hp : Preserved step P)
    {s : σ} (hs : P s) (is : List ι) : P (final step s is) := by
  induction is generalizing s with
  | nil => exact hs
  | cons i is ih => exact ih (hp s i hs)

/-- The invariant rule for a property of the state together with the
requests read and the outputs given so far. -/
theorem final_history {step : σ → ι → σ × ο} {I : σ → List ι → List ο → Prop}
    (hstep : ∀ s is os i, I s is os → I (step s i).1 (is ++ [i]) (os ++ [(step s i).2])) :
    ∀ (js : List ι) {s : σ} {is : List ι} {os : List ο}, I s is os →
      I (final step s js) (is ++ js) (os ++ run step s js)
  | [], _, _, _, h => by simpa using h
  | j :: js, s, is, os, h => by
    simpa using final_history hstep js (hstep s is os j h)

/-- A state predicate that every request the guard `G` admits keeps. -/
def PreservedOn {κ π : Type _} (step' : τ → κ → τ × π) (G : τ → κ → Prop) (P : τ → Prop) : Prop :=
  ∀ t k, P t → G t k → P (step' t k).1

theorem final_preservedOn {κ π : Type _} {step' : τ → κ → τ × π} {G : τ → κ → Prop}
    {P : τ → Prop} (hp : PreservedOn step' G P) {t : τ} (ht : P t) (ks : List κ)
    (hadm : Admits step' G t ks) : P (final step' t ks) := by
  induction ks generalizing t with
  | nil => exact ht
  | cons k ks ih =>
    obtain ⟨hk, hks⟩ := hadm
    exact ih (hp t k ht hk) hks

end Run

-- ---------------------------------------------------------------------------
-- Step relations
-- ---------------------------------------------------------------------------

section Reach

variable {σ : Type _}

/-- The states a step relation reaches from an initial state. -/
def Reachable (init : σ) (step : σ → σ → Prop) (s : σ) : Prop :=
  Relation.ReflTransGen step init s

theorem Reachable.init {init : σ} {step : σ → σ → Prop} : Reachable init step init :=
  Relation.ReflTransGen.refl

theorem Reachable.tail {init s s' : σ} {step : σ → σ → Prop}
    (hs : Reachable init step s) (h : step s s') : Reachable init step s' :=
  Relation.ReflTransGen.tail hs h

/-- The invariant rule: what holds initially and every step keeps holds of
every reachable state. -/
theorem Reachable.induction_on {init s : σ} {step : σ → σ → Prop} {P : σ → Prop}
    (hs : Reachable init step s) (h0 : P init) (hstep : ∀ a b, P a → step a b → P b) : P s := by
  induction hs with
  | refl => exact h0
  | tail _ hab ih => exact hstep _ _ ih hab

end Reach

end Ppaass.Machine
