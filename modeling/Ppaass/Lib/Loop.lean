import Mathlib.Logic.Basic
import Mathlib.Order.Basic

/-!
# Loops with fuel

A `loop` of imperative code is a function `turn` from the state at the top of
the loop to either the state of the next turn or the value the loop ends
with. `run turn fuel s` runs at most `fuel` turns, `none` standing for a loop
that has not ended by then; `iterate turn k s` is the state after `k` turns
that all go on.

Fuel is only a resource bound: a run that ends gives the same result with
more fuel (`run_mono`). A loop ends from every state whose rank is below the
fuel, for any rank that every turn lowers (`run_of_rank`). A run that ends
went through a state, reached by turns that went on, whose own turn ends it
(`exists_iterate_of_run`), and what every turn keeps holds of every state the
turns reach (`iterate_induction`).

A call of code that returns an `Option`, and may panic or run a loop that
does not end, is modelled in `OptionT (Except ε)`, `ε` saying how it failed
to return. `Returns` is the statement that it does return, with `Some` or
`None`; a `bind` returns when both of its parts do, the second only for what
the first returned (`Returns.bind`).
-/

namespace Ppaass.Loop

/-- One turn of a loop: it goes on from a new state, or ends with a result. -/
inductive Step (σ ρ : Type _) where
  | next (s : σ)
  | done (r : ρ)

variable {σ ρ : Type _} (turn : σ → Step σ ρ)

/-- The loop run for at most `fuel` turns. -/
def run : Nat → σ → Option ρ
  | 0, _ => none
  | fuel + 1, s =>
    match turn s with
    | .next s' => run fuel s'
    | .done r => some r

/-- The state after `k` turns that all go on. -/
def iterate : Nat → σ → Option σ
  | 0, s => some s
  | k + 1, s =>
    match turn s with
    | .next s' => iterate k s'
    | .done _ => none

variable {turn}

theorem run_succ_of_next {s s' : σ} (h : turn s = .next s') (fuel : Nat) :
    run turn (fuel + 1) s = run turn fuel s' := by
  simp [run, h]

theorem run_succ_of_done {s : σ} {r : ρ} (h : turn s = .done r) (fuel : Nat) :
    run turn (fuel + 1) s = some r := by
  simp [run, h]

/-- More fuel gives the same result. -/
theorem run_mono : ∀ {fuel fuel' : Nat} {s : σ} {r : ρ},
    run turn fuel s = some r → fuel ≤ fuel' → run turn fuel' s = some r
  | 0, _, _, _, h, _ => by cases h
  | fuel + 1, fuel' + 1, s, r, h, hle => by
    cases hs : turn s with
    | next s' =>
      rw [run_succ_of_next hs] at h ⊢
      exact run_mono h (Nat.le_of_succ_le_succ hle)
    | done r' =>
      rw [run_succ_of_done hs] at h ⊢
      exact h
  | _ + 1, 0, _, _, _, hle => absurd hle (Nat.not_succ_le_zero _)

/-- The rank rule: a loop whose every turn that goes on lowers a rank ends
within one turn more than the rank. -/
theorem run_of_rank (rank : σ → Nat) (hrank : ∀ s s', turn s = .next s' → rank s' < rank s) :
    ∀ {fuel : Nat} {s : σ}, rank s < fuel → ∃ r, run turn fuel s = some r
  | 0, _, hlt => absurd hlt (Nat.not_lt_zero _)
  | fuel + 1, s, hlt => by
    cases hs : turn s with
    | next s' =>
      rw [run_succ_of_next hs]
      exact run_of_rank rank hrank (Nat.lt_of_lt_of_le (hrank s s' hs) (Nat.le_of_lt_succ hlt))
    | done r => exact ⟨r, run_succ_of_done hs fuel⟩

theorem iterate_succ_of_next {s s' : σ} (h : turn s = .next s') (k : Nat) :
    iterate turn (k + 1) s = iterate turn k s' := by
  simp [iterate, h]

/-- One more turn that goes on extends the turns before it. -/
theorem iterate_succ_right : ∀ {k : Nat} {s t t' : σ},
    iterate turn k s = some t → turn t = .next t' → iterate turn (k + 1) s = some t'
  | 0, s, t, t', h, ht => by
    cases h
    rw [iterate_succ_of_next ht]
    rfl
  | k + 1, s, t, t', h, ht => by
    cases hs : turn s with
    | next s₁ =>
      rw [iterate_succ_of_next hs] at h ⊢
      exact iterate_succ_right h ht
    | done r => simp [iterate, hs] at h

/-- A run that ends went through a state whose turn ended it. -/
theorem exists_iterate_of_run : ∀ {fuel : Nat} {s : σ} {r : ρ}, run turn fuel s = some r →
    ∃ k t, iterate turn k s = some t ∧ turn t = .done r
  | 0, _, _, h => by cases h
  | fuel + 1, s, r, h => by
    cases hs : turn s with
    | next s' =>
      rw [run_succ_of_next hs] at h
      obtain ⟨k, t, hk, ht⟩ := exists_iterate_of_run h
      exact ⟨k + 1, t, by rw [iterate_succ_of_next hs]; exact hk, ht⟩
    | done r' =>
      rw [run_succ_of_done hs] at h
      cases h
      exact ⟨0, s, rfl, hs⟩

/-- The invariant rule: what every turn that goes on keeps holds of every
state the turns reach. -/
theorem iterate_induction {P : σ → Prop} (hP : ∀ s s', P s → turn s = .next s' → P s') :
    ∀ {k : Nat} {s t : σ}, P s → iterate turn k s = some t → P t
  | 0, _, _, hs, h => by
    cases h
    exact hs
  | k + 1, s, t, hs, h => by
    cases hst : turn s with
    | next s' =>
      rw [iterate_succ_of_next hst] at h
      exact iterate_induction hP (hP s s' hs hst) h
    | done r => simp [iterate, hst] at h

-- ---------------------------------------------------------------------------
-- Calls that return
-- ---------------------------------------------------------------------------

section Returns

variable {ε α β : Type}

/-- The call returns, with `Some` or `None`. -/
def Returns (x : OptionT (Except ε) α) : Prop := ∃ o, x.run = .ok o

theorem returns_pure (a : α) : Returns (pure a : OptionT (Except ε) α) := ⟨some a, rfl⟩

theorem returns_failure : Returns (failure : OptionT (Except ε) α) := ⟨none, rfl⟩

theorem returns_mk (o : Option α) : Returns (OptionT.mk (.ok o) : OptionT (Except ε) α) :=
  ⟨o, rfl⟩

/-- A call of the inner monad that succeeds, lifted as `do` lifts it. -/
theorem returns_lift {e : Except ε α} {a : α} (h : e = .ok a) :
    Returns (monadLift e : OptionT (Except ε) α) := ⟨some a, by rw [h]; rfl⟩

theorem Returns.bind {x : OptionT (Except ε) α} {f : α → OptionT (Except ε) β} (hx : Returns x)
    (hf : ∀ a, x.run = .ok (some a) → Returns (f a)) : Returns (x >>= f) := by
  obtain ⟨o, ho⟩ := hx
  cases o with
  | none => exact ⟨none, by rw [OptionT.run_bind, ho]; rfl⟩
  | some a =>
    obtain ⟨o', ho'⟩ := hf a ho
    exact ⟨o', by rw [OptionT.run_bind, ho]; exact ho'⟩

end Returns

end Ppaass.Loop
