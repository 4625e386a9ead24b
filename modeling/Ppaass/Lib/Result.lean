import Mathlib.Data.List.Forall2
import Mathlib.Data.List.GetD

/-!
# Fallible computations

Code that returns `Result` is modelled in `Except`. These are the rules its
proofs use: a `bind` after a success runs its continuation, after a failure
passes the failure on, and a `bind` that succeeds came from a success
(`bind_eq_ok`), which is how a chain of `?` steps is taken apart. A loop that
collects with `?` is `List.mapM`: it succeeds exactly when every iteration
does (`mapM_eq_ok_iff`).
-/

namespace Ppaass.Result

variable {ε α β : Type _}

@[simp] theorem ok_bind (a : α) (f : α → Except ε β) : (Except.ok a >>= f) = f a := rfl

@[simp] theorem error_bind (e : ε) (f : α → Except ε β) :
    ((Except.error e : Except ε α) >>= f) = .error e := rfl

@[simp] theorem throw_eq_error (e : ε) : (throw e : Except ε α) = .error e := rfl

theorem bind_eq_ok {x : Except ε α} {f : α → Except ε β} {b : β} :
    (x >>= f) = .ok b ↔ ∃ a, x = .ok a ∧ f a = .ok b := by
  cases x with
  | error e => simp
  | ok a => simp

/-- `map_err` changes only the error. -/
theorem mapError_eq_ok {ε' : Type _} {f : ε → ε'} {x : Except ε α} {a : α} :
    x.mapError f = .ok a ↔ x = .ok a := by
  cases x <;> simp [Except.mapError]

theorem exists_eq_error_of_mapError {ε' : Type _} {f : ε → ε'} {x : Except ε α} {e : ε'}
    (h : x.mapError f = .error e) : ∃ e₀, x = .error e₀ := by
  cases x with
  | error e₀ => exact ⟨e₀, rfl⟩
  | ok a => cases h

theorem bind_eq_error {x : Except ε α} {f : α → Except ε β} {e : ε} :
    (x >>= f) = .error e ↔ x = .error e ∨ ∃ a, x = .ok a ∧ f a = .error e := by
  cases x with
  | error e' => simp
  | ok a => simp

theorem mapM_eq_ok_iff {f : α → Except ε β} {l : List α} {ys : List β} :
    l.mapM f = .ok ys ↔ List.Forall₂ (fun a b => f a = .ok b) l ys := by
  induction l generalizing ys with
  | nil =>
    cases ys with
    | nil => simp [pure, Except.pure]
    | cons y ys => simp [pure, Except.pure]
  | cons a l ih =>
    simp only [List.mapM_cons, bind_eq_ok, pure, Except.pure]
    constructor
    · rintro ⟨b, hb, bs, hbs, heq⟩
      cases heq
      exact List.Forall₂.cons hb (ih.mp hbs)
    · intro h
      cases h with
      | cons hb hbs => exact ⟨_, hb, _, ih.mpr hbs, rfl⟩

/-- A loop whose every iteration succeeds returns the list of their results. -/
theorem mapM_eq_ok_of_forall {f : α → Except ε β} {g : α → β} {l : List α}
    (h : ∀ a ∈ l, f a = .ok (g a)) : l.mapM f = .ok (l.map g) := by
  rw [mapM_eq_ok_iff, List.forall₂_map_right_iff]
  exact List.forall₂_same.mpr h

theorem mapM_isOk_of_forall {f : α → Except ε β} {l : List α}
    (h : ∀ a ∈ l, ∃ b, f a = .ok b) : ∃ bs, l.mapM f = .ok bs := by
  induction l with
  | nil => exact ⟨[], rfl⟩
  | cons a l ih =>
    obtain ⟨b, hb⟩ := h a List.mem_cons_self
    obtain ⟨bs, hbs⟩ := ih fun a' ha' => h a' (List.mem_cons_of_mem a ha')
    exact ⟨b :: bs, by simp [hb, hbs, pure, Except.pure]⟩

/-- What is read off each result of a successful loop, read off the list it
returns. -/
theorem filterMap_of_mapM_eq_ok {γ : Type _} {f : α → Except ε β} {l : List α} {bs : List β}
    {g : β → Option γ} {h : α → γ} (hm : l.mapM f = .ok bs)
    (hg : ∀ a b, f a = .ok b → g b = some (h a)) : bs.filterMap g = l.map h := by
  have hall := mapM_eq_ok_iff.mp hm
  clear hm
  induction hall with
  | nil => rfl
  | cons hab _ ih => simp [hg _ _ hab, ih]

-- ---------------------------------------------------------------------------
-- Two lists related pointwise
-- ---------------------------------------------------------------------------

theorem getD_mem {l : List α} {j : Nat} (hj : j < l.length) (x : α) : l.getD j x ∈ l := by
  rw [List.getD_eq_getElem _ _ hj]
  exact List.getElem_mem hj

theorem exists_mem_of_forall₂ {R : α → β → Prop} {l₁ : List α} {l₂ : List β}
    (h : List.Forall₂ R l₁ l₂) {b : β} (hb : b ∈ l₂) : ∃ a ∈ l₁, R a b := by
  induction h with
  | nil => cases hb
  | cons hab _ ih =>
    rcases List.mem_cons.mp hb with rfl | hb
    · exact ⟨_, List.mem_cons_self, hab⟩
    · obtain ⟨a, ha, hr⟩ := ih hb
      exact ⟨a, List.mem_cons_of_mem _ ha, hr⟩

theorem forall₂_range_getD {R : Nat → β → Prop} {k : Nat} {l : List β}
    (h : List.Forall₂ R (List.range k) l) {i : Nat} (hi : i < k) (d : β) : R i (l.getD i d) := by
  have hlen : k = l.length := by simpa using h.length_eq
  have := h.get (by simpa using hi) (by omega)
  rw [List.getD_eq_getElem _ _ (by omega)]
  simpa using this

theorem forall₂_of_getD {R : α → β → Prop} {l₁ : List α} {l₂ : List β} (d₁ : α) (d₂ : β)
    (hlen : l₁.length = l₂.length) (h : ∀ i < l₁.length, R (l₁.getD i d₁) (l₂.getD i d₂)) :
    List.Forall₂ R l₁ l₂ := by
  refine List.forall₂_iff_get.mpr ⟨hlen, fun i h₁ h₂ => ?_⟩
  have := h i h₁
  rwa [List.getD_eq_getElem _ _ h₁, List.getD_eq_getElem _ _ h₂] at this

end Ppaass.Result
