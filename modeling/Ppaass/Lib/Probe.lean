import Mathlib.Logic.Function.Iterate
import Mathlib.Order.Basic

/-!
# Probing for a free slot

A loop that tries the slots `a, next a, next (next a), …` in turn and stops
at the first one `used` does not hold, for at most `fuel` rounds. It returns
the slot it found, or `none`, and the cursor it leaves, one past the last slot
it tried.

The slot found is free and the cursor is the one after it (`probe_eq_some`).
The loop finds a slot whenever one of the slots within its fuel is free
(`probe_isSome_of_iterate`), and when it finds none it has tried every one of
them (`used_of_probe_eq_none`).
-/

namespace Ppaass.Probe

variable {α : Type} (next : α → α) (used : α → Bool)

/-- Try `fuel` slots from `a` on. -/
def probe : Nat → α → Option α × α
  | 0, a => (none, a)
  | fuel + 1, a => if used a then probe fuel (next a) else (some a, next a)

variable {next used}

theorem probe_eq_some : ∀ {fuel : Nat} {a b c : α}, probe next used fuel a = (some b, c) →
    used b = false ∧ c = next b ∧ ∃ j < fuel, next^[j] a = b
  | 0, _, _, _, h => by cases h
  | fuel + 1, a, b, c, h => by
    simp only [probe] at h
    split_ifs at h with hused
    · -- `a` is taken: the slot lies further on
      obtain ⟨hfree, hc, j, hj, hb⟩ := probe_eq_some h
      exact ⟨hfree, hc, j + 1, by omega, by rwa [Function.iterate_succ_apply]⟩
    · cases h
      exact ⟨by simpa using hused, rfl, 0, by omega, rfl⟩

/-- The loop stops at the `j`-th slot at the latest when that slot is free and
the fuel lasts that long. -/
theorem probe_isSome_of_iterate : ∀ (j fuel : Nat) (a : α), j < fuel →
    used (next^[j] a) = false → (probe next used fuel a).1.isSome
  | _, 0, _, hj, _ => absurd hj (Nat.not_lt_zero _)
  | j, fuel + 1, a, hj, hfree => by
    simp only [probe]
    split_ifs with hused
    · cases j with
      | zero => simp [hused] at hfree
      | succ j =>
        rw [Function.iterate_succ_apply] at hfree
        exact probe_isSome_of_iterate j fuel (next a) (by omega) hfree
    · rfl

theorem used_of_probe_eq_none {fuel : Nat} {a : α} (h : (probe next used fuel a).1 = none) :
    ∀ j < fuel, used (next^[j] a) = true := by
  intro j hj
  by_contra hfree
  have := probe_isSome_of_iterate j fuel a hj (by simpa using hfree)
  rw [h] at this
  cases this

end Ppaass.Probe
