import Mathlib.Algebra.Order.AbsoluteValue.Basic
import Mathlib.Tactic.Ring

/-!
# Wrapping `i64` arithmetic

Release builds of Rust wrap on overflow: `a - b` is the difference modulo
`2^64` read back into `[-2^63, 2^63)`, and `x.abs()` of `i64::MIN` is
`i64::MIN` again. Lean's `Int64` computes the same way, so `(a - b).abs`
is the value a release build computes.

A subtraction wraps at most once (`toInt_sub_cases`), which gives the
exact set of differences that `(a - b).abs() > t` rejects
(`abs_sub_gt_iff`): all those beyond `t`, except a difference of exactly
`2^63` (where `abs` wraps) and those of `2^64 - t` or more (where the
subtraction does). `i64::abs_diff` computes in `u64` and is exact
(`toNat_absDiff`), and so is a comparison of it with a tolerance clamped at
zero (`absDiff_gt_max_iff`).
-/

namespace Ppaass.Wrapping

/-- `i64::abs_diff`, as the standard library computes it. -/
def absDiff (a b : Int64) : UInt64 :=
  if a < b then b.toUInt64 - a.toUInt64 else a.toUInt64 - b.toUInt64

/-- `abs` wraps only at `i64::MIN`. -/
theorem toInt_abs (x : Int64) :
    x.abs.toInt = if x.toInt = -2 ^ 63 then -2 ^ 63 else |x.toInt| := by
  by_cases hx : x = Int64.minValue
  · subst hx
    decide
  · have hbv : x.toBitVec ≠ BitVec.intMin 64 := fun h => hx (Int64.toBitVec_inj.mp h)
    have hint : x.toInt ≠ -2 ^ 63 := by
      rw [← Int64.toInt_minValue, Ne, Int64.toInt_inj]
      exact hx
    rw [if_neg hint]
    show x.toBitVec.abs.toInt = _
    rw [BitVec.toInt_abs_eq_natAbs, if_neg hbv, Int.natCast_natAbs, Int64.toInt_toBitVec]

/-- `a - b` wraps at most once: its value is the difference, or that less or
plus `2^64`. -/
theorem toInt_sub_cases (a b : Int64) :
    (a - b).toInt = a.toInt - b.toInt ∨
      (a - b).toInt = a.toInt - b.toInt - 2 ^ 64 ∧ 2 ^ 63 ≤ a.toInt - b.toInt ∨
      (a - b).toInt = a.toInt - b.toInt + 2 ^ 64 ∧ a.toInt - b.toInt < -2 ^ 63 := by
  have := a.le_toInt
  have := a.toInt_lt
  have := b.le_toInt
  have := b.toInt_lt
  have hsub := Int64.toInt_sub a b
  rw [Int.bmod_def] at hsub
  split_ifs at hsub <;> omega

/-- What the wrapping test `(a - b).abs() > t` rejects, for `t ≥ 0`. -/
theorem abs_sub_gt_iff {a b t : Int64} (ht : 0 ≤ t) :
    (a - b).abs > t ↔ t.toInt < |a.toInt - b.toInt| ∧ |a.toInt - b.toInt| ≠ 2 ^ 63 ∧
      |a.toInt - b.toInt| + t.toInt < 2 ^ 64 := by
  rw [Int64.le_iff_toInt_le, Int64.toInt_zero] at ht
  have := a.le_toInt
  have := a.toInt_lt
  have := b.le_toInt
  have := b.toInt_lt
  have := t.toInt_lt
  have := (a - b).le_toInt
  have := (a - b).toInt_lt
  have hwrap := toInt_sub_cases a b
  rw [gt_iff_lt, Int64.lt_iff_toInt_lt, toInt_abs]
  -- the signs of the true and of the wrapped difference
  rcases abs_cases (a.toInt - b.toInt) with ⟨hd, _⟩ | ⟨hd, _⟩ <;>
    rcases abs_cases (a - b).toInt with ⟨hw, _⟩ | ⟨hw, _⟩ <;> rw [hd, hw] <;> split_ifs <;> omega

/-- `x as u64`: a negative value is taken modulo `2^64`. -/
theorem toNat_toUInt64 (x : Int64) :
    (x.toUInt64.toNat : Int) = if 0 ≤ x.toInt then x.toInt else x.toInt + 2 ^ 64 := by
  rw [← Int64.toNat_toBitVec, ← Int64.toInt_toBitVec, BitVec.toInt_eq_toNat_cond]
  have := x.toBitVec.isLt
  split_ifs <;> omega

/-- `t.max(0) as u64` is `t` clamped at zero. -/
theorem toNat_toUInt64_max_zero (t : Int64) : ((max t 0).toUInt64.toNat : Int) = max t.toInt 0 := by
  have hmax : max t 0 = if t ≤ 0 then 0 else t := rfl
  rw [hmax]
  split_ifs with ht
  · rw [Int64.le_iff_toInt_le, Int64.toInt_zero] at ht
    rw [max_eq_right ht]
    rfl
  · rw [Int64.le_iff_toInt_le, Int64.toInt_zero] at ht
    rw [toNat_toUInt64, if_pos (by omega), max_eq_left (by omega)]

/-- `abs_diff` is the distance. -/
theorem toNat_absDiff (a b : Int64) : (absDiff a b).toNat = (a.toInt - b.toInt).natAbs := by
  have ha := toNat_toUInt64 a
  have hb := toNat_toUInt64 b
  have := a.toUInt64.toNat_lt
  have := b.toUInt64.toNat_lt
  have := a.le_toInt
  have := a.toInt_lt
  have := b.le_toInt
  have := b.toInt_lt
  unfold absDiff
  split_ifs with hlt <;> rw [Int64.lt_iff_toInt_lt] at hlt <;> rw [UInt64.toNat_sub] <;>
    split_ifs at ha hb <;> omega

/-- What `a.abs_diff(b) > t.max(0) as u64` rejects. -/
theorem absDiff_gt_max_iff {a b t : Int64} :
    absDiff a b > (max t 0).toUInt64 ↔ max t.toInt 0 < |a.toInt - b.toInt| := by
  rw [gt_iff_lt, UInt64.lt_iff_toNat_lt, ← Int.ofNat_lt, toNat_toUInt64_max_zero, toNat_absDiff,
    Int.natCast_natAbs]

end Ppaass.Wrapping
