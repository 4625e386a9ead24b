import Mathlib.Data.Nat.Bitwise

/-!
# Network prefixes

A network mask of the first `p` of `w` bits is `!0 << (w - p)`, or `0` when
`p = 0`, which the shift could not give for `p = 0` and `w` bits. Masking keeps
the high bits (`and_allOnes_shiftLeft`), so two addresses agree under the
mask exactly when they agree on their first `p` bits, that is, on their values
divided by `2^(w - p)` (`and_prefixMask_eq_iff`).
-/

namespace Ppaass.Net

/-- The mask of the first `p` of `w` bits. -/
def prefixMask (w p : Nat) : BitVec w :=
  if p = 0 then 0 else BitVec.allOnes w <<< (w - p)

variable {w : Nat}

/-- Masking with ones shifted left by `k` clears the low `k` bits. -/
theorem and_allOnes_shiftLeft (x : BitVec w) (k : Nat) :
    x &&& (BitVec.allOnes w <<< k) = (x >>> k) <<< k := by
  ext i hi
  simp only [BitVec.getElem_and, BitVec.getElem_shiftLeft, BitVec.getElem_ushiftRight,
    BitVec.getElem_allOnes]
  by_cases h : i < k
  · simp [h]
  · simp only [h, decide_false, Bool.not_false, Bool.and_true, Bool.true_and]
    rw [Nat.add_sub_cancel' (Nat.le_of_not_lt h), BitVec.getLsbD_eq_getElem hi]

theorem toNat_ushiftRight_shiftLeft (x : BitVec w) (k : Nat) :
    ((x >>> k) <<< k).toNat = x.toNat / 2 ^ k * 2 ^ k := by
  rw [BitVec.toNat_shiftLeft, BitVec.toNat_ushiftRight, Nat.shiftRight_eq_div_pow,
    Nat.shiftLeft_eq]
  exact Nat.mod_eq_of_lt (lt_of_le_of_lt (Nat.div_mul_le_self _ _) x.isLt)

/-- Two addresses agree under the mask of `p` bits exactly when they agree on
their first `p` bits. -/
theorem and_prefixMask_eq_iff (x a : BitVec w) {p : Nat} (hp : p ≤ w) :
    x &&& prefixMask w p = a &&& prefixMask w p ↔
      x.toNat / 2 ^ (w - p) = a.toNat / 2 ^ (w - p) := by
  unfold prefixMask
  split_ifs with hzero
  · -- no bits: both sides hold
    subst hzero
    rw [Nat.sub_zero, Nat.div_eq_of_lt x.isLt, Nat.div_eq_of_lt a.isLt]
    simp
  · rw [and_allOnes_shiftLeft, and_allOnes_shiftLeft, ← BitVec.toNat_inj,
      toNat_ushiftRight_shiftLeft, toNat_ushiftRight_shiftLeft]
    exact Nat.mul_right_cancel_iff (Nat.two_pow_pos _)

end Ppaass.Net
