import Mathlib.Data.Nat.Bitwise

/-!
# Bits of 64-bit words

`bit x i` reads bit `i` of a `UInt64`. The lemmas push it through the word
operations a multiword bitmap uses: or, shifts by less than a word, and the
one-bit mask that `x & (1 << b) != 0` tests. Shift amounts are taken modulo
the word size by `UInt64`, as by the machine; the lemmas assume amounts below
64, which is what callers pass.
-/

namespace Ppaass.Bits

/-- Bit `i` of a machine word, bit 0 the least significant. -/
def bit (x : UInt64) (i : Nat) : Bool := x.toNat.testBit i

@[simp] theorem bit_zero (i : Nat) : bit 0 i = false := by
  simp [bit]

@[simp] theorem bit_or (x y : UInt64) (i : Nat) : bit (x ||| y) i = (bit x i || bit y i) := by
  simp [bit]

theorem bit_of_le (x : UInt64) {i : Nat} (hi : 64 ≤ i) : bit x i = false := by
  apply Nat.testBit_eq_false_of_lt
  calc x.toNat < 2 ^ 64 := x.toNat_lt
    _ ≤ 2 ^ i := Nat.pow_le_pow_right (by decide) hi

theorem toNat_toUInt64_of_lt {s : Nat} (hs : s < 64) : s.toUInt64.toNat = s := by
  rw [Nat.toUInt64_eq, UInt64.toNat_ofNat']
  exact Nat.mod_eq_of_lt (by omega)

theorem bit_shiftLeft (x : UInt64) {s : Nat} (hs : s < 64) (i : Nat) :
    bit (x <<< s.toUInt64) i = (decide (i < 64) && decide (s ≤ i) && bit x (i - s)) := by
  have hmod : s.toUInt64.toNat % 64 = s := by
    rw [toNat_toUInt64_of_lt hs]
    exact Nat.mod_eq_of_lt hs
  simp only [bit, UInt64.toNat_shiftLeft, hmod, Nat.testBit_mod_two_pow, Nat.testBit_shiftLeft,
    ge_iff_le, Bool.and_assoc]

theorem bit_shiftRight (x : UInt64) {s : Nat} (hs : s < 64) (i : Nat) :
    bit (x >>> s.toUInt64) i = bit x (s + i) := by
  have hmod : s.toUInt64.toNat % 64 = s := by
    rw [toNat_toUInt64_of_lt hs]
    exact Nat.mod_eq_of_lt hs
  simp only [bit, UInt64.toNat_shiftRight, hmod, Nat.testBit_shiftRight]

theorem toNat_one_shiftLeft {b : Nat} (hb : b < 64) :
    ((1 : UInt64) <<< b.toUInt64).toNat = 2 ^ b := by
  have hmod : b.toUInt64.toNat % 64 = b := by
    rw [toNat_toUInt64_of_lt hb]
    exact Nat.mod_eq_of_lt hb
  rw [UInt64.toNat_shiftLeft, hmod, UInt64.toNat_one, Nat.one_shiftLeft]
  exact Nat.mod_eq_of_lt (Nat.pow_lt_pow_right (by decide) hb)

theorem bit_one_shiftLeft {b : Nat} (hb : b < 64) (i : Nat) :
    bit (1 <<< b.toUInt64) i = decide (i = b) := by
  rw [bit, toNat_one_shiftLeft hb, Nat.testBit_two_pow]
  exact decide_eq_decide.mpr eq_comm

/-- Testing a word against a one-bit mask reads that bit. -/
theorem and_one_shiftLeft_ne_zero (x : UInt64) {b : Nat} (hb : b < 64) :
    (x &&& (1 <<< b.toUInt64) != 0) = bit x b := by
  have hand : (x &&& (1 <<< b.toUInt64)).toNat = x.toNat &&& 2 ^ b := by
    rw [UInt64.toNat_and, toNat_one_shiftLeft hb]
  rw [Bool.eq_iff_iff, bne_iff_ne, ne_eq, ← UInt64.toNat_inj, hand, UInt64.toNat_zero,
    Nat.and_two_pow, bit]
  cases x.toNat.testBit b <;> simp

end Ppaass.Bits
