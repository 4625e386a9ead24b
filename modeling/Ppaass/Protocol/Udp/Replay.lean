import Mathlib
import Ppaass.Lib.Machine
import Ppaass.Lib.Bits

/-!
# The UDP replay window

`ReplayWindow` (`udp_transport/replay.rs`) remembers the highest committed
sequence number and, in 64 words of 64 bits, which of the 4096 numbers below
it were committed: bit `d` of the bitmap stands for `highest - d`. A commit
above the highest shifts the bitmap by the advance with a word shift and a
cross-word carry (`shift_older`), or clears it when the advance leaves the
window.

The model below is the Rust code, word for word. The replay model the window
is for is a set `S` of committed numbers: a number is accepted if `S` is
empty, if it is above `max S`, or if it lies inside the window below `max S`
and is not in `S`. `replayWindow_refines` proves that on every sequence of
`may_accept` and `commit` calls, from `new()`, the two give the same answers,
and that hence `commit` accepts each sequence number at most once.
-/

namespace Ppaass.Udp

open Ppaass.Bits Ppaass.Machine

/-- `UDP_REPLAY_WINDOW_SIZE`: sequence numbers remembered by replay protection. -/
def udpReplayWindowSize : Nat := 4096

/-- `WORD_BITS` -/
def wordBits : Nat := 64

/-- `WORD_COUNT` -/
def wordCount : Nat := udpReplayWindowSize / wordBits

structure ReplayWindow where
  highest : Option UInt64
  seen : Vector UInt64 wordCount

namespace ReplayWindow

def new : ReplayWindow := ⟨none, Vector.replicate wordCount 0⟩

/-- The callers only pass distances inside the window, where the Rust index
is in bounds; outside it `getD` stands for the panicking index. -/
def bitIsSet (w : ReplayWindow) (distance : Nat) : Bool :=
  let word := distance / wordBits
  let bit := distance % wordBits
  w.seen.getD word 0 &&& (1 <<< bit.toUInt64) != 0

def setBit (w : ReplayWindow) (distance : Nat) : ReplayWindow :=
  let word := distance / wordBits
  let bit := distance % wordBits
  { w with seen := w.seen.set! word (w.seen.getD word 0 ||| (1 <<< bit.toUInt64)) }

/-- One turn of the `shift_older` loop: the word `value` lands in `destination`
shifted up by `bitShift`, and its top `bitShift` bits carry into the word
above it. -/
def shiftOlderBody (bitShift : Nat) (value : UInt64) (destination : Nat)
    (shifted : Vector UInt64 wordCount) : Vector UInt64 wordCount :=
  let shifted := shifted.set! destination
    (shifted.getD destination 0 ||| value <<< bitShift.toUInt64)
  if bitShift ≠ 0 ∧ destination + 1 < wordCount then
    shifted.set! (destination + 1)
      (shifted.getD (destination + 1) 0 ||| value >>> (wordBits - bitShift).toUInt64)
  else shifted

/-- The loop `for (source, value) in self.seen.iter().copied().enumerate()`
of `shift_older`, over the remaining `(value, source)` pairs; it breaks at the
first destination past the last word. -/
def shiftOlderLoop (wordShift bitShift : Nat) :
    List (UInt64 × Nat) → Vector UInt64 wordCount → Vector UInt64 wordCount
  | [], shifted => shifted
  | (value, source) :: rest, shifted =>
    let destination := source + wordShift
    if destination ≥ wordCount then shifted
    else shiftOlderLoop wordShift bitShift rest (shiftOlderBody bitShift value destination shifted)

def shiftOlder (w : ReplayWindow) (distance : Nat) : ReplayWindow :=
  if distance ≥ udpReplayWindowSize then { w with seen := Vector.replicate wordCount 0 }
  else
    let wordShift := distance / wordBits
    let bitShift := distance % wordBits
    let shifted := Vector.replicate wordCount 0
    { w with seen := shiftOlderLoop wordShift bitShift w.seen.toList.zipIdx shifted }

def mayAccept (w : ReplayWindow) (seq : UInt64) : Bool :=
  match w.highest with
  | none => true
  | some highest =>
    if seq > highest then true
    else
      let distance := highest - seq
      if distance ≥ udpReplayWindowSize.toUInt64 then false
      else !w.bitIsSet distance.toNat

/-- `commit` returns the updated window and whether `seq` was accepted. -/
def commit (w : ReplayWindow) (seq : UInt64) : ReplayWindow × Bool :=
  if !w.mayAccept seq then (w, false)
  else
    match w.highest with
    | none => ({ w with highest := some seq }.setBit 0, true)
    | some highest =>
      if seq > highest then
        let advance := seq - highest
        let w :=
          if advance ≥ udpReplayWindowSize.toUInt64 then
            { w with seen := Vector.replicate wordCount 0 }
          else w.shiftOlder advance.toNat
        ({ w with highest := some seq }.setBit 0, true)
      else (w.setBit (highest - seq).toNat, true)

end ReplayWindow

-- ---------------------------------------------------------------------------
-- The bitmap, bit by bit
-- ---------------------------------------------------------------------------

theorem wordBits_eq : wordBits = 64 := rfl
theorem wordCount_eq : wordCount = 64 := rfl
theorem udpReplayWindowSize_eq : udpReplayWindowSize = 4096 := rfl

/-- Bit `d` of a bitmap: bit `d % 64` of word `d / 64`. -/
def bitAt (seen : Vector UInt64 wordCount) (d : Nat) : Bool :=
  bit (seen.getD (d / wordBits) 0) (d % wordBits)

theorem getD_eq (xs : Vector UInt64 wordCount) (j : Nat) :
    xs.getD j 0 = if h : j < wordCount then xs[j] else 0 := by
  unfold Vector.getD Array.getD
  by_cases hj : j < wordCount
  · rw [dif_pos (by simpa using hj), dif_pos hj]
    rfl
  · rw [dif_neg (by simpa using hj), dif_neg hj]

theorem getD_set! (xs : Vector UInt64 wordCount) {i : Nat} (j : Nat) (x : UInt64)
    (hi : i < wordCount) : (xs.set! i x).getD j 0 = if i = j then x else xs.getD j 0 := by
  rw [getD_eq, getD_eq]
  by_cases hj : j < wordCount
  · simp only [hj, dite_true]
    exact Vector.getElem_set! hj
  · have hij : i ≠ j := by omega
    simp [hj, hij]

theorem bitAt_set! (seen : Vector UInt64 wordCount) {j : Nat} (x : UInt64) (hj : j < wordCount)
    (d : Nat) : bitAt (seen.set! j x) d = if d / 64 = j then bit x (d % 64) else bitAt seen d := by
  simp only [bitAt, wordBits_eq, getD_set! seen _ x hj]
  by_cases hd : d / 64 = j
  · simp [hd]
  · simp [hd, Ne.symm hd]

@[simp] theorem bitAt_replicate (d : Nat) : bitAt (Vector.replicate wordCount 0) d = false := by
  simp [bitAt, Vector.getD, Array.getD]

theorem bitAt_of_le (seen : Vector UInt64 wordCount) {d : Nat} (hd : udpReplayWindowSize ≤ d) :
    bitAt seen d = false := by
  have hout : ¬ d / wordBits < wordCount := by
    simp only [udpReplayWindowSize_eq] at hd
    simp only [wordCount_eq, wordBits_eq]
    omega
  simp only [bitAt, getD_eq, hout, dite_false, bit_zero]

namespace ReplayWindow

theorem bitIsSet_eq (w : ReplayWindow) (d : Nat) : w.bitIsSet d = bitAt w.seen d := by
  have hb : d % wordBits < 64 := by rw [wordBits_eq]; omega
  simp only [bitIsSet, bitAt]
  exact and_one_shiftLeft_ne_zero _ hb

theorem bitAt_setBit (w : ReplayWindow) {e : Nat} (he : e < udpReplayWindowSize) (d : Nat) :
    bitAt (w.setBit e).seen d = (bitAt w.seen d || decide (d = e)) := by
  have hw : e / 64 < wordCount := by
    simp only [udpReplayWindowSize_eq] at he
    simp only [wordCount_eq]
    omega
  have he64 : e % 64 < 64 := by omega
  simp only [setBit, wordBits_eq, bitAt_set! _ _ hw, bit_or, bit_one_shiftLeft he64]
  by_cases hd : d / 64 = e / 64
  · have hmod : d % 64 = e % 64 ↔ d = e := by omega
    simp only [hd, ite_true, bitAt, wordBits_eq, decide_eq_decide.mpr hmod]
  · have hne : d ≠ e := by rintro rfl; exact hd rfl
    simp [hd, hne]

@[simp] theorem setBit_highest (w : ReplayWindow) (e : Nat) : (w.setBit e).highest = w.highest := rfl

@[simp] theorem shiftOlder_highest (w : ReplayWindow) (a : Nat) :
    (w.shiftOlder a).highest = w.highest := by
  unfold shiftOlder
  split <;> rfl

end ReplayWindow

-- ---------------------------------------------------------------------------
-- `shift_older` moves every bit up by the distance
-- ---------------------------------------------------------------------------

theorem bitAt_set!_or (seen : Vector UInt64 wordCount) {j : Nat} (hj : j < wordCount)
    (x : UInt64) (d : Nat) :
    bitAt (seen.set! j (seen.getD j 0 ||| x)) d =
      (bitAt seen d || (decide (d / 64 = j) && bit x (d % 64))) := by
  rw [bitAt_set! _ _ hj]
  by_cases hd : d / 64 = j
  · simp [hd, bitAt, wordBits_eq]
  · simp [hd]

/-- One turn of the loop ors the word into its destination and the carry into
the word above; a carry that would leave the bitmap, or is empty, is a no-op
because those bits are off. -/
theorem bitAt_shiftOlderBody (shifted : Vector UInt64 wordCount) {bs : Nat} (hbs : bs < 64)
    (value : UInt64) {dest : Nat} (hdest : dest < wordCount) {d : Nat}
    (hd : d < udpReplayWindowSize) :
    bitAt (ReplayWindow.shiftOlderBody bs value dest shifted) d =
      (bitAt shifted d ||
        (decide (d / 64 = dest) && decide (bs ≤ d % 64) && bit value (d % 64 - bs)) ||
        (decide (d / 64 = dest + 1) && bit value (64 - bs + d % 64))) := by
  have hmod : d % 64 < 64 := by omega
  unfold ReplayWindow.shiftOlderBody
  split_ifs with hcarry
  · have hshr : wordBits - bs < 64 := by rw [wordBits_eq]; omega
    rw [bitAt_set!_or _ hcarry.2, bitAt_set!_or _ hdest, bit_shiftRight _ hshr,
      bit_shiftLeft _ hbs, wordBits_eq]
    simp only [hmod, decide_true, Bool.true_and, Bool.or_assoc, Bool.and_assoc]
  · rw [bitAt_set!_or _ hdest, bit_shiftLeft _ hbs]
    have hnone : (decide (d / 64 = dest + 1) && bit value (64 - bs + d % 64)) = false := by
      rcases not_and_or.mp hcarry with hzero | hlast
      · have : 64 ≤ 64 - bs + d % 64 := by omega
        simp [bit_of_le value this]
      · have : d / 64 ≠ dest + 1 := by
          simp only [udpReplayWindowSize_eq] at hd
          simp only [wordCount_eq] at hlast
          omega
        simp [this]
    rw [hnone]
    simp only [hmod, decide_true, Bool.true_and, Bool.or_false, Bool.and_assoc]

/-- The loop invariant of `shift_older`: the words below `k` have been moved,
every bit by `distance`, and nothing else is set. -/
def MovedBelow (seen shifted : Vector UInt64 wordCount) (distance k : Nat) : Prop :=
  ∀ d < udpReplayWindowSize, bitAt shifted d =
    (decide (distance ≤ d) && decide ((d - distance) / 64 < k) && bitAt seen (d - distance))

theorem movedBelow_body {seen shifted : Vector UInt64 wordCount} {ws bs k : Nat}
    (hbs : bs < 64) (hk : k + ws < wordCount)
    (h : MovedBelow seen shifted (64 * ws + bs) k) :
    MovedBelow seen (ReplayWindow.shiftOlderBody bs (seen.getD k 0) (k + ws) shifted)
      (64 * ws + bs) (k + 1) := by
  intro d hd
  rw [bitAt_shiftOlderBody _ hbs _ hk hd, h d hd]
  have hd' : d < 4096 := hd
  -- the bits of word `k` land in word `k + ws` from bit `bs` on, and in the
  -- word above below bit `bs`
  by_cases hlow : d / 64 = k + ws ∧ bs ≤ d % 64
  · have hq : (d - (64 * ws + bs)) / 64 = k := by omega
    have hr : (d - (64 * ws + bs)) % 64 = d % 64 - bs := by omega
    simp [hlow.1, hlow.2, hq, hr, bitAt, wordBits_eq, show 64 * ws + bs ≤ d by omega]
  by_cases hhigh : d / 64 = k + ws + 1
  · by_cases hb : d % 64 < bs
    · have hq : (d - (64 * ws + bs)) / 64 = k := by omega
      have hr : (d - (64 * ws + bs)) % 64 = 64 - bs + d % 64 := by omega
      simp [hhigh, hq, hr, bitAt, wordBits_eq, show 64 * ws + bs ≤ d by omega]
    · have hq : (d - (64 * ws + bs)) / 64 = k + 1 := by omega
      have hout : 64 ≤ 64 - bs + d % 64 := by omega
      simp [hhigh, hq, bit_of_le _ hout]
  · have hnot : ¬ (d / 64 = k + ws ∧ bs ≤ d % 64) := hlow
    have hsame : (decide (64 * ws + bs ≤ d) && decide ((d - (64 * ws + bs)) / 64 < k + 1)) =
        (decide (64 * ws + bs ≤ d) && decide ((d - (64 * ws + bs)) / 64 < k)) := by
      by_cases ha : 64 * ws + bs ≤ d
      · have : (d - (64 * ws + bs)) / 64 < k + 1 ↔ (d - (64 * ws + bs)) / 64 < k := by omega
        simp [ha, this]
      · simp [ha]
    rw [Bool.and_assoc, Bool.and_assoc, ← Bool.and_assoc (decide (64 * ws + bs ≤ d)), hsame]
    simp only [hhigh, decide_false, Bool.false_and, Bool.or_false]
    by_cases hw : d / 64 = k + ws
    · have hb : ¬ bs ≤ d % 64 := fun hb => hnot ⟨hw, hb⟩
      simp [hb, Bool.and_assoc]
    · simp [hw, Bool.and_assoc]

theorem movedBelow_loop (seen : Vector UInt64 wordCount) {ws bs : Nat} (hbs : bs < 64) :
    ∀ n k shifted, k + n = wordCount → MovedBelow seen shifted (64 * ws + bs) k →
      MovedBelow seen (ReplayWindow.shiftOlderLoop ws bs ((seen.toList.drop k).zipIdx k) shifted)
        (64 * ws + bs) wordCount := by
  intro n
  induction n with
  | zero =>
    intro k shifted hk h
    obtain rfl : k = wordCount := by omega
    have hdrop : seen.toList.drop wordCount = [] := List.drop_eq_nil_of_le (by simp)
    rw [hdrop]
    exact h
  | succ n ih =>
    intro k shifted hk h
    have hlt : k < seen.toList.length := by simp; omega
    rw [List.drop_eq_getElem_cons hlt, List.zipIdx_cons, ReplayWindow.shiftOlderLoop]
    split_ifs with hbreak
    · -- the remaining words would land past the bitmap: nothing below 4096 is missing
      intro d hd
      rw [h d hd]
      have hd' : d < 4096 := hd
      simp only [wordCount_eq] at hbreak
      by_cases ha : 64 * ws + bs ≤ d
      · have h1 : (d - (64 * ws + bs)) / 64 < k := by omega
        have h2 : (d - (64 * ws + bs)) / 64 < wordCount := by rw [wordCount_eq]; omega
        simp [ha, h1, h2]
      · simp [ha]
    · have hget : seen.toList[k] = seen.getD k 0 := by
        rw [getD_eq, dif_pos (by simpa using hlt)]
        simp
      rw [hget]
      exact ih (k + 1) _ (by omega) (movedBelow_body hbs (by omega) h)

namespace ReplayWindow

/-- `shift_older` by a distance inside the window moves every bit up by that
distance: none is dropped below the top of the window, none is invented. -/
theorem bitAt_shiftOlder (w : ReplayWindow) {a : Nat} (ha : a < udpReplayWindowSize) {d : Nat}
    (hd : d < udpReplayWindowSize) :
    bitAt (w.shiftOlder a).seen d = (decide (a ≤ d) && bitAt w.seen (d - a)) := by
  have hsplit : 64 * (a / 64) + a % 64 = a := Nat.div_add_mod a 64
  have hinit : MovedBelow w.seen (Vector.replicate wordCount 0) (64 * (a / 64) + a % 64) 0 := by
    intro d _
    simp
  have hloop := @movedBelow_loop w.seen (a / 64) (a % 64) (by omega) wordCount 0 _
    (by simp) hinit
  simp only [List.drop_zero, hsplit] at hloop
  have hq : (d - a) / 64 < wordCount := by
    have : d < 4096 := hd
    rw [wordCount_eq]
    omega
  simp only [shiftOlder, if_neg (Nat.not_le.mpr ha), wordBits_eq]
  rw [hloop d hd]
  simp [hq]

end ReplayWindow

-- ---------------------------------------------------------------------------
-- The replay model, and the window as its refinement
-- ---------------------------------------------------------------------------

/-- What the window is for: `S` holds the sequence numbers `commit` accepted,
and a number is acceptable if `S` is empty, if it is above `max S`, or if it
is less than a window below `max S` and not in `S`. -/
def modelMayAccept (S : Finset ℕ) (seq : ℕ) : Bool :=
  decide (S = ∅) || decide (S.sup id < seq) ||
    (decide (S.sup id - seq < udpReplayWindowSize) && decide (seq ∉ S))

/-- The calls the window answers. -/
inductive ReplayCall where
  | mayAccept (seq : UInt64)
  | commit (seq : UInt64)
  deriving DecidableEq, Repr

def ReplayWindow.call (w : ReplayWindow) : ReplayCall → ReplayWindow × Bool
  | .mayAccept seq => (w, w.mayAccept seq)
  | .commit seq => w.commit seq

/-- The replay model as a machine: `commit` answers `modelMayAccept` and, when
it accepts, adds the number to `S`. -/
def replayModel (S : Finset ℕ) : ReplayCall → Finset ℕ × Bool
  | .mayAccept seq => (S, modelMayAccept S seq.toNat)
  | .commit seq => if modelMayAccept S seq.toNat then (insert seq.toNat S, true) else (S, false)

/-- The window stands for `S`: its highest is `max S`, and bit `d` is on
exactly when `highest - d` is in `S`. -/
structure Represents (w : ReplayWindow) (S : Finset ℕ) : Prop where
  highest_eq : w.highest.map UInt64.toNat = if S = ∅ then none else some (S.sup id)
  bitAt_eq : ∀ d < udpReplayWindowSize, bitAt w.seen d =
    match w.highest with
    | none => false
    | some h => decide (d ≤ h.toNat ∧ h.toNat - d ∈ S)

theorem le_sup_of_mem {S : Finset ℕ} {x : ℕ} (hx : x ∈ S) : x ≤ S.sup id :=
  Finset.le_sup (f := id) hx

/-- A number not yet seen, less than a window below every number seen, is
acceptable. -/
theorem modelMayAccept_of_window {S : Finset ℕ} {seq : ℕ}
    (hS : ∀ x ∈ S, x < seq + udpReplayWindowSize) (hnot : seq ∉ S) :
    modelMayAccept S seq = true := by
  have hW : 0 < udpReplayWindowSize := by decide
  have hsup : S.sup id < seq + udpReplayWindowSize := (Finset.sup_lt_iff (by rw [Nat.bot_eq_zero]; omega)).mpr hS
  have hwin : S.sup id - seq < udpReplayWindowSize := by omega
  simp [modelMayAccept, hwin, hnot]

namespace Represents

variable {w : ReplayWindow} {S : Finset ℕ}

theorem eq_empty (hR : Represents w S) (hw : w.highest = none) : S = ∅ := by
  have h := hR.highest_eq
  rw [hw] at h
  by_contra hS
  simp [hS] at h

theorem sup_eq (hR : Represents w S) {h : UInt64} (hw : w.highest = some h) :
    S ≠ ∅ ∧ S.sup id = h.toNat := by
  have he := hR.highest_eq
  rw [hw] at he
  by_cases hS : S = ∅
  · simp [hS] at he
  · simp only [hS, if_false, Option.map_some, Option.some.injEq] at he
    exact ⟨hS, he.symm⟩

theorem bitIsSet_eq (hR : Represents w S) {h : UInt64} (hw : w.highest = some h) {d : Nat}
    (hd : d < udpReplayWindowSize) : w.bitIsSet d = decide (d ≤ h.toNat ∧ h.toNat - d ∈ S) := by
  rw [ReplayWindow.bitIsSet_eq, hR.bitAt_eq d hd, hw]

end Represents

theorem represents_new : Represents ReplayWindow.new ∅ where
  highest_eq := rfl
  bitAt_eq d _ := by simp [ReplayWindow.new]

namespace ReplayWindow

theorem toNat_udpReplayWindowSize : udpReplayWindowSize.toUInt64.toNat = udpReplayWindowSize := rfl

/-- `may_accept` decides the model's acceptance. -/
theorem mayAccept_eq {w : ReplayWindow} {S : Finset ℕ} (hR : Represents w S) (seq : UInt64) :
    w.mayAccept seq = modelMayAccept S seq.toNat := by
  cases hw : w.highest with
  | none =>
    simp [mayAccept, hw, modelMayAccept, hR.eq_empty hw]
  | some h =>
    obtain ⟨hne, hsup⟩ := hR.sup_eq hw
    simp only [mayAccept, hw]
    by_cases hgt : seq > h
    · have hlt : h.toNat < seq.toNat := hgt
      simp [hgt, modelMayAccept, hsup, hlt]
    · have hle' : seq.toNat ≤ h.toNat := by
        rw [gt_iff_lt, UInt64.lt_iff_toNat_lt] at hgt
        omega
      have hdist : (h - seq).toNat = h.toNat - seq.toNat :=
        UInt64.toNat_sub_of_le h seq (UInt64.le_iff_toNat_le.mpr hle')
      simp only [if_neg hgt, ge_iff_le, UInt64.le_iff_toNat_le, hdist, toNat_udpReplayWindowSize]
      by_cases hfar : udpReplayWindowSize ≤ h.toNat - seq.toNat
      · simp [hfar, modelMayAccept, hne, hsup, Nat.not_lt.mpr hle', Nat.not_lt.mpr hfar]
      · have hin : h.toNat - seq.toNat < udpReplayWindowSize := Nat.lt_of_not_le hfar
        have hback : h.toNat - (h.toNat - seq.toNat) = seq.toNat := by omega
        rw [if_neg hfar, hR.bitIsSet_eq hw hin]
        simp [modelMayAccept, hne, hsup, Nat.not_lt.mpr hle', hin, hback]

end ReplayWindow

-- ---------------------------------------------------------------------------
-- `commit`, case by case
-- ---------------------------------------------------------------------------

namespace ReplayWindow

variable {w : ReplayWindow} {S : Finset ℕ}

/-- The first commit makes `seq` the highest, with only bit 0 on. -/
theorem represents_first (hR : Represents w S) (hw : w.highest = none) (seq : UInt64) :
    Represents ({ w with highest := some seq }.setBit 0) (insert seq.toNat S) := by
  obtain rfl := hR.eq_empty hw
  constructor
  · simp
  · intro d hd
    have hold := hR.bitAt_eq d hd
    rw [hw] at hold
    rw [bitAt_setBit _ (by decide) d]
    simp only [setBit_highest]
    rw [show ({ w with highest := some seq } : ReplayWindow).seen = w.seen from rfl, hold]
    by_cases hd0 : d = 0
    · simp [hd0]
    · have : seq.toNat - d ≠ seq.toNat ∨ ¬ d ≤ seq.toNat := by omega
      simp [hd0]
      omega

/-- The bitmap after the forward move of a commit above the highest, before
bit 0 is set: bit `d` stands for `highest + advance - d`. -/
theorem bitAt_advance (hR : Represents w S) {h seq : UInt64} (hw : w.highest = some h)
    (hgt : h.toNat < seq.toNat) {d : Nat} (hd : d < udpReplayWindowSize) :
    bitAt (if seq - h ≥ udpReplayWindowSize.toUInt64 then
        { w with seen := Vector.replicate wordCount 0 } else w.shiftOlder (seq - h).toNat).seen d =
      decide (seq.toNat - h.toNat ≤ d ∧ d - (seq.toNat - h.toNat) ≤ h.toNat ∧
        h.toNat - (d - (seq.toNat - h.toNat)) ∈ S) := by
  have hadv : (seq - h).toNat = seq.toNat - h.toNat :=
    UInt64.toNat_sub_of_le seq h (UInt64.le_iff_toNat_le.mpr (Nat.le_of_lt hgt))
  by_cases hfar : seq - h ≥ udpReplayWindowSize.toUInt64
  · rw [if_pos hfar]
    rw [ge_iff_le, UInt64.le_iff_toNat_le, hadv, toNat_udpReplayWindowSize] at hfar
    have : ¬ seq.toNat - h.toNat ≤ d := by omega
    simp [this]
  · rw [if_neg hfar]
    rw [ge_iff_le, UInt64.le_iff_toNat_le, hadv, toNat_udpReplayWindowSize] at hfar
    rw [bitAt_shiftOlder w (by rw [hadv]; omega) hd, hadv]
    by_cases ha : seq.toNat - h.toNat ≤ d
    · have hin : d - (seq.toNat - h.toNat) < udpReplayWindowSize := by omega
      rw [hR.bitAt_eq _ hin, hw]
      simp [ha]
    · simp [ha]

/-- A commit above the highest moves the window up to `seq`. -/
theorem represents_advance (hR : Represents w S) {h seq : UInt64} (hw : w.highest = some h)
    (hgt : h.toNat < seq.toNat) :
    Represents
      ({ (if seq - h ≥ udpReplayWindowSize.toUInt64 then
          { w with seen := Vector.replicate wordCount 0 } else w.shiftOlder (seq - h).toNat) with
          highest := some seq }.setBit 0)
      (insert seq.toNat S) := by
  obtain ⟨hne, hsup⟩ := hR.sup_eq hw
  have hmax : ∀ x ∈ S, x ≤ h.toNat := fun x hx => hsup ▸ le_sup_of_mem hx
  constructor
  · have : max seq.toNat h.toNat = seq.toNat := max_eq_left (Nat.le_of_lt hgt)
    simp [Finset.sup_insert, hsup, this]
  · intro d hd
    rw [bitAt_setBit _ (by decide) d]
    simp only [setBit_highest]
    rw [show ∀ v : ReplayWindow, ({ v with highest := some seq } : ReplayWindow).seen = v.seen
      from fun _ => rfl, bitAt_advance hR hw hgt hd]
    by_cases hd0 : d = 0
    · simp [hd0]
    · -- away from bit 0, a number in the window is old exactly when it is in `S`
      simp only [hd0, decide_false, Bool.or_false, Finset.mem_insert]
      apply decide_eq_decide.mpr
      constructor
      · rintro ⟨ha, hle, hmem⟩
        have : h.toNat - (d - (seq.toNat - h.toNat)) = seq.toNat - d := by omega
        exact ⟨by omega, Or.inr (this ▸ hmem)⟩
      · rintro ⟨hle, hmem | hmem⟩
        · omega
        · have hx := hmax _ hmem
          have : h.toNat - (d - (seq.toNat - h.toNat)) = seq.toNat - d := by omega
          exact ⟨by omega, by omega, this ▸ hmem⟩

/-- A commit inside the window sets the bit of its distance. -/
theorem represents_fill (hR : Represents w S) {h seq : UInt64} (hw : w.highest = some h)
    (hle : seq.toNat ≤ h.toNat) (hin : h.toNat - seq.toNat < udpReplayWindowSize) :
    Represents (w.setBit (h - seq).toNat) (insert seq.toNat S) := by
  obtain ⟨hne, hsup⟩ := hR.sup_eq hw
  have hdist : (h - seq).toNat = h.toNat - seq.toNat :=
    UInt64.toNat_sub_of_le h seq (UInt64.le_iff_toNat_le.mpr hle)
  constructor
  · have : max seq.toNat h.toNat = h.toNat := max_eq_right hle
    simp [hw, Finset.sup_insert, hsup, this]
  · intro d hd
    rw [hdist, bitAt_setBit _ hin d, hR.bitAt_eq d hd]
    simp only [setBit_highest, hw, Finset.mem_insert]
    by_cases hdh : d ≤ h.toNat
    · by_cases hd' : d = h.toNat - seq.toNat
      · have hback : h.toNat - (h.toNat - seq.toNat) = seq.toNat := by omega
        simp [hd', hback]
      · have : h.toNat - d ≠ seq.toNat := by omega
        simp [hd', this]
    · have : d ≠ h.toNat - seq.toNat := by omega
      simp [hdh, this]

theorem commit_of_not_mayAccept {seq : UInt64} (hacc : w.mayAccept seq = false) :
    w.commit seq = (w, false) := by
  simp [commit, hacc]

/-- One `commit`: the answer is the model's, and the window represents the
model's next set. -/
theorem commit_refines (hR : Represents w S) (seq : UInt64) :
    Represents (w.commit seq).1 (replayModel S (.commit seq)).1 ∧
      (w.commit seq).2 = (replayModel S (.commit seq)).2 := by
  have heq := mayAccept_eq hR seq
  cases hacc : w.mayAccept seq with
  | false =>
    rw [hacc] at heq
    simp [commit_of_not_mayAccept hacc, replayModel, ← heq, hR]
  | true =>
    rw [hacc] at heq
    simp only [replayModel, ← heq, if_true]
    unfold commit
    simp only [hacc, Bool.not_true, Bool.false_eq_true, if_false]
    cases hw : w.highest with
    | none => exact ⟨represents_first hR hw seq, rfl⟩
    | some h =>
      simp only
      by_cases hgt : seq > h
      · exact ⟨by simpa [hgt, hw] using represents_advance hR hw hgt, by simp [hgt]⟩
      · have hle : seq.toNat ≤ h.toNat := by
          rw [gt_iff_lt, UInt64.lt_iff_toNat_lt] at hgt
          omega
        have hin : h.toNat - seq.toNat < udpReplayWindowSize := by
          have hdist : (h - seq).toNat = h.toNat - seq.toNat :=
            UInt64.toNat_sub_of_le h seq (UInt64.le_iff_toNat_le.mpr hle)
          simp only [mayAccept, hw, if_neg hgt, ge_iff_le, UInt64.le_iff_toNat_le, hdist,
            toNat_udpReplayWindowSize] at hacc
          by_contra hfar
          simp [Nat.le_of_not_lt hfar] at hacc
        exact ⟨by simpa [hgt] using represents_fill hR hw hle hin, by simp [hgt]⟩

end ReplayWindow

-- ---------------------------------------------------------------------------
-- Every run
-- ---------------------------------------------------------------------------

theorem call_simulates : Simulates ReplayWindow.call replayModel Represents := by
  intro w S c hR
  cases c with
  | mayAccept seq => exact ⟨hR, ReplayWindow.mayAccept_eq hR seq⟩
  | commit seq => exact ReplayWindow.commit_refines hR seq

/-- How many times `commit seq` answered true in a run. -/
def acceptedCommits (seq : UInt64) (calls : List ReplayCall) (answers : List Bool) : Nat :=
  ((calls.zip answers).filter (fun p => decide (p.1 = .commit seq) && p.2)).length

theorem modelMayAccept_of_mem {S : Finset ℕ} {x : ℕ} (hx : x ∈ S) : modelMayAccept S x = false := by
  have hle := le_sup_of_mem hx
  have hne : S ≠ ∅ := Finset.ne_empty_of_mem hx
  simp [modelMayAccept, hne, hx, Nat.not_lt.mpr hle]

theorem acceptedCommits_cons (seq : UInt64) (c : ReplayCall) (calls : List ReplayCall)
    (b : Bool) (bs : List Bool) :
    acceptedCommits seq (c :: calls) (b :: bs) =
      (if c = .commit seq ∧ b = true then 1 else 0) + acceptedCommits seq calls bs := by
  unfold acceptedCommits
  rw [List.zip_cons_cons, List.filter_cons]
  by_cases h : c = .commit seq ∧ b = true
  · rw [if_pos (by simpa using h), if_pos h, List.length_cons, Nat.add_comm]
  · rw [if_neg (by simpa using h), if_neg h, Nat.zero_add]

theorem replayModel_mem {S : Finset ℕ} {x : ℕ} (hx : x ∈ S) (c : ReplayCall) :
    x ∈ (replayModel S c).1 := by
  cases c with
  | mayAccept t => exact hx
  | commit t =>
    by_cases h : modelMayAccept S t.toNat = true
    · simp [replayModel, h, hx]
    · simp [replayModel, h, hx]

/-- In the model `commit` accepts a number at most once, and not at all once
it is in `S`. -/
theorem model_acceptedCommits (seq : UInt64) (calls : List ReplayCall) :
    ∀ S : Finset ℕ, (seq.toNat ∈ S → acceptedCommits seq calls (run replayModel S calls) = 0) ∧
      acceptedCommits seq calls (run replayModel S calls) ≤ 1 := by
  induction calls with
  | nil => intro S; simp [acceptedCommits]
  | cons c calls ih =>
    intro S
    obtain ⟨hzero, hone⟩ := ih (replayModel S c).1
    rw [run_cons, acceptedCommits_cons]
    cases c with
    | mayAccept t =>
      simp only [reduceCtorEq, false_and, if_false, Nat.zero_add]
      exact ⟨fun hmem => hzero (replayModel_mem hmem _), hone⟩
    | commit t =>
      by_cases ht : t = seq
      · subst ht
        by_cases hmem : t.toNat ∈ S
        · -- already accepted: the model answers false and keeps `S`
          have hstep : replayModel S (.commit t) = (S, false) := by
            simp [replayModel, modelMayAccept_of_mem hmem]
          rw [hstep] at hzero hone ⊢
          have hrest := hzero hmem
          simp [hrest]
        · by_cases hacc : modelMayAccept S t.toNat = true
          · have hstep : replayModel S (.commit t) = (insert t.toNat S, true) := by
              simp [replayModel, hacc]
            rw [hstep] at hzero hone ⊢
            have hrest := hzero (Finset.mem_insert_self _ _)
            simp [hmem, hrest]
          · have hstep : replayModel S (.commit t) = (S, false) := by
              simp [replayModel, hacc]
            rw [hstep] at hzero hone ⊢
            simp [hmem, hone]
      · simp only [ReplayCall.commit.injEq, ht, false_and, if_false, Nat.zero_add]
        exact ⟨fun hmem => hzero (replayModel_mem hmem _), hone⟩

/-- `ReplayWindow` refines the replay model: on every sequence of `may_accept`
and `commit` calls from `new()`, with any `u64` arguments, the window answers
as the model does; hence `commit` accepts every sequence number at most once. -/
theorem replayWindow_refines (calls : List ReplayCall) :
    run ReplayWindow.call ReplayWindow.new calls = run replayModel ∅ calls ∧
      ∀ seq : UInt64, acceptedCommits seq calls (run ReplayWindow.call ReplayWindow.new calls) ≤ 1 := by
  have hrun := run_simulation call_simulates represents_new calls
  refine ⟨hrun, fun seq => ?_⟩
  rw [hrun]
  exact (model_acceptedCommits seq calls ∅).2

example :
    run ReplayWindow.call ReplayWindow.new
      [.commit 1, .commit 10000, .mayAccept 1, .mayAccept 9999, .commit 18446744073709551615,
        .mayAccept 0] = [true, true, false, true, true, false] := by
  decide

end Ppaass.Udp
