import Ppaass.Lib.Fragments
import Ppaass.Protocol.Udp.Codec

/-!
# What a sender puts on the wire

A run of `encode_message` calls over messages whose encodings fit, from a
codec that has sent nothing: message `j` gets message id `j`, and its
fragments the sequence numbers from `firstSeq j` on, in order
(`run_encodeStep`). The layout of the fragments, their counts, sizes and
sequence numbers, is read off the lengths of the encodings alone, and every
fragment sealed passes the checks the receiver makes of it
(`validateFragment_sealed`).
-/

namespace Ppaass.Udp

open Fragments

-- ---------------------------------------------------------------------------
-- The layout of the fragments
-- ---------------------------------------------------------------------------

section Layout

variable (plaintexts : List (List UInt8))

/-- How many fragments each encoded message is cut into. -/
def fragmentCounts : List Nat := plaintexts.map fun p => fragmentCountOf p.length

/-- The size of fragment `i` of message `j`. -/
def fragmentSize (j i : Nat) : Nat := fragmentLen (plaintexts.getD j []).length i

/-- The sequence number of the first fragment of message `j`. -/
def firstSeq (j : Nat) : Nat := ((fragmentCounts plaintexts).take j).sum

/-- The sequence number a delivered fragment was sent with. -/
def seqOf (d : Delivery) : Nat := firstSeq plaintexts d.message + d.index

/-- A delivery names a fragment that was sent. -/
def Sent (d : Delivery) : Prop :=
  d.message < plaintexts.length ∧ d.index < (fragmentCounts plaintexts).getD d.message 0

variable {plaintexts}

@[simp] theorem length_fragmentCounts : (fragmentCounts plaintexts).length = plaintexts.length :=
  List.length_map ..

theorem getD_fragmentCounts {j : Nat} (hj : j < plaintexts.length) :
    (fragmentCounts plaintexts).getD j 0 = fragmentCountOf (plaintexts.getD j []).length := by
  simp [fragmentCounts, hj]

theorem firstSeq_succ {j : Nat} (hj : j < plaintexts.length) :
    firstSeq plaintexts (j + 1) = firstSeq plaintexts j + (fragmentCounts plaintexts).getD j 0 := by
  rw [firstSeq, List.sum_take_succ _ _ (by simpa using hj), firstSeq, List.getD_eq_getElem]

theorem firstSeq_mono {j j' : Nat} (h : j ≤ j') : firstSeq plaintexts j ≤ firstSeq plaintexts j' := by
  obtain ⟨m, rfl⟩ := Nat.exists_eq_add_of_le h
  rw [firstSeq, firstSeq, List.take_add, List.sum_append]
  exact Nat.le_add_right _ _

/-- The fragments of a message come before those of every later message. -/
theorem seqOf_lt_firstSeq {d : Delivery} (hd : Sent plaintexts d) {j : Nat}
    (hj : d.message < j) : seqOf plaintexts d < firstSeq plaintexts j := by
  have hstep := firstSeq_succ hd.1
  have hmono : firstSeq plaintexts (d.message + 1) ≤ firstSeq plaintexts j :=
    firstSeq_mono (by omega)
  have := hd.2
  unfold seqOf
  omega

/-- Two fragments sent with the same sequence number are the same fragment. -/
theorem key_eq_of_seqOf_eq {d d' : Delivery} (hd : Sent plaintexts d) (hd' : Sent plaintexts d')
    (h : seqOf plaintexts d = seqOf plaintexts d') : d.key = d'.key := by
  rcases Nat.lt_trichotomy d.message d'.message with hlt | heq | hgt
  · have := seqOf_lt_firstSeq hd hlt
    unfold seqOf at this h
    omega
  · unfold seqOf at h
    rw [heq] at h
    simp only [Delivery.key, heq, Prod.mk.injEq, true_and]
    omega
  · have := seqOf_lt_firstSeq hd' hgt
    unfold seqOf at this h
    omega

theorem firstSeq_le (j : Nat) (hlen : ∀ p ∈ plaintexts, p.length ≤ udpMaxMessageSize) :
    firstSeq plaintexts j ≤ j * udpMaxFragments := by
  have hcount : ∀ k ∈ (fragmentCounts plaintexts).take j, k ≤ udpMaxFragments := by
    intro k hk
    obtain ⟨p, hp, rfl⟩ := List.mem_map.mp (List.mem_of_mem_take hk)
    exact (fragmentCountOf_le (hlen p hp)).trans (by decide)
  calc firstSeq plaintexts j
      ≤ ((fragmentCounts plaintexts).take j).length * udpMaxFragments :=
        List.sum_le_card_nsmul _ _ hcount
    _ ≤ j * udpMaxFragments := Nat.mul_le_mul_right _ (List.length_take_le _ _)

end Layout

-- ---------------------------------------------------------------------------
-- A fragment the sender sealed passes the receiver's checks
-- ---------------------------------------------------------------------------

theorem validateFragment_sealed {plaintext : List UInt8}
    (hlen : plaintext.length ≤ udpMaxMessageSize) {i : Nat}
    (hi : i < fragmentCountOf plaintext.length) (c : UdpSessionCrypto) (messageId : UInt64) :
    validateFragment ⟨UdpSessionCrypto.fragmentHeader c messageId plaintext i,
      UdpSessionCrypto.fragmentBytes plaintext i⟩ = .ok () := by
  have htotal : plaintext.length.toUInt32.toNat = plaintext.length := by
    rw [udpMaxMessageSize_eq] at hlen
    simp
    omega
  have hsize := UdpSessionCrypto.length_fragmentBytes plaintext i
  have hk := fragmentCountOf_le hlen
  rw [validateFragment_eq_ok_iff]
  refine ⟨fragmentHeader_valid hlen hi _ _ _, UdpSessionCrypto.length_fragmentBytes_le plaintext i,
    ?_, ?_, ?_, ?_⟩ <;>
    simp only [UdpSessionCrypto.fragmentHeader, UdpPacketHeader.new, htotal]
  · exact hlen
  · rw [hsize]
    unfold fragmentLen
    omega
  · simp only [udpMaxFragments]
    simp
    omega
  · -- a fragment of a non-empty message is not empty
    intro hne hnil
    have hpos : 0 < plaintext.length := by
      rcases Nat.eq_zero_or_pos plaintext.length with h0 | h0
      · simp [h0] at hne
      · exact h0
    have := fragmentLen_pos hpos hi
    rw [← UdpSessionCrypto.length_fragmentBytes, hnil] at this
    exact Nat.lt_irrefl 0 this

/-- Every datagram the sender seals fits in one UDP datagram. -/
theorem length_sealFragment_le {aead : Aead} (hlaw : aead.Lawful) {c : UdpSessionCrypto}
    {messageId : UInt64} {plaintext : List UInt8} (hlen : plaintext.length ≤ udpMaxMessageSize)
    {i : Nat} (hi : i < fragmentCountOf plaintext.length) {d : List UInt8}
    (h : UdpSessionCrypto.sealFragment aead c messageId plaintext
      (fragmentCountOf plaintext.length) i = .ok d) :
    d.length ≤ udpMaxDatagramSize := by
  obtain ⟨ct, tag, hct, hseal⟩ :=
    UdpSessionCrypto.sealFragment_eq_ok aead c messageId plaintext hlaw hlen hi
  rw [hseal] at h
  cases h
  obtain ⟨hctlen, htaglen⟩ := hlaw.length_encrypt _ _ _ _ _ _ hct
  have hfrag := UdpSessionCrypto.length_fragmentBytes_le plaintext i
  rw [udpMaxFragmentPlaintext_eq] at hfrag
  simp only [List.length_append, UdpPacketHeader.length_headerBytes, hctlen, htaglen,
    udpTransportHeaderLen, udpAeadTagLen, udpMaxDatagramSize]
  omega

-- ---------------------------------------------------------------------------
-- A run of `encode_message`
-- ---------------------------------------------------------------------------

theorem toNat_toUInt64_of_lt {n : Nat} (h : n < 2 ^ 64) : n.toUInt64.toNat = n := by
  rw [Nat.toUInt64_eq, UInt64.toNat_ofNat']
  exact Nat.mod_eq_of_lt h

/-- The sender's direction when it seals the fragments numbered from `seq`. -/
def UdpSessionCrypto.at (c : UdpSessionCrypto) (seq : Nat) : UdpSessionCrypto :=
  { c with nextSendSequence := seq.toUInt64 }

namespace UdpSessionCodec

variable {Msg : Type} (aead : Aead) (bc : Bitcode Msg)

/-- A run of `encode_message` over messages whose encodings fit, with
enough sequence numbers and message ids left: every call succeeds, message
`j` gets the next message id plus `j`, and fragment `i` of it is sealed with
sequence number `firstSeq j + i` past the first one. -/
theorem run_encodeStep (hlaw : aead.Lawful) {messages : List Msg} {plaintexts : List (List UInt8)}
    (hencode : List.Forall₂ (fun m p => UdpSessionMessage.encode bc m = .ok p ∧
      p.length ≤ udpMaxMessageSize) messages plaintexts) :
    ∀ (codec : UdpSessionCodec) (seq : Nat), codec.crypto.nextSendSequence.toNat = seq →
      codec.crypto.sendSequenceExhausted = false → codec.messageIdExhausted = false →
      seq + plaintexts.length * udpMaxFragments < 2 ^ 64 →
      codec.nextMessageId.toNat + plaintexts.length < 2 ^ 64 →
      ∃ datagrams : List (List (List UInt8)),
        Machine.run (encodeStep aead bc) codec messages = datagrams.map .ok ∧
        datagrams.length = plaintexts.length ∧
        ∀ j < plaintexts.length, List.Forall₂ (fun i d =>
          UdpSessionCrypto.sealFragment aead (codec.crypto.at (seq + firstSeq plaintexts j))
            (codec.nextMessageId.toNat + j).toUInt64 (plaintexts.getD j [])
            (fragmentCountOf (plaintexts.getD j []).length) i = .ok d)
          (List.range (fragmentCountOf (plaintexts.getD j []).length)) (datagrams.getD j []) := by
  induction hencode with
  | nil => exact fun _ _ _ _ _ _ _ => ⟨[], rfl, rfl, fun j hj => absurd hj (Nat.not_lt_zero j)⟩
  | @cons m p messages plaintexts hmp _ ih =>
    intro codec seq hseq hexh hmexh hfew hids
    obtain ⟨henc, hlen⟩ := hmp
    have hk := fragmentCountOf_le hlen
    have hkpos := fragmentCountOf_pos p.length
    simp only [List.length_cons, udpMaxFragments] at hfew hids
    -- the message is sealed from the next sequence number on
    obtain ⟨ds, hds, hseal⟩ := UdpSessionCrypto.sealMessage_eq_ok aead codec.crypto
      codec.nextMessageId p hlaw hlen hexh (by omega)
    have hlast : codec.crypto.nextSendSequence + (fragmentCountOf p.length - 1).toUInt64 ≠ u64Max := by
      intro h
      have := congrArg UInt64.toNat h
      rw [UdpSessionCrypto.toNat_add_toUInt64 (by omega)] at this
      simp only [u64Max] at this
      simp at this
      omega
    have hnext : codec.nextMessageId ≠ u64Max := by
      intro h
      have hmax : u64Max.toNat = 2 ^ 64 - 1 := rfl
      rw [h, hmax] at hids
      omega
    have hstep : encodeStep aead bc codec m =
        ({ codec with
            crypto := codec.crypto.at (seq + fragmentCountOf p.length),
            nextMessageId := codec.nextMessageId + 1 }, .ok ds) := by
      simp only [encodeStep, encodeMessage, hmexh, henc, hseal, Bool.false_eq_true, if_false,
        hnext]
      simp only [UdpSessionCrypto.advanceSendSequence, hlast, if_false, UdpSessionCrypto.at]
      congr 3
      apply UInt64.toNat_inj.mp
      rw [toNat_succ_of_ne_u64Max hlast, UdpSessionCrypto.toNat_add_toUInt64 (by omega),
        toNat_toUInt64_of_lt (by omega)]
      omega
    obtain ⟨dgs, hrun, hlength, hsealed⟩ := ih
      { codec with
        crypto := codec.crypto.at (seq + fragmentCountOf p.length),
        nextMessageId := codec.nextMessageId + 1 }
      (seq + fragmentCountOf p.length) (toNat_toUInt64_of_lt (by omega)) hexh hmexh
      (by simp only [udpMaxFragments]; omega)
      (show (codec.nextMessageId + 1).toNat + plaintexts.length < 2 ^ 64 by
        rw [toNat_succ_of_ne_u64Max hnext]; omega)
    refine ⟨ds :: dgs, by rw [Machine.run_cons, hstep, hrun]; rfl, by simp [hlength], ?_⟩
    intro j hj
    cases j with
    | zero =>
      -- the first message is sealed by the codec's own direction
      have hat : codec.crypto.at (seq + firstSeq (p :: plaintexts) 0) = codec.crypto := by
        simp only [UdpSessionCrypto.at, firstSeq, List.take_zero, List.sum_nil, Nat.add_zero,
          ← hseq, UInt64.ofNat_toNat]
      simpa [hat] using Result.mapM_eq_ok_iff.mp hds
    | succ j =>
      have hj' : j < plaintexts.length := by simpa using hj
      have hfirst : firstSeq (p :: plaintexts) (j + 1) =
          fragmentCountOf p.length + firstSeq plaintexts j := by
        simp [firstSeq, fragmentCounts]
      have hid : (codec.nextMessageId + 1).toNat + j = codec.nextMessageId.toNat + (j + 1) := by
        rw [toNat_succ_of_ne_u64Max hnext]
        omega
      have := hsealed j hj'
      simp only [UdpSessionCrypto.at, hid] at this
      simpa [UdpSessionCrypto.at, hfirst, Nat.add_assoc] using this

end UdpSessionCodec

end Ppaass.Udp
