import Ppaass.Protocol.Udp.Header
import Ppaass.Protocol.Udp.Replay

/-!
# Sealing and opening native UDP datagrams

`UdpSessionCrypto` of `udp_transport/crypto.rs`. `seal_message` splits a
plaintext into fragments of at most `UDP_MAX_FRAGMENT_PLAINTEXT` bytes, gives
fragment `i` the sequence number `next_send_sequence + i`, and encrypts it
under the send key with the encoded header as associated data;
`open_datagram` parses, replay-checks, decrypts under the receive key and
commits a single datagram.

AES-256-GCM is not under `src/`: `Aead` takes the two calls the code makes as
parameters, and `Aead.Lawful` states what the code relies on of them. Key
derivation through HKDF is left out: a codec is built here from its key
material, and both ends of a session derive the same material.
-/

namespace Ppaass.Udp

open Ppaass.BigEndian

inductive UdpSessionRole where
  | agent
  | proxy
  deriving DecidableEq, Repr

abbrev Key := Vector UInt8 32

abbrev NoncePrefix := Vector UInt8 4

/-- The AES-256-GCM calls the code makes on a cipher built from a key:
`encrypt_in_place_detached` (ciphertext of the buffer's length, and the tag)
and `decrypt` of a ciphertext with its tag appended. Both may fail. -/
structure Aead where
  encryptInPlaceDetached : Key → List UInt8 → List UInt8 → List UInt8 →
    Option (List UInt8 × List UInt8)
  decrypt : Key → List UInt8 → List UInt8 → List UInt8 → Option (List UInt8)

/-- What the code relies on of AES-GCM: encryption in place keeps the length
and returns a 16-byte tag, it does not fail on a buffer of one fragment, and
decryption under the same key, nonce and associated data gives the plaintext
back. -/
structure Aead.Lawful (aead : Aead) : Prop where
  length_encrypt : ∀ k n a p c t, aead.encryptInPlaceDetached k n a p = some (c, t) →
    c.length = p.length ∧ t.length = udpAeadTagLen
  encrypt_isSome : ∀ k n a p, p.length ≤ udpMaxFragmentPlaintext →
    (aead.encryptInPlaceDetached k n a p).isSome
  decrypt_encrypt : ∀ k n a p c t, aead.encryptInPlaceDetached k n a p = some (c, t) →
    aead.decrypt k n a (c ++ t) = some p

structure UdpDirectionalKeyMaterial where
  clientToServerKey : Key
  serverToClientKey : Key
  clientToServerNoncePrefix : NoncePrefix
  serverToClientNoncePrefix : NoncePrefix

/-- One direction of a session: the cipher, here the key it was built from,
and the nonce prefix. -/
structure DirectionState where
  cipher : Key
  noncePrefix : NoncePrefix

structure DecryptedUdpFragment where
  header : UdpPacketHeader
  payload : List UInt8

structure UdpSessionCrypto where
  role : UdpSessionRole
  sessionId : UdpSessionId
  send : DirectionState
  receive : DirectionState
  nextSendSequence : UInt64
  sendSequenceExhausted : Bool
  replay : ReplayWindow

/-- `u64::MAX`. -/
def u64Max : UInt64 := 18446744073709551615

/-- `make_nonce`: the prefix, then the sequence number big-endian. -/
def makeNonce (noncePrefix : NoncePrefix) (seq : UInt64) : List UInt8 :=
  noncePrefix.toList ++ fixedBytes 8 seq.toNat

/-- `len.div_ceil(UDP_MAX_FRAGMENT_PLAINTEXT).max(1)`. -/
def fragmentCountOf (len : Nat) : Nat :=
  max ((len + udpMaxFragmentPlaintext - 1) / udpMaxFragmentPlaintext) 1

namespace UdpSessionCrypto

def fromKeyMaterial (role : UdpSessionRole) (sessionId : UdpSessionId)
    (keys : UdpDirectionalKeyMaterial) : UdpSessionCrypto :=
  let clientToServer : DirectionState :=
    ⟨keys.clientToServerKey, keys.clientToServerNoncePrefix⟩
  let serverToClient : DirectionState :=
    ⟨keys.serverToClientKey, keys.serverToClientNoncePrefix⟩
  let (send, receive) := match role with
    | .agent => (clientToServer, serverToClient)
    | .proxy => (serverToClient, clientToServer)
  { role, sessionId, send, receive, nextSendSequence := 0, sendSequenceExhausted := false,
    replay := ReplayWindow.new }

/-- One iteration of the fragment loop of `seal_message`. -/
def sealFragment (aead : Aead) (c : UdpSessionCrypto) (messageId : UInt64)
    (plaintext : List UInt8) (fragmentCount fragmentIndex : Nat) :
    Except UdpTransportError (List UInt8) := do
  let start := fragmentIndex * udpMaxFragmentPlaintext
  let stop := min (start + udpMaxFragmentPlaintext) plaintext.length
  let fragment := (plaintext.drop start).take (stop - start)
  let seq := c.nextSendSequence + fragmentIndex.toUInt64
  let header := UdpPacketHeader.new .encrypted c.sessionId seq messageId
    fragmentIndex.toUInt16 fragmentCount.toUInt16 plaintext.length.toUInt32
  let aad ← header.encode
  let nonce := makeNonce c.send.noncePrefix seq
  let datagramLen := aad.length + fragment.length + udpAeadTagLen
  if datagramLen > udpMaxDatagramSize then throw (.datagramTooLarge datagramLen)
  match aead.encryptInPlaceDetached c.send.cipher nonce aad fragment with
  | none => throw .encryptionFailed
  | some (ciphertext, tag) => pure (aad ++ ciphertext ++ tag)

/-- The last step of `seal_message`: past `u64::MAX` nothing more is sent. -/
def advanceSendSequence (c : UdpSessionCrypto) (lastSequence : UInt64) : UdpSessionCrypto :=
  if lastSequence = u64Max then { c with sendSequenceExhausted := true }
  else { c with nextSendSequence := lastSequence + 1 }

/-- `seal_message`. The state changes only when every fragment is sealed. -/
def sealMessage (aead : Aead) (c : UdpSessionCrypto) (messageId : UInt64)
    (plaintext : List UInt8) : UdpSessionCrypto × Except UdpTransportError (List (List UInt8)) :=
  if plaintext.length > udpMaxMessageSize then
    (c, .error (.messageTooLarge plaintext.length))
  else
    let fragmentCount := fragmentCountOf plaintext.length
    if fragmentCount > udpMaxFragments then (c, .error (.tooManyFragments fragmentCount))
    else if c.sendSequenceExhausted then (c, .error .sequenceExhausted)
    -- `checked_add` of `fragment_count - 1`
    else if 2 ^ 64 ≤ c.nextSendSequence.toNat + (fragmentCount - 1) then
      (c, .error .sequenceExhausted)
    else
      let lastSequence := c.nextSendSequence + (fragmentCount - 1).toUInt64
      match (List.range fragmentCount).mapM
          (sealFragment aead c messageId plaintext fragmentCount) with
      | .error e => (c, .error e)
      | .ok datagrams => (c.advanceSendSequence lastSequence, .ok datagrams)

/-- `open_datagram`. The replay window changes only when the datagram is
accepted. -/
def openDatagram (aead : Aead) (c : UdpSessionCrypto) (datagram : List UInt8) :
    UdpSessionCrypto × Except UdpTransportError DecryptedUdpFragment :=
  if datagram.length > udpMaxDatagramSize then
    (c, .error (.datagramTooLarge datagram.length))
  else if datagram.length < udpTransportHeaderLen + udpAeadTagLen then
    (c, .error (.datagramTooShort datagram.length))
  else
    match UdpPacketHeader.decode datagram with
    | .error e => (c, .error e)
    | .ok header =>
      if header.kind ≠ .encrypted then
        (c, .error (.unexpectedPacketKind UdpPacketKind.encrypted.toU8 header.kind.toU8))
      else if header.sessionId ≠ c.sessionId then (c, .error .wrongSession)
      else if !c.replay.mayAccept header.seq then (c, .error .replayRejected)
      else
        let aad := datagram.take udpTransportHeaderLen
        let ciphertext := datagram.drop udpTransportHeaderLen
        let nonce := makeNonce c.receive.noncePrefix header.seq
        match aead.decrypt c.receive.cipher nonce aad ciphertext with
        | none => (c, .error .authenticationFailed)
        | some plaintext =>
          if plaintext.length > udpMaxFragmentPlaintext then
            (c, .error (.invalidHeader "decrypted fragment exceeds maximum plaintext size"))
          else if header.totalLen ≠ 0 ∧ plaintext = [] then
            (c, .error (.invalidHeader "non-empty messages cannot contain empty fragments"))
          else
            let (replay, committed) := c.replay.commit header.seq
            if !committed then (c, .error .replayRejected)
            else ({ c with replay }, .ok ⟨header, plaintext⟩)

end UdpSessionCrypto

-- ---------------------------------------------------------------------------
-- Fragment arithmetic
-- ---------------------------------------------------------------------------

section FragmentCount

variable {len : Nat}

theorem fragmentCountOf_pos (len : Nat) : 0 < fragmentCountOf len := by
  unfold fragmentCountOf
  omega

theorem fragmentCountOf_le (h : len ≤ udpMaxMessageSize) : fragmentCountOf len ≤ 56 := by
  unfold fragmentCountOf
  rw [udpMaxMessageSize_eq] at h
  rw [udpMaxFragmentPlaintext_eq]
  omega

theorem le_fragmentCountOf_mul (len : Nat) :
    len ≤ fragmentCountOf len * udpMaxFragmentPlaintext := by
  unfold fragmentCountOf
  rw [udpMaxFragmentPlaintext_eq]
  omega

theorem fragmentCountOf_le_len (h : 0 < len) : fragmentCountOf len ≤ len := by
  unfold fragmentCountOf
  rw [udpMaxFragmentPlaintext_eq]
  omega

theorem fragmentCountOf_zero : fragmentCountOf 0 = 1 := rfl

/-- Every fragment of a non-empty message starts inside it. -/
theorem mul_lt_of_lt_fragmentCountOf {i : Nat} (h : 0 < len) (hi : i < fragmentCountOf len) :
    i * udpMaxFragmentPlaintext < len := by
  unfold fragmentCountOf at hi
  rw [udpMaxFragmentPlaintext_eq] at hi ⊢
  omega

end FragmentCount

/-- How many bytes fragment `i` of a message of `len` bytes carries. -/
def fragmentLen (len i : Nat) : Nat :=
  min (i * udpMaxFragmentPlaintext + udpMaxFragmentPlaintext) len - i * udpMaxFragmentPlaintext

theorem fragmentLen_le (len i : Nat) : fragmentLen len i ≤ udpMaxFragmentPlaintext := by
  unfold fragmentLen
  omega

theorem fragmentLen_pos {len i : Nat} (h : 0 < len) (hi : i < fragmentCountOf len) :
    0 < fragmentLen len i := by
  have := mul_lt_of_lt_fragmentCountOf h hi
  unfold fragmentLen
  rw [udpMaxFragmentPlaintext_eq] at this ⊢
  omega

/-- The first `n` fragments of a message of `len` bytes hold its first
`n * UDP_MAX_FRAGMENT_PLAINTEXT` bytes. -/
theorem sum_fragmentLen_range (len n : Nat) :
    ((List.range n).map (fragmentLen len)).sum = min (n * udpMaxFragmentPlaintext) len := by
  induction n with
  | zero => simp
  | succ n ih =>
    rw [List.range_succ, List.map_append, List.sum_append, ih, List.map_singleton,
      List.sum_singleton, Nat.succ_mul]
    unfold fragmentLen
    omega

theorem sum_fragmentLen (len : Nat) :
    ((List.range (fragmentCountOf len)).map (fragmentLen len)).sum = len := by
  rw [sum_fragmentLen_range]
  exact Nat.min_eq_right (le_fragmentCountOf_mul len)

/-- The header of fragment `i` of a message of `len` bytes. -/
theorem fragmentHeader_valid {len i : Nat} (hlen : len ≤ udpMaxMessageSize)
    (hi : i < fragmentCountOf len) (sessionId : UdpSessionId) (seq messageId : UInt64) :
    (UdpPacketHeader.new .encrypted sessionId seq messageId i.toUInt16
      (fragmentCountOf len).toUInt16 len.toUInt32).Valid := by
  have hk := fragmentCountOf_le hlen
  have hcount : (fragmentCountOf len).toUInt16.toNat = fragmentCountOf len := by simp; omega
  have hindex : i.toUInt16.toNat = i := by simp; omega
  have htotal : len.toUInt32.toNat = len := by
    rw [udpMaxMessageSize_eq] at hlen
    simp
    omega
  refine ⟨rfl, rfl, fun h => absurd rfl h, ?_, ?_, ?_, ?_, ?_, ?_, fun _ => ?_⟩ <;>
    simp only [UdpPacketHeader.new, hcount, hindex, htotal, UdpPacketHeader.maxTotalLen]
  · exact fragmentCountOf_pos len
  · exact hk.trans (by decide)
  · exact hi
  · exact hlen
  · intro h0
    rw [h0, fragmentCountOf_zero]
  · exact fragmentCountOf_le_len
  · exact le_fragmentCountOf_mul len

namespace UdpSessionCrypto

variable (aead : Aead) (c : UdpSessionCrypto) (messageId : UInt64) (plaintext : List UInt8)

/-- The header of fragment `i` of `plaintext` as `c` seals it. -/
def fragmentHeader (i : Nat) : UdpPacketHeader :=
  UdpPacketHeader.new .encrypted c.sessionId (c.nextSendSequence + i.toUInt64) messageId
    i.toUInt16 (fragmentCountOf plaintext.length).toUInt16 plaintext.length.toUInt32

/-- The bytes of `plaintext` fragment `i` carries. -/
def fragmentBytes (i : Nat) : List UInt8 :=
  (plaintext.drop (i * udpMaxFragmentPlaintext)).take
    (min (i * udpMaxFragmentPlaintext + udpMaxFragmentPlaintext) plaintext.length -
      i * udpMaxFragmentPlaintext)

theorem length_fragmentBytes_le (i : Nat) :
    (fragmentBytes plaintext i).length ≤ udpMaxFragmentPlaintext := by
  simp only [fragmentBytes, List.length_take]
  omega

theorem length_fragmentBytes (i : Nat) :
    (fragmentBytes plaintext i).length = fragmentLen plaintext.length i := by
  simp only [fragmentBytes, fragmentLen, List.length_take, List.length_drop]
  omega

theorem flatten_fragmentBytes_range (n : Nat) :
    ((List.range n).map (fragmentBytes plaintext)).flatten =
      plaintext.take (n * udpMaxFragmentPlaintext) := by
  induction n with
  | zero => simp
  | succ n ih =>
    rw [List.range_succ, List.map_append, List.flatten_append, ih, List.map_singleton,
      List.flatten_singleton, Nat.succ_mul, List.take_add]
    congr 1
    simp only [fragmentBytes, List.take_eq_take_iff, List.length_drop]
    omega

/-- The fragments of a plaintext, in order, are the plaintext. -/
theorem flatten_fragmentBytes :
    ((List.range (fragmentCountOf plaintext.length)).map (fragmentBytes plaintext)).flatten =
      plaintext := by
  rw [flatten_fragmentBytes_range]
  exact List.take_of_length_le (le_fragmentCountOf_mul plaintext.length)

/-- A fragment within the size limits seals: its datagram is its header's
bytes, then the ciphertext and the tag. -/
theorem sealFragment_eq_ok (hlaw : aead.Lawful) (hlen : plaintext.length ≤ udpMaxMessageSize)
    {i : Nat} (hi : i < fragmentCountOf plaintext.length) :
    ∃ ct tag, aead.encryptInPlaceDetached c.send.cipher
        (makeNonce c.send.noncePrefix (c.nextSendSequence + i.toUInt64))
        (fragmentHeader c messageId plaintext i).headerBytes (fragmentBytes plaintext i) =
          some (ct, tag) ∧
      sealFragment aead c messageId plaintext (fragmentCountOf plaintext.length) i =
        .ok ((fragmentHeader c messageId plaintext i).headerBytes ++ ct ++ tag) := by
  have hvalid := fragmentHeader_valid hlen hi c.sessionId (c.nextSendSequence + i.toUInt64)
    messageId
  have henc : (fragmentHeader c messageId plaintext i).encode =
      .ok (fragmentHeader c messageId plaintext i).headerBytes :=
    (UdpPacketHeader.encode_eq_ok_iff _ _).mpr ⟨hvalid, rfl⟩
  obtain ⟨⟨ct, tag⟩, hct⟩ := Option.isSome_iff_exists.mp
    (hlaw.encrypt_isSome c.send.cipher
      (makeNonce c.send.noncePrefix (c.nextSendSequence + i.toUInt64))
      (fragmentHeader c messageId plaintext i).headerBytes (fragmentBytes plaintext i)
      (length_fragmentBytes_le plaintext i))
  refine ⟨ct, tag, hct, ?_⟩
  have hsize : ¬ (fragmentHeader c messageId plaintext i).headerBytes.length +
      (fragmentBytes plaintext i).length + udpAeadTagLen > udpMaxDatagramSize := by
    have := length_fragmentBytes_le plaintext i
    simp only [UdpPacketHeader.length_headerBytes]
    rw [udpMaxFragmentPlaintext_eq] at this
    simp only [udpTransportHeaderLen, udpAeadTagLen, udpMaxDatagramSize]
    omega
  simp only [sealFragment, fragmentHeader, fragmentBytes] at henc hct hsize ⊢
  simp only [henc, Result.ok_bind, hsize, if_false, hct]
  rfl

/-- Whatever fragment loop iteration succeeds, its datagram starts with its
header. -/
theorem decode_sealFragment {k i : Nat} {d : List UInt8}
    (h : sealFragment aead c messageId plaintext k i = .ok d) (rest : List UInt8) :
    UdpPacketHeader.decode (d ++ rest) = .ok (UdpPacketHeader.new .encrypted c.sessionId
      (c.nextSendSequence + i.toUInt64) messageId i.toUInt16 k.toUInt16
      plaintext.length.toUInt32) := by
  simp only [sealFragment, Result.bind_eq_ok] at h
  obtain ⟨aad, henc, hrest⟩ := h
  -- the size check and the encryption either fail or leave the header in front
  split at hrest
  · cases hrest
  · split at hrest
    · cases hrest
    · cases hrest
      rw [List.append_assoc, List.append_assoc]
      exact UdpPacketHeader.decode_encode henc _

/-- Everything `seal_message` can do: fail and leave the state alone, or
pass its checks, seal every fragment, and advance the send sequence. -/
theorem sealMessage_cases :
    ((sealMessage aead c messageId plaintext).1 = c ∧
      ∃ e, (sealMessage aead c messageId plaintext).2 = .error e) ∨
    (plaintext.length ≤ udpMaxMessageSize ∧ c.sendSequenceExhausted = false ∧
      c.nextSendSequence.toNat + (fragmentCountOf plaintext.length - 1) < 2 ^ 64 ∧
      ∃ ds, (List.range (fragmentCountOf plaintext.length)).mapM
          (sealFragment aead c messageId plaintext (fragmentCountOf plaintext.length)) = .ok ds ∧
        sealMessage aead c messageId plaintext =
          (c.advanceSendSequence
            (c.nextSendSequence + (fragmentCountOf plaintext.length - 1).toUInt64), .ok ds)) := by
  simp only [sealMessage]
  split_ifs with hlen hcount hexh hover
  · exact .inl ⟨rfl, _, rfl⟩
  · exact .inl ⟨rfl, _, rfl⟩
  · exact .inl ⟨rfl, _, rfl⟩
  · exact .inl ⟨rfl, _, rfl⟩
  · split
    · exact .inl ⟨rfl, _, rfl⟩
    · rename_i ds hds
      exact .inr ⟨by omega, by simpa using hexh, by omega, ds, hds, rfl⟩

/-- A message within the size limits, from a direction with enough sequence
numbers left, seals: every fragment is sealed and the sequence advances. -/
theorem sealMessage_eq_ok (hlaw : aead.Lawful) (hlen : plaintext.length ≤ udpMaxMessageSize)
    (hexh : c.sendSequenceExhausted = false)
    (hover : c.nextSendSequence.toNat + (fragmentCountOf plaintext.length - 1) < 2 ^ 64) :
    ∃ ds, (List.range (fragmentCountOf plaintext.length)).mapM
        (sealFragment aead c messageId plaintext (fragmentCountOf plaintext.length)) = .ok ds ∧
      sealMessage aead c messageId plaintext =
        (c.advanceSendSequence
          (c.nextSendSequence + (fragmentCountOf plaintext.length - 1).toUInt64), .ok ds) := by
  obtain ⟨ds, hds⟩ := Result.mapM_isOk_of_forall fun i hi =>
    have ⟨_, _, _, hseal⟩ := sealFragment_eq_ok aead c messageId plaintext hlaw hlen
      (List.mem_range.mp hi)
    ⟨_, hseal⟩
  have hcount : ¬ fragmentCountOf plaintext.length > udpMaxFragments := by
    have := fragmentCountOf_le hlen
    simp only [udpMaxFragments]
    omega
  refine ⟨ds, hds, ?_⟩
  simp only [sealMessage, Nat.not_lt.mpr hlen, hcount, hexh, Bool.false_eq_true, if_false,
    Nat.not_le.mpr hover, hds]

theorem sealMessage_fst_of_error {e : UdpTransportError}
    (h : (sealMessage aead c messageId plaintext).2 = .error e) :
    (sealMessage aead c messageId plaintext).1 = c := by
  rcases sealMessage_cases aead c messageId plaintext with ⟨hc, -⟩ | ⟨-, -, -, ds, -, hseal⟩
  · exact hc
  · rw [hseal] at h
    cases h

end UdpSessionCrypto

-- ---------------------------------------------------------------------------
-- Sequence numbers over a run of `seal_message` calls
-- ---------------------------------------------------------------------------

/-- The `seq` field of a datagram, as the receiver reads it. -/
def datagramSeq (d : List UInt8) : Option UInt64 :=
  match UdpPacketHeader.decode d with
  | .ok h => some h.seq
  | .error _ => none

/-- The `seq` fields of the datagrams of the successful calls, in emission
order. -/
def emittedSeqs : List (Except UdpTransportError (List (List UInt8))) → List UInt64
  | [] => []
  | .ok ds :: rs => ds.filterMap datagramSeq ++ emittedSeqs rs
  | .error _ :: rs => emittedSeqs rs

namespace UdpSessionCrypto

variable (aead : Aead)

/-- `seal_message` as a machine step on calls `(message_id, plaintext)`. -/
def sealStep (c : UdpSessionCrypto) (call : UInt64 × List UInt8) :
    UdpSessionCrypto × Except UdpTransportError (List (List UInt8)) :=
  sealMessage aead c call.1 call.2

theorem seqs_of_sealMessage {c : UdpSessionCrypto} {messageId : UInt64} {plaintext : List UInt8}
    {ds : List (List UInt8)} (h : (sealMessage aead c messageId plaintext).2 = .ok ds) :
    ds.filterMap datagramSeq = (List.range (fragmentCountOf plaintext.length)).map
      (fun i => c.nextSendSequence + i.toUInt64) := by
  rcases sealMessage_cases aead c messageId plaintext with ⟨-, e, he⟩ | ⟨-, -, -, ds', hds, hseal⟩
  · rw [he] at h
    cases h
  · rw [hseal] at h
    cases h
    refine Result.filterMap_of_mapM_eq_ok hds fun i d hd => ?_
    have hdec := decode_sealFragment aead c messageId plaintext hd []
    rw [List.append_nil] at hdec
    simp [datagramSeq, hdec, UdpPacketHeader.new]

theorem toNat_add_toUInt64 {n : UInt64} {i : Nat} (h : n.toNat + i < 2 ^ 64) :
    (n + i.toUInt64).toNat = n.toNat + i := by
  simp
  omega

theorem pairwise_seqs {n : UInt64} {k : Nat} (h : n.toNat + (k - 1) < 2 ^ 64) :
    ((List.range k).map (fun i => n + i.toUInt64)).Pairwise (· < ·) := by
  rw [List.pairwise_map]
  refine List.pairwise_lt_range.imp_of_mem fun {i j} hi hj hij => ?_
  rw [List.mem_range] at hi hj
  rw [UInt64.lt_iff_toNat_lt, toNat_add_toUInt64 (by omega), toNat_add_toUInt64 (by omega)]
  omega

/-- After a successful call, the next sequence number is past the last one
sent, unless that was `u64::MAX`, after which the direction is exhausted. -/
theorem advanceSendSequence_cases (c : UdpSessionCrypto) (last : UInt64) :
    (c.advanceSendSequence last).sendSequenceExhausted = true ∨
      (c.advanceSendSequence last).nextSendSequence.toNat = last.toNat + 1 := by
  unfold advanceSendSequence
  split_ifs with hmax
  · exact .inl rfl
  · refine .inr ?_
    have hlt : last.toNat < 2 ^ 64 - 1 := by
      have := last.toNat_lt
      have hne : last.toNat ≠ u64Max.toNat := fun h => hmax (UInt64.toNat_inj.mp h)
      simp only [u64Max] at hne
      simp at this hne ⊢
      omega
    simp only [UInt64.toNat_add, UInt64.toNat_one]
    omega

/-- Over any run of `seal_message` calls, the sequence numbers sent increase
strictly, start at the first `next_send_sequence`, and nothing is sent from an
exhausted state. -/
theorem emittedSeqs_run (calls : List (UInt64 × List UInt8)) (c : UdpSessionCrypto) :
    (emittedSeqs (Machine.run (sealStep aead) c calls)).Pairwise (· < ·) ∧
      (∀ s ∈ emittedSeqs (Machine.run (sealStep aead) c calls), c.nextSendSequence ≤ s) ∧
      (c.sendSequenceExhausted = true → emittedSeqs (Machine.run (sealStep aead) c calls) = []) := by
  induction calls generalizing c with
  | nil => simp [emittedSeqs]
  | cons call calls ih =>
    rw [Machine.run_cons]
    rcases sealMessage_cases aead c call.1 call.2 with
      ⟨hc, e, he⟩ | ⟨-, hexh, hover, ds, -, hseal⟩
    · -- a failing call sends nothing and leaves the state
      simp only [sealStep, hc, he, emittedSeqs]
      exact ih c
    · have hseqs := seqs_of_sealMessage aead (show (sealMessage aead c call.1 call.2).2 = .ok ds by
        rw [hseal])
      simp only [sealStep, hseal, emittedSeqs, hseqs]
      obtain ⟨ihp, ihle, ihex⟩ := ih (c.advanceSendSequence
        (c.nextSendSequence + (fragmentCountOf call.2.length - 1).toUInt64))
      have hlast := toNat_add_toUInt64 hover
      -- what is sent later comes after everything sent now
      have hlater : ∀ b ∈ emittedSeqs (Machine.run (sealStep aead) (c.advanceSendSequence
          (c.nextSendSequence + (fragmentCountOf call.2.length - 1).toUInt64)) calls),
          c.nextSendSequence.toNat + (fragmentCountOf call.2.length - 1) < b.toNat := by
        intro b hb
        rcases advanceSendSequence_cases c
            (c.nextSendSequence + (fragmentCountOf call.2.length - 1).toUInt64) with hx | hn
        · rw [ihex hx] at hb
          cases hb
        · have := UInt64.le_iff_toNat_le.mp (ihle b hb)
          omega
      refine ⟨List.pairwise_append.mpr ⟨pairwise_seqs hover, ihp, ?_⟩, ?_, ?_⟩
      · intro a ha b hb
        obtain ⟨i, hi, rfl⟩ := List.mem_map.mp ha
        rw [List.mem_range] at hi
        have := hlater b hb
        rw [UInt64.lt_iff_toNat_lt, toNat_add_toUInt64 (by omega)]
        omega
      · intro s hs
        rcases List.mem_append.mp hs with ha | hb
        · obtain ⟨i, hi, rfl⟩ := List.mem_map.mp ha
          rw [List.mem_range] at hi
          rw [UInt64.le_iff_toNat_le, toNat_add_toUInt64 (by omega)]
          omega
        · have := hlater s hb
          rw [UInt64.le_iff_toNat_le]
          omega
      · intro h
        rw [hexh] at h
        cases h

/-- An exhausted direction refuses every message, a too large one with
`MessageTooLarge`, which `seal_message` checks first. -/
theorem sealMessage_of_exhausted {c : UdpSessionCrypto} (hc : c.sendSequenceExhausted = true)
    (messageId : UInt64) (plaintext : List UInt8) :
    sealMessage aead c messageId plaintext =
      (c, .error (if plaintext.length > udpMaxMessageSize then .messageTooLarge plaintext.length
        else .sequenceExhausted)) := by
  simp only [sealMessage, hc, if_true]
  split_ifs with hlen hcount
  · rfl
  · have := fragmentCountOf_le (Nat.le_of_not_lt hlen)
    simp only [udpMaxFragments] at hcount
    omega
  · rfl

/-- The error an exhausted direction answers a call with. -/
def exhaustedError (call : UInt64 × List UInt8) : UdpTransportError :=
  if call.2.length > udpMaxMessageSize then .messageTooLarge call.2.length else .sequenceExhausted

theorem run_of_exhausted {c : UdpSessionCrypto} (hc : c.sendSequenceExhausted = true)
    (calls : List (UInt64 × List UInt8)) :
    Machine.run (sealStep aead) c calls = calls.map (fun call => .error (exhaustedError call)) ∧
      Machine.final (sealStep aead) c calls = c := by
  induction calls with
  | nil => exact ⟨rfl, rfl⟩
  | cons call calls ih =>
    obtain ⟨hrun, hfinal⟩ := ih
    constructor
    · rw [Machine.run_cons, sealStep, sealMessage_of_exhausted aead hc, hrun]
      rfl
    · rw [Machine.final_cons, sealStep, sealMessage_of_exhausted aead hc, hfinal]

/-- A call that sends `u64::MAX` exhausts the direction. -/
theorem exhausted_of_sends_max {c : UdpSessionCrypto} {messageId : UInt64}
    {plaintext : List UInt8} {ds : List (List UInt8)}
    (h : (sealMessage aead c messageId plaintext).2 = .ok ds)
    (hmax : u64Max ∈ ds.filterMap datagramSeq) :
    (sealMessage aead c messageId plaintext).1.sendSequenceExhausted = true := by
  rcases sealMessage_cases aead c messageId plaintext with ⟨-, e, he⟩ | ⟨-, -, hover, ds', -, hseal⟩
  · rw [he] at h
    cases h
  · rw [seqs_of_sealMessage aead h] at hmax
    obtain ⟨i, hi, heq⟩ := List.mem_map.mp hmax
    rw [List.mem_range] at hi
    -- only the last fragment can carry `u64::MAX`
    have hnat := congrArg UInt64.toNat heq
    rw [toNat_add_toUInt64 (by omega)] at hnat
    have hlast : c.nextSendSequence + (fragmentCountOf plaintext.length - 1).toUInt64 = u64Max := by
      apply UInt64.toNat_inj.mp
      rw [toNat_add_toUInt64 hover]
      simp only [u64Max] at hnat ⊢
      simp at hnat ⊢
      omega
    rw [hseal]
    simp [advanceSendSequence, hlast]

/-- Once `u64::MAX` has been sent, every later call fails. -/
theorem run_after_max (calls₁ calls₂ : List (UInt64 × List UInt8)) (c : UdpSessionCrypto)
    (hmax : u64Max ∈ emittedSeqs (Machine.run (sealStep aead) c calls₁)) :
    Machine.run (sealStep aead) (Machine.final (sealStep aead) c calls₁) calls₂ =
      calls₂.map (fun call => .error (exhaustedError call)) := by
  suffices hex : (Machine.final (sealStep aead) c calls₁).sendSequenceExhausted = true from
    (run_of_exhausted aead hex calls₂).1
  induction calls₁ generalizing c with
  | nil => simp [emittedSeqs] at hmax
  | cons call calls ih =>
    rw [Machine.final_cons]
    rw [Machine.run_cons] at hmax
    rcases hr : (sealStep aead c call).2 with e | ds
    · rw [hr] at hmax
      exact ih _ hmax
    · rw [hr] at hmax
      rcases List.mem_append.mp hmax with hnow | hlater
      · exact ((run_of_exhausted aead (exhausted_of_sends_max aead hr hnow) calls).2).symm ▸
          exhausted_of_sends_max aead hr hnow
      · exact ih _ hlater

end UdpSessionCrypto

theorem makeNonce_inj {noncePrefix : NoncePrefix} {seq seq' : UInt64}
    (h : makeNonce noncePrefix seq = makeNonce noncePrefix seq') : seq = seq' := by
  have hbytes := List.append_cancel_left h
  exact UInt64.toNat_inj.mp
    (fixedBytes_inj (by simpa using seq.toNat_lt) (by simpa using seq'.toNat_lt) hbytes)

-- ---------------------------------------------------------------------------
-- Opening what was sealed
-- ---------------------------------------------------------------------------

namespace UdpSessionCrypto

variable (aead : Aead)

/-- A receiver whose receive direction is the sender's send direction opens a
datagram the sender sealed, when its window admits the sequence number: it
reads back the fragment's header and bytes, and commits the number. -/
theorem openDatagram_sealed (hlaw : aead.Lawful) {cs cr : UdpSessionCrypto} {messageId : UInt64}
    {plaintext : List UInt8} {i : Nat} {d : List UInt8} {S : Finset ℕ}
    (hlen : plaintext.length ≤ udpMaxMessageSize) (hi : i < fragmentCountOf plaintext.length)
    (hd : sealFragment aead cs messageId plaintext (fragmentCountOf plaintext.length) i = .ok d)
    (hsid : cr.sessionId = cs.sessionId) (hkey : cr.receive = cs.send)
    (hR : Represents cr.replay S)
    (hacc : modelMayAccept S (cs.nextSendSequence + i.toUInt64).toNat = true) :
    openDatagram aead cr d =
      ({ cr with replay := (cr.replay.commit (cs.nextSendSequence + i.toUInt64)).1 },
        .ok ⟨fragmentHeader cs messageId plaintext i, fragmentBytes plaintext i⟩) := by
  have hdecode : UdpPacketHeader.decode (d ++ []) = .ok (fragmentHeader cs messageId plaintext i) :=
    decode_sealFragment aead cs messageId plaintext hd []
  obtain ⟨ct, tag, hct, hseal⟩ := sealFragment_eq_ok aead cs messageId plaintext hlaw hlen hi
  rw [hseal] at hd
  cases hd
  rw [List.append_nil] at hdecode
  obtain ⟨hctlen, htaglen⟩ := hlaw.length_encrypt _ _ _ _ _ _ hct
  have hplain := hlaw.decrypt_encrypt _ _ _ _ _ _ hct
  have hfrag := length_fragmentBytes_le plaintext i
  have hlength : ((fragmentHeader cs messageId plaintext i).headerBytes ++ ct ++ tag).length =
      udpTransportHeaderLen + (fragmentBytes plaintext i).length + udpAeadTagLen := by
    simp only [List.length_append, UdpPacketHeader.length_headerBytes, hctlen, htaglen]
  -- the datagram is neither too long nor too short
  have hshort : ¬ ((fragmentHeader cs messageId plaintext i).headerBytes ++ ct ++ tag).length <
      udpTransportHeaderLen + udpAeadTagLen := by omega
  have hlong : ¬ ((fragmentHeader cs messageId plaintext i).headerBytes ++ ct ++ tag).length >
      udpMaxDatagramSize := by
    rw [hlength]
    rw [udpMaxFragmentPlaintext_eq] at hfrag
    simp only [udpTransportHeaderLen, udpAeadTagLen, udpMaxDatagramSize]
    omega
  have htake : ((fragmentHeader cs messageId plaintext i).headerBytes ++ ct ++ tag).take
      udpTransportHeaderLen = (fragmentHeader cs messageId plaintext i).headerBytes := by
    rw [List.append_assoc]
    exact List.take_left' (UdpPacketHeader.length_headerBytes _)
  have hdrop : ((fragmentHeader cs messageId plaintext i).headerBytes ++ ct ++ tag).drop
      udpTransportHeaderLen = ct ++ tag := by
    rw [List.append_assoc]
    exact List.drop_left' (UdpPacketHeader.length_headerBytes _)
  -- a fragment of a non-empty message is not empty
  have hnonempty : ¬ ((fragmentHeader cs messageId plaintext i).totalLen ≠ 0 ∧
      fragmentBytes plaintext i = []) := by
    rintro ⟨htot, hnil⟩
    have hpos : 0 < plaintext.length := by
      rcases Nat.eq_zero_or_pos plaintext.length with h0 | h0
      · simp [fragmentHeader, UdpPacketHeader.new, h0] at htot
      · exact h0
    have := fragmentLen_pos hpos hi
    rw [← length_fragmentBytes, hnil] at this
    exact absurd this (Nat.lt_irrefl 0)
  have hmay : cr.replay.mayAccept (cs.nextSendSequence + i.toUInt64) = true := by
    rw [ReplayWindow.mayAccept_eq hR]
    exact hacc
  have hcommit : (cr.replay.commit (cs.nextSendSequence + i.toUInt64)).2 = true := by
    rw [(ReplayWindow.commit_refines hR _).2]
    simp only [replayModel, hacc, if_true]
  have hkind : (fragmentHeader cs messageId plaintext i).kind = .encrypted := rfl
  have hsession : (fragmentHeader cs messageId plaintext i).sessionId = cs.sessionId := rfl
  have hseq : (fragmentHeader cs messageId plaintext i).seq = cs.nextSendSequence + i.toUInt64 :=
    rfl
  simp only [openDatagram, hlong, hshort, if_false, hdecode, hkind, hsession, hsid, hseq, hmay,
    htake, hdrop, hkey, hplain, ne_eq, not_true_eq_false, Bool.not_true, Bool.false_eq_true,
    Nat.not_lt.mpr hfrag, hnonempty, hcommit]

end UdpSessionCrypto

end Ppaass.Udp
