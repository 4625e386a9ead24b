import Ppaass.Protocol.Udp.Reassembly

/-!
# The session codec

`UdpSessionCodec` of `udp_transport/crypto.rs` puts bitcode, fragmentation,
AEAD, replay protection and reassembly together for one session:
`encode_message` gives a message the next message id and seals it,
`decode_datagram_at` opens one datagram and hands it to the reassembler.

bitcode is not under `src/`: `Bitcode` takes its two calls as parameters for
the type of session messages, which stays a type variable, since nothing here
looks inside a message.

The sequence numbers of `seal_message` and the message ids of
`encode_message` are never used twice: `sendSequence_never_reused`.
-/

namespace Ppaass.Udp

/-- The bitcode calls the code makes on session messages. -/
structure Bitcode (Msg : Type) where
  serialize : Msg → Except String (List UInt8)
  deserialize : List UInt8 → Except String Msg

/-- What the code relies on of bitcode: a message reads back from its
encoding. -/
structure Bitcode.Lawful {Msg : Type} (bc : Bitcode Msg) : Prop where
  deserialize_serialize : ∀ m bytes, bc.serialize m = .ok bytes → bc.deserialize bytes = .ok m

variable {Msg : Type}

/-- `UdpSessionMessage::encode`. -/
def UdpSessionMessage.encode (bc : Bitcode Msg) (message : Msg) :
    Except UdpTransportError (List UInt8) :=
  (bc.serialize message).mapError .serialization

/-- `UdpSessionMessage::decode`. -/
def UdpSessionMessage.decode (bc : Bitcode Msg) (bytes : List UInt8) :
    Except UdpTransportError Msg :=
  (bc.deserialize bytes).mapError .serialization

structure UdpSessionCodec where
  crypto : UdpSessionCrypto
  reassembler : FragmentReassembler
  nextMessageId : UInt64
  messageIdExhausted : Bool

namespace UdpSessionCodec

/-- `with_reassembly_config`, from the key material both ends derive from the
master key and the two nonces. -/
def withReassemblyConfig (role : UdpSessionRole) (sessionId : UdpSessionId)
    (keys : UdpDirectionalKeyMaterial) (config : ReassemblyConfig) :
    Except UdpTransportError UdpSessionCodec := do
  let reassembler ← FragmentReassembler.new config
  pure
    { crypto := UdpSessionCrypto.fromKeyMaterial role sessionId keys
      reassembler
      nextMessageId := 0
      messageIdExhausted := false }

variable (aead : Aead) (bc : Bitcode Msg)

/-- `encode_message`. The message id advances only when the message is
sealed; after `u64::MAX` the codec is exhausted. -/
def encodeMessage (codec : UdpSessionCodec) (message : Msg) :
    UdpSessionCodec × Except UdpTransportError (List (List UInt8)) :=
  if codec.messageIdExhausted then (codec, .error .messageIdExhausted)
  else
    match UdpSessionMessage.encode bc message with
    | .error e => (codec, .error e)
    | .ok plaintext =>
      let messageId := codec.nextMessageId
      match codec.crypto.sealMessage aead messageId plaintext with
      | (crypto, .error e) => ({ codec with crypto }, .error e)
      | (crypto, .ok datagrams) =>
        if messageId = u64Max then
          ({ codec with crypto, messageIdExhausted := true }, .ok datagrams)
        else ({ codec with crypto, nextMessageId := messageId + 1 }, .ok datagrams)

/-- `decode_datagram_at`: a message once its last fragment is in. -/
def decodeDatagramAt (codec : UdpSessionCodec) (datagram : List UInt8) (now : Nat) :
    UdpSessionCodec × Except UdpTransportError (Option Msg) :=
  match codec.crypto.openDatagram aead datagram with
  | (crypto, .error e) => ({ codec with crypto }, .error e)
  | (crypto, .ok fragment) =>
    match codec.reassembler.push fragment now with
    | (reassembler, .error e) => ({ codec with crypto, reassembler }, .error e)
    | (reassembler, .ok none) => ({ codec with crypto, reassembler }, .ok none)
    | (reassembler, .ok (some message)) =>
      ({ codec with crypto, reassembler }, (UdpSessionMessage.decode bc message).map some)

/-- `cleanup_expired`. -/
def cleanupExpired (codec : UdpSessionCodec) (now : Nat) : UdpSessionCodec × Nat :=
  let (reassembler, removed) := codec.reassembler.cleanupExpired now
  ({ codec with reassembler }, removed)

/-- `encode_message` as a machine step. -/
def encodeStep (codec : UdpSessionCodec) (message : Msg) :
    UdpSessionCodec × Except UdpTransportError (List (List UInt8)) :=
  encodeMessage aead bc codec message

/-- `decode_datagram_at` as a machine step on a datagram and its arrival
time. -/
def decodeStep (codec : UdpSessionCodec) (arrival : List UInt8 × Nat) :
    UdpSessionCodec × Except UdpTransportError (Option Msg) :=
  decodeDatagramAt aead bc codec arrival.1 arrival.2

end UdpSessionCodec

-- ---------------------------------------------------------------------------
-- Message ids over a run of `encode_message` calls
-- ---------------------------------------------------------------------------

/-- The `message_id` field of a datagram, as the receiver reads it. -/
def datagramMessageId (d : List UInt8) : Option UInt64 :=
  match UdpPacketHeader.decode d with
  | .ok h => some h.messageId
  | .error _ => none

/-- For each successful call, the message ids its datagrams carry. -/
def messageIdsOf : List (Except UdpTransportError (List (List UInt8))) → List (List UInt64)
  | [] => []
  | .ok ds :: rs => ds.filterMap datagramMessageId :: messageIdsOf rs
  | .error _ :: rs => messageIdsOf rs

namespace UdpSessionCrypto

theorem messageIds_of_sealMessage (aead : Aead) {c : UdpSessionCrypto} {messageId : UInt64}
    {plaintext : List UInt8} {ds : List (List UInt8)}
    (h : (sealMessage aead c messageId plaintext).2 = .ok ds) :
    ds.filterMap datagramMessageId =
      (List.range (fragmentCountOf plaintext.length)).map (fun _ => messageId) := by
  rcases sealMessage_cases aead c messageId plaintext with ⟨-, e, he⟩ | ⟨-, -, -, ds', hds, hseal⟩
  · rw [he] at h
    cases h
  · rw [hseal] at h
    cases h
    refine Result.filterMap_of_mapM_eq_ok hds fun i d hd => ?_
    have hdec := decode_sealFragment aead c messageId plaintext hd []
    rw [List.append_nil] at hdec
    simp [datagramMessageId, hdec, UdpPacketHeader.new]

end UdpSessionCrypto

theorem toNat_succ_of_ne_u64Max {n : UInt64} (h : n ≠ u64Max) : (n + 1).toNat = n.toNat + 1 := by
  have hne : n.toNat ≠ u64Max.toNat := fun h' => h (UInt64.toNat_inj.mp h')
  have := n.toNat_lt
  simp only [u64Max] at hne
  simp at hne this ⊢
  omega

namespace UdpSessionCodec

variable (aead : Aead) (bc : Bitcode Msg)

/-- Everything `encode_message` can do: fail and leave the codec as it was,
or seal the message under the next id and advance it. -/
theorem encodeMessage_cases (codec : UdpSessionCodec) (message : Msg) :
    ((encodeMessage aead bc codec message).1 = codec ∧
      ∃ e, (encodeMessage aead bc codec message).2 = .error e) ∨
    (codec.messageIdExhausted = false ∧ ∃ plaintext ds,
      UdpSessionMessage.encode bc message = .ok plaintext ∧
      (codec.crypto.sealMessage aead codec.nextMessageId plaintext).2 = .ok ds ∧
      encodeMessage aead bc codec message =
        if codec.nextMessageId = u64Max then
          ({ codec with
              crypto := (codec.crypto.sealMessage aead codec.nextMessageId plaintext).1,
              messageIdExhausted := true }, .ok ds)
        else
          ({ codec with
              crypto := (codec.crypto.sealMessage aead codec.nextMessageId plaintext).1,
              nextMessageId := codec.nextMessageId + 1 }, .ok ds)) := by
  cases hexh : codec.messageIdExhausted with
  | true =>
    exact .inl ⟨by simp [encodeMessage, hexh], .messageIdExhausted, by simp [encodeMessage, hexh]⟩
  | false =>
    cases henc : UdpSessionMessage.encode bc message with
    | error e =>
      exact .inl ⟨by simp [encodeMessage, hexh, henc], e, by simp [encodeMessage, hexh, henc]⟩
    | ok plaintext =>
      rcases hseal : codec.crypto.sealMessage aead codec.nextMessageId plaintext with
        ⟨crypto, e | ds⟩
      · -- a failed seal leaves the crypto state as it was
        have hc := UdpSessionCrypto.sealMessage_fst_of_error aead codec.crypto
          codec.nextMessageId plaintext (e := e) (by rw [hseal])
        rw [hseal] at hc
        subst hc
        refine .inl ⟨?_, e, by simp [encodeMessage, hexh, henc, hseal]⟩
        simp only [encodeMessage, hexh, henc, hseal, Bool.false_eq_true, if_false]
        rw [← hexh]
      · refine .inr ⟨rfl, plaintext, ds, rfl, by rw [hseal], ?_⟩
        simp only [encodeMessage, hexh, henc, hseal, Bool.false_eq_true, if_false]

theorem run_of_messageIdExhausted {codec : UdpSessionCodec}
    (hc : codec.messageIdExhausted = true) (messages : List Msg) :
    Machine.run (encodeStep aead bc) codec messages =
        messages.map (fun _ => .error .messageIdExhausted) ∧
      Machine.final (encodeStep aead bc) codec messages = codec := by
  have hstep : ∀ message, encodeStep aead bc codec message = (codec, .error .messageIdExhausted) :=
    fun message => by simp [encodeStep, encodeMessage, hc]
  induction messages with
  | nil => exact ⟨rfl, rfl⟩
  | cons message messages ih =>
    rw [Machine.run_cons, Machine.final_cons, hstep]
    exact ⟨by rw [ih.1]; rfl, ih.2⟩

/-- Over any run of `encode_message` calls, the message ids of successful
calls increase strictly from call to call and start at the first
`next_message_id`, and nothing is sent once the ids are exhausted. -/
theorem messageIds_run (messages : List Msg) (codec : UdpSessionCodec) :
    (messageIdsOf (Machine.run (encodeStep aead bc) codec messages)).Pairwise
        (fun A B => ∀ a ∈ A, ∀ b ∈ B, a < b) ∧
      (∀ A ∈ messageIdsOf (Machine.run (encodeStep aead bc) codec messages), ∀ a ∈ A,
        codec.nextMessageId ≤ a) ∧
      (codec.messageIdExhausted = true →
        messageIdsOf (Machine.run (encodeStep aead bc) codec messages) = []) := by
  induction messages generalizing codec with
  | nil => simp [messageIdsOf]
  | cons message messages ih =>
    rw [Machine.run_cons]
    rcases encodeMessage_cases aead bc codec message with
      ⟨hc, e, he⟩ | ⟨hexh, plaintext, ds, -, hseal, henc⟩
    · -- a failing call sends nothing and leaves the codec
      simp only [encodeStep, hc, he, messageIdsOf]
      exact ih codec
    · have hids := UdpSessionCrypto.messageIds_of_sealMessage aead hseal
      refine ⟨?_, ?_, fun h => by rw [hexh] at h; cases h⟩
      · by_cases hmax : codec.nextMessageId = u64Max
        · -- the last id: the codec is exhausted and sends nothing more
          rw [if_pos hmax] at henc
          simp only [encodeStep, henc, messageIdsOf]
          rw [(ih _).2.2 rfl]
          exact List.pairwise_singleton _ _
        · rw [if_neg hmax] at henc
          simp only [encodeStep, henc, messageIdsOf, hids]
          obtain ⟨ihp, ihle, -⟩ := ih { codec with
            crypto := (codec.crypto.sealMessage aead codec.nextMessageId plaintext).1,
            nextMessageId := codec.nextMessageId + 1 }
          refine List.pairwise_cons.mpr ⟨fun B hB a ha b hb => ?_, ihp⟩
          obtain ⟨i, -, rfl⟩ := List.mem_map.mp ha
          have hb' := UInt64.le_iff_toNat_le.mp (ihle B hB b hb)
          rw [toNat_succ_of_ne_u64Max hmax] at hb'
          rw [UInt64.lt_iff_toNat_lt]
          omega
      · intro A hA a ha
        by_cases hmax : codec.nextMessageId = u64Max
        · rw [if_pos hmax] at henc
          simp only [encodeStep, henc, messageIdsOf, hids] at hA
          rw [(ih _).2.2 rfl] at hA
          obtain rfl := List.mem_singleton.mp hA
          obtain ⟨i, -, rfl⟩ := List.mem_map.mp ha
          exact UInt64.le_refl _
        · rw [if_neg hmax] at henc
          simp only [encodeStep, henc, messageIdsOf, hids] at hA
          rcases List.mem_cons.mp hA with rfl | hA
          · obtain ⟨i, -, rfl⟩ := List.mem_map.mp ha
            exact UInt64.le_refl _
          · have hle := UInt64.le_iff_toNat_le.mp ((ih _).2.1 A hA a ha)
            rw [toNat_succ_of_ne_u64Max hmax] at hle
            rw [UInt64.le_iff_toNat_le]
            omega

/-- Once a call has used `u64::MAX` as its message id, the codec is
exhausted. -/
theorem exhausted_of_messageId_max (messages : List Msg) (codec : UdpSessionCodec)
    (hmax : u64Max ∈ (messageIdsOf (Machine.run (encodeStep aead bc) codec messages)).flatten) :
    (Machine.final (encodeStep aead bc) codec messages).messageIdExhausted = true := by
  induction messages generalizing codec with
  | nil => simp [messageIdsOf] at hmax
  | cons message messages ih =>
    rw [Machine.run_cons] at hmax
    rw [Machine.final_cons]
    rcases encodeMessage_cases aead bc codec message with
      ⟨hc, e, he⟩ | ⟨-, plaintext, ds, -, hseal, henc⟩
    · simp only [encodeStep, hc, he, messageIdsOf] at hmax ⊢
      exact ih codec hmax
    · have hids := UdpSessionCrypto.messageIds_of_sealMessage aead hseal
      by_cases hlast : codec.nextMessageId = u64Max
      · -- the call itself used the last id
        rw [if_pos hlast] at henc
        simp only [encodeStep, henc]
        refine (congrArg messageIdExhausted (run_of_messageIdExhausted aead bc ?_ messages).2).trans
          ?_ <;> rfl
      · rw [if_neg hlast] at henc
        simp only [encodeStep, henc, messageIdsOf, hids, List.flatten_cons] at hmax ⊢
        rcases List.mem_append.mp hmax with hnow | hlater
        · obtain ⟨i, -, hi⟩ := List.mem_map.mp hnow
          exact absurd hi hlast
        · exact ih _ hlater

end UdpSessionCodec

-- ---------------------------------------------------------------------------
-- No sequence number and no message id is used twice
-- ---------------------------------------------------------------------------

open UdpSessionCrypto UdpSessionCodec in
/-- Within a direction the sequence numbers, and so the AES-GCM nonces, of
the datagrams sent increase strictly over every run of `seal_message`; a
failing call changes nothing; after `u64::MAX` every call fails, with
`SequenceExhausted` or, for a too large message, `MessageTooLarge`. The
message ids of the successful `encode_message` calls increase strictly from
call to call, and after `u64::MAX` every call fails with
`MessageIdExhausted`. -/
theorem sendSequence_never_reused (aead : Aead) (bc : Bitcode Msg) :
    (∀ (c : UdpSessionCrypto) (calls : List (UInt64 × List UInt8)),
      (emittedSeqs (Machine.run (sealStep aead) c calls)).Pairwise (· < ·) ∧
      ((emittedSeqs (Machine.run (sealStep aead) c calls)).map
        (makeNonce c.send.noncePrefix)).Nodup) ∧
    (∀ (c : UdpSessionCrypto) (call : UInt64 × List UInt8) (e : UdpTransportError),
      (sealStep aead c call).2 = .error e → (sealStep aead c call).1 = c) ∧
    (∀ (c : UdpSessionCrypto) (calls₁ calls₂ : List (UInt64 × List UInt8)),
      u64Max ∈ emittedSeqs (Machine.run (sealStep aead) c calls₁) →
      Machine.run (sealStep aead) (Machine.final (sealStep aead) c calls₁) calls₂ =
        calls₂.map (fun call => .error (exhaustedError call))) ∧
    (∀ (codec : UdpSessionCodec) (messages : List Msg),
      (messageIdsOf (Machine.run (encodeStep aead bc) codec messages)).Pairwise
        (fun A B => ∀ a ∈ A, ∀ b ∈ B, a < b)) ∧
    (∀ (codec : UdpSessionCodec) (messages₁ messages₂ : List Msg),
      u64Max ∈ (messageIdsOf (Machine.run (encodeStep aead bc) codec messages₁)).flatten →
      Machine.run (encodeStep aead bc) (Machine.final (encodeStep aead bc) codec messages₁)
        messages₂ = messages₂.map (fun _ => .error .messageIdExhausted)) := by
  refine ⟨fun c calls => ?_, fun c call e h => sealMessage_fst_of_error aead c call.1 call.2 h,
    fun c calls₁ calls₂ hmax => run_after_max aead calls₁ calls₂ c hmax,
    fun codec messages => (messageIds_run aead bc messages codec).1,
    fun codec messages₁ messages₂ hmax =>
      (run_of_messageIdExhausted aead bc (exhausted_of_messageId_max aead bc messages₁ codec hmax)
        messages₂).1⟩
  have hlt := (emittedSeqs_run aead calls c).1
  -- increasing numbers are distinct, and `make_nonce` keeps them apart
  exact ⟨hlt, List.Nodup.map (fun _ _ h => makeNonce_inj h) (hlt.imp fun h => UInt64.ne_of_lt h)⟩

/-- An AEAD that leaves the bytes as they are and appends a zero tag. It is
lawful, and lets a run be exhibited. -/
def plainAead : Aead where
  encryptInPlaceDetached _ _ _ p := some (p, List.replicate udpAeadTagLen 0)
  decrypt _ _ _ m := some (m.take (m.length - udpAeadTagLen))

theorem plainAead_lawful : plainAead.Lawful where
  length_encrypt k n a p c t h := by
    simp only [plainAead, Option.some.injEq, Prod.mk.injEq] at h
    obtain ⟨rfl, rfl⟩ := h
    exact ⟨rfl, List.length_replicate⟩
  encrypt_isSome k n a p _ := rfl
  decrypt_encrypt k n a p c t h := by
    simp only [plainAead, Option.some.injEq, Prod.mk.injEq] at h
    obtain ⟨rfl, rfl⟩ := h
    simp [plainAead]

/-- A direction whose next sequence number is `u64::MAX`. -/
def lastSequenceCrypto : UdpSessionCrypto :=
  { role := .agent, sessionId := Vector.replicate 16 0,
    send := ⟨Vector.replicate 32 0, Vector.replicate 4 0⟩,
    receive := ⟨Vector.replicate 32 0, Vector.replicate 4 0⟩,
    nextSendSequence := u64Max, sendSequenceExhausted := false, replay := ReplayWindow.new }

open UdpSessionCrypto in
/-- After `u64::MAX` has been sent, a message of more than
`UDP_MAX_MESSAGE_SIZE` bytes is refused with `MessageTooLarge`, not
`SequenceExhausted`: `seal_message` checks the size first. -/
theorem sealMessage_after_max_tooLarge :
    ∃ (c : UdpSessionCrypto) (calls : List (UInt64 × List UInt8)) (call : UInt64 × List UInt8),
      u64Max ∈ emittedSeqs (Machine.run (sealStep plainAead) c calls) ∧
      (sealStep plainAead (Machine.final (sealStep plainAead) c calls) call).2 =
        .error (.messageTooLarge 71681) := by
  -- the empty message is one fragment, sent with `u64::MAX`
  obtain ⟨ds, -, hseal⟩ := sealMessage_eq_ok plainAead lastSequenceCrypto 0 [] plainAead_lawful
    (by decide) rfl (by decide)
  have hok : (sealMessage plainAead lastSequenceCrypto 0 []).2 = .ok ds := by rw [hseal]
  have hmax : u64Max ∈ ds.filterMap datagramSeq := by
    rw [seqs_of_sealMessage plainAead hok]
    simp [fragmentCountOf_zero, lastSequenceCrypto]
  have hexh := exhausted_of_sends_max plainAead hok hmax
  refine ⟨lastSequenceCrypto, [(0, [])], (0, List.replicate 71681 0), ?_, ?_⟩
  · simp only [Machine.run_cons, Machine.run_nil, sealStep, hok, emittedSeqs, List.append_nil]
    exact hmax
  · rw [Machine.final_cons, Machine.final_nil, sealStep, sealStep,
      sealMessage_of_exhausted plainAead hexh, List.length_replicate]
    decide

end Ppaass.Udp
