import Ppaass.Protocol.Udp.Receiver

/-!
# A session, end to end

Two codecs built by `with_reassembly_config` from the same key material and
session id, with opposite roles: what the first sends, the second receives.
`session_delivers_exactly_once` says it for every list of messages whose
encodings fit: `encode_message` seals each message into as many datagrams
as it has fragments, each within the UDP limit, and on every order of the
datagrams, each delivered once, `decode_datagram_at` answers as the abstract
receiver `receive` does, which hands every message out exactly once. The
decoded message is the message sent.

What the receiver needs of the order is `Admissible`: no datagram arrives a
replay window or more below one delivered before it, no more messages are
partly received than the table has entries, the fragments held and the one
arriving fit in its bytes, and no partly received message is `timeout` old.
-/

namespace Ppaass.Udp

open Fragments

variable {Msg : Type} (aead : Aead) (bc : Bitcode Msg)

-- ---------------------------------------------------------------------------
-- The two ends
-- ---------------------------------------------------------------------------

namespace UdpSessionCodec

theorem withReassemblyConfig_eq_ok {role : UdpSessionRole} {sessionId : UdpSessionId}
    {keys : UdpDirectionalKeyMaterial} {config : ReassemblyConfig} {codec : UdpSessionCodec}
    (h : withReassemblyConfig role sessionId keys config = .ok codec) :
    codec = { crypto := UdpSessionCrypto.fromKeyMaterial role sessionId keys
              reassembler := FragmentReassembler.fromValidConfig config
              nextMessageId := 0
              messageIdExhausted := false } := by
  unfold withReassemblyConfig FragmentReassembler.new at h
  split_ifs at h <;> simp only [Result.error_bind, Result.ok_bind, reduceCtorEq] at h
  exact (Except.ok.inj h).symm

end UdpSessionCodec

/-- Opposite roles open with the key the other seals with. -/
theorem fromKeyMaterial_receive {role role' : UdpSessionRole} (hrole : role ≠ role')
    (sessionId : UdpSessionId) (keys : UdpDirectionalKeyMaterial) :
    (UdpSessionCrypto.fromKeyMaterial role' sessionId keys).receive =
      (UdpSessionCrypto.fromKeyMaterial role sessionId keys).send := by
  cases role <;> cases role' <;> first | exact absurd rfl hrole | rfl

/-- A decoded plaintext is the message it encodes. -/
theorem decode_of_encode (hbc : bc.Lawful) {m : Msg} {p : List UInt8}
    (h : UdpSessionMessage.encode bc m = .ok p) : UdpSessionMessage.decode bc p = .ok m := by
  have hser : bc.serialize m = .ok p := by
    unfold UdpSessionMessage.encode at h
    cases hs : bc.serialize m <;> simp_all [Except.mapError]
  simp [UdpSessionMessage.decode, hbc.deserialize_serialize m p hser, Except.mapError]

/-- Messages whose encodings fit, and their encodings. -/
def Encodes (messages : List Msg) (plaintexts : List (List UInt8)) : Prop :=
  List.Forall₂ (fun m p => UdpSessionMessage.encode bc m = .ok p ∧
    p.length ≤ udpMaxMessageSize) messages plaintexts

section Encodes

variable {bc} {messages : List Msg} {plaintexts : List (List UInt8)}

theorem Encodes.length_le (h : Encodes bc messages plaintexts) :
    ∀ p ∈ plaintexts, p.length ≤ udpMaxMessageSize := by
  intro p hp
  obtain ⟨m, -, hmp⟩ := Result.exists_mem_of_forall₂ h hp
  exact hmp.2

theorem Encodes.decode_getD (hbc : bc.Lawful) (h : Encodes bc messages plaintexts) {j : Nat}
    (hj : j < messages.length) :
    UdpSessionMessage.decode bc (plaintexts.getD j []) = .ok messages[j] := by
  have hlen := h.length_eq
  rw [List.getD_eq_getElem _ _ (hlen ▸ hj)]
  exact decode_of_encode bc hbc (h.get hj (hlen ▸ hj)).1

end Encodes

/-- `datagrams` holds, message by message, what the sender's direction `cs`
seals: fragment `i` of message `j` with message id `j` and sequence number
`firstSeq j + i`. -/
def SealedBy (cs : UdpSessionCrypto) (plaintexts : List (List UInt8))
    (datagrams : List (List (List UInt8))) : Prop :=
  ∀ j < plaintexts.length, List.Forall₂ (fun i d =>
    UdpSessionCrypto.sealFragment aead (cs.at (firstSeq plaintexts j)) j.toUInt64
      (plaintexts.getD j []) (fragmentCountOf (plaintexts.getD j []).length) i = .ok d)
    (List.range (fragmentCountOf (plaintexts.getD j []).length)) (datagrams.getD j [])

variable {aead} in
theorem SealedBy.sealFragment {cs : UdpSessionCrypto} {plaintexts : List (List UInt8)}
    {datagrams : List (List (List UInt8))} (h : SealedBy aead cs plaintexts datagrams)
    {d : Delivery} (hd : Sent plaintexts d) :
    UdpSessionCrypto.sealFragment aead (cs.at (firstSeq plaintexts d.message)) d.message.toUInt64
      (plaintexts.getD d.message []) (fragmentCountOf (plaintexts.getD d.message []).length)
      d.index = .ok ((datagrams.getD d.message []).getD d.index []) := by
  obtain ⟨hj, hi⟩ := hd
  rw [getD_fragmentCounts hj] at hi
  exact Result.forall₂_range_getD (h d.message hj) hi []

/-- What a sender built by `with_reassembly_config` puts on the wire for
messages whose encodings fit: every call succeeds, and message `j` goes out
as the datagrams its fragments seal to. -/
theorem sender_datagrams (hlaw : aead.Lawful) {role : UdpSessionRole} {sessionId : UdpSessionId}
    {keys : UdpDirectionalKeyMaterial} {config' : ReassemblyConfig} {sender : UdpSessionCodec}
    (hsender : UdpSessionCodec.withReassemblyConfig role sessionId keys config' = .ok sender)
    {messages : List Msg} {plaintexts : List (List UInt8)} (hencode : Encodes bc messages plaintexts)
    (hfew : plaintexts.length * udpMaxFragments < 2 ^ 64) :
    ∃ datagrams : List (List (List UInt8)),
      Machine.run (UdpSessionCodec.encodeStep aead bc) sender messages = datagrams.map .ok ∧
      datagrams.length = plaintexts.length ∧ SealedBy aead sender.crypto plaintexts datagrams := by
  have hlength : plaintexts.length ≤ plaintexts.length * udpMaxFragments :=
    Nat.le_mul_of_pos_right _ (by decide)
  obtain rfl := UdpSessionCodec.withReassemblyConfig_eq_ok hsender
  -- a new codec sends from sequence number 0 and message id 0
  obtain ⟨datagrams, hrun, hcount, hsealed⟩ := UdpSessionCodec.run_encodeStep aead bc hlaw hencode
    { crypto := UdpSessionCrypto.fromKeyMaterial role sessionId keys
      reassembler := FragmentReassembler.fromValidConfig config'
      nextMessageId := 0
      messageIdExhausted := false } 0 (by cases role <;> rfl) (by cases role <;> rfl) rfl
    (by rw [Nat.zero_add]; exact hfew) (by rw [UInt64.toNat_zero]; omega)
  refine ⟨datagrams, hrun, hcount, fun j hj => ?_⟩
  simpa only [UInt64.toNat_zero, Nat.zero_add] using hsealed j hj

-- ---------------------------------------------------------------------------
-- One datagram into the receiving codec
-- ---------------------------------------------------------------------------

section Decode

variable (cs : UdpSessionCrypto) (config : ReassemblyConfig) (plaintexts : List (List UInt8))

/-- The receiving codec after the deliveries `P` of the datagrams the
sender's direction `cs` sealed. -/
structure Tracks (codec : UdpSessionCodec) (P : List Delivery) : Prop where
  sessionId_eq : codec.crypto.sessionId = cs.sessionId
  receive_eq : codec.crypto.receive = cs.send
  replay : Represents codec.crypto.replay ((P.map (seqOf plaintexts)).toFinset)
  holds : Holds cs.sessionId config plaintexts codec.reassembler P
  sent : ∀ d ∈ P, Sent plaintexts d
  nodup : (P.map Delivery.key).Nodup

/-- Delivery `d` may follow the deliveries `P`: it names a fragment that was
sent and not delivered before, and it is admissible. -/
structure Arrives (P : List Delivery) (d : Delivery) : Prop where
  sent : Sent plaintexts d
  fresh : d.key ∉ P.map Delivery.key
  admissible : Admissible config plaintexts P d

/-- The datagram of delivery `d` and its arrival time, `datagrams` being
what the sender's calls returned, message by message. -/
def arrivalOf (datagrams : List (List (List UInt8))) (d : Delivery) : List UInt8 × Nat :=
  ((datagrams.getD d.message []).getD d.index [], d.time)

variable {plaintexts}

/-- Fragment `i` of message `j` goes out with sequence number
`firstSeq j + i`. -/
theorem seq_at {d : Delivery} (h : seqOf plaintexts d < 2 ^ 64) :
    ((cs.at (firstSeq plaintexts d.message)).nextSendSequence + d.index.toUInt64).toNat =
      seqOf plaintexts d := by
  unfold seqOf at h
  have hfirst := toNat_toUInt64_of_lt (show firstSeq plaintexts d.message < 2 ^ 64 by omega)
  simp only [UdpSessionCrypto.at]
  rw [UdpSessionCrypto.toNat_add_toUInt64 (by omega), hfirst]
  rfl

variable {cs} {config}

/-- The replay window accepts a delivery of a fragment not delivered before
that is less than a window below every delivery before it. -/
theorem modelMayAccept_seqOf {P : List Delivery} (hsentP : ∀ d' ∈ P, Sent plaintexts d')
    {d : Delivery} (hsent : Sent plaintexts d) (hfresh : d.key ∉ P.map Delivery.key)
    (hwin : ∀ d' ∈ P, seqOf plaintexts d' < seqOf plaintexts d + udpReplayWindowSize) :
    modelMayAccept ((P.map (seqOf plaintexts)).toFinset) (seqOf plaintexts d) = true := by
  refine modelMayAccept_of_window (fun x hx => ?_) (fun hx => ?_)
  · obtain ⟨d', hd', rfl⟩ := List.mem_map.mp (List.mem_toFinset.mp hx)
    exact hwin d' hd'
  · -- a delivery with the same sequence number is the same fragment
    obtain ⟨d', hd', heq⟩ := List.mem_map.mp (List.mem_toFinset.mp hx)
    exact hfresh (List.mem_map.mpr ⟨d', hd', key_eq_of_seqOf_eq (hsentP d' hd') hsent heq⟩)

theorem toFinset_seqOf_append (P : List Delivery) (d : Delivery) :
    ((P ++ [d]).map (seqOf plaintexts)).toFinset =
      insert (seqOf plaintexts d) ((P.map (seqOf plaintexts)).toFinset) := by
  ext x
  simp

/-- The receiving codec opens the datagram of a delivery its replay window
accepts: it gets the fragment sealed, and the window then holds the
delivery's sequence number too. -/
theorem openDatagram_delivered (hlaw : aead.Lawful)
    (hlen : ∀ p ∈ plaintexts, p.length ≤ udpMaxMessageSize)
    (hfew : plaintexts.length * udpMaxFragments < 2 ^ 64)
    {codec : UdpSessionCodec} {P : List Delivery} (ht : Tracks cs config plaintexts codec P)
    {d : Delivery} (hsent : Sent plaintexts d)
    (hacc : modelMayAccept ((P.map (seqOf plaintexts)).toFinset) (seqOf plaintexts d) = true)
    {dg : List UInt8}
    (hdg : UdpSessionCrypto.sealFragment aead (cs.at (firstSeq plaintexts d.message))
      d.message.toUInt64 (plaintexts.getD d.message [])
      (fragmentCountOf (plaintexts.getD d.message []).length) d.index = .ok dg) :
    ∃ crypto' : UdpSessionCrypto, codec.crypto.openDatagram aead dg =
        (crypto', .ok (deliveredFragment (cs.at (firstSeq plaintexts d.message)) plaintexts d)) ∧
      crypto'.sessionId = codec.crypto.sessionId ∧ crypto'.receive = codec.crypto.receive ∧
      Represents crypto'.replay (((P ++ [d]).map (seqOf plaintexts)).toFinset) := by
  obtain ⟨hj, hi⟩ := hsent
  have hpl := hlen _ (Result.getD_mem hj [])
  rw [getD_fragmentCounts hj] at hi
  have hlength : plaintexts.length ≤ plaintexts.length * udpMaxFragments :=
    Nat.le_mul_of_pos_right _ (by decide)
  -- the sequence number the fragment was sealed with
  have hseq : seqOf plaintexts d < 2 ^ 64 := by
    have h₁ := seqOf_lt_firstSeq ⟨hj, (getD_fragmentCounts hj).symm ▸ hi⟩ hj
    have h₂ := firstSeq_le plaintexts.length hlen
    omega
  have hopen := UdpSessionCrypto.openDatagram_sealed aead hlaw hpl hi hdg ht.sessionId_eq
    ht.receive_eq ht.replay (by rw [seq_at cs hseq]; exact hacc)
  -- the window now holds the delivery's sequence number too
  have hreplay := (ReplayWindow.commit_refines ht.replay
    ((cs.at (firstSeq plaintexts d.message)).nextSendSequence + d.index.toUInt64)).1
  simp only [replayModel, seq_at cs hseq, hacc, if_true] at hreplay
  rw [← toFinset_seqOf_append] at hreplay
  exact ⟨_, hopen, rfl, rfl, hreplay⟩

/-- One datagram: the codec opens it, hands its fragment to the reassembler
and answers as the abstract receiver does, decoding a completed message to
the message sent. -/
theorem decodeDatagramAt_delivered (hlaw : aead.Lawful) (hbc : bc.Lawful) {messages : List Msg}
    (hencode : Encodes bc messages plaintexts)
    (hfew : plaintexts.length * udpMaxFragments < 2 ^ 64)
    {codec : UdpSessionCodec} {P : List Delivery} (ht : Tracks cs config plaintexts codec P)
    {d : Delivery} (ha : Arrives config plaintexts P d) {dg : List UInt8}
    (hdg : UdpSessionCrypto.sealFragment aead (cs.at (firstSeq plaintexts d.message))
      d.message.toUInt64 (plaintexts.getD d.message [])
      (fragmentCountOf (plaintexts.getD d.message []).length) d.index = .ok dg) :
    ∃ codec', UdpSessionCodec.decodeDatagramAt aead bc codec dg d.time =
        (codec', .ok ((receive (fragmentCounts plaintexts) P d).2.bind fun j => messages[j]?)) ∧
      Tracks cs config plaintexts codec' (P ++ [d]) := by
  have hlen := hencode.length_le
  have hlength : plaintexts.length ≤ plaintexts.length * udpMaxFragments :=
    Nat.le_mul_of_pos_right _ (by decide)
  obtain ⟨crypto', hopen, hsid, hrecv, hreplay⟩ := openDatagram_delivered aead hlaw hlen hfew ht
    ha.sent (modelMayAccept_seqOf ht.sent ha.sent ha.fresh ha.admissible.inWindow) hdg
  obtain ⟨r', hpush, hholds⟩ := push_delivered ht.holds hlen (by omega) ha.sent ht.sent
    (nodup_keys_append ht.nodup ha.fresh) ha.admissible (c := cs.at (firstSeq plaintexts d.message))
    rfl
  have ht' : Tracks cs config plaintexts { codec with crypto := crypto', reassembler := r' }
      (P ++ [d]) :=
    { sessionId_eq := hsid.trans ht.sessionId_eq
      receive_eq := hrecv.trans ht.receive_eq
      replay := hreplay
      holds := hholds
      sent := sent_append ht.sent ha.sent
      nodup := nodup_keys_append ht.nodup ha.fresh }
  simp only [UdpSessionCodec.decodeDatagramAt, hopen, hpush]
  cases hout : (receive (fragmentCounts plaintexts) P d).2 with
  | none => exact ⟨_, rfl, ht'⟩
  | some j =>
    -- a completed message: it is the delivery's own, and decodes to the message sent
    have hjd : j = d.message := by
      simp only [receive] at hout
      split_ifs at hout
      exact (Option.some.inj hout).symm
    have hjm : j < messages.length := by rw [hjd, hencode.length_eq]; exact ha.sent.1
    simp only [Option.map_some, hencode.decode_getD hbc hjm, Option.bind_some,
      List.getElem?_eq_getElem hjm]
    exact ⟨_, rfl, ht'⟩

/-- A fragment that would take its message past `max_total_bytes` is
refused, the one that completes the message too: `push` checks the bytes of
the message with the fragment before it looks whether the message is
complete. -/
theorem decodeDatagramAt_over_max (hlaw : aead.Lawful)
    (hlen : ∀ p ∈ plaintexts, p.length ≤ udpMaxMessageSize)
    (hfew : plaintexts.length * udpMaxFragments < 2 ^ 64)
    {codec : UdpSessionCodec} {P : List Delivery} (ht : Tracks cs config plaintexts codec P)
    {d : Delivery} (hsent : Sent plaintexts d) (hfresh : d.key ∉ P.map Delivery.key)
    (hwin : ∀ d' ∈ P, seqOf plaintexts d' < seqOf plaintexts d + udpReplayWindowSize)
    (htimely : ∀ j, IsPartial (fragmentCounts plaintexts) P j → d.time - lastTime P j < config.timeout)
    (hpart : IsPartial (fragmentCounts plaintexts) P d.message)
    (hover : config.maxTotalBytes <
      heldBytes (fragmentSize plaintexts) P d.message + fragmentSize plaintexts d.message d.index)
    {dg : List UInt8}
    (hdg : UdpSessionCrypto.sealFragment aead (cs.at (firstSeq plaintexts d.message))
      d.message.toUInt64 (plaintexts.getD d.message [])
      (fragmentCountOf (plaintexts.getD d.message []).length) d.index = .ok dg) :
    (UdpSessionCodec.decodeDatagramAt aead bc codec dg d.time).2 =
      .error (.reassemblyLimit "current message exceeds maximum buffered fragment bytes") := by
  have hj := hsent.1
  have hpl := hlen _ (Result.getD_mem hj [])
  have hlength : plaintexts.length ≤ plaintexts.length * udpMaxFragments :=
    Nat.le_mul_of_pos_right _ (by decide)
  obtain ⟨crypto', hopen, -, -, -⟩ := openDatagram_delivered aead hlaw hlen hfew ht hsent
    (modelMayAccept_seqOf ht.sent hsent hfresh hwin) hdg
  set c := cs.at (firstSeq plaintexts d.message)
  -- the message's entry, and the check that refuses the fragment
  have hkey : codec.reassembler.entries.lookup
      ((deliveredFragment c plaintexts d).header.sessionId,
        (deliveredFragment c plaintexts d).header.messageId) =
      some (heldEntry plaintexts P d.message) := by
    rw [ht.holds.lookup_eq]
    exact (heldLookup_key P (by omega)).trans (if_pos hpart)
  have hcheck : checkFragment codec.reassembler.config
      (heldEntry plaintexts P d.message) (deliveredFragment c plaintexts d).header
      (deliveredFragment c plaintexts d).payload =
        .error (.reassemblyLimit "current message exceeds maximum buffered fragment bytes") := by
    rw [ht.holds.config_eq]
    refine FragmentReassembler.checkFragment_over_max config ?_ rfl ?_ ?_ ?_
    · show ((fragmentCounts plaintexts).getD d.message 0).toUInt16 =
        (fragmentCountOf (plaintexts.getD d.message []).length).toUInt16
      rw [getD_fragmentCounts hsent.1]
    · rw [fragmentIndex_deliveredFragment hsent hpl c, getD_fragments_heldEntry P hsent.2,
        if_neg fun h => hfresh (mem_indicesOf.mp h)]
    · show _ ≤ (deliveredFragment c plaintexts d).header.totalLen.toNat
      rw [length_payload_deliveredFragment c, totalLen_deliveredFragment hpl c]
      show heldBytes (fragmentSize plaintexts) P d.message + _ ≤ _
      rw [← heldBytes_append_self]
      exact heldBytes_le_length (nodup_keys_append ht.nodup hfresh) (sent_append ht.sent hsent)
        hsent.1
    · rw [length_payload_deliveredFragment c]
      exact hover
  have hmulti : (deliveredFragment c plaintexts d).header.fragmentCount ≠ 1 := by
    intro h
    have hcount := fragmentCount_deliveredFragment hsent hpl c
    rw [h] at hcount
    unfold IsPartial at hpart
    rw [← hcount] at hpart
    exact absurd hpart (by simp; omega)
  have hpush := FragmentReassembler.push_refused (validateFragment_deliveredFragment hsent hpl c)
    hmulti (ht.holds.fresh htimely) hkey hcheck
  simp only [UdpSessionCodec.decodeDatagramAt, hopen, hpush]

-- ---------------------------------------------------------------------------
-- A run of the receiving codec
-- ---------------------------------------------------------------------------

/-- The receiving codec simulates the abstract receiver on every arrival
that may follow the deliveries before it. -/
theorem decodeStep_simulates (hlaw : aead.Lawful) (hbc : bc.Lawful) {messages : List Msg}
    (hencode : Encodes bc messages plaintexts)
    (hfew : plaintexts.length * udpMaxFragments < 2 ^ 64) {datagrams : List (List (List UInt8))}
    (hsealed : SealedBy aead cs plaintexts datagrams) :
    Machine.SimulatesOn (UdpSessionCodec.decodeStep aead bc) (receive (fragmentCounts plaintexts))
      (arrivalOf datagrams) (fun o => .ok (o.bind fun j => messages[j]?))
      (Arrives config plaintexts) (Tracks cs config plaintexts) := by
  intro codec P d ht ha
  obtain ⟨codec', hstep, ht'⟩ :=
    decodeDatagramAt_delivered aead bc hlaw hbc hencode hfew ht ha (hsealed.sealFragment ha.sent)
  have hdecode : UdpSessionCodec.decodeStep aead bc codec (arrivalOf datagrams d) =
      (codec', .ok ((receive (fragmentCounts plaintexts) P d).2.bind fun j => messages[j]?)) :=
    hstep
  rw [hdecode]
  exact ⟨ht', rfl⟩

variable (plaintexts)

/-- A receiver built with the role opposite to the sender's has seen
nothing of what the sender seals. -/
theorem tracks_withReassemblyConfig {role role' : UdpSessionRole} (hrole : role ≠ role')
    {sessionId : UdpSessionId} {keys : UdpDirectionalKeyMaterial} {config' : ReassemblyConfig}
    {sender receiver : UdpSessionCodec}
    (hsender : UdpSessionCodec.withReassemblyConfig role sessionId keys config' = .ok sender)
    (hreceiver : UdpSessionCodec.withReassemblyConfig role' sessionId keys config = .ok receiver) :
    Tracks sender.crypto config plaintexts receiver [] := by
  obtain rfl := UdpSessionCodec.withReassemblyConfig_eq_ok hsender
  obtain rfl := UdpSessionCodec.withReassemblyConfig_eq_ok hreceiver
  exact
    { sessionId_eq := rfl
      receive_eq := fromKeyMaterial_receive hrole sessionId keys
      replay := by
        rw [show (UdpSessionCrypto.fromKeyMaterial role' sessionId keys).replay =
          ReplayWindow.new by cases role' <;> rfl]
        simpa using represents_new
      holds := holds_fromValidConfig
      sent := fun _ h => absurd h List.not_mem_nil
      nodup := List.nodup_nil }

variable {plaintexts}

/-- The arrivals of an order of all the fragments, each once, that are
admissible one after the other, may each follow the ones before. -/
theorem admits_of_perm {sched : List Delivery}
    (hperm : (sched.map Delivery.key).Perm (allFragments (fragmentCounts plaintexts)))
    (hadm : ∀ n (hn : n < sched.length), Admissible config plaintexts (sched.take n) sched[n]) :
    Machine.Admits (receive (fragmentCounts plaintexts)) (Arrives config plaintexts) [] sched := by
  have hnodup := hperm.nodup_iff.mpr (nodup_allFragments _)
  refine (Machine.admits_iff _ _ _ _).mpr fun n hn => ?_
  rw [final_receive, List.nil_append]
  have hmem : sched[n].key ∈ allFragments (fragmentCounts plaintexts) :=
    hperm.subset (List.mem_map_of_mem (List.getElem_mem hn))
  rw [Delivery.key, mem_allFragments, length_fragmentCounts] at hmem
  exact ⟨hmem, key_notMem_take hnodup hn, hadm n hn⟩

end Decode

-- ---------------------------------------------------------------------------
-- The session
-- ---------------------------------------------------------------------------

/-- What the session is for. The sender's calls succeed, sealing each
message into as many datagrams as it has fragments, no more than
`UDP_MAX_FRAGMENTS`, each within `UDP_MAX_DATAGRAM_SIZE`; and on every order
of the datagrams in which each arrives once and admissibly, the receiver
answers as the abstract receiver does: every message once, as the message
sent, and `None` for every other datagram. -/
def DeliversExactlyOnce (sender receiver : UdpSessionCodec) (config : ReassemblyConfig)
    (messages : List Msg) (plaintexts : List (List UInt8)) : Prop :=
  ∃ datagrams : List (List (List UInt8)),
    Machine.run (UdpSessionCodec.encodeStep aead bc) sender messages = datagrams.map .ok ∧
    List.Forall₂ (fun p ds => ds.length = fragmentCountOf p.length ∧ ds.length ≤ udpMaxFragments ∧
      ∀ dg ∈ ds, dg.length ≤ udpMaxDatagramSize) plaintexts datagrams ∧
    ∀ sched : List Delivery,
      (sched.map Delivery.key).Perm (allFragments (fragmentCounts plaintexts)) →
      (∀ n (hn : n < sched.length), Admissible config plaintexts (sched.take n) sched[n]) →
      Machine.run (UdpSessionCodec.decodeStep aead bc) receiver (sched.map (arrivalOf datagrams)) =
          (Machine.run (receive (fragmentCounts plaintexts)) [] sched).map
            (fun o => .ok (o.bind fun j => messages[j]?)) ∧
        (∀ j < messages.length,
          (Machine.run (receive (fragmentCounts plaintexts)) [] sched).count (some j) = 1) ∧
        ∀ j, some j ∈ Machine.run (receive (fragmentCounts plaintexts)) [] sched →
          j < messages.length

theorem session_delivers_exactly_once (hlaw : aead.Lawful) (hbc : bc.Lawful)
    {role role' : UdpSessionRole} (hrole : role ≠ role') {sessionId : UdpSessionId}
    {keys : UdpDirectionalKeyMaterial} {config' config : ReassemblyConfig}
    {sender receiver : UdpSessionCodec}
    (hsender : UdpSessionCodec.withReassemblyConfig role sessionId keys config' = .ok sender)
    (hreceiver : UdpSessionCodec.withReassemblyConfig role' sessionId keys config = .ok receiver)
    {messages : List Msg} {plaintexts : List (List UInt8)}
    (hencode : Encodes bc messages plaintexts)
    (hfew : messages.length * udpMaxFragments < 2 ^ 64) :
    DeliversExactlyOnce aead bc sender receiver config messages plaintexts := by
  have hlen := hencode.length_le
  have hlenEq := hencode.length_eq
  rw [hlenEq] at hfew
  have htracks := tracks_withReassemblyConfig plaintexts hrole hsender hreceiver
  obtain ⟨datagrams, hrun, hcount, hsealed⟩ := sender_datagrams aead bc hlaw hsender hencode hfew
  refine ⟨datagrams, hrun, Result.forall₂_of_getD [] [] hcount.symm fun j hj => ?_, ?_⟩
  · -- message `j`: its datagrams, one for each fragment, each within the limit
    have hpl : (plaintexts.getD j []).length ≤ udpMaxMessageSize :=
      hlen _ (by rw [List.getD_eq_getElem _ _ hj]; exact List.getElem_mem hj)
    have hk : (datagrams.getD j []).length = fragmentCountOf (plaintexts.getD j []).length := by
      simpa using (hsealed j hj).length_eq.symm
    refine ⟨hk, hk ▸ (fragmentCountOf_le hpl).trans (by decide), fun dg hdg' => ?_⟩
    obtain ⟨i, hi, hsealI⟩ := Result.exists_mem_of_forall₂ (hsealed j hj) hdg'
    exact length_sealFragment_le hlaw hpl (List.mem_range.mp hi) hsealI
  · -- every admissible order of the datagrams
    intro sched hperm hadm
    refine ⟨Machine.run_simulationOn
      (decodeStep_simulates aead bc hlaw hbc hencode hfew hsealed) htracks sched
      (admits_of_perm hperm hadm), fun j hj => ?_, fun j hj => ?_⟩
    · have hj' : j < plaintexts.length := hlenEq ▸ hj
      refine count_some_eq_one _ hperm (by simpa using hj') ?_
      rw [getD_fragmentCounts hj']
      exact fragmentCountOf_pos _
    · have := lt_length_of_some_mem _ hj
      rw [length_fragmentCounts] at this
      exact hlenEq ▸ this

/-- bitcode of byte strings, each its own encoding. -/
def bytesBitcode : Bitcode (List UInt8) := ⟨.ok, .ok⟩

theorem bytesBitcode_lawful : bytesBitcode.Lawful where
  deserialize_serialize m bytes h := by
    simp only [bytesBitcode, Except.ok.injEq] at h ⊢
    exact h.symm

/-- Key material for the examples. -/
def exampleKeys : UdpDirectionalKeyMaterial :=
  ⟨Vector.replicate 32 1, Vector.replicate 32 2, Vector.replicate 4 3, Vector.replicate 4 4⟩

theorem session_delivers_exactly_once_bytes :
    ∃ sender receiver : UdpSessionCodec,
      UdpSessionCodec.withReassemblyConfig .agent (Vector.replicate 16 0) exampleKeys
        ReassemblyConfig.default = .ok sender ∧
      UdpSessionCodec.withReassemblyConfig .proxy (Vector.replicate 16 0) exampleKeys
        ReassemblyConfig.default = .ok receiver ∧
      DeliversExactlyOnce plainAead bytesBitcode sender receiver ReassemblyConfig.default
        [[1, 2, 3]] [[1, 2, 3]] := by
  have hsender : UdpSessionCodec.withReassemblyConfig .agent (Vector.replicate 16 0) exampleKeys
      ReassemblyConfig.default = .ok _ := rfl
  have hreceiver : UdpSessionCodec.withReassemblyConfig .proxy (Vector.replicate 16 0) exampleKeys
      ReassemblyConfig.default = .ok _ := rfl
  exact ⟨_, _, hsender, hreceiver, session_delivers_exactly_once plainAead bytesBitcode
    plainAead_lawful bytesBitcode_lawful (by decide) hsender hreceiver (.cons ⟨rfl, by decide⟩ .nil)
    (by decide)⟩

/-- The conditions on an order of arrivals read off the bytes held at each
moment, as one may read "the buffered bytes stay within `max_total_bytes`":
no arrival a replay window or more below one before it, at no moment more
partly received messages than `max_entries` or more of their bytes than
`max_total_bytes`, and no partly received message `timeout` old at an
arrival. `Admissible` counts the arriving fragment with the bytes held. -/
structure HeldWithin (config : ReassemblyConfig) (plaintexts : List (List UInt8))
    (sched : List Delivery) : Prop where
  inWindow : ∀ n (hn : n < sched.length), ∀ d' ∈ sched.take n,
    seqOf plaintexts d' < seqOf plaintexts sched[n] + udpReplayWindowSize
  entries : ∀ n ≤ sched.length,
    partialCount (fragmentCounts plaintexts) (sched.take n) ≤ config.maxEntries
  bytes : ∀ n ≤ sched.length,
    bufferedBytes (fragmentCounts plaintexts) (fragmentSize plaintexts) (sched.take n) ≤
      config.maxTotalBytes
  timely : ∀ n (hn : n < sched.length), ∀ j,
    IsPartial (fragmentCounts plaintexts) (sched.take n) j →
      sched[n].time - lastTime (sched.take n) j < config.timeout

/-- A message of 1290 bytes, two fragments of 1289 and 1 bytes, under a
`max_total_bytes` of 1289: at no moment are more bytes of partly received
messages held than that, yet the second fragment is refused and the message
is never handed out. -/
theorem message_over_byte_limit_refused :
    ∃ sender receiver : UdpSessionCodec, ∃ datagrams : List (List (List UInt8)),
      UdpSessionCodec.withReassemblyConfig .agent (Vector.replicate 16 0) exampleKeys
        ⟨1, 1289, 1⟩ = .ok sender ∧
      UdpSessionCodec.withReassemblyConfig .proxy (Vector.replicate 16 0) exampleKeys
        ⟨1, 1289, 1⟩ = .ok receiver ∧
      Encodes bytesBitcode [List.replicate 1290 0] [List.replicate 1290 0] ∧
      Machine.run (UdpSessionCodec.encodeStep plainAead bytesBitcode) sender
        [List.replicate 1290 0] = datagrams.map .ok ∧
      ([⟨0, 0, 0⟩, ⟨0, 1, 0⟩].map Delivery.key).Perm
        (allFragments (fragmentCounts [List.replicate 1290 0])) ∧
      HeldWithin ⟨1, 1289, 1⟩ [List.replicate 1290 0] [⟨0, 0, 0⟩, ⟨0, 1, 0⟩] ∧
      Machine.run (UdpSessionCodec.decodeStep plainAead bytesBitcode) receiver
        ([⟨0, 0, 0⟩, ⟨0, 1, 0⟩].map (arrivalOf datagrams)) =
        [.ok none, .error (.reassemblyLimit "current message exceeds maximum buffered fragment bytes")]
      := by
  obtain ⟨sender, hsender⟩ : ∃ sender, UdpSessionCodec.withReassemblyConfig .agent
      (Vector.replicate 16 0) exampleKeys ⟨1, 1289, 1⟩ = .ok sender := ⟨_, rfl⟩
  obtain ⟨receiver, hreceiver⟩ : ∃ receiver, UdpSessionCodec.withReassemblyConfig .proxy
      (Vector.replicate 16 0) exampleKeys ⟨1, 1289, 1⟩ = .ok receiver := ⟨_, rfl⟩
  have hp : (List.replicate 1290 (0 : UInt8)).length = 1290 := List.length_replicate
  have hencode : Encodes bytesBitcode [List.replicate 1290 0] [List.replicate 1290 0] :=
    .cons ⟨rfl, by rw [hp]; decide⟩ .nil
  have hfew : [List.replicate 1290 (0 : UInt8)].length * udpMaxFragments < 2 ^ 64 := by decide
  obtain ⟨datagrams, hrun, -, hsealed⟩ :=
    sender_datagrams plainAead bytesBitcode plainAead_lawful hsender hencode hfew
  have htracks := tracks_withReassemblyConfig [List.replicate 1290 0] (by decide) hsender hreceiver
  refine ⟨sender, receiver, datagrams, hsender, hreceiver, hencode, hrun, ?_⟩
  -- from here on only the length of the message matters
  generalize List.replicate 1290 (0 : UInt8) = p at hp hencode hfew hsealed htracks ⊢
  have hcounts : fragmentCounts [p] = [2] := by
    rw [fragmentCounts, List.map_singleton, hp]
    rfl
  have hsizes : fragmentSize [p] = fun j i => fragmentLen (if j = 0 then 1290 else 0) i := by
    funext j i
    cases j <;> simp [fragmentSize, hp]
  have hseq : ∀ i t, seqOf [p] ⟨0, i, t⟩ = i := fun i t => by simp [seqOf, firstSeq]
  have hsent : ∀ i t, i < 2 → Sent [p] ⟨0, i, t⟩ :=
    fun i t hi => ⟨by simp, by rw [hcounts]; exact hi⟩
  refine ⟨by rw [hcounts]; decide, ⟨?_, ?_, ?_, ?_⟩, ?_⟩
  · -- the arrivals and the moments, one by one
    intro n hn d' hd'
    rcases n with _ | _ | n
    · exact absurd hd' List.not_mem_nil
    · rw [List.take_succ_cons, List.take_zero, List.mem_singleton] at hd'
      subst hd'
      show seqOf [p] ⟨0, 0, 0⟩ < seqOf [p] ⟨0, 1, 0⟩ + udpReplayWindowSize
      rw [hseq, hseq]
      omega
    · simp only [List.length_cons, List.length_nil] at hn
      omega
  · intro n hn
    rw [hcounts]
    rcases n with _ | _ | _ | n
    · decide
    · decide
    · decide
    · simp at hn
  · intro n hn
    rw [hcounts, hsizes]
    rcases n with _ | _ | _ | n
    · decide
    · decide
    · decide
    · simp at hn
  · intro n hn j _
    rcases n with _ | _ | n
    · simp
    · simp
    · simp only [List.length_cons, List.length_nil] at hn
      omega
  -- the first fragment is held; the second would take the message past the limit
  obtain ⟨codec₁, hstep₁, ht₁⟩ := decodeDatagramAt_delivered plainAead bytesBitcode
    plainAead_lawful bytesBitcode_lawful hencode hfew htracks
    (d := ⟨0, 0, 0⟩) ⟨hsent 0 0 (by decide), List.not_mem_nil,
      ⟨fun _ h => absurd h List.not_mem_nil, by rw [hcounts]; decide,
        fun _ => by rw [hcounts, hsizes]; decide, fun j h => absurd h (isPartial_nil j)⟩⟩
    (hsealed.sealFragment (hsent 0 0 (by decide)))
  have hstep₂ := decodeDatagramAt_over_max plainAead bytesBitcode plainAead_lawful
    hencode.length_le hfew ht₁ (d := ⟨0, 1, 0⟩) (hsent 1 0 (by decide)) (by decide)
    (by simp [hseq]) (fun j _ => by simp) (by rw [hcounts]; decide)
    (by rw [hsizes]; decide) (hsealed.sealFragment (hsent 1 0 (by decide)))
  have hout₁ : (receive (fragmentCounts [p]) [] ⟨0, 0, 0⟩).2 = none := by
    rw [hcounts]
    decide
  rw [hout₁, Option.bind_none] at hstep₁
  have h₁ : UdpSessionCodec.decodeStep plainAead bytesBitcode receiver
      (arrivalOf datagrams ⟨0, 0, 0⟩) = (codec₁, .ok none) := hstep₁
  simp only [List.map_cons, List.map_nil, Machine.run_cons, Machine.run_nil, h₁]
  exact congrArg (fun o => [.ok none, o]) hstep₂

end Ppaass.Udp
