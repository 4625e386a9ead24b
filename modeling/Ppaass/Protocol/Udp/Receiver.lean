import Ppaass.Protocol.Udp.Transmission

/-!
# What a receiver makes of the datagrams

The receiving codec against the abstract receiver `receive` of
`Lib/Fragments`: the datagrams a sender sealed, delivered in any order and
each once, are answered by `decode_datagram_at` as `receive` answers their
deliveries, as long as each arrival stays within what the replay window and
the reassembler were configured for (`Admissible`).

The invariant of the run is `Tracks`: the receiver opens with the sender's
key, its replay window has seen the sequence numbers of the deliveries so
far, and its reassembler holds the fragments of the partly received
messages, entry for entry, with their count and their bytes (`Holds`). One
fragment into the reassembler is `push_delivered`, one datagram into the
codec `decodeDatagramAt_delivered`.
-/

namespace Ppaass.Udp

open Fragments

section Held

variable (sessionId : UdpSessionId) (config : ReassemblyConfig) (plaintexts : List (List UInt8))

/-- The entry the reassembler keeps for message `j` after the deliveries `P`. -/
def heldEntry (P : List Delivery) (j : Nat) : ReassemblyEntry :=
  { fragmentCount := ((fragmentCounts plaintexts).getD j 0).toUInt16
    totalLen := (plaintexts.getD j []).length.toUInt32
    fragments := (List.range ((fragmentCounts plaintexts).getD j 0)).map fun i =>
      if i ∈ indicesOf P j then some (UdpSessionCrypto.fragmentBytes (plaintexts.getD j []) i)
      else none
    receivedCount := arrived P j
    receivedBytes := heldBytes (fragmentSize plaintexts) P j
    updatedAt := lastTime P j }

variable {plaintexts}

theorem heldEntry_append_ne (P : List Delivery) {d : Delivery} {j : Nat} (h : d.message ≠ j) :
    heldEntry plaintexts (P ++ [d]) j = heldEntry plaintexts P j := by
  have hidx : indicesOf (P ++ [d]) j = indicesOf P j := by
    simp [indicesOf, deliveredOf_append, deliveredOf_singleton, h]
  simp only [heldEntry, hidx, arrived_append_ne P h, heldBytes_append_ne P h,
    lastTime_append_ne P h]

/-- Storing a fragment into the entry of its message gives the entry with
one more delivery. -/
theorem storedEntry_heldEntry (P : List Delivery) (d : Delivery) :
    FragmentReassembler.storedEntry (heldEntry plaintexts P d.message) d.index
      (UdpSessionCrypto.fragmentBytes (plaintexts.getD d.message []) d.index)
      (heldBytes (fragmentSize plaintexts) P d.message + fragmentSize plaintexts d.message d.index)
      d.time = heldEntry plaintexts (P ++ [d]) d.message := by
  simp only [FragmentReassembler.storedEntry, heldEntry, indicesOf_append, arrived_append_self,
    heldBytes_append_self, lastTime_append_self, ReassemblyEntry.mk.injEq, and_true, true_and]
  apply List.ext_getElem (by simp)
  intro n h₁ h₂
  simp only [List.getElem_set, List.getElem_map, List.getElem_range, List.mem_append,
    List.mem_singleton]
  by_cases hn : d.index = n
  · subst hn
    simp
  · simp [hn, Ne.symm hn]

theorem opened_eq_heldEntry {P : List Delivery} {j : Nat} (hj : j < plaintexts.length)
    (hlen : (plaintexts.getD j []).length ≤ udpMaxMessageSize) (h0 : arrived P j = 0)
    (c : UdpSessionCrypto) (messageId : UInt64) (i now : Nat) :
    ReassemblyEntry.opened (UdpSessionCrypto.fragmentHeader c messageId (plaintexts.getD j []) i)
      now = { heldEntry plaintexts P j with updatedAt := now } := by
  have hnil := indicesOf_eq_nil h0
  have hk := fragmentCountOf_le hlen
  have hcount : (fragmentCountOf (plaintexts.getD j []).length).toUInt16.toNat =
      fragmentCountOf (plaintexts.getD j []).length := by
    rw [Nat.toUInt16_eq, UInt16.toNat_ofNat']
    exact Nat.mod_eq_of_lt (by omega)
  simp only [ReassemblyEntry.opened, heldEntry, UdpSessionCrypto.fragmentHeader,
    UdpPacketHeader.new, getD_fragmentCounts hj, hcount, hnil, h0, heldBytes, List.map_nil,
    List.sum_nil, List.not_mem_nil, if_false, List.map_const', List.length_range]

theorem sent_append {P : List Delivery} (hP : ∀ d ∈ P, Sent plaintexts d) {d : Delivery}
    (hd : Sent plaintexts d) : ∀ d' ∈ P ++ [d], Sent plaintexts d' := by
  intro d' hd'
  rcases List.mem_append.mp hd' with hd' | hd'
  · exact hP d' hd'
  · rw [List.mem_singleton.mp hd']
    exact hd

/-- The fragments of message `j` that have arrived are fragments it has. -/
theorem lt_of_mem_indicesOf {P : List Delivery} (hsent : ∀ d ∈ P, Sent plaintexts d) {j i : Nat}
    (hi : i ∈ indicesOf P j) : i < (fragmentCounts plaintexts).getD j 0 := by
  obtain ⟨d, hd, rfl⟩ := List.mem_map.mp hi
  obtain ⟨hdP, hdj⟩ := (mem_deliveredOf P j).mp hd
  exact hdj ▸ (hsent d hdP).2

/-- No more fragments of a message arrive, each once, than it has. -/
theorem arrived_le {P : List Delivery} (hnodup : (P.map Delivery.key).Nodup)
    (hsent : ∀ d ∈ P, Sent plaintexts d) (j : Nat) :
    arrived P j ≤ (fragmentCounts plaintexts).getD j 0 := by
  rw [← length_indicesOf]
  exact length_le_of_nodup (nodup_indicesOf hnodup j) fun i hi => lt_of_mem_indicesOf hsent hi

/-- No more bytes of a message arrive, each fragment once, than it has. -/
theorem heldBytes_le_length {P : List Delivery} (hnodup : (P.map Delivery.key).Nodup)
    (hsent : ∀ d ∈ P, Sent plaintexts d) {j : Nat} (hj : j < plaintexts.length) :
    heldBytes (fragmentSize plaintexts) P j ≤ (plaintexts.getD j []).length :=
  calc heldBytes (fragmentSize plaintexts) P j
      ≤ ((List.range ((fragmentCounts plaintexts).getD j 0)).map (fragmentSize plaintexts j)).sum :=
        sum_le_sum_range _ (nodup_indicesOf hnodup j) fun i hi => lt_of_mem_indicesOf hsent hi
    _ = (plaintexts.getD j []).length := by
        rw [getD_fragmentCounts hj]
        exact sum_fragmentLen _

/-- A message that is not partly received, and not complete, has nothing
held. -/
theorem heldBytes_of_not_isPartial {P : List Delivery} {j : Nat}
    (hp : ¬ IsPartial (fragmentCounts plaintexts) P j)
    (hmore : arrived P j < (fragmentCounts plaintexts).getD j 0) :
    heldBytes (fragmentSize plaintexts) P j = 0 := by
  have h0 : arrived P j = 0 := by
    unfold IsPartial at hp
    omega
  rw [heldBytes, indicesOf_eq_nil h0, List.map_nil, List.sum_nil]

theorem getD_fragments_heldEntry (P : List Delivery) {j i : Nat}
    (hi : i < (fragmentCounts plaintexts).getD j 0) :
    (heldEntry plaintexts P j).fragments.getD i none =
      if i ∈ indicesOf P j then some (UdpSessionCrypto.fragmentBytes (plaintexts.getD j []) i)
      else none := by
  simp only [heldEntry]
  rw [List.getD_eq_getElem _ _ (by simpa using hi), List.getElem_map, List.getElem_range]

/-- Once every fragment of message `j` has arrived, its entry holds all of
them, in order, and as many bytes as the message. -/
theorem heldEntry_complete {P : List Delivery} {j : Nat} (hj : j < plaintexts.length)
    (hnodup : (P.map Delivery.key).Nodup) (hsent : ∀ d ∈ P, Sent plaintexts d)
    (hall : arrived P j = (fragmentCounts plaintexts).getD j 0) :
    (heldEntry plaintexts P j).fragments =
        (List.range ((fragmentCounts plaintexts).getD j 0)).map
          (fun i => some (UdpSessionCrypto.fragmentBytes (plaintexts.getD j []) i)) ∧
      heldBytes (fragmentSize plaintexts) P j = (plaintexts.getD j []).length := by
  have hperm := perm_range_of_length (nodup_indicesOf hnodup j)
    (fun i hi => lt_of_mem_indicesOf hsent hi) (by rw [length_indicesOf, hall])
  refine ⟨List.map_congr_left fun i hi => ?_, ?_⟩
  · rw [if_pos (hperm.mem_iff.mpr hi)]
  · rw [heldBytes, (hperm.map _).sum_eq, getD_fragmentCounts hj]
    exact sum_fragmentLen _

theorem mapM_id_map_some {α β : Type _} (l : List α) (g : α → β) :
    (l.map fun a => some (g a)).mapM id = some (l.map g) := by
  induction l with
  | nil => rfl
  | cons a l ih => simp [ih]

end Held

section Holds

variable (sessionId : UdpSessionId) (config : ReassemblyConfig) (plaintexts : List (List UInt8))

/-- What the table holds under a key after the deliveries `P`: the entry of
a partly received message of the session. -/
def heldLookup (P : List Delivery) (key : ReassemblyKey) : Option ReassemblyEntry :=
  if key.1 = sessionId ∧ IsPartial (fragmentCounts plaintexts) P key.2.toNat then
    some (heldEntry plaintexts P key.2.toNat)
  else none

/-- The reassembler holds the fragments of the deliveries `P` of partly
received messages, and nothing else. -/
structure Holds (r : FragmentReassembler) (P : List Delivery) : Prop where
  config_eq : r.config = config
  lookup_eq : ∀ key, r.entries.lookup key = heldLookup sessionId plaintexts P key
  entryCount_eq : r.entryCount = partialCount (fragmentCounts plaintexts) P
  totalBytes_eq :
    r.totalBytes = bufferedBytes (fragmentCounts plaintexts) (fragmentSize plaintexts) P

/-- The conditions of the claim on one arrival, given the deliveries before
it: the replay window admits it, no more than `max_entries` messages are
partly received after it, the partly received messages and it fit in
`max_total_bytes` bytes, and no partly received message is `timeout` old. -/
structure Admissible (P : List Delivery) (d : Delivery) : Prop where
  inWindow : ∀ d' ∈ P, seqOf plaintexts d' < seqOf plaintexts d + udpReplayWindowSize
  entries : partialCount (fragmentCounts plaintexts) (P ++ [d]) ≤ config.maxEntries
  bytes : 1 < (fragmentCounts plaintexts).getD d.message 0 →
    bufferedBytes (fragmentCounts plaintexts) (fragmentSize plaintexts) P +
      fragmentSize plaintexts d.message d.index ≤ config.maxTotalBytes
  timely : ∀ j, IsPartial (fragmentCounts plaintexts) P j → d.time - lastTime P j < config.timeout

variable {sessionId} {config} {plaintexts}

theorem heldLookup_append_of_ne (P : List Delivery) {d : Delivery} {key : ReassemblyKey}
    (h : key.1 ≠ sessionId ∨ key.2.toNat ≠ d.message) :
    heldLookup sessionId plaintexts (P ++ [d]) key = heldLookup sessionId plaintexts P key := by
  unfold heldLookup
  rcases h with h | h
  · simp [h]
  · simp only [isPartial_append_ne P (Ne.symm h), heldEntry_append_ne P (Ne.symm h)]

/-- A table that holds the deliveries `P` holds `P ++ [d]` once it holds the
entry of `d`'s message as `P ++ [d]` leaves it, keeps every other entry, and
counts the entries and bytes of that message anew. -/
theorem Holds.append {r r' : FragmentReassembler} {P : List Delivery} {d : Delivery}
    (hr : Holds sessionId config plaintexts r P) (hd : d.message < plaintexts.length)
    (hcfg : r'.config = r.config)
    (hkey : r'.entries.lookup (sessionId, d.message.toUInt64) =
      heldLookup sessionId plaintexts (P ++ [d]) (sessionId, d.message.toUInt64))
    (hother : ∀ key, key ≠ (sessionId, d.message.toUInt64) →
      r'.entries.lookup key = r.entries.lookup key)
    (hcount : r'.entryCount + (if IsPartial (fragmentCounts plaintexts) P d.message then 1 else 0) =
      r.entryCount + (if IsPartial (fragmentCounts plaintexts) (P ++ [d]) d.message then 1 else 0))
    (hbytes : r'.totalBytes + (if IsPartial (fragmentCounts plaintexts) P d.message then
        heldBytes (fragmentSize plaintexts) P d.message else 0) =
      r.totalBytes + (if IsPartial (fragmentCounts plaintexts) (P ++ [d]) d.message then
        heldBytes (fragmentSize plaintexts) (P ++ [d]) d.message else 0)) :
    Holds sessionId config plaintexts r' (P ++ [d]) := by
  have hlen : d.message < (fragmentCounts plaintexts).length := by simpa using hd
  refine ⟨hcfg.trans hr.config_eq, fun key => ?_, ?_, ?_⟩
  · by_cases hk : key = (sessionId, d.message.toUInt64)
    · subst hk
      exact hkey
    · -- another key: the table and the deliveries say the same of it as before
      rw [hother key hk, hr.lookup_eq, heldLookup_append_of_ne P]
      obtain ⟨s, m⟩ := key
      by_cases hs : s = sessionId
      · refine Or.inr fun hm => hk ?_
        simp only at hm
        rw [hs, ← hm]
        exact congrArg (Prod.mk sessionId) UInt64.ofNat_toNat.symm
      · exact Or.inl hs
  · have := partialCount_append P hlen
    rw [hr.entryCount_eq] at hcount
    omega
  · have := bufferedBytes_append (fragmentSize plaintexts) P hlen
    rw [hr.totalBytes_eq] at hbytes
    omega

/-- A new reassembler holds no deliveries. -/
theorem holds_fromValidConfig :
    Holds sessionId config plaintexts (FragmentReassembler.fromValidConfig config) [] where
  config_eq := rfl
  lookup_eq key := by simp [heldLookup, FragmentReassembler.fromValidConfig]
  entryCount_eq := by simp [FragmentReassembler.entryCount, FragmentReassembler.fromValidConfig]
  totalBytes_eq := by simp [FragmentReassembler.fromValidConfig]

/-- The entries of a table that holds `P` are those of the partly received
messages, each last updated when its message's last fragment arrived. -/
theorem Holds.fresh {r : FragmentReassembler} {P : List Delivery}
    (hr : Holds sessionId config plaintexts r P) {now : Nat}
    (htimely : ∀ j, IsPartial (fragmentCounts plaintexts) P j → now - lastTime P j < config.timeout) :
    ∀ kv ∈ r.entries.entries, now - kv.2.updatedAt < r.config.timeout := by
  intro kv hkv
  have hl : r.entries.lookup kv.1 = some kv.2 := AList.mem_lookup_iff.mpr hkv
  rw [hr.lookup_eq] at hl
  unfold heldLookup at hl
  split_ifs at hl with hcond
  rw [← Option.some.inj hl, hr.config_eq]
  exact htimely _ hcond.2

theorem heldLookup_key (P : List Delivery) {j : Nat} (hj : j < 2 ^ 64) :
    heldLookup sessionId plaintexts P (sessionId, j.toUInt64) =
      if IsPartial (fragmentCounts plaintexts) P j then some (heldEntry plaintexts P j)
      else none := by
  simp only [heldLookup, true_and, toNat_toUInt64_of_lt hj]

end Holds

-- ---------------------------------------------------------------------------
-- One fragment into the reassembler
-- ---------------------------------------------------------------------------

/-- The fragment the receiver opens from the datagram of delivery `d`, which
the sender's direction `c` sealed. -/
def deliveredFragment (c : UdpSessionCrypto) (plaintexts : List (List UInt8)) (d : Delivery) :
    DecryptedUdpFragment :=
  ⟨UdpSessionCrypto.fragmentHeader c d.message.toUInt64 (plaintexts.getD d.message []) d.index,
    UdpSessionCrypto.fragmentBytes (plaintexts.getD d.message []) d.index⟩

section Fragment

variable {plaintexts : List (List UInt8)} {d : Delivery}

theorem length_payload_deliveredFragment (c : UdpSessionCrypto) :
    (deliveredFragment c plaintexts d).payload.length = fragmentSize plaintexts d.message d.index :=
  UdpSessionCrypto.length_fragmentBytes _ _

theorem totalLen_deliveredFragment
    (hpl : (plaintexts.getD d.message []).length ≤ udpMaxMessageSize) (c : UdpSessionCrypto) :
    (deliveredFragment c plaintexts d).header.totalLen.toNat =
      (plaintexts.getD d.message []).length := by
  show (plaintexts.getD d.message []).length.toUInt32.toNat = _
  rw [udpMaxMessageSize_eq] at hpl
  rw [Nat.toUInt32_eq, UInt32.toNat_ofNat', Nat.mod_eq_of_lt (by omega)]

theorem fragmentCount_deliveredFragment (hsent : Sent plaintexts d)
    (hpl : (plaintexts.getD d.message []).length ≤ udpMaxMessageSize) (c : UdpSessionCrypto) :
    (deliveredFragment c plaintexts d).header.fragmentCount.toNat =
      (fragmentCounts plaintexts).getD d.message 0 := by
  have hk := fragmentCountOf_le hpl
  show (fragmentCountOf (plaintexts.getD d.message []).length).toUInt16.toNat = _
  rw [Nat.toUInt16_eq, UInt16.toNat_ofNat', Nat.mod_eq_of_lt (by omega),
    getD_fragmentCounts hsent.1]

theorem fragmentIndex_deliveredFragment (hsent : Sent plaintexts d)
    (hpl : (plaintexts.getD d.message []).length ≤ udpMaxMessageSize) (c : UdpSessionCrypto) :
    (deliveredFragment c plaintexts d).header.fragmentIndex.toNat = d.index := by
  have hk := fragmentCountOf_le hpl
  have hi := hsent.2
  rw [getD_fragmentCounts hsent.1] at hi
  show d.index.toUInt16.toNat = d.index
  rw [Nat.toUInt16_eq, UInt16.toNat_ofNat', Nat.mod_eq_of_lt (by omega)]

theorem validateFragment_deliveredFragment (hsent : Sent plaintexts d)
    (hpl : (plaintexts.getD d.message []).length ≤ udpMaxMessageSize) (c : UdpSessionCrypto) :
    validateFragment (deliveredFragment c plaintexts d) = .ok () := by
  have hi := hsent.2
  rw [getD_fragmentCounts hsent.1] at hi
  exact validateFragment_sealed hpl hi c d.message.toUInt64

end Fragment

section Push

variable {sessionId : UdpSessionId} {config : ReassemblyConfig} {plaintexts : List (List UInt8)}

/-- The reassembler answers a fragment as the abstract receiver does, handing
out the message's bytes when its last fragment arrives, and keeps holding
the deliveries. -/
theorem push_delivered {r : FragmentReassembler} {P : List Delivery}
    (hr : Holds sessionId config plaintexts r P)
    (hlen : ∀ p ∈ plaintexts, p.length ≤ udpMaxMessageSize) (hfew : plaintexts.length < 2 ^ 64)
    {d : Delivery} (hsent : Sent plaintexts d) (hsentP : ∀ d' ∈ P, Sent plaintexts d')
    (hnodup : ((P ++ [d]).map Delivery.key).Nodup) (hadm : Admissible config plaintexts P d)
    {c : UdpSessionCrypto} (hsid : c.sessionId = sessionId) :
    ∃ r', r.push (deliveredFragment c plaintexts d) d.time =
        (r', .ok (((receive (fragmentCounts plaintexts) P d).2).map fun j => plaintexts.getD j [])) ∧
      Holds sessionId config plaintexts r' (P ++ [d]) := by
  have hj := hsent.1
  have hpl := hlen _ (Result.getD_mem hj [])
  have hkj := getD_fragmentCounts hj
  have hi := hsent.2
  rw [hkj] at hi
  have hk := fragmentCountOf_le hpl
  have hv := validateFragment_deliveredFragment hsent hpl c
  have htotal := totalLen_deliveredFragment hpl c
  have hsentPd := sent_append hsentP hsent
  -- what has arrived of the message before `d`
  have hupto : arrived P d.message + 1 ≤ fragmentCountOf (plaintexts.getD d.message []).length := by
    rw [← arrived_append_self, ← hkj]
    exact arrived_le hnodup hsentPd d.message
  have hreceive : (receive (fragmentCounts plaintexts) P d).2 =
      if arrived P d.message + 1 = fragmentCountOf (plaintexts.getD d.message []).length then
        some d.message else none := by
    simp only [receive, arrived_append_self, hkj]
  have hj64 : d.message < 2 ^ 64 := by omega
  have hkey := hr.lookup_eq (sessionId, d.message.toUInt64)
  rw [heldLookup_key P hj64] at hkey
  have hpart' : IsPartial (fragmentCounts plaintexts) (P ++ [d]) d.message ↔
      arrived P d.message + 1 < fragmentCountOf (plaintexts.getD d.message []).length := by
    simp only [IsPartial, arrived_append_self, hkj]
    omega
  by_cases hk1 : fragmentCountOf (plaintexts.getD d.message []).length = 1
  · -- a message of one fragment: handed out at once, the table untouched
    have h0 : arrived P d.message = 0 := by omega
    have hnot : ¬ IsPartial (fragmentCounts plaintexts) P d.message := by
      simp [IsPartial, h0]
    have hnot' : ¬ IsPartial (fragmentCounts plaintexts) (P ++ [d]) d.message := by
      rw [hpart']
      omega
    have hwhole : UdpSessionCrypto.fragmentBytes (plaintexts.getD d.message []) d.index =
        plaintexts.getD d.message [] := by
      have := UdpSessionCrypto.flatten_fragmentBytes (plaintexts.getD d.message [])
      rw [hk1] at this
      have hi0 : d.index = 0 := by omega
      rw [hi0]
      simpa using this
    have hpush : r.push (deliveredFragment c plaintexts d) d.time = (r, .ok (some _)) :=
      FragmentReassembler.push_single d.time hv
      (show (fragmentCountOf (plaintexts.getD d.message []).length).toUInt16 = 1 by rw [hk1]; rfl)
      (by rw [htotal]; exact congrArg List.length hwhole)
    refine ⟨r, ?_, hr.append hj rfl ?_ (fun _ _ => rfl) ?_ ?_⟩
    · rw [hpush, hreceive, if_pos (by omega)]
      simp only [Option.map_some, deliveredFragment, hwhole]
    · rw [hkey, heldLookup_key _ hj64, if_neg hnot, if_neg hnot']
    · rw [if_neg hnot, if_neg hnot']
    · rw [if_neg hnot, if_neg hnot']
  · -- a fragment of a message of several: it goes into the message's entry
    subst hsid
    have hmulti : (deliveredFragment c plaintexts d).header.fragmentCount ≠ 1 := by
      intro h
      have hcount := fragmentCount_deliveredFragment hsent hpl c
      rw [h, hkj] at hcount
      exact hk1 hcount.symm
    have hidx := fragmentIndex_deliveredFragment hsent hpl c
    have hsize : (deliveredFragment c plaintexts d).payload.length =
        fragmentSize plaintexts d.message d.index := length_payload_deliveredFragment c
    have hfresh : d.index ∉ indicesOf P d.message := by
      rw [mem_indicesOf]
      intro hmem
      rw [List.map_append, List.nodup_append] at hnodup
      exact hnodup.2.2 _ hmem _ (List.mem_singleton_self _) rfl
    have hheld0 : ¬ IsPartial (fragmentCounts plaintexts) P d.message →
        heldBytes (fragmentSize plaintexts) P d.message = 0 :=
      fun hp => heldBytes_of_not_isPartial hp (by omega)
    -- the entry the table holds for the message, or the one it opens
    let e : ReassemblyEntry := { heldEntry plaintexts P d.message with
      updatedAt := if IsPartial (fragmentCounts plaintexts) P d.message then lastTime P d.message
        else d.time }
    have he : (r.entries.lookup (c.sessionId, d.message.toUInt64)).getD
        (ReassemblyEntry.opened (deliveredFragment c plaintexts d).header d.time) = e := by
      rw [hkey]
      by_cases hp : IsPartial (fragmentCounts plaintexts) P d.message
      · simp only [hp, if_true, Option.getD_some, e]
        rfl
      · have h0 : arrived P d.message = 0 := by
          unfold IsPartial at hp
          rw [hkj] at hp
          omega
        simp only [hp, if_false, Option.getD_none, e]
        exact opened_eq_heldEntry hj hpl h0 c _ _ _
    have hroom : (c.sessionId, d.message.toUInt64) ∉ r.entries →
        r.entryCount < r.config.maxEntries := by
      intro hnotin
      have hnone := AList.lookup_eq_none.mpr hnotin
      rw [hkey] at hnone
      have hp : ¬ IsPartial (fragmentCounts plaintexts) P d.message := by
        intro hp
        rw [if_pos hp] at hnone
        cases hnone
      have hp' : IsPartial (fragmentCounts plaintexts) (P ++ [d]) d.message := by
        rw [hpart']
        unfold IsPartial at hp
        rw [hkj] at hp
        omega
      have hcount := partialCount_append P (show d.message < (fragmentCounts plaintexts).length by
        simpa using hj)
      rw [if_neg hp, if_pos hp'] at hcount
      have := hadm.entries
      rw [hr.entryCount_eq, hr.config_eq]
      omega
    have hsum : heldBytes (fragmentSize plaintexts) P d.message +
        fragmentSize plaintexts d.message d.index ≤ (plaintexts.getD d.message []).length := by
      rw [← heldBytes_append_self]
      exact heldBytes_le_length hnodup hsentPd hj
    have hbuf := hadm.bytes (by omega)
    have hmax : heldBytes (fragmentSize plaintexts) P d.message +
        fragmentSize plaintexts d.message d.index ≤ config.maxTotalBytes := by
      by_cases hp : IsPartial (fragmentCounts plaintexts) P d.message
      · have := heldBytes_le_bufferedBytes (fragmentSize plaintexts)
          (show d.message < (fragmentCounts plaintexts).length by simpa using hj) hp
        omega
      · rw [hheld0 hp]
        omega
    obtain ⟨r₁, hcfg, htb, hlk, hother, hcnt, hpush⟩ := FragmentReassembler.push_fresh hv hmulti
      (hr.fresh hadm.timely) he hroom
      (show ((fragmentCounts plaintexts).getD d.message 0).toUInt16 = _ by rw [hkj]; rfl) rfl
      (by
        show (heldEntry plaintexts P d.message).fragments.getD _ none = none
        rw [hidx, getD_fragments_heldEntry P hsent.2, if_neg hfresh])
      (by
        show heldBytes (fragmentSize plaintexts) P d.message + _ ≤
          (deliveredFragment c plaintexts d).header.totalLen.toNat
        rw [hsize, htotal]
        exact hsum)
      (by rw [hsize, hr.config_eq]; exact hmax)
      (by rw [hsize, hr.totalBytes_eq, hr.config_eq]; exact hbuf)
    have hstored : FragmentReassembler.storedEntry e d.index
        (UdpSessionCrypto.fragmentBytes (plaintexts.getD d.message []) d.index)
        (heldBytes (fragmentSize plaintexts) P d.message + fragmentSize plaintexts d.message d.index)
        d.time = heldEntry plaintexts (P ++ [d]) d.message :=
      storedEntry_heldEntry P d
    have hlk' : r₁.entries.lookup (c.sessionId, d.message.toUInt64) = some e := hlk
    have hother' : ∀ key, key ≠ (c.sessionId, d.message.toUInt64) →
        r₁.entries.lookup key = r.entries.lookup key := hother
    have hpush' : r.push (deliveredFragment c plaintexts d) d.time =
        r₁.store (c.sessionId, d.message.toUInt64) d.index
          (UdpSessionCrypto.fragmentBytes (plaintexts.getD d.message []) d.index)
          (heldBytes (fragmentSize plaintexts) P d.message +
            fragmentSize plaintexts d.message d.index) d.time := by
      rw [hpush, hidx, hsize]
      rfl
    have hcnt' : r₁.entryCount = if (c.sessionId, d.message.toUInt64) ∈ r.entries then
        r.entryCount else r.entryCount + 1 := hcnt
    have hmem₁ : (c.sessionId, d.message.toUInt64) ∈ r₁.entries :=
      AList.lookup_isSome.mp (by rw [hlk']; rfl)
    have hcount16 : ((fragmentCounts plaintexts).getD d.message 0).toUInt16.toNat =
        fragmentCountOf (plaintexts.getD d.message []).length := by
      rw [hkj, Nat.toUInt16_eq, UInt16.toNat_ofNat', Nat.mod_eq_of_lt (by omega)]
    have hkeyIff : (c.sessionId, d.message.toUInt64) ∈ r.entries ↔
        IsPartial (fragmentCounts plaintexts) P d.message := by
      rw [← AList.lookup_isSome, hkey]
      split_ifs with hp <;> simp [hp]
    have hsize' : (UdpSessionCrypto.fragmentBytes (plaintexts.getD d.message []) d.index).length =
        fragmentSize plaintexts d.message d.index := hsize
    rw [hpush']
    by_cases hlast : arrived P d.message + 1 = fragmentCountOf (plaintexts.getD d.message []).length
    · -- the last fragment: the message is handed out and its entry removed
      have hp : IsPartial (fragmentCounts plaintexts) P d.message := by
        unfold IsPartial
        rw [hkj]
        omega
      have hnp' : ¬ IsPartial (fragmentCounts plaintexts) (P ++ [d]) d.message := by
        rw [hpart']
        omega
      have hall : arrived (P ++ [d]) d.message = (fragmentCounts plaintexts).getD d.message 0 := by
        rw [arrived_append_self, hkj, hlast]
      obtain ⟨hfrags, hbytesAll⟩ := heldEntry_complete hj hnodup hsentPd hall
      have hparts : (e.fragments.set d.index
          (some (UdpSessionCrypto.fragmentBytes (plaintexts.getD d.message []) d.index))).mapM id =
          some ((List.range ((fragmentCounts plaintexts).getD d.message 0)).map
            (UdpSessionCrypto.fragmentBytes (plaintexts.getD d.message []))) := by
        have hset : e.fragments.set d.index
            (some (UdpSessionCrypto.fragmentBytes (plaintexts.getD d.message []) d.index)) =
            (heldEntry plaintexts (P ++ [d]) d.message).fragments := by
          rw [← hstored]
          rfl
        rw [hset, hfrags, mapM_id_map_some]
      rw [FragmentReassembler.store_complete hlk' (show arrived P d.message + 1 =
          ((fragmentCounts plaintexts).getD d.message 0).toUInt16.toNat by
          rw [hcount16]; exact hlast)
        (show _ = (deliveredFragment c plaintexts d).header.totalLen.toNat by
          rw [htotal, ← hbytesAll, heldBytes_append_self]) hparts]
      have hcnt₁ : r₁.entryCount = r.entryCount := by rw [hcnt', if_pos (hkeyIff.mpr hp)]
      have hheld := heldBytes_le_bufferedBytes (fragmentSize plaintexts)
        (show d.message < (fragmentCounts plaintexts).length by simpa using hj) hp
      rw [hstored, hreceive, if_pos hlast, Option.map_some, hkj,
        UdpSessionCrypto.flatten_fragmentBytes]
      refine ⟨_, rfl, hr.append hj hcfg ?_ ?_ ?_ ?_⟩
      · rw [AList.lookup_erase, heldLookup_key _ hj64, if_neg hnp']
      · intro key hk
        rw [AList.lookup_erase_ne hk, Table.lookup_replace, if_neg (fun h => hk h.1), hother' key hk]
      · -- the message leaves the table
        have hlen₁ := Table.length_erase_of_mem (AList.mem_replace.mpr hmem₁ :
          (c.sessionId, d.message.toUInt64) ∈ r₁.entries.replace (c.sessionId, d.message.toUInt64)
            (heldEntry plaintexts (P ++ [d]) d.message))
        rw [Table.length_replace] at hlen₁
        rw [if_pos hp, if_neg hnp']
        show ((r₁.entries.replace _ _).erase _).entries.length + 1 = r.entryCount + 0
        rw [hlen₁]
        exact hcnt₁
      · rw [if_pos hp, if_neg hnp']
        show r₁.totalBytes + _ - _ + _ = r.totalBytes + 0
        rw [htb, hr.totalBytes_eq, hsize']
        omega
    · -- a fragment that does not complete the message: it joins the entry
      have hp' : IsPartial (fragmentCounts plaintexts) (P ++ [d]) d.message :=
        hpart'.mpr (by omega)
      rw [FragmentReassembler.store_incomplete hlk' (show arrived P d.message + 1 ≠
          ((fragmentCounts plaintexts).getD d.message 0).toUInt16.toNat by
          rw [hcount16]; exact hlast), hstored, hreceive, if_neg hlast]
      refine ⟨_, rfl, hr.append hj hcfg ?_ ?_ ?_ ?_⟩
      · rw [Table.lookup_replace, if_pos ⟨rfl, hmem₁⟩, heldLookup_key _ hj64, if_pos hp']
      · intro key hk
        rw [Table.lookup_replace, if_neg (fun h => hk h.1), hother' key hk]
      · show (r₁.entries.replace _ _).entries.length + _ = _
        rw [Table.length_replace, if_pos hp']
        change r₁.entryCount + _ = _
        rw [hcnt']
        by_cases hp : IsPartial (fragmentCounts plaintexts) P d.message
        · rw [if_pos (hkeyIff.mpr hp), if_pos hp]
        · rw [if_neg (fun h => hp (hkeyIff.mp h)), if_neg hp]
      · show r₁.totalBytes + _ + _ = _
        rw [htb, if_pos hp', heldBytes_append_self, hsize']
        by_cases hp : IsPartial (fragmentCounts plaintexts) P d.message
        · rw [if_pos hp]
          omega
        · rw [if_neg hp, hheld0 hp]
          omega

end Push
end Ppaass.Udp
