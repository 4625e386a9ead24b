import Ppaass.Lib.BigEndian
import Ppaass.Lib.Result

/-!
# The native UDP datagram header

The constants of `udp_transport/mod.rs`, the errors of `error.rs`, and the
fixed 46-byte header of `header.rs`: `validate`, `encode` (whose bytes are the
AEAD associated data) and `decode`.

`validate_eq_ok_iff` says what `validate` accepts as the structure `Valid`.
The codec is a round trip both ways: `decode` reads back every header `encode`
writes, whatever follows it (`decode_encode`), and every header `decode`
accepts is written back as the 46 bytes it was read from (`encode_decode`).
-/

namespace Ppaass.Udp

open Ppaass.BigEndian

-- ---------------------------------------------------------------------------
-- Constants
-- ---------------------------------------------------------------------------

/-- `UDP_TRANSPORT_MAGIC`, the bytes `PUDP`. -/
def udpTransportMagic : Vector UInt8 4 := #v[0x50, 0x55, 0x44, 0x50]

def udpTransportVersion : UInt8 := 1

def udpMaxDatagramSize : Nat := 1351

def udpTransportHeaderLen : Nat := 46

def udpAeadTagLen : Nat := 16

def udpMaxFragmentPlaintext : Nat :=
  udpMaxDatagramSize - udpTransportHeaderLen - udpAeadTagLen

def udpMaxMessageSize : Nat := 70 * 1024

def udpMaxFragments : Nat := 64

theorem udpMaxFragmentPlaintext_eq : udpMaxFragmentPlaintext = 1289 := rfl
theorem udpMaxMessageSize_eq : udpMaxMessageSize = 71680 := rfl
theorem udpTransportHeaderLen_eq : udpTransportHeaderLen = 46 := rfl

abbrev UdpSessionId := Vector UInt8 16

-- ---------------------------------------------------------------------------
-- Errors and packet kinds
-- ---------------------------------------------------------------------------

/-- `UdpTransportError`, without `KeyDerivation`, which only key derivation
returns. -/
inductive UdpTransportError where
  | datagramTooLarge (size : Nat)
  | datagramTooShort (size : Nat)
  | invalidMagic
  | unsupportedVersion (version : UInt8)
  | invalidPacketKind (kind : UInt8)
  | unexpectedPacketKind (expected actual : UInt8)
  | invalidHeader (reason : String)
  | messageTooLarge (size : Nat)
  | tooManyFragments (count : Nat)
  | wrongSession
  | authenticationFailed
  | encryptionFailed
  | replayRejected
  | sequenceExhausted
  | messageIdExhausted
  | conflictingFragment
  | reassemblyLimit (reason : String)
  | inconsistentReassemblyState (reason : String)
  | serialization (message : String)
  deriving DecidableEq, Repr

inductive UdpPacketKind where
  | authInit
  | authOk
  | encrypted
  deriving DecidableEq, Repr

namespace UdpPacketKind

/-- The `#[repr(u8)]` discriminant. -/
def toU8 : UdpPacketKind → UInt8
  | authInit => 1
  | authOk => 2
  | encrypted => 3

/-- `TryFrom<u8> for UdpPacketKind`. -/
def tryFrom (value : UInt8) : Except UdpTransportError UdpPacketKind :=
  match value with
  | 1 => .ok authInit
  | 2 => .ok authOk
  | 3 => .ok encrypted
  | _ => .error (.invalidPacketKind value)

@[simp] theorem tryFrom_toU8 (kind : UdpPacketKind) : tryFrom kind.toU8 = .ok kind := by
  cases kind <;> rfl

theorem toU8_injective {kind kind' : UdpPacketKind} (h : kind.toU8 = kind'.toU8) :
    kind = kind' := by
  cases kind <;> cases kind' <;> first | rfl | cases h

theorem toU8_of_tryFrom {value : UInt8} {kind : UdpPacketKind} (h : tryFrom value = .ok kind) :
    kind.toU8 = value := by
  unfold tryFrom at h
  split at h <;> cases h <;> rfl

end UdpPacketKind

-- ---------------------------------------------------------------------------
-- The header
-- ---------------------------------------------------------------------------

structure UdpPacketHeader where
  magic : Vector UInt8 4
  version : UInt8
  kind : UdpPacketKind
  sessionId : UdpSessionId
  seq : UInt64
  messageId : UInt64
  fragmentIndex : UInt16
  fragmentCount : UInt16
  totalLen : UInt32
  deriving DecidableEq, Repr

namespace UdpPacketHeader

def new (kind : UdpPacketKind) (sessionId : UdpSessionId) (seq messageId : UInt64)
    (fragmentIndex fragmentCount : UInt16) (totalLen : UInt32) : UdpPacketHeader :=
  { magic := udpTransportMagic, version := udpTransportVersion, kind, sessionId, seq,
    messageId, fragmentIndex, fragmentCount, totalLen }

/-- The largest `total_len` a packet of this kind may declare. -/
def maxTotalLen : UdpPacketKind → Nat
  | .encrypted => udpMaxMessageSize
  | .authInit | .authOk => udpMaxDatagramSize - udpTransportHeaderLen

def validate (h : UdpPacketHeader) : Except UdpTransportError Unit :=
  if h.magic ≠ udpTransportMagic then .error .invalidMagic
  else if h.version ≠ udpTransportVersion then .error (.unsupportedVersion h.version)
  else if h.kind ≠ .encrypted ∧ (h.seq ≠ 0 ∨ h.messageId ≠ 0 ∨ h.fragmentIndex ≠ 0 ∨
      h.fragmentCount ≠ 1) then
    .error (.invalidHeader "authentication packets cannot be sequenced or fragmented")
  else
    let count := h.fragmentCount.toNat
    let index := h.fragmentIndex.toNat
    let totalLen := h.totalLen.toNat
    if count = 0 then .error (.invalidHeader "fragment_count must be non-zero")
    else if count > udpMaxFragments then .error (.tooManyFragments count)
    else if index ≥ count then
      .error (.invalidHeader "fragment_index is outside fragment_count")
    else if totalLen > maxTotalLen h.kind then .error (.messageTooLarge totalLen)
    else if totalLen = 0 ∧ count ≠ 1 then
      .error (.invalidHeader "an empty message must have exactly one fragment")
    else if totalLen > 0 ∧ count > totalLen then
      .error (.invalidHeader "non-empty fragments cannot outnumber plaintext bytes")
    else if h.kind = .encrypted ∧ totalLen > count * udpMaxFragmentPlaintext then
      .error (.invalidHeader "fragment_count cannot carry total_len")
    else .ok ()

/-- The 46 bytes `encode` writes, fields in order, integers big-endian. -/
def headerBytes (h : UdpPacketHeader) : List UInt8 :=
  h.magic.toList ++ [h.version, h.kind.toU8] ++ h.sessionId.toList ++
    fixedBytes 8 h.seq.toNat ++ fixedBytes 8 h.messageId.toNat ++
    fixedBytes 2 h.fragmentIndex.toNat ++ fixedBytes 2 h.fragmentCount.toNat ++
    fixedBytes 4 h.totalLen.toNat

def encode (h : UdpPacketHeader) : Except UdpTransportError (List UInt8) := do
  h.validate
  pure h.headerBytes

end UdpPacketHeader

/-- `read_header_field::<N>`. The `checked_add` of the source cannot overflow
at the offsets the header uses. -/
def readHeaderField (bytes : List UInt8) (start n : Nat) :
    Except UdpTransportError (Vector UInt8 n) :=
  if h : start + n ≤ bytes.length then
    .ok ⟨((bytes.drop start).take n).toArray, by simp; omega⟩
  else .error (.datagramTooShort bytes.length)

namespace UdpPacketHeader

/-- `UdpPacketHeader::decode`; `u64::from_be_bytes` and its narrower kin read
the field as a big-endian number. -/
def decode (bytes : List UInt8) : Except UdpTransportError UdpPacketHeader :=
  if bytes.length < udpTransportHeaderLen then .error (.datagramTooShort bytes.length)
  else do
    let magic ← readHeaderField bytes 0 4
    let kind ← UdpPacketKind.tryFrom (bytes.getD 5 0)
    let sessionId ← readHeaderField bytes 6 16
    let seq ← readHeaderField bytes 22 8
    let messageId ← readHeaderField bytes 30 8
    let fragmentIndex ← readHeaderField bytes 38 2
    let fragmentCount ← readHeaderField bytes 40 2
    let totalLen ← readHeaderField bytes 42 4
    let header : UdpPacketHeader :=
      { magic, version := bytes.getD 4 0, kind, sessionId,
        seq := UInt64.ofNat (ofBytes seq.toList),
        messageId := UInt64.ofNat (ofBytes messageId.toList),
        fragmentIndex := UInt16.ofNat (ofBytes fragmentIndex.toList),
        fragmentCount := UInt16.ofNat (ofBytes fragmentCount.toList),
        totalLen := UInt32.ofNat (ofBytes totalLen.toList) }
    header.validate
    pure header

end UdpPacketHeader

-- ---------------------------------------------------------------------------
-- What `validate` accepts
-- ---------------------------------------------------------------------------

namespace UdpPacketHeader

/-- The headers `validate` accepts. -/
structure Valid (h : UdpPacketHeader) : Prop where
  magic_eq : h.magic = udpTransportMagic
  version_eq : h.version = udpTransportVersion
  unsequenced : h.kind ≠ .encrypted →
    h.seq = 0 ∧ h.messageId = 0 ∧ h.fragmentIndex = 0 ∧ h.fragmentCount = 1
  count_pos : 0 < h.fragmentCount.toNat
  count_le : h.fragmentCount.toNat ≤ udpMaxFragments
  index_lt : h.fragmentIndex.toNat < h.fragmentCount.toNat
  totalLen_le : h.totalLen.toNat ≤ maxTotalLen h.kind
  empty_single : h.totalLen.toNat = 0 → h.fragmentCount.toNat = 1
  count_le_totalLen : 0 < h.totalLen.toNat → h.fragmentCount.toNat ≤ h.totalLen.toNat
  carries : h.kind = .encrypted → h.totalLen.toNat ≤ h.fragmentCount.toNat * udpMaxFragmentPlaintext

theorem validate_eq_ok_iff (h : UdpPacketHeader) : h.validate = .ok () ↔ h.Valid := by
  simp only [validate]
  split_ifs with hm hv hk hc0 hcmax hidx hlen hempty hcount hcarry
  · simp only [false_iff]
    exact fun hV => hm hV.magic_eq
  · simp only [false_iff]
    exact fun hV => hv hV.version_eq
  · simp only [false_iff]
    intro hV
    obtain ⟨hs, hi, hx, hc⟩ := hV.unsequenced hk.1
    rcases hk.2 with h' | h' | h' | h' <;> contradiction
  · simp only [false_iff]
    exact fun hV => absurd hV.count_pos (by omega)
  · simp only [false_iff]
    exact fun hV => absurd hV.count_le (by omega)
  · simp only [false_iff]
    exact fun hV => absurd hV.index_lt (by omega)
  · simp only [false_iff]
    exact fun hV => absurd hV.totalLen_le (by omega)
  · simp only [false_iff]
    exact fun hV => hempty.2 (hV.empty_single hempty.1)
  · simp only [false_iff]
    exact fun hV => absurd (hV.count_le_totalLen hcount.1) (by omega)
  · simp only [false_iff]
    exact fun hV => absurd (hV.carries hcarry.1) (by omega)
  · simp only [true_iff]
    refine ⟨not_not.mp hm, not_not.mp hv, fun hne => ?_, by omega, by omega, by omega,
      by omega, fun h0 => ?_, fun hpos => ?_, fun henc => ?_⟩
    · simp only [ne_eq, not_and, not_or, not_not] at hk
      exact hk hne
    · exact not_not.mp (not_and.mp hempty h0)
    · exact Nat.le_of_not_lt (not_and.mp hcount hpos)
    · exact Nat.le_of_not_lt (not_and.mp hcarry henc)

theorem encode_eq_ok_iff (h : UdpPacketHeader) (bytes : List UInt8) :
    h.encode = .ok bytes ↔ h.Valid ∧ h.headerBytes = bytes := by
  rw [encode, Result.bind_eq_ok, ← validate_eq_ok_iff]
  constructor
  · rintro ⟨⟨⟩, hv, hb⟩
    exact ⟨hv, Except.ok.inj hb⟩
  · rintro ⟨hv, rfl⟩
    exact ⟨(), hv, rfl⟩

@[simp] theorem length_headerBytes (h : UdpPacketHeader) :
    h.headerBytes.length = udpTransportHeaderLen := by
  simp [headerBytes, udpTransportHeaderLen]

end UdpPacketHeader

-- ---------------------------------------------------------------------------
-- The codec
-- ---------------------------------------------------------------------------

theorem readHeaderField_eq_ok {bytes : List UInt8} {start n : Nat}
    (h : start + n ≤ bytes.length) :
    ∃ v : Vector UInt8 n, readHeaderField bytes start n = .ok v ∧
      v.toList = (bytes.drop start).take n := by
  refine ⟨_, dif_pos h, ?_⟩
  simp

theorem ofNat_ofBytes_eq_iff64 {l : List UInt8} (hl : l.length = 8) (x : UInt64) :
    UInt64.ofNat (ofBytes l) = x ↔ fixedBytes 8 x.toNat = l := by
  have hlt : ofBytes l < 2 ^ 64 := by simpa [hl] using ofBytes_lt l
  rw [fixedBytes_eq_iff (by simpa using x.toNat_lt) hl, ← UInt64.toNat_inj,
    UInt64.toNat_ofNat', Nat.mod_eq_of_lt hlt, eq_comm]

theorem ofNat_ofBytes_eq_iff32 {l : List UInt8} (hl : l.length = 4) (x : UInt32) :
    UInt32.ofNat (ofBytes l) = x ↔ fixedBytes 4 x.toNat = l := by
  have hlt : ofBytes l < 2 ^ 32 := by simpa [hl] using ofBytes_lt l
  rw [fixedBytes_eq_iff (by simpa using x.toNat_lt) hl, ← UInt32.toNat_inj,
    UInt32.toNat_ofNat', Nat.mod_eq_of_lt hlt, eq_comm]

theorem ofNat_ofBytes_eq_iff16 {l : List UInt8} (hl : l.length = 2) (x : UInt16) :
    UInt16.ofNat (ofBytes l) = x ↔ fixedBytes 2 x.toNat = l := by
  have hlt : ofBytes l < 2 ^ 16 := by simpa [hl] using ofBytes_lt l
  rw [fixedBytes_eq_iff (by simpa using x.toNat_lt) hl, ← UInt16.toNat_inj,
    UInt16.toNat_ofNat', Nat.mod_eq_of_lt hlt, eq_comm]

/-- The version and kind bytes as a two-byte slice. -/
theorem pair_eq_slice_iff {b : List UInt8} (hb : 6 ≤ b.length) (x y : UInt8) :
    [x, y] = (b.drop 4).take 2 ↔ x = b.getD 4 0 ∧ y = b.getD 5 0 := by
  have hd : 2 ≤ (b.drop 4).length := by simp; omega
  have h4 : b.getD 4 0 = (b.drop 4).getD 0 0 := by simp
  have h5 : b.getD 5 0 = (b.drop 4).getD 1 0 := by simp
  rw [h4, h5]
  generalize b.drop 4 = d at hd ⊢
  match d, hd with
  | c4 :: c5 :: post, _ => simp

namespace UdpPacketHeader

/-- The bytes of a header, field by field, against the first 46 bytes of a
datagram. -/
theorem headerBytes_eq_take_iff (h : UdpPacketHeader) {b : List UInt8}
    (hb : udpTransportHeaderLen ≤ b.length) :
    h.headerBytes = b.take udpTransportHeaderLen ↔
      h.magic.toList = b.take 4 ∧ [h.version, h.kind.toU8] = (b.drop 4).take 2 ∧
      h.sessionId.toList = (b.drop 6).take 16 ∧
      fixedBytes 8 h.seq.toNat = (b.drop 22).take 8 ∧
      fixedBytes 8 h.messageId.toNat = (b.drop 30).take 8 ∧
      fixedBytes 2 h.fragmentIndex.toNat = (b.drop 38).take 2 ∧
      fixedBytes 2 h.fragmentCount.toNat = (b.drop 40).take 2 ∧
      fixedBytes 4 h.totalLen.toNat = (b.drop 42).take 4 := by
  rw [udpTransportHeaderLen_eq] at hb ⊢
  rw [headerBytes,
    append_eq_take_iff (by simp) (by simp) (by rfl : 42 + 4 = 46) hb,
    append_eq_take_iff (by simp) (by simp) (by rfl : 40 + 2 = 42) (by omega),
    append_eq_take_iff (by simp) (by simp) (by rfl : 38 + 2 = 40) (by omega),
    append_eq_take_iff (by simp) (by simp) (by rfl : 30 + 8 = 38) (by omega),
    append_eq_take_iff (by simp) (by simp) (by rfl : 22 + 8 = 30) (by omega),
    append_eq_take_iff (by simp) (by simp) (by rfl : 6 + 16 = 22) (by omega),
    append_eq_take_iff (by simp) (by simp) (by rfl : 4 + 2 = 6) (by omega)]
  simp only [and_assoc]

/-- What `decode` accepts: a datagram of at least 46 bytes whose first 46 are
the bytes of a valid header, which is the result. -/
theorem decode_eq_ok_iff (bytes : List UInt8) (h : UdpPacketHeader) :
    decode bytes = .ok h ↔ udpTransportHeaderLen ≤ bytes.length ∧ h.Valid ∧
      h.headerBytes = bytes.take udpTransportHeaderLen := by
  by_cases hshort : bytes.length < udpTransportHeaderLen
  · simp only [decode, if_pos hshort, reduceCtorEq, false_iff]
    exact fun hh => absurd hh.1 (by omega)
  have hlen : udpTransportHeaderLen ≤ bytes.length := Nat.le_of_not_lt hshort
  have h46 : 46 ≤ bytes.length := hlen
  obtain ⟨magic, hmagic, hmagicL⟩ := readHeaderField_eq_ok (show 0 + 4 ≤ bytes.length by omega)
  obtain ⟨sid, hsid, hsidL⟩ := readHeaderField_eq_ok (show 6 + 16 ≤ bytes.length by omega)
  obtain ⟨seq, hseq, hseqL⟩ := readHeaderField_eq_ok (show 22 + 8 ≤ bytes.length by omega)
  obtain ⟨mid, hmid, hmidL⟩ := readHeaderField_eq_ok (show 30 + 8 ≤ bytes.length by omega)
  obtain ⟨idx, hidx, hidxL⟩ := readHeaderField_eq_ok (show 38 + 2 ≤ bytes.length by omega)
  obtain ⟨cnt, hcnt, hcntL⟩ := readHeaderField_eq_ok (show 40 + 2 ≤ bytes.length by omega)
  obtain ⟨tl, htl, htlL⟩ := readHeaderField_eq_ok (show 42 + 4 ≤ bytes.length by omega)
  rw [headerBytes_eq_take_iff h hlen, pair_eq_slice_iff (by omega)]
  simp only [decode, if_neg hshort, hmagic, hsid, hseq, hmid, hidx, hcnt, htl, Result.ok_bind]
  cases hkind : UdpPacketKind.tryFrom (bytes.getD 5 0) with
  | error e =>
    simp only [Result.error_bind, reduceCtorEq, false_iff]
    rintro ⟨-, -, -, ⟨-, hk⟩, -⟩
    rw [← hk, UdpPacketKind.tryFrom_toU8] at hkind
    cases hkind
  | ok kind =>
    -- the decoded header, field by field against the slices it was read from
    have hfields : ∀ h' : UdpPacketHeader, h'.kind = kind →
        ((⟨magic, bytes.getD 4 0, kind, sid, UInt64.ofNat (ofBytes seq.toList),
          UInt64.ofNat (ofBytes mid.toList), UInt16.ofNat (ofBytes idx.toList),
          UInt16.ofNat (ofBytes cnt.toList), UInt32.ofNat (ofBytes tl.toList)⟩ :
          UdpPacketHeader) = h' ↔
        h'.magic.toList = bytes.take 4 ∧ h'.version = bytes.getD 4 0 ∧
          h'.sessionId.toList = (bytes.drop 6).take 16 ∧
          fixedBytes 8 h'.seq.toNat = (bytes.drop 22).take 8 ∧
          fixedBytes 8 h'.messageId.toNat = (bytes.drop 30).take 8 ∧
          fixedBytes 2 h'.fragmentIndex.toNat = (bytes.drop 38).take 2 ∧
          fixedBytes 2 h'.fragmentCount.toNat = (bytes.drop 40).take 2 ∧
          fixedBytes 4 h'.totalLen.toNat = (bytes.drop 42).take 4) := by
      rintro ⟨m', v', k', s', q', i', x', c', t'⟩ (hk : k' = kind)
      subst hk
      have hq := ofNat_ofBytes_eq_iff64 (show ((bytes.drop 22).take 8).length = 8 by simp; omega) q'
      have hi := ofNat_ofBytes_eq_iff64 (show ((bytes.drop 30).take 8).length = 8 by simp; omega) i'
      have hx := ofNat_ofBytes_eq_iff16 (show ((bytes.drop 38).take 2).length = 2 by simp; omega) x'
      have hc := ofNat_ofBytes_eq_iff16 (show ((bytes.drop 40).take 2).length = 2 by simp; omega) c'
      have ht := ofNat_ofBytes_eq_iff32 (show ((bytes.drop 42).take 4).length = 4 by simp; omega) t'
      simp only [UdpPacketHeader.mk.injEq, true_and, ← Vector.toList_inj, hmagicL, hsidL,
        List.drop_zero, hseqL, hmidL, hidxL, hcntL, htlL, hq, hi, hx, hc, ht]
      constructor
      · rintro ⟨hm, hv, hs, hq, hi, hx, hc, ht⟩
        exact ⟨hm.symm, hv.symm, hs.symm, hq, hi, hx, hc, ht⟩
      · rintro ⟨hm, hv, hs, hq, hi, hx, hc, ht⟩
        exact ⟨hm.symm, hv.symm, hs.symm, hq, hi, hx, hc, ht⟩
    simp only [Result.ok_bind, Result.bind_eq_ok, pure, Except.pure, Except.ok.injEq]
    constructor
    · rintro ⟨⟨⟩, hv, heq⟩
      have hk : h.kind = kind := by rw [← heq]
      obtain ⟨hm, hver, hs, hq, hi, hx, hc, ht⟩ := (hfields h hk).mp heq
      rw [validate_eq_ok_iff, heq] at hv
      exact ⟨hlen, hv, hm, ⟨hver, by rw [hk, UdpPacketKind.toU8_of_tryFrom hkind]⟩, hs, hq, hi, hx,
        hc, ht⟩
    · rintro ⟨-, hv, hm, ⟨hver, hk⟩, hs, hq, hi, hx, hc, ht⟩
      have hk' : h.kind = kind := UdpPacketKind.toU8_injective
        (by rw [hk, UdpPacketKind.toU8_of_tryFrom hkind])
      have heq := (hfields h hk').mpr ⟨hm, hver, hs, hq, hi, hx, hc, ht⟩
      exact ⟨(), by rw [validate_eq_ok_iff, heq]; exact hv, heq⟩
theorem decode_encode {h : UdpPacketHeader} {bytes : List UInt8} (henc : h.encode = .ok bytes)
    (rest : List UInt8) : decode (bytes ++ rest) = .ok h := by
  obtain ⟨hv, rfl⟩ := (encode_eq_ok_iff h bytes).mp henc
  rw [decode_eq_ok_iff, List.take_left' (length_headerBytes h)]
  exact ⟨by simp, hv, rfl⟩

theorem encode_decode {bytes : List UInt8} {h : UdpPacketHeader} (hdec : decode bytes = .ok h) :
    h.encode = .ok (bytes.take udpTransportHeaderLen) := by
  obtain ⟨-, hv, hb⟩ := (decode_eq_ok_iff bytes h).mp hdec
  exact (encode_eq_ok_iff h _).mpr ⟨hv, hb⟩

end UdpPacketHeader

end Ppaass.Udp
