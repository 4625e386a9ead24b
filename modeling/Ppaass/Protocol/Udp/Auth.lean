import Ppaass.Protocol.Udp.Crypto

/-!
# Cleartext authentication packets

`encode_auth_packet` of `udp_transport/auth.rs` writes an unsequenced,
unfragmented header in front of the bitcode of an AuthInit or an AuthOk.
bitcode is not under `src/`: the serializer is a parameter, and what it
answers decides only whether its error is passed on.

The header codec is a bijection between the valid headers and their 46 bytes
(`UdpPacketHeader.decode_encode`, `UdpPacketHeader.encode_decode`), and
every header the code builds for its own datagrams is valid: the fragment
headers of `seal_message` (`fragmentHeader_valid`) and the header of an auth
packet whose datagram fits (`authHeader_valid`). So `header.encode()?` never
fails in either encoder, and `encode_auth_packet` fails only on a serializer
error or an oversized datagram (`encodeAuthPacket_eq_error`).
-/

namespace Ppaass.Udp

/-- `encode_auth_packet`. -/
def encodeAuthPacket {α : Type} (serialize : α → Except String (List UInt8))
    (kind : UdpPacketKind) (sessionId : UdpSessionId) (value : α) :
    Except UdpTransportError (List UInt8) := do
  let payload ← (serialize value).mapError .serialization
  let datagramLen := udpTransportHeaderLen + payload.length
  if datagramLen > udpMaxDatagramSize then throw (.datagramTooLarge datagramLen)
  let header := UdpPacketHeader.new kind sessionId 0 0 0 1 payload.length.toUInt32
  let headerBytes ← header.encode
  pure (headerBytes ++ payload)

/-- `encode_auth_init`. -/
def encodeAuthInit {α : Type} (serialize : α → Except String (List UInt8))
    (sessionId : UdpSessionId) (auth : α) : Except UdpTransportError (List UInt8) :=
  encodeAuthPacket serialize .authInit sessionId auth

/-- `encode_auth_ok`. -/
def encodeAuthOk {α : Type} (serialize : α → Except String (List UInt8))
    (sessionId : UdpSessionId) (auth : α) : Except UdpTransportError (List UInt8) :=
  encodeAuthPacket serialize .authOk sessionId auth

/-- The header of an auth packet whose datagram fits is valid: the kinds
`encode_auth_packet` is called with may carry up to a datagram's payload,
in one unsequenced fragment. -/
theorem authHeader_valid {kind : UdpPacketKind} (hkind : kind ≠ .encrypted)
    (sessionId : UdpSessionId) {len : Nat}
    (hlen : udpTransportHeaderLen + len ≤ udpMaxDatagramSize) :
    (UdpPacketHeader.new kind sessionId 0 0 0 1 len.toUInt32).Valid := by
  have htotal : len.toUInt32.toNat = len := by
    simp only [udpTransportHeaderLen, udpMaxDatagramSize] at hlen
    simp
    omega
  have hmax : len ≤ UdpPacketHeader.maxTotalLen kind := by
    cases kind with
    | encrypted => exact absurd rfl hkind
    | authInit | authOk =>
      simp only [UdpPacketHeader.maxTotalLen]
      omega
  refine ⟨rfl, rfl, fun _ => ⟨rfl, rfl, rfl, rfl⟩, ?_, ?_, ?_, ?_, fun _ => rfl, fun hpos => ?_,
    fun henc => absurd henc hkind⟩
  · show 0 < (1 : UInt16).toNat
    decide
  · show (1 : UInt16).toNat ≤ udpMaxFragments
    decide
  · show (0 : UInt16).toNat < (1 : UInt16).toNat
    decide
  · show len.toUInt32.toNat ≤ UdpPacketHeader.maxTotalLen kind
    rw [htotal]
    exact hmax
  · show (1 : UInt16).toNat ≤ len.toUInt32.toNat
    change 0 < len.toUInt32.toNat at hpos
    simp only [UInt16.reduceToNat]
    omega

variable {α : Type} {serialize : α → Except String (List UInt8)} {kind : UdpPacketKind}
  {sessionId : UdpSessionId} {value : α}

/-- An auth packet whose payload serializes and fits is its header's bytes,
then the payload. -/
theorem encodeAuthPacket_eq_ok (hkind : kind ≠ .encrypted) {payload : List UInt8}
    (hser : serialize value = .ok payload)
    (hfits : udpTransportHeaderLen + payload.length ≤ udpMaxDatagramSize) :
    encodeAuthPacket serialize kind sessionId value =
      .ok ((UdpPacketHeader.new kind sessionId 0 0 0 1 payload.length.toUInt32).headerBytes ++
        payload) := by
  have henc := (UdpPacketHeader.encode_eq_ok_iff _ _).mpr
    ⟨authHeader_valid hkind sessionId hfits, rfl⟩
  simp only [encodeAuthPacket, hser, Except.mapError, Result.ok_bind, Nat.not_lt.mpr hfits,
    if_false, henc]
  rfl

/-- The only ways `encode_auth_packet` fails: the serializer fails, or the
datagram would be too large. -/
theorem encodeAuthPacket_eq_error (hkind : kind ≠ .encrypted) {e : UdpTransportError}
    (h : encodeAuthPacket serialize kind sessionId value = .error e) :
    (∃ msg, serialize value = .error msg ∧ e = .serialization msg) ∨
      ∃ payload, serialize value = .ok payload ∧
        udpMaxDatagramSize < udpTransportHeaderLen + payload.length ∧
        e = .datagramTooLarge (udpTransportHeaderLen + payload.length) := by
  cases hser : serialize value with
  | error msg =>
    simp only [encodeAuthPacket, hser, Except.mapError, Result.error_bind] at h
    exact .inl ⟨msg, rfl, (Except.error.inj h).symm⟩
  | ok payload =>
    by_cases hfits : udpTransportHeaderLen + payload.length ≤ udpMaxDatagramSize
    · rw [encodeAuthPacket_eq_ok hkind hser hfits] at h
      cases h
    · simp only [encodeAuthPacket, hser, Except.mapError, Result.ok_bind,
        if_pos (Nat.lt_of_not_le hfits)] at h
      exact .inr ⟨payload, rfl, Nat.lt_of_not_le hfits, (Except.error.inj h).symm⟩

/-- The header codec is a bijection between the valid headers and the first
46 bytes of the datagrams that decode, and the encoders only build valid
headers: each fragment header of `seal_message` for a message within the
size limit, and the header of every auth packet whose payload serializes
and fits, which `encode_auth_packet` then writes in front of the payload. -/
theorem header_codec_bijective :
    (∀ h : UdpPacketHeader, h.validate = .ok () →
      ∃ b, h.encode = .ok b ∧ UdpPacketHeader.decode b = .ok h) ∧
    (∀ (x : List UInt8) (h : UdpPacketHeader), udpTransportHeaderLen ≤ x.length →
      UdpPacketHeader.decode x = .ok h → h.encode = .ok (x.take udpTransportHeaderLen)) ∧
    (∀ (c : UdpSessionCrypto) (messageId : UInt64) (plaintext : List UInt8) (i : Nat),
      plaintext.length ≤ udpMaxMessageSize → i < fragmentCountOf plaintext.length →
      (UdpSessionCrypto.fragmentHeader c messageId plaintext i).validate = .ok ()) ∧
    (∀ (serialize : α → Except String (List UInt8)) (kind : UdpPacketKind)
      (sessionId : UdpSessionId) (value : α) (payload : List UInt8),
      kind ≠ .encrypted → serialize value = .ok payload →
      udpTransportHeaderLen + payload.length ≤ udpMaxDatagramSize →
      (UdpPacketHeader.new kind sessionId 0 0 0 1 payload.length.toUInt32).validate = .ok () ∧
      encodeAuthPacket serialize kind sessionId value =
        .ok ((UdpPacketHeader.new kind sessionId 0 0 0 1 payload.length.toUInt32).headerBytes ++
          payload)) := by
  refine ⟨fun h hv => ?_, fun x h _ hdec => UdpPacketHeader.encode_decode hdec, ?_, ?_⟩
  · -- a valid header encodes to its bytes, which decode to it with nothing after them
    have henc : h.encode = .ok h.headerBytes :=
      (UdpPacketHeader.encode_eq_ok_iff h _).mpr ⟨(UdpPacketHeader.validate_eq_ok_iff h).mp hv, rfl⟩
    refine ⟨h.headerBytes, henc, ?_⟩
    simpa using UdpPacketHeader.decode_encode henc []
  · intro c messageId plaintext i hlen hi
    exact (UdpPacketHeader.validate_eq_ok_iff _).mpr (fragmentHeader_valid hlen hi _ _ _)
  · intro serialize kind sessionId value payload hkind hser hfits
    exact ⟨(UdpPacketHeader.validate_eq_ok_iff _).mpr (authHeader_valid hkind sessionId hfits),
      encodeAuthPacket_eq_ok hkind hser hfits⟩

end Ppaass.Udp
