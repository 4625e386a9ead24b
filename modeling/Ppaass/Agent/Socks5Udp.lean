import Mathlib
import Ppaass.Protocol.Udp.Header

/-!
# The SOCKS5 UDP datagram header

A SOCKS5 UDP datagram is `RSV(2) FRAG(1) ATYP(1) DST.ADDR DST.PORT DATA`.
`create_udp_packet` of `socks5_handler/udp_associate.rs` writes one for a
reply, and the loop of `process_udp_traffic` reads one per received datagram:
it skips datagrams shorter than 10 bytes or with a non-zero RSV or FRAG, and
then reads the address with `parse_udp_address`, the payload being what
follows it.

`Address` is the protocol crate's. A Rust `String` is a Lean `String`, both
being valid UTF-8; `String::from_utf8_lossy` decodes valid bytes exactly and
replaces each invalid sequence by U+FFFD, which the parameter `lossy` stands
for: no result here depends on it.

The header codec round-trips for every address the encoder accepts
(`parseUdpAddress_createUdpPacket`), and what the parser accepts is the
encoder's bytes whenever its domain bytes are UTF-8
(`createUdpPacket_of_parseUdpAddress`). The parser panics on one input, a
lone domain ATYP byte, which the ingress never passes it
(`parseUdpAddress_eq_none_iff`, `udpIngress_ne_none`). The ingress recovers
the target and payload of the encoder's datagrams exactly when they have at
least 10 bytes (`udpIngress_createUdpPacket`): every IPv4 and IPv6 datagram,
and the domain datagrams whose host and payload have 3 bytes or more
together (`udpIngress_createUdpPacket_eq_none`). The shorter domain datagrams
are well formed but dropped (`short_domain_datagram_dropped`).
-/

namespace Ppaass.Agent

open Ppaass.BigEndian

/-- `Address` of the protocol crate; `[u8; N]` is a `Vector UInt8 N`. -/
inductive Address where
  | domain (host : String) (port : UInt16)
  | ipv4 (addr : Vector UInt8 4) (port : UInt16)
  | ipv6 (addr : Vector UInt8 16) (port : UInt16)
  | proxyDns (port : UInt16)
  | udpRelay
  deriving DecidableEq

/-- `AgentError`, of which this path raises only `Socks5`. -/
inductive AgentError where
  | socks5 (msg : String)
  deriving DecidableEq

/-- `String::as_bytes`. -/
def asBytes (s : String) : List UInt8 := s.toByteArray.data.toList

/-- `String::from_utf8_lossy(bytes).to_string()`: the string of valid UTF-8
bytes, and `lossy` of the others. -/
def fromUtf8Lossy (lossy : List UInt8 → String) (bytes : List UInt8) : String :=
  (String.fromUTF8? ⟨bytes.toArray⟩).getD (lossy bytes)

/-- `u16::from_be_bytes([buf[i], buf[i + 1]])`, at an index the caller has
checked. -/
def readPort (buf : List UInt8) (i : Nat) : UInt16 := UInt16.ofNat (ofBytes ((buf.drop i).take 2))

/-- `parse_udp_address`: the address and the length of the ATYP/ADDR/PORT
header it read. `none` is the panic of `buf[1]` on a domain header of one
byte, the only index the function does not check. -/
def parseUdpAddress (lossy : List UInt8 → String) (buf : List UInt8) :
    Option (Except AgentError (Address × Nat)) :=
  match buf with
  | [] => some (.error (.socks5 "无效的 UDP 头部"))
  | atyp :: _ =>
    if atyp = 1 then
      if h : buf.length < 7 then some (.error (.socks5 "无效的 IPv4 地址"))
      else
        let ipBytes : Vector UInt8 4 := ⟨((buf.drop 1).take 4).toArray, by simp; omega⟩
        some (.ok (.ipv4 ipBytes (readPort buf 5), 7))
    else if atyp = 3 then
      match buf[1]? with
      | none => none
      | some lenByte =>
        let len := lenByte.toNat
        if buf.length < 2 + len + 2 then some (.error (.socks5 "无效的域名地址"))
        else
          let domain := fromUtf8Lossy lossy ((buf.drop 2).take len)
          some (.ok (.domain domain (readPort buf (2 + len)), 2 + len + 2))
    else if atyp = 4 then
      if h : buf.length < 19 then some (.error (.socks5 "无效的 IPv6 地址"))
      else
        let ipBytes : Vector UInt8 16 := ⟨((buf.drop 1).take 16).toArray, by simp; omega⟩
        some (.ok (.ipv6 ipBytes (readPort buf 17), 19))
    else some (.error (.socks5 "不支持的地址类型"))

/-- `create_udp_packet`: RSV and FRAG zero, the address, the payload. -/
def createUdpPacket (addr : Address) (data : List UInt8) : Except AgentError (List UInt8) :=
  match addr with
  | .ipv4 addr port => .ok ([0, 0, 0] ++ [1] ++ addr.toList ++ fixedBytes 2 port.toNat ++ data)
  | .domain host port =>
    if host.utf8ByteSize > 255 then .error (.socks5 "域名过长")
    else
      .ok ([0, 0, 0] ++ [3] ++ [host.utf8ByteSize.toUInt8] ++ asBytes host ++
        fixedBytes 2 port.toNat ++ data)
  | .ipv6 addr port => .ok ([0, 0, 0] ++ [4] ++ addr.toList ++ fixedBytes 2 port.toNat ++ data)
  | .proxyDns _ => .error (.socks5 "SOCKS5 UDP 不支持 proxy DNS 虚拟地址")
  | .udpRelay => .error (.socks5 "SOCKS5 UDP 不支持 UDP relay 虚拟地址")

/-- The header checks of one turn of `process_udp_traffic`'s loop on a
received datagram: the target and payload it passes on, or `none` for a
datagram it skips with `continue`. The outer `none` is a panic of
`parse_udp_address`. -/
def udpIngress (lossy : List UInt8 → String) (packet : List UInt8) :
    Option (Option (Address × List UInt8)) :=
  if packet.length < 10 then some none
  else
    match packet with
    | b0 :: b1 :: b2 :: rest =>
      if b0 ≠ 0 ∨ b1 ≠ 0 then some none
      else if b2 ≠ 0 then some none
      else
        (parseUdpAddress lossy rest).map fun
          | .ok (destAddr, headerLen) => some (destAddr, packet.drop (3 + headerLen))
          | .error _ => none
    | _ => some none

-- ---------------------------------------------------------------------------
-- Bytes of strings and ports
-- ---------------------------------------------------------------------------

theorem length_asBytes (s : String) : (asBytes s).length = s.utf8ByteSize := by
  rw [asBytes, Array.length_toList]
  rfl

/-- A string's own bytes decode to it, whatever `lossy` is. -/
theorem fromUtf8Lossy_asBytes (lossy : List UInt8 → String) (s : String) :
    fromUtf8Lossy lossy (asBytes s) = s := by
  have hbytes : (⟨(asBytes s).toArray⟩ : ByteArray) = s.toByteArray := by
    simp [asBytes]
  rw [fromUtf8Lossy, hbytes, String.fromUTF8?, dif_pos s.isValidUTF8]
  rfl

theorem readPort_append {pre : List UInt8} {i : Nat} (hi : pre.length = i) (port : UInt16)
    (rest : List UInt8) : readPort (pre ++ fixedBytes 2 port.toNat ++ rest) i = port := by
  have htake : ((pre ++ fixedBytes 2 port.toNat ++ rest).drop i).take 2 =
      fixedBytes 2 port.toNat := by
    subst hi
    simp
  rw [readPort, htake]
  exact (Udp.ofNat_ofBytes_eq_iff16 (length_fixedBytes 2 _) port).mpr rfl

theorem fixedBytes_readPort {buf : List UInt8} {i : Nat} (hi : i + 2 ≤ buf.length) :
    fixedBytes 2 (readPort buf i).toNat = (buf.drop i).take 2 :=
  (Udp.ofNat_ofBytes_eq_iff16 (by simp; omega) _).mp rfl

-- ---------------------------------------------------------------------------
-- The three headers the parser accepts
-- ---------------------------------------------------------------------------

variable (lossy : List UInt8 → String)

theorem parseUdpAddress_of_ipv4 {tail : List UInt8} (hlen : 6 ≤ tail.length) :
    ∃ v : Vector UInt8 4, v.toList = tail.take 4 ∧
      parseUdpAddress lossy (1 :: tail) = some (.ok (.ipv4 v (readPort (1 :: tail) 5), 7)) := by
  have h7 : ¬ (1 :: tail).length < 7 := by simp; omega
  refine ⟨⟨(tail.take 4).toArray, by simp; omega⟩, by simp, ?_⟩
  simp only [parseUdpAddress, dif_neg h7]
  rfl

theorem parseUdpAddress_of_domain {lenByte : UInt8} {tail : List UInt8}
    (hlen : lenByte.toNat + 2 ≤ tail.length) :
    parseUdpAddress lossy (3 :: lenByte :: tail) =
      some (.ok (.domain (fromUtf8Lossy lossy (tail.take lenByte.toNat))
        (readPort (3 :: lenByte :: tail) (2 + lenByte.toNat)), 2 + lenByte.toNat + 2)) := by
  have hfits : ¬ (3 :: lenByte :: tail).length < 2 + lenByte.toNat + 2 := by simp; omega
  simp only [parseUdpAddress, List.getElem?_cons_succ, List.getElem?_cons_zero, if_neg hfits]
  rfl

theorem parseUdpAddress_of_ipv6 {tail : List UInt8} (hlen : 18 ≤ tail.length) :
    ∃ v : Vector UInt8 16, v.toList = tail.take 16 ∧
      parseUdpAddress lossy (4 :: tail) = some (.ok (.ipv6 v (readPort (4 :: tail) 17), 19)) := by
  have h19 : ¬ (4 :: tail).length < 19 := by simp; omega
  refine ⟨⟨(tail.take 16).toArray, by simp; omega⟩, by simp, ?_⟩
  simp only [parseUdpAddress, dif_neg h19]
  rfl

/-- The headers `parse_udp_address` accepts: one of the three layouts, long
enough for its fields. -/
theorem parseUdpAddress_eq_ok {buf : List UInt8} {addr : Address} {headerLen : Nat}
    (hp : parseUdpAddress lossy buf = some (.ok (addr, headerLen))) :
    (∃ tail v, buf = 1 :: tail ∧ 6 ≤ tail.length ∧ v.toList = tail.take 4 ∧
        addr = .ipv4 v (readPort buf 5) ∧ headerLen = 7) ∨
      (∃ lenByte tail, buf = 3 :: lenByte :: tail ∧ lenByte.toNat + 2 ≤ tail.length ∧
        addr = .domain (fromUtf8Lossy lossy (tail.take lenByte.toNat))
          (readPort buf (2 + lenByte.toNat)) ∧ headerLen = 2 + lenByte.toNat + 2) ∨
      (∃ tail v, buf = 4 :: tail ∧ 18 ≤ tail.length ∧ v.toList = tail.take 16 ∧
        addr = .ipv6 v (readPort buf 17) ∧ headerLen = 19) := by
  match buf, hp with
  | [], hp => simp [parseUdpAddress] at hp
  | atyp :: tail, hp =>
    by_cases h1 : atyp = 1
    · subst h1
      by_cases hlen : 6 ≤ tail.length
      · obtain ⟨v, hv, hpv⟩ := parseUdpAddress_of_ipv4 lossy hlen
        rw [hpv] at hp
        simp only [Option.some.injEq, Except.ok.injEq, Prod.mk.injEq] at hp
        exact .inl ⟨tail, v, rfl, hlen, hv, hp.1.symm, hp.2.symm⟩
      · have hshort : (1 :: tail).length < 7 := by simp; omega
        simp only [parseUdpAddress, ↓reduceIte, dif_pos hshort, Option.some.injEq,
          reduceCtorEq] at hp
    by_cases h3 : atyp = 3
    · subst h3
      match tail, hp with
      | [], hp => simp [parseUdpAddress] at hp
      | lenByte :: tail, hp =>
        by_cases hlen : lenByte.toNat + 2 ≤ tail.length
        · rw [parseUdpAddress_of_domain lossy hlen] at hp
          simp only [Option.some.injEq, Except.ok.injEq, Prod.mk.injEq] at hp
          exact .inr (.inl ⟨lenByte, tail, rfl, hlen, hp.1.symm, hp.2.symm⟩)
        · have hshort : (3 :: lenByte :: tail).length < 2 + lenByte.toNat + 2 := by simp; omega
          simp only [parseUdpAddress, ↓reduceIte, if_neg h1, List.getElem?_cons_succ,
            List.getElem?_cons_zero, if_pos hshort, Option.some.injEq, reduceCtorEq] at hp
    by_cases h4 : atyp = 4
    · subst h4
      by_cases hlen : 18 ≤ tail.length
      · obtain ⟨v, hv, hpv⟩ := parseUdpAddress_of_ipv6 lossy hlen
        rw [hpv] at hp
        simp only [Option.some.injEq, Except.ok.injEq, Prod.mk.injEq] at hp
        exact .inr (.inr ⟨tail, v, rfl, hlen, hv, hp.1.symm, hp.2.symm⟩)
      · have hshort : (4 :: tail).length < 19 := by simp; omega
        simp only [parseUdpAddress, if_neg h1, if_neg h3, ↓reduceIte, dif_pos hshort,
          Option.some.injEq, reduceCtorEq] at hp
    simp [parseUdpAddress, h1, h3, h4] at hp

/-- `parse_udp_address` panics on one input only: a lone domain ATYP byte. -/
theorem parseUdpAddress_eq_none_iff (buf : List UInt8) :
    parseUdpAddress lossy buf = none ↔ buf = [3] := by
  constructor
  · intro h
    match buf, h with
    | atyp :: tail, h =>
      simp only [parseUdpAddress] at h
      split_ifs at h with h1 h7 h3
      -- only the read of the length byte is left
      split at h
      · rename_i hnone
        rw [List.getElem?_cons_succ, List.getElem?_eq_none_iff] at hnone
        have htail : tail = [] := List.eq_nil_of_length_eq_zero (by simpa using hnone)
        rw [h3, htail]
      · split_ifs at h
  · rintro rfl
    rfl

/-- The ingress never panics: it parses only datagrams of at least 10 bytes. -/
theorem udpIngress_ne_none (packet : List UInt8) : udpIngress lossy packet ≠ none := by
  unfold udpIngress
  split_ifs with hlen
  · exact Option.some_ne_none _
  split
  · rename_i b0 b1 b2 rest
    split_ifs
    · exact Option.some_ne_none _
    · exact Option.some_ne_none _
    · rw [Ne, Option.map_eq_none_iff, parseUdpAddress_eq_none_iff]
      rintro rfl
      simp at hlen
  · exact Option.some_ne_none _

-- ---------------------------------------------------------------------------
-- The parser reads what the encoder writes
-- ---------------------------------------------------------------------------

omit lossy in
/-- `create_udp_packet` writes the payload last. -/
theorem createUdpPacket_append (addr : Address) (data : List UInt8) :
    createUdpPacket addr data = (createUdpPacket addr []).map (· ++ data) := by
  cases addr with
  | domain host port =>
    simp only [createUdpPacket]
    split_ifs <;> simp [Except.map]
  | ipv4 | ipv6 | proxyDns | udpRelay => simp [createUdpPacket, Except.map]

theorem parseUdpAddress_createUdpPacket {addr : Address} {header : List UInt8}
    (h : createUdpPacket addr [] = .ok header) (rest : List UInt8) :
    header.take 3 = [0, 0, 0] ∧
      parseUdpAddress lossy (header.drop 3 ++ rest) = some (.ok (addr, header.length - 3)) := by
  cases addr with
  | ipv4 addr port =>
    simp only [createUdpPacket, List.append_nil, Except.ok.injEq] at h
    subst h
    obtain ⟨v, hv, hp⟩ := parseUdpAddress_of_ipv4 lossy
      (show 6 ≤ (addr.toList ++ fixedBytes 2 port.toNat ++ rest).length by simp; omega)
    have hv' : v = addr := Vector.toList_inj.mp (by simpa using hv)
    have hport := readPort_append (show (1 :: addr.toList).length = 5 by simp) port rest
    simp only [List.cons_append] at hport
    rw [hv', hport] at hp
    refine ⟨rfl, ?_⟩
    simpa using hp
  | domain host port =>
    simp only [createUdpPacket, List.append_nil] at h
    split_ifs at h with hbig
    simp only [Except.ok.injEq] at h
    subst h
    -- the length byte is the host's byte length, which fits a byte
    have hsize : host.utf8ByteSize.toUInt8.toNat = host.utf8ByteSize := by simp; omega
    have hp := parseUdpAddress_of_domain lossy (show host.utf8ByteSize.toUInt8.toNat + 2 ≤
      (asBytes host ++ fixedBytes 2 port.toNat ++ rest).length by simp [hsize, length_asBytes])
    have hhost : (asBytes host ++ fixedBytes 2 port.toNat ++ rest).take
        host.utf8ByteSize.toUInt8.toNat = asBytes host := by
      rw [hsize, ← length_asBytes, List.append_assoc]
      simp
    have hport := readPort_append (show (3 :: host.utf8ByteSize.toUInt8 :: asBytes host).length =
      2 + host.utf8ByteSize.toUInt8.toNat by simp [hsize, length_asBytes]; omega) port rest
    simp only [List.cons_append] at hport
    rw [hhost, fromUtf8Lossy_asBytes, hport] at hp
    refine ⟨rfl, ?_⟩
    have hlen : 2 + host.utf8ByteSize.toUInt8.toNat + 2 =
        ([0, 0, 0] ++ [3] ++ [host.utf8ByteSize.toUInt8] ++ asBytes host ++
          fixedBytes 2 port.toNat).length - 3 := by
      simp [hsize, length_asBytes]
      omega
    rw [← hlen]
    simpa using hp
  | ipv6 addr port =>
    simp only [createUdpPacket, List.append_nil, Except.ok.injEq] at h
    subst h
    obtain ⟨v, hv, hp⟩ := parseUdpAddress_of_ipv6 lossy
      (show 18 ≤ (addr.toList ++ fixedBytes 2 port.toNat ++ rest).length by simp; omega)
    have hv' : v = addr := Vector.toList_inj.mp (by simpa using hv)
    have hport := readPort_append (show (4 :: addr.toList).length = 17 by simp) port rest
    simp only [List.cons_append] at hport
    rw [hv', hport] at hp
    refine ⟨rfl, ?_⟩
    simpa using hp
  | proxyDns port => simp [createUdpPacket] at h
  | udpRelay => simp [createUdpPacket] at h

/-- The ingress on a datagram of the encoder: RSV and FRAG are zero, and it
is dropped when shorter than 10 bytes, and otherwise passed on with the
target and payload it was made from. -/
theorem udpIngress_createUdpPacket {addr : Address} {data packet : List UInt8}
    (h : createUdpPacket addr data = .ok packet) :
    packet.take 3 = [0, 0, 0] ∧
      udpIngress lossy packet =
        if packet.length < 10 then some none else some (some (addr, data)) := by
  rw [createUdpPacket_append] at h
  cases hh : createUdpPacket addr [] with
  | error e => simp [hh, Except.map] at h
  | ok header =>
    simp only [hh, Except.map, Except.ok.injEq] at h
    subst h
    obtain ⟨h3, hp⟩ := parseUdpAddress_createUdpPacket lossy hh data
    have hge : 3 ≤ header.length := by
      have := congrArg List.length h3
      simp only [List.length_take, List.length_cons, List.length_nil] at this
      omega
    -- the datagram is RSV, FRAG and then what the parser reads
    have hsplit : header ++ data = 0 :: 0 :: 0 :: (header.drop 3 ++ data) := by
      conv_lhs => rw [← List.take_append_drop 3 header, h3]
      rfl
    have hdrop : (header ++ data).drop (3 + (header.length - 3)) = data := by
      rw [Nat.add_sub_cancel' hge, List.drop_left]
    refine ⟨by rw [hsplit]; rfl, ?_⟩
    unfold udpIngress
    split_ifs with hlen
    · rfl
    · conv_lhs => rw [hsplit]
      simp only [ne_eq, not_true_eq_false, or_self, if_false, hp, Option.map_some]
      rw [← hsplit, hdrop]

/-- Exactly the domain datagrams whose host and payload have fewer than 3
bytes together are dropped. -/
theorem udpIngress_createUdpPacket_eq_none {addr : Address} {data packet : List UInt8}
    (h : createUdpPacket addr data = .ok packet) :
    udpIngress lossy packet = some none ↔
      ∃ host port, addr = .domain host port ∧ host.utf8ByteSize + data.length < 3 := by
  rw [(udpIngress_createUdpPacket lossy h).2]
  cases addr with
  | ipv4 addr port =>
    simp only [createUdpPacket, Except.ok.injEq] at h
    subst h
    simp
    omega
  | domain host port =>
    simp only [createUdpPacket] at h
    split_ifs at h with hbig
    simp only [Except.ok.injEq] at h
    subst h
    simp only [List.length_append, List.length_cons, List.length_nil, length_asBytes,
      length_fixedBytes, Address.domain.injEq]
    split_ifs with hlen
    · simp
      omega
    · simp
      omega
  | ipv6 addr port =>
    simp only [createUdpPacket, Except.ok.injEq] at h
    subst h
    simp
    omega
  | proxyDns port => simp [createUdpPacket] at h
  | udpRelay => simp [createUdpPacket] at h

-- ---------------------------------------------------------------------------
-- What the parser accepts, the encoder writes
-- ---------------------------------------------------------------------------

/-- A header of one of the IPv4 and IPv6 layouts is the encoder's bytes for
what the parser reads from it. -/
theorem take_of_fixed {tail : List UInt8} {n : Nat} (hlen : n + 2 ≤ tail.length) :
    tail.take (n + 2) = tail.take n ++ fixedBytes 2 (readPort tail n).toNat := by
  rw [fixedBytes_readPort hlen, List.take_add]

/-- What `parse_udp_address` accepts is the header `create_udp_packet` writes
for the address it reads, whenever the domain bytes of a domain header are
UTF-8, that is, the bytes of some string. -/
theorem createUdpPacket_of_parseUdpAddress {buf : List UInt8} {addr : Address} {headerLen : Nat}
    (hp : parseUdpAddress lossy buf = some (.ok (addr, headerLen)))
    (hutf8 : buf.head? = some 3 →
      ∃ host : String, asBytes host = (buf.drop 2).take (buf.getD 1 0).toNat) :
    headerLen ≤ buf.length ∧
      createUdpPacket addr [] = .ok ([0, 0, 0] ++ buf.take headerLen) := by
  rcases parseUdpAddress_eq_ok lossy hp with
    ⟨tail, v, rfl, hlen, hv, rfl, rfl⟩ | ⟨lenByte, tail, rfl, hlen, rfl, rfl⟩ |
      ⟨tail, v, rfl, hlen, hv, rfl, rfl⟩
  · have hport := take_of_fixed (show 4 + 2 ≤ tail.length by omega)
    refine ⟨by simp; omega, ?_⟩
    show Except.ok ([0, 0, 0] ++ [1] ++ v.toList ++ fixedBytes 2 (readPort tail 4).toNat ++ []) =
      Except.ok ([0, 0, 0] ++ 1 :: tail.take (4 + 2))
    rw [hport, hv]
    simp
  · -- the domain bytes are a string's, which the lossy decoding gives back
    obtain ⟨host, hhost⟩ := hutf8 rfl
    simp only [List.drop_succ_cons, List.drop_zero, List.getD_cons_succ, List.getD_cons_zero]
      at hhost
    have hdom : fromUtf8Lossy lossy (tail.take lenByte.toNat) = host := by
      rw [← hhost, fromUtf8Lossy_asBytes]
    have hsize : host.utf8ByteSize = lenByte.toNat := by
      rw [← length_asBytes, hhost, List.length_take]
      omega
    have hbyte : host.utf8ByteSize.toUInt8 = lenByte := by
      rw [hsize]
      simp
    have hread :
        readPort (3 :: lenByte :: tail) (2 + lenByte.toNat) = readPort tail lenByte.toNat := by
      rw [Nat.add_comm]
      rfl
    have htake : (3 :: lenByte :: tail).take (2 + lenByte.toNat + 2) =
        3 :: lenByte :: tail.take (lenByte.toNat + 2) := by
      rw [show 2 + lenByte.toNat + 2 = lenByte.toNat + 2 + 1 + 1 by omega]
      rfl
    have hport := take_of_fixed hlen
    refine ⟨by simp; omega, ?_⟩
    have hfits : ¬ host.utf8ByteSize > 255 := by
      have := lenByte.toNat_lt
      omega
    rw [hdom, hread, htake, hport, ← hhost]
    simp only [createUdpPacket, if_neg hfits, hbyte]
    simp
  · have hport := take_of_fixed (show 16 + 2 ≤ tail.length by omega)
    refine ⟨by simp; omega, ?_⟩
    show Except.ok ([0, 0, 0] ++ [4] ++ v.toList ++ fixedBytes 2 (readPort tail 16).toNat ++ []) =
      Except.ok ([0, 0, 0] ++ 4 :: tail.take (16 + 2))
    rw [hport, hv]
    simp

/-- A well-formed domain datagram the encoder writes, which the ingress drops:
host `a`, port 53, no payload, 8 bytes. -/
theorem short_domain_datagram_dropped (lossy : List UInt8 → String) :
    createUdpPacket (.domain "a" 53) [] = .ok [0, 0, 0, 3, 1, 97, 0, 53] ∧
      parseUdpAddress lossy [3, 1, 97, 0, 53] = some (.ok (.domain "a" 53, 5)) ∧
      udpIngress lossy [0, 0, 0, 3, 1, 97, 0, 53] = some none := by
  refine ⟨by rfl, ?_, by rfl⟩
  rw [parseUdpAddress_of_domain lossy (by decide)]
  have hhost : fromUtf8Lossy lossy ([97, 0, 53].take (1 : UInt8).toNat) = "a" := by
    rw [show [(97 : UInt8), 0, 53].take (1 : UInt8).toNat = asBytes "a" by decide,
      fromUtf8Lossy_asBytes]
  rw [hhost]
  rfl

end Ppaass.Agent
