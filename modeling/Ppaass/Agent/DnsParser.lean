import Mathlib
import Ppaass.Lib.Loop
import Ppaass.Agent.Socks5Udp

/-!
# The agents' DNS response parser

`parse_dns_response` of `tun_handler/dns_proxy/parser.rs` summarises a DNS
response for the log: its status, the answers it can show and the least TTL.
The Android agent's `netstack/dns_proxy.rs` has the same functions, line for
line, so this one model is of both.

A call that may panic or run a loop that does not end is a `Parse`: an
`OptionT` over `Except Stop`, where `Stop` says how it failed to return and
the `Option` is the one the Rust function returns. Every index the code
takes unchecked (`rdata[i]`, `bytes[i]`, `&rdata[a..b]`) may panic here. The
loops of `parse_dns_name` and `parse_txt_rdata` are `Loop.run`s with a fuel
argument, running out of which is `Stop.diverge`. Offsets are `Nat`s: a
`checked_add` cannot overflow at the offsets of a datagram.
`String::from_utf8_lossy` is `fromUtf8Lossy` and `Ipv6Addr`'s `Display` is
the parameter `ipv6ToString`; no result here depends on either.
-/

namespace Ppaass.Agent

open Ppaass.BigEndian

/-- How a call fails to return. -/
inductive Stop where
  | panic
  | diverge
  deriving DecidableEq

/-- A call of a function returning `Option`, in the order of its effects. -/
abbrev Parse (α : Type) := OptionT (Except Stop) α

/-- `?` on an `Option`. -/
def opt {α : Type} (o : Option α) : Parse α := OptionT.mk (.ok o)

/-- A loop that does not end within the fuel. -/
def diverge {α : Type} : Parse α := OptionT.lift (.error .diverge)

/-- `bytes[i]`, which panics out of bounds. -/
def index (bytes : List UInt8) (i : Nat) : Except Stop UInt8 :=
  match bytes[i]? with
  | some b => .ok b
  | none => .error .panic

/-- `packet.get(start..stop)`. -/
def getRange (packet : List UInt8) (start stop : Nat) : Option (List UInt8) :=
  if start ≤ stop ∧ stop ≤ packet.length then some ((packet.drop start).take (stop - start))
  else none

/-- `&bytes[start..stop]`, which panics out of bounds. -/
def slice (bytes : List UInt8) (start stop : Nat) : Except Stop (List UInt8) :=
  match getRange bytes start stop with
  | some s => .ok s
  | none => .error .panic

/-- `read_u16`. -/
def readU16 (packet : List UInt8) (offset : Nat) : Parse UInt16 := do
  let bytes ← opt (getRange packet offset (offset + 2))
  let b0 ← index bytes 0
  let b1 ← index bytes 1
  pure (UInt16.ofNat (ofBytes [b0, b1]))

/-- `read_u32`. -/
def readU32 (packet : List UInt8) (offset : Nat) : Parse UInt32 := do
  let bytes ← opt (getRange packet offset (offset + 4))
  let b0 ← index bytes 0
  let b1 ← index bytes 1
  let b2 ← index bytes 2
  let b3 ← index bytes 3
  pure (UInt32.ofNat (ofBytes [b0, b1, b2, b3]))

-- ---------------------------------------------------------------------------
-- `parse_dns_name`
-- ---------------------------------------------------------------------------

/-- The variables of `parse_dns_name`'s loop, `offset` being `*offset`. -/
structure NameLoop where
  labels : List String
  cursor : Nat
  jumped : Bool
  jumps : Nat
  offset : Nat

/-- The loop's variables at its first turn. -/
def nameStart (offset : Nat) : NameLoop := ⟨[], offset, false, 0, offset⟩

/-- One turn of `parse_dns_name`'s loop. It ends with `none` where the
function returns `None`, and at the zero byte with the labels and `*offset`. -/
def nameTurn (lossy : List UInt8 → String) (packet : List UInt8) (st : NameLoop) :
    Loop.Step NameLoop (Option (List String × Nat)) :=
  match packet[st.cursor]? with
  | none => .done none
  | some length =>
    if length &&& 0xc0 = 0xc0 then
      -- a compression pointer: `*offset` stops at the first one
      match packet[st.cursor + 1]? with
      | none => .done none
      | some next =>
        let pointer := (((length &&& 0x3f).toUInt16 <<< 8) ||| next.toUInt16).toNat
        let offset := if st.jumped then st.offset else st.cursor + 2
        if st.jumps + 1 > 16 then .done none
        else .next ⟨st.labels, pointer, true, st.jumps + 1, offset⟩
    else if length &&& 0xc0 ≠ 0 then .done none
    else if length = 0 then .done (some (st.labels, if st.jumped then st.offset else st.cursor + 1))
    else
      let cursor := st.cursor + 1
      let stop := cursor + length.toNat
      match getRange packet cursor stop with
      | none => .done none
      | some label =>
        .next ⟨st.labels ++ [fromUtf8Lossy lossy label], stop, st.jumped, st.jumps,
          if st.jumped then st.offset else stop⟩

/-- `parse_dns_name(packet, &mut offset)`: the name and the new `*offset`. -/
def parseDnsName (lossy : List UInt8 → String) (fuel : Nat) (packet : List UInt8)
    (offset : Nat) : Parse (String × Nat) :=
  match Loop.run (nameTurn lossy packet) fuel (nameStart offset) with
  | none => diverge
  | some none => failure
  | some (some (labels, offset)) =>
    pure (if labels.isEmpty then "." else ".".intercalate labels, offset)

-- ---------------------------------------------------------------------------
-- `parse_txt_rdata` and `parse_dns_answer_rdata`
-- ---------------------------------------------------------------------------

/-- The variables of `parse_txt_rdata`'s loop. -/
structure TxtLoop where
  cursor : Nat
  values : List String

/-- One turn of `parse_txt_rdata`'s loop; a panic of the slice ends it. -/
def txtTurn (lossy : List UInt8 → String) (rdata : List UInt8) (st : TxtLoop) :
    Loop.Step TxtLoop (Except Stop (List String)) :=
  if st.cursor < rdata.length then
    match rdata[st.cursor]? with
    | none => .done (.ok st.values)
    | some length =>
      let cursor := st.cursor + 1
      let stop := min (cursor + length.toNat) rdata.length
      match slice rdata cursor stop with
      | .error e => .done (.error e)
      | .ok bytes => .next ⟨stop, st.values ++ [fromUtf8Lossy lossy bytes]⟩
  else .done (.ok st.values)

/-- `parse_txt_rdata`. -/
def parseTxtRdata (lossy : List UInt8 → String) (fuel : Nat) (rdata : List UInt8) :
    Except Stop String :=
  match Loop.run (txtTurn lossy rdata) fuel ⟨0, []⟩ with
  | none => .error .diverge
  | some (.error e) => .error e
  | some (.ok values) => .ok (" ".intercalate values)

/-- `Ipv4Addr::new(a, b, c, d).to_string()`. -/
def ipv4ToString (a b c d : UInt8) : String :=
  toString a ++ "." ++ toString b ++ "." ++ toString c ++ "." ++ toString d

/-- `u16::from_be_bytes([rdata[i], rdata[i + 1]])`. -/
def readRdataU16 (rdata : List UInt8) (i : Nat) : Except Stop UInt16 := do
  let b0 ← index rdata i
  let b1 ← index rdata (i + 1)
  pure (UInt16.ofNat (ofBytes [b0, b1]))

/-- `parse_dns_answer_rdata`: how the answers of the kinds it knows read. -/
def parseDnsAnswerRdata (lossy : List UInt8 → String) (ipv6ToString : Vector UInt8 16 → String)
    (fuel : Nat) (packet : List UInt8) (rdataOffset rdlength : Nat) (recordType : UInt16) :
    Parse String := do
  let rdata ← opt (getRange packet rdataOffset (rdataOffset + rdlength))
  if recordType = 1 ∧ rdata.length = 4 then
    let a ← index rdata 0
    let b ← index rdata 1
    let c ← index rdata 2
    let d ← index rdata 3
    pure (ipv4ToString a b c d)
  else if recordType = 2 ∨ recordType = 5 ∨ recordType = 12 then
    let (name, _) ← parseDnsName lossy fuel packet rdataOffset
    pure name
  else if recordType = 15 ∧ rdata.length ≥ 3 then
    let preference ← readRdataU16 rdata 0
    let (exchange, _) ← parseDnsName lossy fuel packet (rdataOffset + 2)
    pure (toString preference ++ " " ++ exchange)
  else if recordType = 16 then
    let txt ← parseTxtRdata lossy fuel rdata
    pure txt
  else if recordType = 28 ∧ rdata.length = 16 then
    -- `rdata.try_into().ok()?`
    let bytes ← opt (if h : rdata.length = 16 then some (⟨rdata.toArray, by simpa⟩ : Vector UInt8 16)
      else none)
    pure (ipv6ToString bytes)
  else if recordType = 33 ∧ rdata.length ≥ 7 then
    let port ← readRdataU16 rdata 4
    let (target, _) ← parseDnsName lossy fuel packet (rdataOffset + 6)
    pure (target ++ ":" ++ toString port)
  else if (recordType = 64 ∨ recordType = 65) ∧ rdata.length ≥ 3 then
    let priority ← readRdataU16 rdata 0
    let (target, _) ← parseDnsName lossy fuel packet (rdataOffset + 2)
    pure (if target = "." then "priority " ++ toString priority
      else "priority " ++ toString priority ++ " " ++ target)
  else failure

-- ---------------------------------------------------------------------------
-- `parse_dns_response`
-- ---------------------------------------------------------------------------

/-- `DnsResponseSummary`. -/
structure DnsResponseSummary where
  status : String
  answers : List String
  minTtl : Option UInt32

/-- `dns_rcode_name`. -/
def dnsRcodeName (rcode : UInt16) : String :=
  if rcode = 0 then "NOERROR"
  else if rcode = 1 then "FORMERR"
  else if rcode = 2 then "SERVFAIL"
  else if rcode = 3 then "NXDOMAIN"
  else if rcode = 4 then "NOTIMP"
  else if rcode = 5 then "REFUSED"
  else "ERROR"

/-- The question loop of `parse_dns_response`, `n` questions from `offset`. -/
def skipQuestions (lossy : List UInt8 → String) (fuel : Nat) (packet : List UInt8) :
    Nat → Nat → Parse Nat
  | 0, offset => pure offset
  | n + 1, offset => do
    let (_, offset) ← parseDnsName lossy fuel packet offset
    let offset := offset + 4
    if offset > packet.length then failure
    skipQuestions lossy fuel packet n offset

/-- The answer loop of `parse_dns_response`, `n` answers from `offset`. -/
def readAnswers (lossy : List UInt8 → String) (ipv6ToString : Vector UInt8 16 → String)
    (fuel : Nat) (packet : List UInt8) :
    Nat → List String → Option UInt32 → Nat → Parse (List String × Option UInt32)
  | 0, answers, minTtl, _ => pure (answers, minTtl)
  | n + 1, answers, minTtl, offset => do
    let (_, offset) ← parseDnsName lossy fuel packet offset
    let recordType ← readU16 packet offset
    let offset := offset + 2
    let _class ← readU16 packet offset
    let offset := offset + 2
    let ttl ← readU32 packet offset
    let offset := offset + 4
    let rdlength ← readU16 packet offset
    let offset := offset + 2
    let rdataEnd := offset + rdlength.toNat
    if rdataEnd > packet.length then failure
    -- an answer it cannot show is skipped, not a failure of the response
    let answer ← OptionT.lift
      (parseDnsAnswerRdata lossy ipv6ToString fuel packet offset rdlength.toNat recordType).run
    match answer with
    | some answer =>
      let minTtl := match minTtl with
        | none => ttl
        | some current => min current ttl
      readAnswers lossy ipv6ToString fuel packet n (answers ++ [answer]) (some minTtl) rdataEnd
    | none => readAnswers lossy ipv6ToString fuel packet n answers minTtl rdataEnd

/-- `parse_dns_response`. -/
def parseDnsResponse (lossy : List UInt8 → String) (ipv6ToString : Vector UInt8 16 → String)
    (fuel : Nat) (packet : List UInt8) : Parse DnsResponseSummary := do
  if packet.length < 12 then failure
  let flags ← readU16 packet 2
  let qdcount ← readU16 packet 4
  let ancount ← readU16 packet 6
  let offset ← skipQuestions lossy fuel packet qdcount.toNat 12
  let (answers, minTtl) ← readAnswers lossy ipv6ToString fuel packet ancount.toNat [] none offset
  pure { status := dnsRcodeName (flags &&& 0x000f), answers, minTtl }

-- ---------------------------------------------------------------------------
-- Reads that cannot panic
-- ---------------------------------------------------------------------------

open Loop

theorem index_eq_ok {bytes : List UInt8} {i : Nat} (h : i < bytes.length) :
    index bytes i = .ok bytes[i] := by
  simp [index, h]

theorem getRange_eq_some {packet : List UInt8} {start stop : Nat} {bytes : List UInt8}
    (h : getRange packet start stop = some bytes) :
    start ≤ stop ∧ stop ≤ packet.length ∧ bytes.length = stop - start := by
  unfold getRange at h
  split_ifs at h with hin
  cases h
  refine ⟨hin.1, hin.2, ?_⟩
  simp
  omega

theorem eq_of_opt {α : Type} {o : Option α} {a : α} (h : (opt o).run = .ok (some a)) :
    o = some a :=
  Except.ok.inj h

theorem readU16_returns (packet : List UInt8) (offset : Nat) : Returns (readU16 packet offset) := by
  unfold readU16
  refine (returns_mk _).bind fun bytes hbytes => ?_
  have hlen := (getRange_eq_some (eq_of_opt hbytes)).2.2
  refine (returns_lift (index_eq_ok (by omega))).bind fun _ _ => ?_
  exact (returns_lift (index_eq_ok (by omega))).bind fun _ _ => returns_pure _

theorem readU32_returns (packet : List UInt8) (offset : Nat) : Returns (readU32 packet offset) := by
  unfold readU32
  refine (returns_mk _).bind fun bytes hbytes => ?_
  have hlen := (getRange_eq_some (eq_of_opt hbytes)).2.2
  refine (returns_lift (index_eq_ok (by omega))).bind fun _ _ => ?_
  refine (returns_lift (index_eq_ok (by omega))).bind fun _ _ => ?_
  refine (returns_lift (index_eq_ok (by omega))).bind fun _ _ => ?_
  exact (returns_lift (index_eq_ok (by omega))).bind fun _ _ => returns_pure _

-- ---------------------------------------------------------------------------
-- The name loop: what a turn does
-- ---------------------------------------------------------------------------

section NameLoop

variable (lossy : List UInt8 → String) (packet : List UInt8)

/-- A turn that goes on either follows a pointer, counting it and fixing
`*offset` past the first one, or reads a label, moving the cursor forward
within the packet. -/
theorem nameTurn_eq_next {st st' : NameLoop} (h : nameTurn lossy packet st = .next st') :
    (∃ b, packet[st.cursor]? = some b ∧ b &&& 0xc0 = 0xc0 ∧ st'.jumped = true ∧
        st'.jumps = st.jumps + 1 ∧ st'.jumps ≤ 16 ∧
        st'.offset = if st.jumped then st.offset else st.cursor + 2) ∨
      (st'.jumped = st.jumped ∧ st'.jumps = st.jumps ∧ st.cursor < st'.cursor ∧
        st'.cursor ≤ packet.length ∧ st'.offset = if st.jumped then st.offset else st'.cursor) := by
  unfold nameTurn at h
  cases hlength : packet[st.cursor]? with
  | none => simp [hlength] at h
  | some length =>
    simp only [hlength] at h
    by_cases hptr : length &&& 0xc0 = 0xc0
    · -- a pointer, whose second byte must be there
      rw [if_pos hptr] at h
      cases hnext : packet[st.cursor + 1]? with
      | none => simp [hnext] at h
      | some next =>
        by_cases hjumps : st.jumps + 1 > 16
        · simp [hnext, hjumps] at h
        · simp only [hnext, hjumps, if_false, Step.next.injEq] at h
          subst h
          exact .inl ⟨length, rfl, hptr, rfl, rfl, by dsimp only; omega, rfl⟩
    · rw [if_neg hptr] at h
      by_cases hbits : length &&& 0xc0 ≠ 0
      · simp [hbits] at h
      by_cases hzero : length = 0
      · simp [hzero] at h
      -- a label, which must lie within the packet
      simp only [hbits, hzero, if_false] at h
      cases hlabel : getRange packet (st.cursor + 1) (st.cursor + 1 + length.toNat) with
      | none => simp [hlabel] at h
      | some label =>
        simp only [hlabel, Step.next.injEq] at h
        subst h
        have hrange := getRange_eq_some hlabel
        have hpos : 0 < length.toNat := by
          rw [Nat.pos_iff_ne_zero]
          intro h0
          exact hzero (UInt8.toNat_inj.mp (by simpa using h0))
        exact .inr ⟨rfl, rfl, by dsimp only; omega, hrange.2.1, rfl⟩

/-- The loop ends with a name only at a zero byte. -/
theorem nameTurn_eq_done_some {st : NameLoop} {labels : List String} {o : Nat}
    (h : nameTurn lossy packet st = .done (some (labels, o))) :
    packet[st.cursor]? = some 0 ∧ labels = st.labels ∧
      o = if st.jumped then st.offset else st.cursor + 1 := by
  unfold nameTurn at h
  cases hlength : packet[st.cursor]? with
  | none => simp [hlength] at h
  | some length =>
    simp only [hlength] at h
    by_cases hptr : length &&& 0xc0 = 0xc0
    · rw [if_pos hptr] at h
      cases hnext : packet[st.cursor + 1]? with
      | none => simp [hnext] at h
      | some next =>
        by_cases hjumps : st.jumps + 1 > 16
        · simp [hnext, hjumps] at h
        · simp [hnext, hjumps] at h
    · rw [if_neg hptr] at h
      by_cases hbits : length &&& 0xc0 ≠ 0
      · simp [hbits] at h
      by_cases hzero : length = 0
      · subst hzero
        rw [if_neg hbits, if_pos rfl] at h
        simp only [Step.done.injEq, Option.some.injEq, Prod.mk.injEq] at h
        exact ⟨rfl, h.1.symm, h.2.symm⟩
      simp only [hbits, hzero, if_false] at h
      cases hlabel : getRange packet (st.cursor + 1) (st.cursor + 1 + length.toNat) with
      | none => simp [hlabel] at h
      | some label => simp [hlabel] at h

/-- The rank the loop lowers at every turn: the jumps it may still take,
then the bytes left after the cursor. -/
def nameRank (st : NameLoop) : Nat :=
  (16 - st.jumps) * (packet.length + 2) + (packet.length + 1 - st.cursor)

theorem nameRank_lt {st st' : NameLoop} (h : nameTurn lossy packet st = .next st') :
    nameRank packet st' < nameRank packet st := by
  unfold nameRank
  rcases nameTurn_eq_next lossy packet h with
    ⟨-, -, -, -, hjumps, hle, -⟩ | ⟨-, hjumps, hlt, hle, -⟩
  · -- a jump spends one of the jumps left, worth more than any cursor
    have hleft : 16 - st.jumps = (16 - st'.jumps) + 1 := by omega
    rw [hleft, Nat.add_one_mul]
    omega
  · rw [hjumps]
    omega

/-- The fuel that is enough for every call: 17 rounds of the packet. -/
def nameFuel (packet : List UInt8) : Nat := 17 * (packet.length + 2)

theorem run_nameTurn {fuel : Nat} (hfuel : nameFuel packet ≤ fuel) (offset : Nat) :
    ∃ r, Loop.run (nameTurn lossy packet) fuel (nameStart offset) = some r := by
  refine Loop.run_of_rank (nameRank packet) (fun _ _ h => nameRank_lt lossy packet h) ?_
  simp only [nameRank, nameStart, nameFuel] at hfuel ⊢
  omega

/-- Every state the loop reaches has taken at most 16 jumps: the 17th
pointer ends it with `None`. -/
theorem jumps_le_of_iterate {offset k : Nat} {st : NameLoop}
    (h : Loop.iterate (nameTurn lossy packet) k (nameStart offset) = some st) : st.jumps ≤ 16 := by
  refine Loop.iterate_induction (P := fun st : NameLoop => st.jumps ≤ 16) (fun s s' hs hturn => ?_)
    (Nat.zero_le _) h
  rcases nameTurn_eq_next lossy packet hturn with
    ⟨-, -, -, -, -, hle, -⟩ | ⟨-, hjumps, -⟩
  · exact hle
  · rw [hjumps]
    exact hs

theorem jumps_mono {k : Nat} {st st' : NameLoop}
    (h : Loop.iterate (nameTurn lossy packet) k st = some st') : st.jumps ≤ st'.jumps := by
  refine Loop.iterate_induction (P := fun t : NameLoop => st.jumps ≤ t.jumps)
    (fun s s' hs hturn => ?_) (Nat.le_refl _) h
  rcases nameTurn_eq_next lossy packet hturn with
    ⟨-, -, -, -, hjumps, -⟩ | ⟨-, hjumps, -⟩ <;> omega

/-- Turns that take no jump read labels, each moving the cursor forward and
keeping it within the packet. -/
theorem cursor_add_le_of_iterate : ∀ {k : Nat} {st st' : NameLoop},
    Loop.iterate (nameTurn lossy packet) k st = some st' → st'.jumps = st.jumps →
      st.cursor + k ≤ st'.cursor ∧ (k = 0 ∨ st'.cursor ≤ packet.length)
  | 0, st, st', h, _ => by
    cases h
    exact ⟨Nat.le_refl _, .inl rfl⟩
  | k + 1, st, st', h, hjumps => by
    cases hturn : nameTurn lossy packet st with
    | done r => simp [Loop.iterate, hturn] at h
    | next s₁ =>
      rw [Loop.iterate_succ_of_next hturn] at h
      -- the first turn took no jump either, since jumps never go down
      have hmono := jumps_mono lossy packet h
      rcases nameTurn_eq_next lossy packet hturn with
        ⟨-, -, -, -, hj, -⟩ | ⟨-, hj, hlt, hle, -⟩
      · omega
      obtain ⟨hcursor, hend⟩ := cursor_add_le_of_iterate h (by omega)
      refine ⟨by omega, .inr ?_⟩
      rcases hend with rfl | hend
      · cases h
        exact hle
      · exact hend

/-- Between two jumps the loop reads at most `packet.len()` labels. -/
theorem labels_le_of_iterate {k : Nat} {st st' : NameLoop}
    (h : Loop.iterate (nameTurn lossy packet) k st = some st') (hjumps : st'.jumps = st.jumps) :
    k ≤ packet.length := by
  obtain ⟨hcursor, hend⟩ := cursor_add_le_of_iterate lossy packet h hjumps
  rcases hend with rfl | hend <;> omega

theorem parseDnsName_returns {fuel : Nat} (hfuel : nameFuel packet ≤ fuel) (offset : Nat) :
    Returns (parseDnsName lossy fuel packet offset) := by
  obtain ⟨r, hr⟩ := run_nameTurn lossy packet hfuel offset
  unfold parseDnsName
  rw [hr]
  rcases r with _ | ⟨labels, o⟩
  · exact returns_failure
  · exact returns_pure _

-- ---------------------------------------------------------------------------
-- Where `*offset` is left
-- ---------------------------------------------------------------------------

/-- What `*offset` holds in every state the loop reaches from `offset`: the
cursor until the loop jumps, and after that the place just past the first
pointer, which the loop reached without a jump. -/
structure OffsetTracks (offset : Nat) (st : NameLoop) : Prop where
  reached : ∃ k, Loop.iterate (nameTurn lossy packet) k (nameStart offset) = some st
  unjumped : st.jumped = false → st.offset = st.cursor
  jumped : st.jumped = true → ∃ k s b,
    Loop.iterate (nameTurn lossy packet) k (nameStart offset) = some s ∧ s.jumped = false ∧
      packet[s.cursor]? = some b ∧ b &&& 0xc0 = 0xc0 ∧ st.offset = s.cursor + 2

theorem offsetTracks_start (offset : Nat) : OffsetTracks lossy packet offset (nameStart offset) where
  reached := ⟨0, rfl⟩
  unjumped _ := rfl
  jumped h := absurd h (by simp [nameStart])

theorem OffsetTracks.turn {offset : Nat} {st st' : NameLoop}
    (hst : OffsetTracks lossy packet offset st) (hturn : nameTurn lossy packet st = .next st') :
    OffsetTracks lossy packet offset st' := by
  obtain ⟨k, hk⟩ := hst.reached
  refine ⟨⟨k + 1, Loop.iterate_succ_right hk hturn⟩, fun hun => ?_, fun hj => ?_⟩
  · -- still unjumped: the turn read a label, and `*offset` followed the cursor
    rcases nameTurn_eq_next lossy packet hturn with
      ⟨-, -, -, hj', -⟩ | ⟨hjumped, -, -, -, hoff⟩
    · rw [hun] at hj'
      cases hj'
    · rw [hjumped] at hun
      rw [hoff, if_neg (by simp [hun])]
  · rcases nameTurn_eq_next lossy packet hturn with
      ⟨b, hb, hptr, -, -, -, hoff⟩ | ⟨hjumped, -, -, -, hoff⟩
    · cases hjst : st.jumped
      · -- this is the first pointer
        exact ⟨k, st, b, hk, hjst, hb, hptr, by rw [hoff, hjst]; rfl⟩
      · obtain ⟨k', s, b', hs⟩ := hst.jumped hjst
        exact ⟨k', s, b', by rw [hoff, hjst]; exact hs⟩
    · rw [hjumped] at hj
      obtain ⟨k', s, b', hs⟩ := hst.jumped hj
      exact ⟨k', s, b', by rw [hoff, if_pos hj]; exact hs⟩

theorem run_of_parseDnsName {fuel offset : Nat} {name : String} {o : Nat}
    (h : (parseDnsName lossy fuel packet offset).run = .ok (some (name, o))) :
    ∃ labels, Loop.run (nameTurn lossy packet) fuel (nameStart offset) = some (some (labels, o)) := by
  unfold parseDnsName at h
  split at h
  · cases h
  · cases h
  · rename_i labels o' hrun
    have hresult := Option.some.inj (Except.ok.inj h)
    rw [Prod.mk.injEq] at hresult
    exact ⟨labels, by rw [hrun, hresult.2]⟩

/-- When `parse_dns_name` returns a name without following a pointer, it
leaves `*offset` just past the terminating zero byte; otherwise just past the
first pointer. -/
theorem parseDnsName_offset {fuel offset : Nat} {name : String} {o : Nat}
    (h : (parseDnsName lossy fuel packet offset).run = .ok (some (name, o))) :
    ∃ k st, Loop.iterate (nameTurn lossy packet) k (nameStart offset) = some st ∧
      st.jumped = false ∧
      ((packet[st.cursor]? = some 0 ∧ nameTurn lossy packet st = .done (some (st.labels, o)) ∧
          o = st.cursor + 1) ∨
        ∃ b, packet[st.cursor]? = some b ∧ b &&& 0xc0 = 0xc0 ∧ o = st.cursor + 2) := by
  obtain ⟨labels, hrun⟩ := run_of_parseDnsName lossy packet h
  obtain ⟨k, t, hk, hdone⟩ := Loop.exists_iterate_of_run hrun
  obtain ⟨hzero, hlabels, ho⟩ := nameTurn_eq_done_some lossy packet hdone
  have htracks : OffsetTracks lossy packet offset t :=
    Loop.iterate_induction (fun _ _ hs hturn => hs.turn lossy packet hturn)
      (offsetTracks_start lossy packet offset) hk
  cases hjumped : t.jumped
  · -- the loop never jumped and ended at the zero byte
    rw [hjumped, if_neg (by simp)] at ho
    refine ⟨k, t, hk, hjumped, .inl ⟨hzero, ?_, ho⟩⟩
    rw [hdone, hlabels]
  · obtain ⟨k', s, b, hs, hsjumped, hb, hptr, hoff⟩ := htracks.jumped hjumped
    rw [hjumped, if_pos rfl] at ho
    exact ⟨k', s, hs, hsjumped, .inr ⟨b, hb, hptr, ho.trans hoff⟩⟩

end NameLoop

-- ---------------------------------------------------------------------------
-- The TXT loop
-- ---------------------------------------------------------------------------

section TxtLoop

variable (lossy : List UInt8 → String) (rdata : List UInt8)

theorem getRange_of_le {start stop : Nat} (h : start ≤ stop) (h' : stop ≤ rdata.length) :
    getRange rdata start stop = some ((rdata.drop start).take (stop - start)) :=
  if_pos ⟨h, h'⟩

/-- Before the end, a turn reads one length byte and the bytes after it, as
many as there are, and the slice it takes is in bounds. -/
theorem txtTurn_of_lt {st : TxtLoop} (hlt : st.cursor < rdata.length) :
    txtTurn lossy rdata st =
      .next ⟨min (st.cursor + 1 + rdata[st.cursor].toNat) rdata.length,
        st.values ++ [fromUtf8Lossy lossy ((rdata.drop (st.cursor + 1)).take
          (min (st.cursor + 1 + rdata[st.cursor].toNat) rdata.length - (st.cursor + 1)))]⟩ := by
  have hstart : st.cursor + 1 ≤ min (st.cursor + 1 + rdata[st.cursor].toNat) rdata.length := by
    omega
  unfold txtTurn
  rw [if_pos hlt, List.getElem?_eq_getElem hlt]
  simp only [slice, getRange_of_le rdata hstart (min_le_right _ _)]

theorem txtTurn_of_le {st : TxtLoop} (hle : rdata.length ≤ st.cursor) :
    txtTurn lossy rdata st = .done (.ok st.values) := by
  unfold txtTurn
  rw [if_neg (by omega)]

theorem parseTxtRdata_eq_ok {fuel : Nat} (hfuel : rdata.length < fuel) :
    ∃ txt, parseTxtRdata lossy fuel rdata = .ok txt := by
  -- every turn that goes on moves the cursor forward, within the rdata
  have hrank : ∀ s s', txtTurn lossy rdata s = .next s' →
      rdata.length - s'.cursor < rdata.length - s.cursor := by
    intro s s' h
    by_cases hlt : s.cursor < rdata.length
    · rw [txtTurn_of_lt lossy rdata hlt, Step.next.injEq] at h
      subst h
      dsimp only
      omega
    · rw [txtTurn_of_le lossy rdata (by omega)] at h
      cases h
  obtain ⟨r, hr⟩ := Loop.run_of_rank (fun s : TxtLoop => rdata.length - s.cursor) hrank
    (show rdata.length - (⟨0, []⟩ : TxtLoop).cursor < fuel by dsimp only; omega)
  -- and the turn that ends it ends at the end, without a panic
  obtain ⟨k, t, -, hdone⟩ := Loop.exists_iterate_of_run hr
  have hend : rdata.length ≤ t.cursor := by
    by_contra hlt
    rw [txtTurn_of_lt lossy rdata (by omega)] at hdone
    cases hdone
  rw [txtTurn_of_le lossy rdata hend, Step.done.injEq] at hdone
  subst hdone
  exact ⟨_, by rw [parseTxtRdata, hr]⟩

end TxtLoop

-- ---------------------------------------------------------------------------
-- The response parser returns
-- ---------------------------------------------------------------------------

section Response

variable (lossy : List UInt8 → String) (ipv6ToString : Vector UInt8 16 → String)
  (packet : List UInt8) {fuel : Nat}

theorem readRdataU16_eq_ok {rdata : List UInt8} {i : Nat} (h : i + 1 < rdata.length) :
    ∃ v, readRdataU16 rdata i = .ok v := by
  unfold readRdataU16
  rw [index_eq_ok (by omega), index_eq_ok h]
  exact ⟨_, rfl⟩

include fuel in
theorem parseDnsAnswerRdata_returns (hfuel : nameFuel packet ≤ fuel)
    (rdataOffset rdlength : Nat) (recordType : UInt16) :
    Returns (parseDnsAnswerRdata lossy ipv6ToString fuel packet rdataOffset rdlength recordType) := by
  unfold parseDnsAnswerRdata
  refine (returns_mk _).bind fun rdata hrdata => ?_
  obtain ⟨-, hstop, hlen⟩ := getRange_eq_some (eq_of_opt hrdata)
  have hname := parseDnsName_returns lossy packet hfuel
  split_ifs with h1 h2 h15 h16 h28 hv6 h33 h64
  · -- A: four bytes
    refine (returns_lift (index_eq_ok (by omega))).bind fun _ _ => ?_
    refine (returns_lift (index_eq_ok (by omega))).bind fun _ _ => ?_
    refine (returns_lift (index_eq_ok (by omega))).bind fun _ _ => ?_
    exact (returns_lift (index_eq_ok (by omega))).bind fun _ _ => returns_pure _
  · -- NS, CNAME, PTR: a name
    exact (hname _).bind fun _ _ => returns_pure _
  · -- MX: a preference and a name
    obtain ⟨v, hv⟩ := readRdataU16_eq_ok (show 0 + 1 < rdata.length by omega)
    exact (returns_lift hv).bind fun _ _ => (hname _).bind fun _ _ => returns_pure _
  · -- TXT, whose loop the fuel also bounds
    obtain ⟨txt, htxt⟩ := parseTxtRdata_eq_ok lossy rdata
      (show rdata.length < fuel by simp only [nameFuel] at hfuel; omega)
    exact returns_lift htxt
  · -- AAAA: sixteen bytes, whichever way `try_into` goes
    exact (returns_mk _).bind fun _ _ => returns_pure _
  · exact (returns_mk _).bind fun _ _ => returns_pure _
  · -- SRV: a port and a name
    obtain ⟨v, hv⟩ := readRdataU16_eq_ok (show 4 + 1 < rdata.length by omega)
    exact (returns_lift hv).bind fun _ _ => (hname _).bind fun _ _ => returns_pure _
  · -- SVCB, HTTPS: a priority and a name
    obtain ⟨v, hv⟩ := readRdataU16_eq_ok (show 0 + 1 < rdata.length by omega)
    exact (returns_lift hv).bind fun _ _ => (hname _).bind fun _ _ => returns_pure _
  · exact returns_failure

include fuel in
theorem skipQuestions_returns (hfuel : nameFuel packet ≤ fuel) :
    ∀ (n offset : Nat), Returns (skipQuestions lossy fuel packet n offset)
  | 0, _ => returns_pure _
  | n + 1, offset => by
    unfold skipQuestions
    refine (parseDnsName_returns lossy packet hfuel offset).bind fun ⟨_, o⟩ _ => ?_
    dsimp only
    split_ifs
    · exact returns_failure
    · exact skipQuestions_returns hfuel n (o + 4)

include fuel in
theorem readAnswers_returns (hfuel : nameFuel packet ≤ fuel) :
    ∀ (n : Nat) (answers : List String) (minTtl : Option UInt32) (offset : Nat),
      Returns (readAnswers lossy ipv6ToString fuel packet n answers minTtl offset)
  | 0, _, _, _ => returns_pure _
  | n + 1, answers, minTtl, offset => by
    unfold readAnswers
    refine (parseDnsName_returns lossy packet hfuel offset).bind fun ⟨_, o⟩ _ => ?_
    dsimp only
    refine (readU16_returns packet o).bind fun recordType _ => ?_
    refine (readU16_returns packet (o + 2)).bind fun _ _ => ?_
    refine (readU32_returns packet (o + 2 + 2)).bind fun ttl _ => ?_
    refine (readU16_returns packet (o + 2 + 2 + 4)).bind fun rdlength _ => ?_
    split_ifs
    · exact returns_failure
    -- the answer's own parse returns, `Some` or `None`
    obtain ⟨answer, hanswer⟩ := parseDnsAnswerRdata_returns lossy ipv6ToString packet hfuel
      (o + 2 + 2 + 4 + 2) rdlength.toNat recordType
    refine (returns_lift hanswer).bind fun answer' _ => ?_
    cases answer' <;> exact readAnswers_returns hfuel n _ _ _

/-- `parse_dns_response` returns, `Some` or `None`, on every packet: no index
panics, and every loop ends within the fuel. -/
theorem parseDnsResponse_returns (hfuel : nameFuel packet ≤ fuel) :
    Returns (parseDnsResponse lossy ipv6ToString fuel packet) := by
  unfold parseDnsResponse
  split_ifs
  · exact returns_failure
  refine (readU16_returns packet 2).bind fun flags _ => ?_
  refine (readU16_returns packet 4).bind fun qdcount _ => ?_
  refine (readU16_returns packet 6).bind fun ancount _ => ?_
  refine (skipQuestions_returns lossy packet hfuel _ _).bind fun offset _ => ?_
  exact (readAnswers_returns lossy ipv6ToString packet hfuel _ _ _ _).bind fun _ _ =>
    returns_pure _

-- `parses_dns_response_answers`: an `A` answer whose owner name is a pointer
-- back to the question name, with the 799 rounds of fuel its 45 bytes give
example (lossy : List UInt8 → String) (ipv6ToString : Vector UInt8 16 → String) :
    ((parseDnsResponse lossy ipv6ToString 799
      [0x12, 0x34, 0x81, 0x80, 0x00, 0x01, 0x00, 0x01, 0x00, 0x00, 0x00, 0x00, 0x07, 0x65, 0x78,
        0x61, 0x6d, 0x70, 0x6c, 0x65, 0x03, 0x63, 0x6f, 0x6d, 0x00, 0x00, 0x01, 0x00, 0x01, 0xc0,
        0x0c, 0x00, 0x01, 0x00, 0x01, 0x00, 0x00, 0x00, 0x3c, 0x00, 0x04, 0x5d, 0xb8, 0xd8,
        0x22]).run.map (Option.map fun r => (r.status, r.answers, r.minTtl))) =
      .ok (some ("NOERROR", ["93.184.216.34"], some 60)) := by
  rfl

end Response

/-- The DNS response parsers of both agents are total. `parse_dns_response`
returns, `Some` or `None`, on every packet, without a panic and with every
loop ended within 17 rounds of the packet; `parse_dns_name` ends from every
offset, pointers forward, backward or to themselves included. Its loop
counts its jumps in `jumps`, which no state it reaches has above 16, so the
17th pointer ends it; between two jumps it reads at most `packet.len() + 1`
labels. When it returns a name without following a pointer, `*offset` is
just past the zero byte that ends it, and otherwise just past the first
pointer. -/
theorem dns_parsers_terminate :
    (∀ (lossy : List UInt8 → String) (ipv6ToString : Vector UInt8 16 → String)
      (packet : List UInt8) (fuel : Nat), nameFuel packet ≤ fuel →
      ∃ r, (parseDnsResponse lossy ipv6ToString fuel packet).run = .ok r) ∧
    (∀ (lossy : List UInt8 → String) (packet : List UInt8) (offset fuel : Nat),
      nameFuel packet ≤ fuel →
      ∃ r, Loop.run (nameTurn lossy packet) fuel (nameStart offset) = some r) ∧
    (∀ (lossy : List UInt8 → String) (packet : List UInt8) (offset k : Nat) (st : NameLoop),
      Loop.iterate (nameTurn lossy packet) k (nameStart offset) = some st → st.jumps ≤ 16) ∧
    (∀ (lossy : List UInt8 → String) (packet : List UInt8) (k : Nat) (st st' : NameLoop),
      Loop.iterate (nameTurn lossy packet) k st = some st' → st'.jumps = st.jumps →
      k ≤ packet.length + 1) ∧
    (∀ (lossy : List UInt8 → String) (fuel : Nat) (packet : List UInt8) (offset : Nat)
      (name : String) (o : Nat),
      (parseDnsName lossy fuel packet offset).run = .ok (some (name, o)) →
      ∃ k st, Loop.iterate (nameTurn lossy packet) k (nameStart offset) = some st ∧
        st.jumped = false ∧
        ((packet[st.cursor]? = some 0 ∧ nameTurn lossy packet st = .done (some (st.labels, o)) ∧
            o = st.cursor + 1) ∨
          ∃ b, packet[st.cursor]? = some b ∧ b &&& 0xc0 = 0xc0 ∧ o = st.cursor + 2)) := by
  refine ⟨fun lossy ipv6ToString packet fuel hfuel => ?_,
    fun lossy packet offset fuel hfuel => run_nameTurn lossy packet hfuel offset,
    fun lossy packet offset k st h => jumps_le_of_iterate lossy packet h,
    fun lossy packet k st st' h hjumps => ?_,
    fun lossy fuel packet offset name o h => parseDnsName_offset lossy packet h⟩
  · exact parseDnsResponse_returns lossy ipv6ToString packet hfuel
  · have hk := labels_le_of_iterate lossy packet h hjumps
    omega

end Ppaass.Agent
