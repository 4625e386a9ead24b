import Ppaass.Lib.Machine
import Ppaass.Lib.Result
import Ppaass.Agent.DnsResponseCache
import Ppaass.Agent.DirectDomainCache

/-!
# The agents' TUN DNS proxy

The DNS queries the TUN device sees go to one task per agent
(`run_dns_proxy`), which answers each from its response cache, or, on the
Android agent, by asking the query's resolver directly when the domain is
routed directly, or else sends it over one shared proxy connection. Every
query goes upstream under an id the task allocates (`send_dns_request`), so
that the answers of many clients can share the connection; an answer is
matched to its query by that id, given back the client's own id, and sent to
the client (`handle_dns_response`). A query waits for its answer at most
`DNS_PENDING_TTL`, and a new connection forgets the queries of the old one.

The task is a step function over its state and the events it waits for in its
`select!`: a query from the TUN device, an answer from the connection, a tick
of the cleanup timer, and a new connection. The outcome of writing to the
connection is part of the query's event, and so is the answer of the direct
resolver. What each agent does its own way is a `DnsAgent`: how it reads a
query's question, whether it resolves some domains directly, and the domain
cache the answers are recorded in. The logs and the traffic statistics are
left out.

Whatever the interleaving of queries, answers, timers and failed writes, an
answer that comes back in time is sent to the client that asked, under the
client's own id (`dns_answer_reaches_client`), and the task never panics
(`dns_proxy_never_panics`).
-/

namespace Ppaass.Agent

open Ppaass.BigEndian

/-- `DNS_PENDING_TTL`: 10 s. -/
def dnsPendingTtl : Nat := 10000

structure DnsProxyRequest (Addr : Type) where
  client : Addr
  target : Addr
  packet : List UInt8

structure PendingDnsRequest (Addr : Type) where
  client : Addr
  target : Addr
  originalId : UInt16
  query : List Char
  recordType : List Char
  expiresAt : Nat

/-- What the proxy reads with code from outside the repository. -/
structure DnsProxyOps where
  str : StrOps
  /-- hickory's `Message::read` and the checks `parse_dns_query_packet` makes
  of it: the name and the record type of the one question of a plain query
  that fills the packet -/
  readQuery : List UInt8 → Option (List Char × List Char)
  lossy : List UInt8 → String
  ipv6ToString : Vector UInt8 16 → String

/-- `normalize_query_name`. -/
def normalizeQueryName (ops : StrOps) (name : List Char) : List Char :=
  let normalized := (trimEndMatches '.' (ops.trim name)).map Char.toLower
  if normalized.isEmpty then ['.'] else normalized

/-- `common::dns::parse_dns_query_packet`. -/
def parseDnsQueryPacket (ops : DnsProxyOps) (packet : List UInt8) :
    Option (List Char × List Char) :=
  if packet.length < 12 then none
  else (ops.readQuery packet).map fun q => (normalizeQueryName ops.str q.1, q.2)

structure DnsQuestion where
  query : List Char
  recordType : List Char
  questionEnd : Nat

/-- The Android agent's `parse_dns_question`: the query parser's question and
where the question ends. -/
def parseDnsQuestion (ops : DnsProxyOps) (packet : List UInt8) : Parse DnsQuestion := do
  let (query, recordType) ← opt (parseDnsQueryPacket ops packet)
  let (_, offset) ← parseDnsName ops.lossy (nameFuel packet) packet 12
  let offset := offset + 2
  let _class ← readU16 packet offset
  let offset := offset + 2
  if offset > packet.length then failure
  pure ⟨query, recordType, offset⟩

/-- `build_dns_error_response`: the request's id and question under a header
that answers it with `rcode`. -/
def buildDnsErrorResponse (ops : DnsProxyOps) (request : List UInt8) (rcode : UInt16) :
    Parse (List UInt8) := do
  let question ← parseDnsQuestion ops request
  let requestFlags ← (OptionT.lift ((fun o => o.getD 0) <$> (readU16 request 2).run) : Parse UInt16)
  let flags : UInt16 := 0x8000 ||| (requestFlags &&& 0x0100) ||| 0x0080 ||| (rcode &&& 0x000f)
  let idBytes ← opt (getRange request 0 2)
  let questionBytes ← opt (getRange request 12 question.questionEnd)
  pure (idBytes ++ fixedBytes 2 flags.toNat ++ fixedBytes 2 1 ++ fixedBytes 2 0 ++
    fixedBytes 2 0 ++ fixedBytes 2 0 ++ questionBytes)

/-- `parse_dns_response(..).unwrap_or_else(..)`. -/
def responseSummary (ops : DnsProxyOps) (packet : List UInt8) : Except Stop DnsResponseSummary :=
  (fun o => o.getD ⟨"INVALID", [], none⟩) <$>
    (parseDnsResponse ops.lossy ops.ipv6ToString (nameFuel packet) packet).run

/-- What the two agents do their own way. -/
structure DnsAgent (ρ : Type) where
  /-- how a query's question is read: `parse_dns_query` on the desktop agent,
  `parse_dns_question` on the Android agent -/
  question : List UInt8 → Except Stop (Option (List Char × List Char))
  /-- the Android agent's `is_direct_domain`; the desktop agent resolves no
  domain directly -/
  isDirectDomain : Option (List Char → Bool)
  /-- `direct_domain_cache.record_resolution` -/
  record : ρ → List Char → List String → Nat → ρ

structure DnsProxyState (Addr ρ : Type) where
  pending : AList (fun _ : UInt16 => PendingDnsRequest Addr)
  nextId : UInt16
  responseCache : DnsResponseCache
  domains : ρ

/-- The state `run_dns_proxy` starts in: nothing pending, id 0 next, an empty
cache. -/
def DnsProxyState.init {Addr ρ : Type} (domains : ρ) : DnsProxyState Addr ρ :=
  ⟨∅, 0, DnsResponseCache.empty, domains⟩

inductive DnsOutput (Addr : Type) where
  /-- a packet written to the proxy connection -/
  | upstream (packet : List UInt8)
  /-- a packet sent back through the TUN device, from `target` to `client` -/
  | reply (packet : List UInt8) (target client : Addr)

/-- What `run_dns_proxy` waits for. -/
inductive DnsProxyEvent (Addr : Type) where
  /-- a query from the TUN device; `written` says whether writing it to the
  proxy connection succeeds, and `direct` is what the direct resolver answers,
  if it is asked and answers in time -/
  | request (request : DnsProxyRequest Addr) (written : Bool) (direct : Option (List UInt8))
  /-- a read from the proxy connection -/
  | response (packet : List UInt8)
  /-- a tick of the cleanup timer -/
  | cleanupTick
  /-- a new proxy connection, after a failed write, a closed or idle one -/
  | reconnect

/-- `cleanup_pending_dns`: the ids of the requests whose time is up, then each
of them removed. -/
def cleanupPendingDns {Addr : Type} (pending : AList (fun _ : UInt16 => PendingDnsRequest Addr))
    (now : Nat) : AList (fun _ : UInt16 => PendingDnsRequest Addr) :=
  Ppaass.Table.eraseAll pending
    ((pending.entries.filter fun kv => kv.2.expiresAt ≤ now).map (·.1))

section Proxy

variable {Addr ρ : Type} (ops : DnsProxyOps) (agent : DnsAgent ρ)

/-- `try_send_cached_dns_response`: whether the cache answered, and the state
its lookup leaves. -/
def trySendCachedDnsResponse (st : DnsProxyState Addr ρ) (request : DnsProxyRequest Addr)
    (now : Nat) : Except Stop (Bool × DnsProxyState Addr ρ × List (DnsOutput Addr)) := do
  let some originalId := dnsId request.packet | pure (false, st, [])
  let some (query, recordType) ← agent.question request.packet | pure (false, st, [])
  let (hit, cache) ← st.responseCache.get ops.str query recordType originalId now
  let st := { st with responseCache := cache }
  let some response := hit | pure (false, st, [])
  let summary ← responseSummary ops response
  pure (true, { st with domains := agent.record st.domains query summary.answers now },
    [.reply response request.target request.client])

/-- What the Android agent sends back for a query it resolves directly: the
resolver's answer, or, when the query fails or times out, a `SERVFAIL` built
for it, empty when none can be built. -/
def directResponse (ops : DnsProxyOps) (request : List UInt8) :
    Option (List UInt8) → Except Stop (List UInt8)
  | some response => pure response
  | none => (fun o => o.getD []) <$> (buildDnsErrorResponse ops request 2).run

/-- The Android agent's `try_send_direct_dns_response`; `direct` is the direct
resolver's answer, `none` when the query fails or times out. -/
def trySendDirectDnsResponse (st : DnsProxyState Addr ρ) (request : DnsProxyRequest Addr)
    (direct : Option (List UInt8)) (now : Nat) :
    Except Stop (Bool × DnsProxyState Addr ρ × List (DnsOutput Addr)) := do
  let some isDirectDomain := agent.isDirectDomain | pure (false, st, [])
  let some (query, recordType) ← agent.question request.packet | pure (false, st, [])
  if !isDirectDomain query then pure (false, st, [])
  else
    let response ← directResponse ops request.packet direct
    if response.isEmpty then pure (true, st, [])
    else
      let summary ← responseSummary ops response
      let cache ← st.responseCache.insert ops.str query recordType summary response now
      let st := { st with
        responseCache := cache
        domains := agent.record st.domains query summary.answers now }
      pure (true, st, [.reply response request.target request.client])

/-- `send_dns_request`: the query goes upstream under a fresh id, which is
forgotten again when the write fails. -/
def sendDnsRequest (st : DnsProxyState Addr ρ) (request : DnsProxyRequest Addr) (now : Nat)
    (written : Bool) : Except Stop (DnsProxyState Addr ρ × List (DnsOutput Addr)) := do
  let some originalId := dnsId request.packet | pure (st, [])
  let (query, recordType) := ((← agent.question request.packet).getD
    ("<unknown>".toList, "UNKNOWN".toList))
  let pending := cleanupPendingDns st.pending now
  let (some upstreamId, nextId) := allocateDnsId pending st.nextId
    | pure ({ st with pending := pending, nextId := (allocateDnsId pending st.nextId).2 }, [])
  let packet ← writeDnsId request.packet upstreamId
  let pending := pending.insert upstreamId
    ⟨request.client, request.target, originalId, query, recordType, now + dnsPendingTtl⟩
  if written then pure ({ st with pending := pending, nextId := nextId }, [.upstream packet])
  else pure ({ st with pending := pending.erase upstreamId, nextId := nextId }, [])

/-- `handle_dns_response`: the answer goes to the client of the request that
holds its id, under the client's id. -/
def handleDnsResponse (st : DnsProxyState Addr ρ) (response : List UInt8) (now : Nat) :
    Except Stop (DnsProxyState Addr ρ × List (DnsOutput Addr)) := do
  let some upstreamId := dnsId response | pure (st, [])
  let some request := st.pending.lookup upstreamId | pure (st, [])
  let pending := st.pending.erase upstreamId
  let summary ← responseSummary ops response
  let cache ← st.responseCache.insert ops.str request.query request.recordType summary response now
  let reply ← writeDnsId response request.originalId
  let st := { st with
    pending := pending
    responseCache := cache
    domains := agent.record st.domains request.query summary.answers now }
  pure (st, [.reply reply request.target request.client])

/-- A query: from the cache, else directly, else upstream. -/
def handleDnsRequest (st : DnsProxyState Addr ρ) (request : DnsProxyRequest Addr)
    (written : Bool) (direct : Option (List UInt8)) (now : Nat) :
    Except Stop (DnsProxyState Addr ρ × List (DnsOutput Addr)) := do
  let (cached, st, outs) ← trySendCachedDnsResponse ops agent st request now
  if cached then return (st, outs)
  let (answered, st, outs) ← trySendDirectDnsResponse ops agent st request direct now
  if answered then return (st, outs)
  sendDnsRequest agent st request now written

/-- One event of `run_dns_proxy`'s loop. -/
def dnsProxyStep (st : DnsProxyState Addr ρ) (now : Nat) :
    DnsProxyEvent Addr → Except Stop (DnsProxyState Addr ρ × List (DnsOutput Addr))
  | .request request written direct => handleDnsRequest ops agent st request written direct now
  | .response packet => handleDnsResponse ops agent st packet now
  | .cleanupTick => pure ({ st with pending := cleanupPendingDns st.pending now }, [])
  | .reconnect => pure ({ st with pending := ∅ }, [])

/-- The events one after another, each at its time, and what they send. -/
def dnsProxyRun (st : DnsProxyState Addr ρ) :
    List (DnsProxyEvent Addr × Nat) → Except Stop (DnsProxyState Addr ρ × List (DnsOutput Addr))
  | [] => pure (st, [])
  | (event, now) :: events => do
    let (st, outs) ← dnsProxyStep ops agent st now event
    let (st, outs') ← dnsProxyRun st events
    pure (st, outs ++ outs')

end Proxy

/-- The desktop agent: `parse_dns_query`, no direct resolution, and its own
domain cache. -/
def DnsAgent.desktop {ρ : Type} (ops : DnsProxyOps) (record : ρ → List Char → List String → Nat → ρ) :
    DnsAgent ρ :=
  ⟨fun packet => pure (parseDnsQueryPacket ops packet), none, record⟩

/-- The Android agent: `parse_dns_question`, the direct resolution of the
domains its checker routes directly, and the bounded domain cache. -/
def DnsAgent.android (ops : DnsProxyOps) (isDirectDomain : List Char → Bool) :
    DnsAgent DirectDomainCache :=
  ⟨fun packet => (Option.map fun q => (q.query, q.recordType)) <$> (parseDnsQuestion ops packet).run,
    some isDirectDomain,
    fun c query answers now => c.recordResolution ops.str query (answers.map String.toList) now⟩

-- ---------------------------------------------------------------------------
-- What cannot panic
-- ---------------------------------------------------------------------------

open Loop

/-- Every agent's question reader returns. -/
def DnsAgent.QuestionReturns {ρ : Type} (agent : DnsAgent ρ) : Prop :=
  ∀ packet, ∃ o, agent.question packet = .ok o

theorem dnsId_length {packet : List UInt8} {id : UInt16} (h : dnsId packet = some id) :
    2 ≤ packet.length := by
  unfold dnsId at h
  cases hr : getRange packet 0 2 with
  | none =>
    rw [hr] at h
    cases h
  | some bytes => exact (getRange_eq_some hr).2.1

/-- A summary says `NOERROR` only of a packet the parser read, which holds a
whole DNS header. -/
theorem responseSummary_ok (ops : DnsProxyOps) (packet : List UInt8) :
    ∃ s, responseSummary ops packet = .ok s ∧ (s.status = "NOERROR" → 12 ≤ packet.length) := by
  obtain ⟨o, ho⟩ := parseDnsResponse_returns ops.lossy ops.ipv6ToString packet (le_refl _)
  unfold responseSummary
  rw [ho]
  cases o with
  | none => exact ⟨_, rfl, fun h => absurd h (by decide)⟩
  | some s =>
    refine ⟨s, rfl, fun _ => ?_⟩
    unfold parseDnsResponse at ho
    split_ifs at ho with hshort
    · cases ho
    · omega

theorem parseDnsQuestion_returns (ops : DnsProxyOps) (packet : List UInt8) :
    Returns (parseDnsQuestion ops packet) := by
  unfold parseDnsQuestion
  refine (returns_mk _).bind ?_
  rintro ⟨query, recordType⟩ -
  refine (parseDnsName_returns ops.lossy packet (le_refl _) 12).bind ?_
  rintro ⟨_, offset⟩ -
  refine (readU16_returns packet _).bind fun _ _ => ?_
  dsimp only
  split_ifs
  · exact returns_failure
  · exact returns_pure _

theorem buildDnsErrorResponse_returns (ops : DnsProxyOps) (request : List UInt8) (rcode : UInt16) :
    Returns (buildDnsErrorResponse ops request rcode) := by
  unfold buildDnsErrorResponse
  refine (parseDnsQuestion_returns ops request).bind fun question _ => ?_
  obtain ⟨o, ho⟩ := readU16_returns request 2
  refine (returns_lift (a := o.getD 0) (by rw [ho]; rfl)).bind fun _ _ => ?_
  refine (returns_mk _).bind fun _ _ => ?_
  exact (returns_mk _).bind fun _ _ => returns_pure _

theorem questionReturns_desktop {ρ : Type} (ops : DnsProxyOps)
    (record : ρ → List Char → List String → Nat → ρ) : (DnsAgent.desktop ops record).QuestionReturns :=
  fun _ => ⟨_, rfl⟩

theorem questionReturns_android (ops : DnsProxyOps) (isDirectDomain : List Char → Bool) :
    (DnsAgent.android ops isDirectDomain).QuestionReturns := by
  intro packet
  obtain ⟨o, ho⟩ := parseDnsQuestion_returns ops packet
  exact ⟨_, by simp only [DnsAgent.android, ho]; rfl⟩

section Steps

variable {Addr ρ : Type} (ops : DnsProxyOps) {agent : DnsAgent ρ} {st : DnsProxyState Addr ρ}

/-- The cache's answer: no panic, the invariant kept, the pending queries
untouched, and nothing upstream. -/
theorem trySendCachedDnsResponse_ok (hq : agent.QuestionReturns) (hinv : st.responseCache.Inv)
    (request : DnsProxyRequest Addr) (now : Nat) :
    ∃ b st' outs, trySendCachedDnsResponse ops agent st request now = .ok (b, st', outs) ∧
      st'.responseCache.Inv ∧ st'.pending = st.pending ∧ ∀ p, .upstream p ∉ outs := by
  unfold trySendCachedDnsResponse
  cases hid : dnsId request.packet with
  | none => exact ⟨_, _, _, rfl, hinv, rfl, by simp⟩
  | some originalId =>
    obtain ⟨o, ho⟩ := hq request.packet
    simp only [ho, Result.ok_bind]
    cases o with
    | none => exact ⟨_, _, _, rfl, hinv, rfl, by simp⟩
    | some q =>
      obtain ⟨hit, cache, hget, hcache⟩ := hinv.get ops.str q.1 q.2 originalId now
      simp only [hget, Result.ok_bind]
      cases hit with
      | none => exact ⟨_, _, _, rfl, hcache, rfl, by simp⟩
      | some response =>
        obtain ⟨summary, hsummary, -⟩ := responseSummary_ok ops response
        simp only [hsummary, Result.ok_bind]
        exact ⟨_, _, _, rfl, hcache, rfl, by simp⟩

/-- The Android agent's direct answer: no panic, the invariant kept, the
pending queries untouched, and nothing upstream. -/
theorem trySendDirectDnsResponse_ok (hq : agent.QuestionReturns) (hinv : st.responseCache.Inv)
    (request : DnsProxyRequest Addr) (direct : Option (List UInt8)) (now : Nat) :
    ∃ b st' outs, trySendDirectDnsResponse ops agent st request direct now = .ok (b, st', outs) ∧
      st'.responseCache.Inv ∧ st'.pending = st.pending ∧ ∀ p, .upstream p ∉ outs := by
  unfold trySendDirectDnsResponse
  cases hdirect : agent.isDirectDomain with
  | none => exact ⟨_, _, _, rfl, hinv, rfl, by simp⟩
  | some isDirectDomain =>
    obtain ⟨o, ho⟩ := hq request.packet
    simp only [ho, Result.ok_bind]
    cases o with
    | none => exact ⟨_, _, _, rfl, hinv, rfl, by simp⟩
    | some q =>
      dsimp only
      split_ifs
      · exact ⟨_, _, _, rfl, hinv, rfl, by simp⟩
      obtain ⟨response, hresponse⟩ : ∃ response,
          directResponse ops request.packet direct = .ok response := by
        cases direct with
        | some response => exact ⟨response, rfl⟩
        | none =>
          obtain ⟨o, ho⟩ := buildDnsErrorResponse_returns ops request.packet 2
          exact ⟨o.getD [], by rw [directResponse, ho]; rfl⟩
      rw [hresponse, Result.ok_bind]
      split_ifs
      · exact ⟨_, _, _, rfl, hinv, rfl, by simp⟩
      obtain ⟨summary, hsummary, hnoerror⟩ := responseSummary_ok ops response
      obtain ⟨cache, hins, hcache⟩ := hinv.insert ops.str q.1 q.2 summary hnoerror now
      simp only [hsummary, hins, Result.ok_bind]
      exact ⟨_, _, _, rfl, hcache, rfl, by simp⟩

/-- Sending upstream: no panic, and the cache untouched. -/
theorem sendDnsRequest_ok (hq : agent.QuestionReturns) (st : DnsProxyState Addr ρ)
    (request : DnsProxyRequest Addr) (now : Nat) (written : Bool) :
    ∃ st' outs, sendDnsRequest agent st request now written = .ok (st', outs) ∧
      st'.responseCache = st.responseCache := by
  unfold sendDnsRequest
  cases hid : dnsId request.packet with
  | none => exact ⟨_, _, rfl, rfl⟩
  | some originalId =>
    obtain ⟨o, ho⟩ := hq request.packet
    simp only [ho, Result.ok_bind]
    cases halloc : allocateDnsId (cleanupPendingDns st.pending now) st.nextId with
    | mk upstreamId nextId =>
      cases upstreamId with
      | none => exact ⟨_, _, rfl, rfl⟩
      | some upstreamId =>
        dsimp only
        rw [writeDnsId_eq_ok (dnsId_length hid), Result.ok_bind]
        cases written
        · exact ⟨_, _, rfl, rfl⟩
        · exact ⟨_, _, rfl, rfl⟩

/-- An answer from upstream: no panic, and the invariant kept. -/
theorem handleDnsResponse_ok (hinv : st.responseCache.Inv) (response : List UInt8) (now : Nat) :
    ∃ st' outs, handleDnsResponse ops agent st response now = .ok (st', outs) ∧
      st'.responseCache.Inv := by
  unfold handleDnsResponse
  cases hid : dnsId response with
  | none => exact ⟨_, _, rfl, hinv⟩
  | some upstreamId =>
    dsimp only
    cases hlook : st.pending.lookup upstreamId with
    | none => exact ⟨_, _, rfl, hinv⟩
    | some request =>
      obtain ⟨summary, hsummary, hnoerror⟩ := responseSummary_ok ops response
      obtain ⟨cache, hins, hcache⟩ :=
        hinv.insert ops.str request.query request.recordType summary hnoerror now
      simp only [hsummary, hins, writeDnsId_eq_ok (dnsId_length hid), Result.ok_bind]
      exact ⟨_, _, rfl, hcache⟩

theorem handleDnsRequest_ok (hq : agent.QuestionReturns) (hinv : st.responseCache.Inv)
    (request : DnsProxyRequest Addr) (written : Bool) (direct : Option (List UInt8)) (now : Nat) :
    ∃ st' outs, handleDnsRequest ops agent st request written direct now = .ok (st', outs) ∧
      st'.responseCache.Inv := by
  obtain ⟨cached, st₁, outs₁, hcached, hinv₁, -, -⟩ :=
    trySendCachedDnsResponse_ok ops hq hinv request now
  obtain ⟨answered, st₂, outs₂, hdirect, hinv₂, -, -⟩ :=
    trySendDirectDnsResponse_ok ops hq hinv₁ request direct now
  obtain ⟨st₃, outs₃, hsend, hcache₃⟩ := sendDnsRequest_ok hq st₂ request now written
  unfold handleDnsRequest
  simp only [hcached, Result.ok_bind]
  cases cached
  · simp only [hdirect, Result.ok_bind]
    cases answered
    · exact ⟨st₃, outs₃, hsend, hcache₃ ▸ hinv₂⟩
    · exact ⟨_, _, rfl, hinv₂⟩
  · exact ⟨_, _, rfl, hinv₁⟩

/-- No event makes the task panic, and each keeps the cache's invariant. -/
theorem dnsProxyStep_ok (hq : agent.QuestionReturns) (hinv : st.responseCache.Inv) (now : Nat)
    (event : DnsProxyEvent Addr) :
    ∃ st' outs, dnsProxyStep ops agent st now event = .ok (st', outs) ∧ st'.responseCache.Inv := by
  cases event with
  | request request written direct => exact handleDnsRequest_ok ops hq hinv request written direct now
  | response packet => exact handleDnsResponse_ok ops hinv packet now
  | cleanupTick => exact ⟨_, _, rfl, hinv⟩
  | reconnect => exact ⟨_, _, rfl, hinv⟩

theorem dnsProxyRun_ok (hq : agent.QuestionReturns) :
    ∀ (st : DnsProxyState Addr ρ), st.responseCache.Inv → ∀ events : List (DnsProxyEvent Addr × Nat),
      ∃ st' outs, dnsProxyRun ops agent st events = .ok (st', outs) ∧ st'.responseCache.Inv
  | st, hinv, [] => ⟨st, [], rfl, hinv⟩
  | st, hinv, (event, now) :: events => by
    obtain ⟨st₁, outs₁, hstep, hinv₁⟩ := dnsProxyStep_ok ops hq hinv now event
    obtain ⟨st₂, outs₂, hrun, hinv₂⟩ := dnsProxyRun_ok hq st₁ hinv₁ events
    refine ⟨st₂, outs₁ ++ outs₂, ?_, hinv₂⟩
    simp only [dnsProxyRun, hstep, hrun, Result.ok_bind]
    rfl

end Steps

-- ---------------------------------------------------------------------------
-- Where answers go
-- ---------------------------------------------------------------------------

section Route

variable {Addr ρ : Type} (ops : DnsProxyOps) {agent : DnsAgent ρ}
  {pending : AList (fun _ : UInt16 => PendingDnsRequest Addr)} {u : UInt16}
  {r : PendingDnsRequest Addr} {now : Nat}

theorem lookup_of_lookup_cleanupPendingDns
    (h : (cleanupPendingDns pending now).lookup u = some r) : pending.lookup u = some r := by
  unfold cleanupPendingDns at h
  rw [Table.lookup_eraseAll] at h
  split_ifs at h
  exact h

/-- A query whose time is not up survives the sweep. -/
theorem lookup_cleanupPendingDns (h : pending.lookup u = some r) (hlive : now < r.expiresAt) :
    (cleanupPendingDns pending now).lookup u = some r := by
  unfold cleanupPendingDns
  rw [Table.lookup_eraseAll, if_neg]
  · exact h
  -- the one entry under `u` is `r`, which is live
  simp only [List.mem_map, List.mem_filter, not_exists, not_and]
  rintro kv ⟨hkv, hexpired⟩ hkey
  have hkv' : kv.2 ∈ pending.lookup u := by
    rw [AList.mem_lookup_iff, ← hkey]
    exact hkv
  rw [h, Option.mem_some_iff] at hkv'
  rw [hkv'] at hlive
  simp only [decide_eq_true_eq] at hexpired
  omega

variable {st st' : DnsProxyState Addr ρ} {outs : List (DnsOutput Addr)}

/-- A query is answered here, leaving the pending queries as they were and
sending nothing upstream, or it is sent upstream from a state with the same
pending queries. -/
theorem handleDnsRequest_cases (hq : agent.QuestionReturns) (hinv : st.responseCache.Inv)
    {request : DnsProxyRequest Addr} {written : Bool} {direct : Option (List UInt8)}
    (h : handleDnsRequest ops agent st request written direct now = .ok (st', outs)) :
    (st'.pending = st.pending ∧ ∀ p, .upstream p ∉ outs) ∨
      ∃ st₂ : DnsProxyState Addr ρ, st₂.pending = st.pending ∧
        sendDnsRequest agent st₂ request now written = .ok (st', outs) := by
  obtain ⟨cached, st₁, outs₁, hcached, hinv₁, hpending₁, hout₁⟩ :=
    trySendCachedDnsResponse_ok ops hq hinv request now
  obtain ⟨answered, st₂, outs₂, hdirect, -, hpending₂, hout₂⟩ :=
    trySendDirectDnsResponse_ok ops hq hinv₁ request direct now
  unfold handleDnsRequest at h
  simp only [hcached, Result.ok_bind] at h
  cases cached
  · simp only [hdirect, Result.ok_bind] at h
    cases answered
    · exact Or.inr ⟨st₂, hpending₂.trans hpending₁, h⟩
    · cases h
      exact Or.inl ⟨hpending₂.trans hpending₁, hout₂⟩
  · cases h
    exact Or.inl ⟨hpending₁, hout₁⟩

/-- Sending keeps every query whose time is not up: the id it takes is a free
one. -/
theorem sendDnsRequest_keeps {request : DnsProxyRequest Addr} {written : Bool}
    (h : sendDnsRequest agent st request now written = .ok (st', outs))
    (hlook : st.pending.lookup u = some r) (hlive : now < r.expiresAt) :
    st'.pending.lookup u = some r := by
  have hclean := lookup_cleanupPendingDns hlook hlive
  unfold sendDnsRequest at h
  cases hid : dnsId request.packet with
  | none =>
    rw [hid] at h
    cases h
    exact hlook
  | some originalId =>
    simp only [hid] at h
    obtain ⟨o, ho, h⟩ := Result.bind_eq_ok.mp h
    cases halloc : allocateDnsId (cleanupPendingDns st.pending now) st.nextId with
    | mk upstreamId nextId =>
      rw [halloc] at h
      cases upstreamId with
      | none =>
        cases h
        exact hclean
      | some upstreamId =>
        -- the id taken is free, so it is not `u`
        have hfree := (allocateDnsId_eq_some _ (by rw [halloc])).1
        have hne : u ≠ upstreamId := fun heq => hfree (heq ▸ AList.lookup_isSome.mp (by simp [hclean]))
        obtain ⟨packet, -, h⟩ := Result.bind_eq_ok.mp h
        cases written
        · cases h
          rw [AList.lookup_erase_ne hne, AList.lookup_insert_ne hne]
          exact hclean
        · cases h
          rw [AList.lookup_insert_ne hne]
          exact hclean

/-- An answer under another id keeps the query waiting under `u`. -/
theorem handleDnsResponse_keeps {response : List UInt8}
    (h : handleDnsResponse ops agent st response now = .ok (st', outs))
    (hid : dnsId response ≠ some u) (hlook : st.pending.lookup u = some r) :
    st'.pending.lookup u = some r := by
  unfold handleDnsResponse at h
  cases hid' : dnsId response with
  | none =>
    rw [hid'] at h
    cases h
    exact hlook
  | some upstreamId =>
    have hne : u ≠ upstreamId := fun heq => hid (heq ▸ hid')
    simp only [hid'] at h
    cases hreq : st.pending.lookup upstreamId with
    | none =>
      rw [hreq] at h
      cases h
      exact hlook
    | some request =>
      simp only [hreq] at h
      obtain ⟨_, -, h⟩ := Result.bind_eq_ok.mp h
      obtain ⟨_, -, h⟩ := Result.bind_eq_ok.mp h
      obtain ⟨_, -, h⟩ := Result.bind_eq_ok.mp h
      cases h
      rw [AList.lookup_erase_ne hne]
      exact hlook

/-- What an event does to the query waiting under `u`: it keeps it, unless it
is a new connection, an answer under `u`, or comes when the query's time is
up. -/
theorem dnsProxyStep_keeps (hq : agent.QuestionReturns) (hinv : st.responseCache.Inv)
    {event : DnsProxyEvent Addr} (h : dnsProxyStep ops agent st now event = .ok (st', outs))
    (hlook : st.pending.lookup u = some r) (hlive : now < r.expiresAt)
    (hconn : event ≠ .reconnect) (hanswer : ∀ packet, event = .response packet → dnsId packet ≠ some u) :
    st'.pending.lookup u = some r := by
  cases event with
  | request request written direct =>
    rcases handleDnsRequest_cases ops hq hinv h with ⟨hpending, -⟩ | ⟨st₂, hpending, hsend⟩
    · rw [hpending]
      exact hlook
    · exact sendDnsRequest_keeps hsend (hpending ▸ hlook) hlive
  | response packet => exact handleDnsResponse_keeps ops h (hanswer packet rfl) hlook
  | cleanupTick =>
    cases h
    exact lookup_cleanupPendingDns hlook hlive
  | reconnect => exact absurd rfl hconn

theorem dnsProxyRun_keeps (hq : agent.QuestionReturns) :
    ∀ {st st' : DnsProxyState Addr ρ} {outs : List (DnsOutput Addr)}
      (events : List (DnsProxyEvent Addr × Nat)), st.responseCache.Inv →
      dnsProxyRun ops agent st events = .ok (st', outs) → st.pending.lookup u = some r →
      (∀ e ∈ events, e.2 < r.expiresAt ∧ e.1 ≠ .reconnect ∧
        ∀ packet, e.1 = .response packet → dnsId packet ≠ some u) →
      st'.pending.lookup u = some r
  | _, _, _, [], _, h, hlook, _ => by
    cases h
    exact hlook
  | st, _, _, (event, now) :: events, hinv, h, hlook, hquiet => by
    -- the run is one step, then the rest from the state it leaves
    obtain ⟨⟨st₁, outs₁⟩, hstep, h⟩ := Result.bind_eq_ok.mp h
    obtain ⟨⟨st₂, outs₂⟩, hrest, hfin⟩ := Result.bind_eq_ok.mp h
    cases hfin
    obtain ⟨hlive, hconn, hanswer⟩ := hquiet (event, now) List.mem_cons_self
    obtain ⟨st₁', outs₁', hstep', hinv₁⟩ := dnsProxyStep_ok ops hq hinv now event
    rw [hstep] at hstep'
    cases hstep'
    have hlook₁ := dnsProxyStep_keeps ops hq hinv hstep hlook hlive hconn hanswer
    exact dnsProxyRun_keeps hq events hinv₁ hrest hlook₁
      fun e he => hquiet e (List.mem_cons_of_mem _ he)

/-- A query that goes upstream waits under the id of the packet sent, for the
client, with the client's id, until `DNS_PENDING_TTL` from now. -/
theorem sendDnsRequest_upstream {request : DnsProxyRequest Addr} {written : Bool}
    (h : sendDnsRequest agent st request now written = .ok (st', outs)) {p : List UInt8}
    (hp : .upstream p ∈ outs) :
    ∃ x u query recordType, dnsId request.packet = some x ∧ dnsId p = some u ∧
      st'.pending.lookup u =
        some ⟨request.client, request.target, x, query, recordType, now + dnsPendingTtl⟩ := by
  unfold sendDnsRequest at h
  cases hid : dnsId request.packet with
  | none =>
    rw [hid] at h
    cases h
    cases hp
  | some x =>
    simp only [hid] at h
    obtain ⟨o, -, h⟩ := Result.bind_eq_ok.mp h
    cases halloc : allocateDnsId (cleanupPendingDns st.pending now) st.nextId with
    | mk upstreamId nextId =>
      rw [halloc] at h
      cases upstreamId with
      | none =>
        cases h
        cases hp
      | some u =>
        obtain ⟨packet, hpacket, h⟩ := Result.bind_eq_ok.mp h
        cases written
        · cases h
          cases hp
        · cases h
          rw [List.mem_singleton, DnsOutput.upstream.injEq] at hp
          subst hp
          refine ⟨x, u, _, _, rfl, ?_, AList.lookup_insert _⟩
          rw [(writeDnsId_of_ok hpacket).2]
          exact dnsId_fixedBytes_append u _

/-- An answer under the id of a waiting query goes to that query's client,
under the client's id. -/
theorem handleDnsResponse_reply (hinv : st.responseCache.Inv) {response : List UInt8}
    (hid : dnsId response = some u) (hlook : st.pending.lookup u = some r) :
    ∃ st', handleDnsResponse ops agent st response now =
      .ok (st', [.reply (fixedBytes 2 r.originalId.toNat ++ response.drop 2) r.target r.client]) := by
  obtain ⟨summary, hsummary, hnoerror⟩ := responseSummary_ok ops response
  obtain ⟨cache, hins, -⟩ := hinv.insert ops.str r.query r.recordType summary hnoerror now
  unfold handleDnsResponse
  simp only [hid, hlook, hsummary, hins, writeDnsId_eq_ok (dnsId_length hid), Result.ok_bind]
  exact ⟨_, rfl⟩

theorem inv_of_dnsProxyRun (hq : agent.QuestionReturns) {events : List (DnsProxyEvent Addr × Nat)}
    (h : dnsProxyRun ops agent st events = .ok (st', outs)) (hinv : st.responseCache.Inv) :
    st'.responseCache.Inv := by
  obtain ⟨st'', outs'', h', hinv'⟩ := dnsProxyRun_ok ops hq st hinv events
  rw [h] at h'
  cases h'
  exact hinv'

end Route

/-- However queries, answers, cleanup ticks and failed writes interleave, an
answer that comes back under the id a query was sent upstream with is sent to
that query's client, under the client's own id: as long as no new connection
was made, no other answer came under that id, and no sweep ran after the
query's `DNS_PENDING_TTL`. -/
theorem dns_answer_reaches_client {Addr ρ : Type} (ops : DnsProxyOps) (agent : DnsAgent ρ)
    (hq : agent.QuestionReturns) (domains : ρ) (before : List (DnsProxyEvent Addr × Nat))
    (st : DnsProxyState Addr ρ) (outs : List (DnsOutput Addr))
    (hbefore : dnsProxyRun ops agent (.init domains) before = .ok (st, outs))
    (request : DnsProxyRequest Addr) (written : Bool) (direct : Option (List UInt8)) (t : Nat)
    (x : UInt16) (hx : dnsId request.packet = some x) (st₁ : DnsProxyState Addr ρ)
    (outs₁ : List (DnsOutput Addr))
    (hsend : dnsProxyStep ops agent st t (.request request written direct) = .ok (st₁, outs₁))
    (p : List UInt8) (hup : .upstream p ∈ outs₁) (between : List (DnsProxyEvent Addr × Nat))
    (st₂ : DnsProxyState Addr ρ) (outs₂ : List (DnsOutput Addr))
    (hbetween : dnsProxyRun ops agent st₁ between = .ok (st₂, outs₂))
    (hquiet : ∀ e ∈ between, e.2 < t + dnsPendingTtl ∧ e.1 ≠ .reconnect ∧
      ∀ packet, e.1 = .response packet → dnsId packet ≠ dnsId p)
    (response : List UInt8) (hresponse : dnsId response = dnsId p) (t' : Nat) :
    ∃ st₃, dnsProxyStep ops agent st₂ t' (.response response) =
      .ok (st₃, [.reply (fixedBytes 2 x.toNat ++ response.drop 2) request.target request.client]) := by
  have hinv := inv_of_dnsProxyRun ops hq hbefore DnsResponseCache.inv_empty
  -- the query went upstream, so `send_dns_request` left it waiting under the packet's id
  obtain ⟨st₀, -, hsend'⟩ := (handleDnsRequest_cases ops hq hinv hsend).resolve_left
    fun ⟨_, hnone⟩ => hnone p hup
  obtain ⟨x', u, query, recordType, hx', hu, hlook⟩ := sendDnsRequest_upstream hsend' hup
  rw [hx] at hx'
  cases hx'
  obtain ⟨st₁', outs₁', hstep₁, hinv₁⟩ := dnsProxyStep_ok ops hq hinv t
    (.request request written direct)
  rw [hsend] at hstep₁
  cases hstep₁
  -- nothing in between takes it away
  have hlook₂ := dnsProxyRun_keeps ops hq between hinv₁ hbetween hlook fun e he => by
    obtain ⟨hlive, hconn, hanswer⟩ := hquiet e he
    exact ⟨hlive, hconn, fun packet he' => hu ▸ hanswer packet he'⟩
  exact handleDnsResponse_reply ops (inv_of_dnsProxyRun ops hq hbetween hinv₁)
    (hresponse.trans hu) hlook₂

/-- Operations whose query parser reads no query: nothing is answered from the
cache, and every query goes upstream. -/
def opaqueDnsOps : DnsProxyOps :=
  ⟨DnsResponseCache.plainStrOps, fun _ => none, fun _ => "", fun _ => ""⟩

/-- The desktop agent sends a query with id `0x1234` from client 1 upstream,
under id 0; the answer under id 0 goes back to client 1 under `0x1234`. -/
theorem dns_answer_reaches_client_example :
    ∃ st₁ outs₁, dnsProxyStep opaqueDnsOps (.desktop opaqueDnsOps fun (_ : Unit) _ _ _ => ())
        (.init ()) 0 (.request ⟨1, 53, [0x12, 0x34, 1, 0, 0, 1, 0, 0, 0, 0, 0, 0]⟩ true none) =
        .ok (st₁, outs₁) ∧
      ∃ st₃, dnsProxyStep opaqueDnsOps (.desktop opaqueDnsOps fun (_ : Unit) _ _ _ => ()) st₁ 500
          (.response [0, 0, 0x81, 0x80, 0, 1, 0, 1, 0, 0, 0, 0]) =
        .ok (st₃, [.reply (fixedBytes 2 (0x1234 : UInt16).toNat ++ [0x81, 0x80, 0, 1, 0, 1, 0, 0, 0, 0])
          (53 : Nat) (1 : Nat)]) := by
  obtain ⟨st₁, outs₁, hsend⟩ : ∃ st₁ outs₁, dnsProxyStep opaqueDnsOps
      (.desktop opaqueDnsOps fun (_ : Unit) _ _ _ => ()) (.init ()) 0
      (.request ⟨(1 : Nat), 53, [0x12, 0x34, 1, 0, 0, 1, 0, 0, 0, 0, 0, 0]⟩ true none) =
      .ok (st₁, outs₁) := ⟨_, _, rfl⟩
  refine ⟨st₁, outs₁, hsend, ?_⟩
  exact dns_answer_reaches_client opaqueDnsOps _ (questionReturns_desktop _ _) () [] _ _ rfl _ true
    none 0 0x1234 rfl st₁ outs₁ hsend [0, 0, 1, 0, 0, 1, 0, 0, 0, 0, 0, 0]
    (by cases hsend; simp; rfl) [] st₁ [] rfl (by simp) [0, 0, 0x81, 0x80, 0, 1, 0, 1, 0, 0, 0, 0] rfl
    500

/-- Neither agent's DNS task panics, whatever queries, answers, timers and
connection failures it meets: every run from its start returns. -/
theorem dns_proxy_never_panics {Addr ρ : Type} (ops : DnsProxyOps)
    (record : ρ → List Char → List String → Nat → ρ) (domains : ρ)
    (isDirectDomain : List Char → Bool) (cache : DirectDomainCache)
    (events : List (DnsProxyEvent Addr × Nat)) :
    (∃ st outs, dnsProxyRun ops (.desktop ops record) (.init domains) events = .ok (st, outs)) ∧
      ∃ st outs, dnsProxyRun ops (.android ops isDirectDomain) (.init cache) events =
        .ok (st, outs) := by
  obtain ⟨st, outs, hdesktop, -⟩ := dnsProxyRun_ok ops (questionReturns_desktop ops record)
    (.init domains) DnsResponseCache.inv_empty events
  obtain ⟨st', outs', handroid, -⟩ := dnsProxyRun_ok ops (questionReturns_android ops isDirectDomain)
    (.init cache) DnsResponseCache.inv_empty events
  exact ⟨⟨st, outs, hdesktop⟩, st', outs', handroid⟩

end Ppaass.Agent
