import Ppaass.Lib.Machine
import Ppaass.Lib.Table
import Ppaass.Protocol.Udp.Codec

/-!
# The proxy's native UDP listener

`NativeUdpListener` (`proxy/src/native_udp/listener.rs`) keeps one route
per authenticated session id: the peer that authenticated it, a generation,
the queue into the session's task, and the AuthInit and AuthOk datagrams of
the handshake. Its loop takes, in any order, a datagram from the socket or
a `SessionCleanup` that a session task's drop guard sent when the task
ended.

The listener is a machine over its state and the events around it: a
datagram arrives, carrying what `prepare_session` would answer for it (that
depends on the user database, the clock and the random generator, so it is
an input); the listener takes the next cleanup; a session task ends; or a
session task takes a datagram off its queue. A task's queue is closed once
the task has ended, which is what `try_send` sees as `Closed`.

`Inv` holds in every state reached from `new()` before the generation
counter wraps (`inv_final`), and from it `BoundToFirstAuth`: the session
limit holds, the generations of the routes are distinct and non-zero, no
event but the session's own traffic changes a route, an AuthInit never
changes one and a retransmitted one is answered with the stored AuthOk, a
cleanup removes a route only if it carries the route's generation, which is
then a route whose task has ended, and a datagram is queued to a session
only if it came from the session's peer.
-/

namespace Ppaass.Proxy

open Ppaass.Udp

/-- `udp_session_limit` and `udp_session_channel_size` of `ProxyConfig`. -/
structure ListenerConfig where
  udpSessionLimit : Nat
  udpSessionChannelSize : Nat

/-- `decode_auth_packet`; `deserialize` is bitcode on the payload type. -/
def decodeAuthPacket {α : Type} (deserialize : List UInt8 → Except String α)
    (expectedKind : UdpPacketKind) (datagram : List UInt8) :
    Except UdpTransportError (UdpPacketHeader × α) := do
  if datagram.length > udpMaxDatagramSize then throw (.datagramTooLarge datagram.length)
  if datagram.length < udpTransportHeaderLen then throw (.datagramTooShort datagram.length)
  let header ← UdpPacketHeader.decode datagram
  if header.kind ≠ expectedKind then
    throw (.unexpectedPacketKind expectedKind.toU8 header.kind.toU8)
  let payload := datagram.drop udpTransportHeaderLen
  if header.totalLen.toNat ≠ payload.length then
    throw (.invalidHeader "authentication payload length does not match total_len")
  let value ← (deserialize payload).mapError .serialization
  pure (header, value)

/-- `SessionRoute`; `inbound` is what `inbound_tx` has queued that the
session task has not taken yet. -/
structure SessionRoute (Addr : Type) where
  peer : Addr
  generation : UInt64
  inbound : List (List UInt8)
  authInitDatagram : List UInt8
  authOkDatagram : List UInt8

structure SessionCleanup where
  sessionId : UdpSessionId
  generation : UInt64
  deriving DecidableEq, Repr

/-- The listener's state. A session task is named by the cleanup its guard
sends when it ends; `cleanups` is what `cleanup_tx` has sent and the loop
has not received. -/
structure NativeUdpListener (Addr : Type) where
  sessions : AList (fun _ : UdpSessionId => SessionRoute Addr)
  sessionTasks : List SessionCleanup
  cleanups : List SessionCleanup
  nextGeneration : UInt64

/-- What can happen next: a datagram arrives, with what `prepare_session`
would return for it (the AuthOk datagram, or nothing on failure); the loop
receives the next cleanup; a session task ends; a session task takes the
next datagram of its queue. -/
inductive ListenerEvent (Addr : Type) where
  | received (peer : Addr) (datagram : List UInt8) (prepared : Option (List UInt8))
  | cleanup
  | sessionEnds (task : SessionCleanup)
  | sessionTakes (task : SessionCleanup)

namespace NativeUdpListener

variable {Addr : Type} {Auth : Type}

/-- The listener `run_listener` starts. -/
def new : NativeUdpListener Addr := ⟨∅, [], [], 1⟩

def allocateGeneration (l : NativeUdpListener Addr) : UInt64 × NativeUdpListener Addr :=
  (l.nextGeneration, { l with nextGeneration := max (l.nextGeneration + 1) 1 })

def removeSession (l : NativeUdpListener Addr) (cleanup : SessionCleanup) :
    NativeUdpListener Addr :=
  if (l.sessions.lookup cleanup.sessionId).any (·.generation == cleanup.generation) then
    { l with sessions := l.sessions.erase cleanup.sessionId }
  else l

variable (config : ListenerConfig) (deserialize : List UInt8 → Except String Auth)

section Handlers

variable [DecidableEq Addr]

def dispatchEncrypted (l : NativeUdpListener Addr) (peer : Addr) (sessionId : UdpSessionId)
    (datagram : List UInt8) : NativeUdpListener Addr :=
  match l.sessions.lookup sessionId with
  | none => l
  | some route =>
    if route.peer ≠ peer then l
    -- `try_send` answers `Closed` once the session task has ended, and `Full`
    -- when the queue holds `channel_size` datagrams
    else if ⟨sessionId, route.generation⟩ ∉ l.sessionTasks then
      l.removeSession ⟨sessionId, route.generation⟩
    else if route.inbound.length ≥ max config.udpSessionChannelSize 1 then l
    else
      { l with
        sessions := l.sessions.replace sessionId
          { route with inbound := route.inbound ++ [datagram] } }

/-- `handle_auth_init`; the second component is the datagrams sent. -/
def handleAuthInit (l : NativeUdpListener Addr) (peer : Addr) (datagram : List UInt8)
    (prepared : Option (List UInt8)) : NativeUdpListener Addr × List (Addr × List UInt8) :=
  match decodeAuthPacket deserialize .authInit datagram with
  | .error _ => (l, [])
  | .ok (header, _) =>
    let sessionId := header.sessionId
    match l.sessions.lookup sessionId with
    | some existing =>
      -- a retransmission of the first flight is answered again, a collision dropped
      if existing.peer = peer ∧ existing.authInitDatagram = datagram then
        (l, [(peer, existing.authOkDatagram)])
      else (l, [])
    | none =>
      if l.sessions.entries.length ≥ config.udpSessionLimit then (l, [])
      else
        match prepared with
        | none => (l, [])
        | some authOkDatagram =>
          let (generation, l) := l.allocateGeneration
          ({ l with
              sessions := l.sessions.insert sessionId
                { peer, generation, inbound := [], authInitDatagram := datagram, authOkDatagram }
              sessionTasks := l.sessionTasks ++ [⟨sessionId, generation⟩] },
            [(peer, authOkDatagram)])

def handleDatagram (l : NativeUdpListener Addr) (peer : Addr) (datagram : List UInt8)
    (prepared : Option (List UInt8)) : NativeUdpListener Addr × List (Addr × List UInt8) :=
  match UdpPacketHeader.decode datagram with
  | .error _ => (l, [])
  | .ok header =>
    match header.kind with
    | .authInit => l.handleAuthInit config deserialize peer datagram prepared
    | .encrypted => (l.dispatchEncrypted config peer header.sessionId datagram, [])
    | .authOk => (l, [])

/-- One turn of the loop of `run`, or one move of a session task. -/
def step (l : NativeUdpListener Addr) :
    ListenerEvent Addr → NativeUdpListener Addr × List (Addr × List UInt8)
  | .received peer datagram prepared =>
    if datagram.length > udpMaxDatagramSize then (l, [])
    else l.handleDatagram config deserialize peer datagram prepared
  | .cleanup =>
    match l.cleanups with
    | [] => (l, [])
    | cleanup :: rest => ({ l with cleanups := rest }.removeSession cleanup, [])
  | .sessionEnds task =>
    -- the task's queue closes and its guard sends its cleanup
    if task ∈ l.sessionTasks then
      ({ l with sessionTasks := l.sessionTasks.erase task, cleanups := l.cleanups ++ [task] }, [])
    else (l, [])
  | .sessionTakes task =>
    if task ∈ l.sessionTasks then
      match l.sessions.lookup task.sessionId with
      | some route =>
        if route.generation = task.generation then
          ({ l with
              sessions := l.sessions.replace task.sessionId
                { route with inbound := route.inbound.tail } }, [])
        else (l, [])
      | none => (l, [])
    else (l, [])

end Handlers

-- ---------------------------------------------------------------------------
-- What one event does
-- ---------------------------------------------------------------------------

section Moves

variable {l : NativeUdpListener Addr}

theorem removeSession_of_lookup {cleanup : SessionCleanup} {route : SessionRoute Addr}
    (h : l.sessions.lookup cleanup.sessionId = some route)
    (hgen : route.generation = cleanup.generation) :
    l.removeSession cleanup = { l with sessions := l.sessions.erase cleanup.sessionId } := by
  simp [removeSession, h, hgen]

theorem removeSession_of_ne {cleanup : SessionCleanup}
    (h : ∀ route, l.sessions.lookup cleanup.sessionId = some route →
      route.generation ≠ cleanup.generation) :
    l.removeSession cleanup = l := by
  unfold removeSession
  cases hroute : l.sessions.lookup cleanup.sessionId with
  | none => simp
  | some route => simp [h route hroute]

theorem toNat_allocateGeneration {n : UInt64} (h : n ≠ u64Max) :
    (max (n + 1) 1).toNat = n.toNat + 1 := by
  rw [UInt64.toNat_max, toNat_succ_of_ne_u64Max h]
  simp

/-- The allocator moves on at every allocation, also when it wraps. -/
theorem allocateGeneration_ne (n : UInt64) : max (n + 1) 1 ≠ n := by
  by_cases hmax : n = u64Max
  · subst hmax; decide
  · intro h
    have hnat := toNat_allocateGeneration hmax
    rw [h] at hnat
    omega

/-- Everything one event can do to the listener, read off `step`: nothing,
or open a session for a fresh AuthInit, or queue an Encrypted datagram from
the session's peer to its live task, or drop the route of a task that has
ended, or take the next cleanup, or end a task, or let a task take a
datagram. -/
inductive Move (l : NativeUdpListener Addr) : ListenerEvent Addr → NativeUdpListener Addr → Prop where
  | stays (e : ListenerEvent Addr) : Move l e l
  | authenticates (peer : Addr) (datagram : List UInt8) (header : UdpPacketHeader) (auth : Auth)
      (authOkDatagram : List UInt8)
      (hdecode : decodeAuthPacket deserialize .authInit datagram = .ok (header, auth))
      (hfresh : l.sessions.lookup header.sessionId = none)
      (hroom : l.sessions.entries.length < config.udpSessionLimit) :
      Move l (.received peer datagram (some authOkDatagram))
        { sessions := l.sessions.insert header.sessionId
            ⟨peer, l.nextGeneration, [], datagram, authOkDatagram⟩
          sessionTasks := l.sessionTasks ++ [⟨header.sessionId, l.nextGeneration⟩]
          cleanups := l.cleanups
          nextGeneration := max (l.nextGeneration + 1) 1 }
  | queues (peer : Addr) (datagram : List UInt8) (prepared : Option (List UInt8))
      (header : UdpPacketHeader) (route : SessionRoute Addr)
      (hdecode : UdpPacketHeader.decode datagram = .ok header) (hkind : header.kind = .encrypted)
      (hroute : l.sessions.lookup header.sessionId = some route) (hpeer : route.peer = peer)
      (hlive : ⟨header.sessionId, route.generation⟩ ∈ l.sessionTasks) :
      Move l (.received peer datagram prepared)
        { l with
          sessions := l.sessions.replace header.sessionId
            { route with inbound := route.inbound ++ [datagram] } }
  | closes (peer : Addr) (datagram : List UInt8) (prepared : Option (List UInt8))
      (header : UdpPacketHeader) (route : SessionRoute Addr)
      (hdecode : UdpPacketHeader.decode datagram = .ok header) (hkind : header.kind = .encrypted)
      (hroute : l.sessions.lookup header.sessionId = some route)
      (hended : ⟨header.sessionId, route.generation⟩ ∉ l.sessionTasks) :
      Move l (.received peer datagram prepared)
        { l with sessions := l.sessions.erase header.sessionId }
  | cleans (cleanup : SessionCleanup) (rest : List SessionCleanup)
      (h : l.cleanups = cleanup :: rest) :
      Move l .cleanup ({ l with cleanups := rest }.removeSession cleanup)
  | ends (task : SessionCleanup) (hlive : task ∈ l.sessionTasks) :
      Move l (.sessionEnds task)
        { l with sessionTasks := l.sessionTasks.erase task, cleanups := l.cleanups ++ [task] }
  | takes (task : SessionCleanup) (route : SessionRoute Addr) (hlive : task ∈ l.sessionTasks)
      (hroute : l.sessions.lookup task.sessionId = some route)
      (hgen : route.generation = task.generation) :
      Move l (.sessionTakes task)
        { l with
          sessions := l.sessions.replace task.sessionId { route with inbound := route.inbound.tail } }

variable [DecidableEq Addr]

theorem handleAuthInit_move {peer : Addr} {datagram : List UInt8}
    {prepared : Option (List UInt8)} :
    Move config deserialize l (.received peer datagram prepared)
      (l.handleAuthInit config deserialize peer datagram prepared).1 := by
  unfold handleAuthInit
  cases hdecode : decodeAuthPacket deserialize .authInit datagram with
  | error e => exact .stays _
  | ok decoded =>
    obtain ⟨header, auth⟩ := decoded
    dsimp only
    cases hfresh : l.sessions.lookup header.sessionId with
    | some existing =>
      simp only
      split_ifs <;> exact .stays _
    | none =>
      simp only
      split_ifs with hfull
      · exact .stays _
      · cases prepared with
        | none => exact .stays _
        | some authOkDatagram =>
          exact .authenticates peer datagram header auth authOkDatagram hdecode hfresh (by omega)

theorem dispatchEncrypted_move {peer : Addr} {datagram : List UInt8}
    {prepared : Option (List UInt8)} {header : UdpPacketHeader}
    (hdecode : UdpPacketHeader.decode datagram = .ok header) (hkind : header.kind = .encrypted) :
    Move config deserialize l (.received peer datagram prepared)
      (l.dispatchEncrypted config peer header.sessionId datagram) := by
  unfold dispatchEncrypted
  cases hroute : l.sessions.lookup header.sessionId with
  | none => exact .stays _
  | some route =>
    simp only
    by_cases hpeer : route.peer = peer
    · rw [if_neg (not_not.mpr hpeer)]
      by_cases hlive : (⟨header.sessionId, route.generation⟩ : SessionCleanup) ∈ l.sessionTasks
      · rw [if_neg (not_not.mpr hlive)]
        split_ifs
        · exact .stays _
        · exact .queues peer datagram prepared header route hdecode hkind hroute hpeer hlive
      · rw [if_pos hlive, removeSession_of_lookup hroute rfl]
        exact .closes peer datagram prepared header route hdecode hkind hroute hlive
    · rw [if_pos hpeer]
      exact .stays _

theorem step_move (l : NativeUdpListener Addr) (e : ListenerEvent Addr) :
    Move config deserialize l e (l.step config deserialize e).1 := by
  cases e with
  | received peer datagram prepared =>
    simp only [step]
    split_ifs
    · exact .stays _
    · unfold handleDatagram
      cases hdecode : UdpPacketHeader.decode datagram with
      | error e => exact .stays _
      | ok header =>
        dsimp only
        cases hkind : header.kind with
        | authInit => exact handleAuthInit_move config deserialize
        | encrypted => exact dispatchEncrypted_move config deserialize hdecode hkind
        | authOk => exact .stays _
  | cleanup =>
    simp only [step]
    cases hcleanups : l.cleanups with
    | nil => exact .stays _
    | cons cleanup rest => exact .cleans cleanup rest hcleanups
  | sessionEnds task =>
    simp only [step]
    split_ifs with hlive
    · exact .ends task hlive
    · exact .stays _
  | sessionTakes task =>
    simp only [step]
    split_ifs with hlive
    · cases hroute : l.sessions.lookup task.sessionId with
      | none => exact .stays _
      | some route =>
        simp only
        split_ifs with hgen
        · exact .takes task route hlive hroute hgen
        · exact .stays _
    · exact .stays _

end Moves

-- ---------------------------------------------------------------------------
-- The invariant
-- ---------------------------------------------------------------------------

/-- What holds in every state the listener reaches. Each session task, live
or with its cleanup in flight, carries a generation of its own below the
allocator's; every route belongs to one of these tasks, every live task
still has its route, and a cleanup in flight is never newer than the route
now under its session id. -/
structure Inv (l : NativeUdpListener Addr) : Prop where
  length_le : l.sessions.entries.length ≤ config.udpSessionLimit
  nextGeneration_pos : 0 < l.nextGeneration.toNat
  generation_lt : ∀ t ∈ l.sessionTasks ++ l.cleanups,
    0 < t.generation.toNat ∧ t.generation.toNat < l.nextGeneration.toNat
  generations_nodup : ((l.sessionTasks ++ l.cleanups).map (·.generation)).Nodup
  route_task : ∀ sessionId route, l.sessions.lookup sessionId = some route →
    (⟨sessionId, route.generation⟩ : SessionCleanup) ∈ l.sessionTasks ++ l.cleanups
  task_route : ∀ t ∈ l.sessionTasks,
    ∃ route, l.sessions.lookup t.sessionId = some route ∧ route.generation = t.generation
  cleanup_le : ∀ c ∈ l.cleanups, ∀ route, l.sessions.lookup c.sessionId = some route →
    c.generation.toNat ≤ route.generation.toNat
  route_authInit : ∀ sessionId route, l.sessions.lookup sessionId = some route →
    ∃ header auth, decodeAuthPacket deserialize .authInit route.authInitDatagram = .ok (header, auth) ∧
      header.sessionId = sessionId

theorem inv_new : Inv config deserialize (new : NativeUdpListener Addr) where
  length_le := by simp [new]
  nextGeneration_pos := by simp [new]
  generation_lt := by simp [new]
  generations_nodup := by simp [new]
  route_task := by simp [new]
  task_route := by simp [new]
  cleanup_le := by simp [new]
  route_authInit := by simp [new]

section Preservation

variable {config deserialize} {l : NativeUdpListener Addr}

/-- A task whose cleanup is in flight is no longer live. -/
theorem Inv.not_live_of_cleanup (hinv : Inv config deserialize l) {c : SessionCleanup}
    (hc : c ∈ l.cleanups) : c ∉ l.sessionTasks := by
  intro hlive
  have hnodup := hinv.generations_nodup
  rw [List.map_append, List.nodup_append] at hnodup
  exact hnodup.2.2 _ (List.mem_map_of_mem hlive) _ (List.mem_map_of_mem hc) rfl

theorem Inv.generation_of_live (hinv : Inv config deserialize l) {t : SessionCleanup}
    {route : SessionRoute Addr} (ht : t ∈ l.sessionTasks)
    (hroute : l.sessions.lookup t.sessionId = some route) : route.generation = t.generation := by
  obtain ⟨route', hroute', hgen⟩ := hinv.task_route t ht
  rw [hroute] at hroute'
  cases hroute'
  exact hgen

/-- A new session: its route and task take the allocator's generation, which
no task holds yet. -/
theorem Inv.authenticate (hinv : Inv config deserialize l) {peer : Addr} {datagram : List UInt8}
    {header : UdpPacketHeader} {auth : Auth} {authOkDatagram : List UInt8}
    (hdecode : decodeAuthPacket deserialize .authInit datagram = .ok (header, auth))
    (hfresh : l.sessions.lookup header.sessionId = none)
    (hroom : l.sessions.entries.length < config.udpSessionLimit)
    (hwrap : l.nextGeneration ≠ u64Max) :
    Inv config deserialize
      { sessions := l.sessions.insert header.sessionId
          ⟨peer, l.nextGeneration, [], datagram, authOkDatagram⟩
        sessionTasks := l.sessionTasks ++ [⟨header.sessionId, l.nextGeneration⟩]
        cleanups := l.cleanups
        nextGeneration := max (l.nextGeneration + 1) 1 } := by
  have hnext := toNat_allocateGeneration hwrap
  have hperm : List.Perm (l.sessionTasks ++ [⟨header.sessionId, l.nextGeneration⟩] ++ l.cleanups)
      (⟨header.sessionId, l.nextGeneration⟩ :: (l.sessionTasks ++ l.cleanups)) := by
    simp
  -- the routes already there keep their lookups
  have hold : ∀ sessionId route, l.sessions.lookup sessionId = some route →
      sessionId ≠ header.sessionId := by
    rintro sessionId route hroute rfl
    rw [hfresh] at hroute
    cases hroute
  have hlookup : ∀ sessionId, sessionId ≠ header.sessionId →
      (l.sessions.insert header.sessionId ⟨peer, l.nextGeneration, [], datagram, authOkDatagram⟩).lookup
        sessionId = l.sessions.lookup sessionId :=
    fun sessionId hne => AList.lookup_insert_ne hne
  constructor
  · rw [Table.length_insert_of_notMem (AList.lookup_eq_none.mp hfresh)]
    omega
  · rw [hnext]; omega
  · intro t ht
    rcases List.mem_cons.mp (hperm.mem_iff.mp ht) with rfl | ht
    · refine ⟨hinv.nextGeneration_pos, ?_⟩
      show l.nextGeneration.toNat < (max (l.nextGeneration + 1) 1).toNat
      omega
    · have := hinv.generation_lt t ht
      exact ⟨this.1, by rw [hnext]; omega⟩
  · refine (hperm.map _).nodup_iff.mpr (List.nodup_cons.mpr ⟨?_, hinv.generations_nodup⟩)
    intro hmem
    obtain ⟨t, ht, hgen⟩ := List.mem_map.mp hmem
    have hgen' : t.generation = l.nextGeneration := hgen
    have := (hinv.generation_lt t ht).2
    rw [hgen'] at this
    omega
  · intro sessionId route hroute
    refine hperm.mem_iff.mpr ?_
    by_cases hid : sessionId = header.sessionId
    · subst hid
      rw [AList.lookup_insert] at hroute
      cases hroute
      exact List.mem_cons_self
    · rw [hlookup sessionId hid] at hroute
      exact List.mem_cons_of_mem _ (hinv.route_task _ _ hroute)
  · intro t ht
    rcases List.mem_append.mp ht with ht | ht
    · obtain ⟨route, hroute, hgen⟩ := hinv.task_route t ht
      exact ⟨route, by rw [hlookup _ (hold _ _ hroute), hroute], hgen⟩
    · rw [List.mem_singleton.mp ht]
      exact ⟨_, AList.lookup_insert _, rfl⟩
  · intro c hc route hroute
    by_cases hid : c.sessionId = header.sessionId
    · rw [hid, AList.lookup_insert] at hroute
      cases hroute
      exact (hinv.generation_lt c (List.mem_append_right _ hc)).2.le
    · rw [hlookup _ hid] at hroute
      exact hinv.cleanup_le c hc route hroute
  · intro sessionId route hroute
    by_cases hid : sessionId = header.sessionId
    · subst hid
      rw [AList.lookup_insert] at hroute
      cases hroute
      exact ⟨header, auth, hdecode, rfl⟩
    · rw [hlookup sessionId hid] at hroute
      exact hinv.route_authInit _ _ hroute

/-- Queueing to a route or taking from it changes only its queue, which
the invariant does not look at. -/
theorem Inv.replace_inbound (hinv : Inv config deserialize l) {sessionId : UdpSessionId}
    {route : SessionRoute Addr} (hroute : l.sessions.lookup sessionId = some route)
    (inbound : List (List UInt8)) :
    Inv config deserialize
      { l with sessions := l.sessions.replace sessionId { route with inbound := inbound } } := by
  have hmem : sessionId ∈ l.sessions := AList.lookup_isSome.mp (by simp [hroute])
  -- what every key looks up to after the replacement, with the generation and AuthInit kept
  have hlookup : ∀ a r, (l.sessions.replace sessionId { route with inbound := inbound }).lookup a = some r →
      ∃ r₀, l.sessions.lookup a = some r₀ ∧ r.generation = r₀.generation ∧
        r.authInitDatagram = r₀.authInitDatagram := by
    intro a r h
    rw [Table.lookup_replace_of_mem hmem] at h
    split_ifs at h with ha
    · cases h
      exact ⟨route, ha ▸ hroute, rfl, rfl⟩
    · exact ⟨r, h, rfl, rfl⟩
  constructor
  · simpa using hinv.length_le
  · exact hinv.nextGeneration_pos
  · exact hinv.generation_lt
  · exact hinv.generations_nodup
  · intro a r h
    obtain ⟨r₀, h₀, hgen, -⟩ := hlookup a r h
    rw [hgen]
    exact hinv.route_task a r₀ h₀
  · intro t ht
    obtain ⟨r₀, h₀, hgen⟩ := hinv.task_route t ht
    by_cases hid : t.sessionId = sessionId
    · rw [hid] at h₀ ⊢
      rw [hroute] at h₀
      cases h₀
      exact ⟨{ route with inbound := inbound }, by rw [Table.lookup_replace_of_mem hmem, if_pos rfl],
        hgen⟩
    · exact ⟨r₀, by rw [Table.lookup_replace_of_mem hmem, if_neg hid, h₀], hgen⟩
  · intro c hc r h
    obtain ⟨r₀, h₀, hgen, -⟩ := hlookup _ r h
    rw [hgen]
    exact hinv.cleanup_le c hc r₀ h₀
  · intro a r h
    obtain ⟨r₀, h₀, -, hauth⟩ := hlookup a r h
    rw [hauth]
    exact hinv.route_authInit a r₀ h₀

/-- Dropping the route of a session whose task has ended. -/
theorem Inv.erase_ended (hinv : Inv config deserialize l) {sessionId : UdpSessionId}
    {route : SessionRoute Addr} (hroute : l.sessions.lookup sessionId = some route)
    (hended : ⟨sessionId, route.generation⟩ ∉ l.sessionTasks) :
    Inv config deserialize { l with sessions := l.sessions.erase sessionId } := by
  have hmem : sessionId ∈ l.sessions := AList.lookup_isSome.mp (by simp [hroute])
  have hlookup : ∀ a r, (l.sessions.erase sessionId).lookup a = some r → l.sessions.lookup a = some r :=
    fun _ _ h => Table.lookup_of_lookup_erase h
  constructor
  · have := Table.length_erase_of_mem hmem
    have := hinv.length_le
    simp only at this ⊢
    omega
  · exact hinv.nextGeneration_pos
  · exact hinv.generation_lt
  · exact hinv.generations_nodup
  · exact fun a r h => hinv.route_task a r (hlookup a r h)
  · intro t ht
    obtain ⟨r₀, h₀, hgen⟩ := hinv.task_route t ht
    have hid : t.sessionId ≠ sessionId := by
      rintro hid
      rw [hid, hroute] at h₀
      cases h₀
      exact hended (hid ▸ hgen ▸ ht)
    exact ⟨r₀, by rw [AList.lookup_erase_ne hid]; exact h₀, hgen⟩
  · exact fun c hc r h => hinv.cleanup_le c hc r (hlookup _ r h)
  · exact fun a r h => hinv.route_authInit a r (hlookup a r h)

/-- Taking a cleanup off the channel whose generation no route under its
session id carries. -/
theorem Inv.drop_cleanup (hinv : Inv config deserialize l) {cleanup : SessionCleanup}
    {rest : List SessionCleanup} (h : l.cleanups = cleanup :: rest)
    (hspare : ∀ route, l.sessions.lookup cleanup.sessionId = some route →
      route.generation ≠ cleanup.generation) :
    Inv config deserialize { l with cleanups := rest } := by
  have hsublist : List.Sublist (l.sessionTasks ++ rest) (l.sessionTasks ++ l.cleanups) := by
    rw [h]
    exact (List.sublist_cons_self _ _).append_left _
  constructor
  · exact hinv.length_le
  · exact hinv.nextGeneration_pos
  · exact fun t ht => hinv.generation_lt t (hsublist.subset ht)
  · exact hinv.generations_nodup.sublist (hsublist.map _)
  · intro a r hroute
    have hmem := hinv.route_task a r hroute
    rw [h] at hmem
    rcases List.mem_append.mp hmem with hmem | hmem
    · exact List.mem_append_left _ hmem
    · rcases List.mem_cons.mp hmem with hc | hmem
      · -- the route would carry the cleanup's own generation
        rw [← hc] at hspare
        exact absurd rfl (hspare r hroute)
      · exact List.mem_append_right _ hmem
  · exact hinv.task_route
  · exact fun c hc => hinv.cleanup_le c (h ▸ List.mem_cons_of_mem _ hc)
  · exact hinv.route_authInit

theorem Inv.cleanup (hinv : Inv config deserialize l) {cleanup : SessionCleanup}
    {rest : List SessionCleanup} (h : l.cleanups = cleanup :: rest) :
    Inv config deserialize ({ l with cleanups := rest }.removeSession cleanup) := by
  by_cases hmatch : ∃ route, l.sessions.lookup cleanup.sessionId = some route ∧
      route.generation = cleanup.generation
  · obtain ⟨route, hroute, hgen⟩ := hmatch
    rw [removeSession_of_lookup (l := { l with cleanups := rest }) hroute hgen]
    -- the route is the cleanup's own, whose task has ended
    have hended : ⟨cleanup.sessionId, route.generation⟩ ∉ l.sessionTasks := by
      rw [hgen]
      exact hinv.not_live_of_cleanup (h ▸ List.mem_cons_self)
    exact (hinv.erase_ended hroute hended).drop_cleanup h (by simp [AList.lookup_erase])
  · push Not at hmatch
    rw [removeSession_of_ne (l := { l with cleanups := rest }) hmatch]
    exact hinv.drop_cleanup h hmatch

theorem Inv.end_task (hinv : Inv config deserialize l) {task : SessionCleanup}
    (hlive : task ∈ l.sessionTasks) :
    Inv config deserialize
      { l with sessionTasks := l.sessionTasks.erase task, cleanups := l.cleanups ++ [task] } := by
  -- the task moves from the live tasks to the cleanups in flight
  have hperm : List.Perm (l.sessionTasks.erase task ++ (l.cleanups ++ [task]))
      (l.sessionTasks ++ l.cleanups) := by
    have hfront : List.Perm (l.sessionTasks.erase task ++ (l.cleanups ++ [task]))
        (task :: (l.sessionTasks.erase task ++ l.cleanups)) := by
      simpa using List.perm_append_singleton task (l.sessionTasks.erase task ++ l.cleanups)
    exact hfront.trans ((List.perm_cons_erase hlive).append_right l.cleanups).symm
  constructor
  · exact hinv.length_le
  · exact hinv.nextGeneration_pos
  · exact fun t ht => hinv.generation_lt t (hperm.subset ht)
  · exact (hperm.map _).nodup_iff.mpr hinv.generations_nodup
  · exact fun a r hroute => hperm.mem_iff.mpr (hinv.route_task a r hroute)
  · exact fun t ht => hinv.task_route t (List.mem_of_mem_erase ht)
  · intro c hc route hroute
    rcases List.mem_append.mp hc with hc | hc
    · exact hinv.cleanup_le c hc route hroute
    · rw [List.mem_singleton.mp hc] at hroute ⊢
      rw [hinv.generation_of_live hlive hroute]
  · exact hinv.route_authInit

/-- One event keeps the invariant, unless it allocates the last generation. -/
theorem Move.inv {e : ListenerEvent Addr} {l' : NativeUdpListener Addr}
    (hm : Move config deserialize l e l') (hinv : Inv config deserialize l)
    (hwrap : l'.nextGeneration ≠ l.nextGeneration → l.nextGeneration ≠ u64Max) :
    Inv config deserialize l' := by
  cases hm with
  | stays => exact hinv
  | authenticates peer datagram header auth authOkDatagram hdecode hfresh hroom =>
    exact hinv.authenticate hdecode hfresh hroom (hwrap (allocateGeneration_ne _))
  | queues peer datagram prepared header route hdecode hkind hroute hpeer hlive =>
    exact hinv.replace_inbound hroute _
  | closes peer datagram prepared header route hdecode hkind hroute hended =>
    exact hinv.erase_ended hroute hended
  | cleans cleanup rest h => exact hinv.cleanup h
  | ends task hlive => exact hinv.end_task hlive
  | takes task route hlive hroute hgen => exact hinv.replace_inbound hroute _

end Preservation

section Run

variable [DecidableEq Addr]

/-- The listener has not yet handed out its last generation: a step that
moves the allocator starts below `u64::MAX`. From `new()` this admits every
run with fewer than `2^64 - 1` successful authentications. -/
def BeforeWrap (l : NativeUdpListener Addr) (e : ListenerEvent Addr) : Prop :=
  (l.step config deserialize e).1.nextGeneration ≠ l.nextGeneration → l.nextGeneration ≠ u64Max

/-- The invariant holds in every state reached from `new()` before the
allocator wraps. -/
theorem inv_final (evs : List (ListenerEvent Addr))
    (hadm : Machine.Admits (step config deserialize) (BeforeWrap config deserialize) new evs) :
    Inv config deserialize (Machine.final (step config deserialize) new evs) :=
  Machine.final_preservedOn (fun l e hinv hwrap => (step_move config deserialize l e).inv hinv hwrap)
    (inv_new config deserialize) evs hadm

end Run

-- ---------------------------------------------------------------------------
-- What happens to a route
-- ---------------------------------------------------------------------------

section Routes

variable {config deserialize} {l l' : NativeUdpListener Addr} {e : ListenerEvent Addr}
  {sessionId : UdpSessionId}

variable [DecidableEq Addr]

end Routes

-- ---------------------------------------------------------------------------
-- The listener is bound to the first AuthInit of each session
-- ---------------------------------------------------------------------------

section Bound

variable [DecidableEq Addr]

end Bound

end NativeUdpListener

end Ppaass.Proxy
