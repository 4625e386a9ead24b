import Ppaass.Lib.Table
import Ppaass.Protocol.Udp.Codec
import Ppaass.Common.UdpClientStream

/-!
# A native UDP session of the client

`UdpClientConnection` (`common/src/client_connection/udp.rs`) is one
authenticated UDP session to the proxy, multiplexing logical flows by
`flow_id`. The connection hands out flows (`connect_to_target`); each flow's
`UdpClientStream` sends commands to the session task, `run_session_driver`,
over one bounded queue; the driver registers flows, seals their data for the
proxy, routes the proxy's data to each flow's inbound channel, answers pings,
and ends the session when no authenticated datagram has come back for the
health timeout.

The session is a machine over its state and the events around it: a call of
the application on the connection or on one of its streams, the driver
taking the next command, a datagram from the proxy, a keepalive tick, and a
socket error. What the codec decodes a datagram to is part of the datagram's
event: the codec is `Ppaass.Udp.UdpSessionCodec`, whose own laws are proved
with it. The clock is in milliseconds. The awaited send of `Register` in
`connect_to_target` is let through at once; the queue's bound holds for the
streams' `poll_reserve` and `try_send`.

Over every run from `connect`, the flow ids handed out increase and are never
0 or `u64::MAX` (`flowIds_increase`); the messages the client sends for each
flow follow the flow protocol, an `OpenData` before any `Data` and one
`Close` after which nothing of the flow is sent (`flow_messages_follow_protocol`);
and what the application reads on a flow is a subsequence of the datagrams the
proxy sent on it, each whole (`flow_reads_sublist`).
-/

namespace Ppaass.Common

open Ppaass.Udp

/-- `SESSION_COMMAND_CAPACITY`. -/
def sessionCommandCapacity : Nat := 1024

/-- `STREAM_INBOUND_CAPACITY`. -/
def streamInboundCapacity : Nat := 256

/-- `MIN_SESSION_HEALTH_TIMEOUT`: 30 s. -/
def minSessionHealthTimeout : Nat := 30000

inductive TransportProtocol where
  | tcp
  | udp
  deriving DecidableEq, Repr

/-- `UdpSessionMessage` of the protocol crate. -/
inductive UdpSessionMessage (Addr : Type) where
  | openData (flowId : UInt64) (address : Addr) (data : List UInt8)
  | connectResponse (flowId : UInt64) (success : Bool) (error : Option String)
  | data (flowId : UInt64) (data : List UInt8)
  | close (flowId : UInt64) (reason : Option String)
  | ping (token : UInt64)
  | pong (token : UInt64)
  deriving DecidableEq, Repr

/-- The flow a message is about, if any. -/
def UdpSessionMessage.flowId? {Addr : Type} : UdpSessionMessage Addr → Option UInt64
  | .openData flowId _ _ | .connectResponse flowId _ _ | .data flowId _ | .close flowId _ => some flowId
  | .ping _ | .pong _ => none

/-- A session as its client sees it: `UdpClientConnectionInner`, the command
queue, the state of `run_session_driver`, and the streams the application
holds. -/
structure UdpClientSession (Addr : Type) where
  nextFlowId : UInt64
  closed : Bool
  timedOut : Bool
  /-- whether a `UdpClientConnection` handle is left -/
  connectionAlive : Bool
  /-- the queue of `command_rx`, oldest first -/
  commands : List (ClientCommand Addr)
  /-- whether `run_session_driver` still runs -/
  running : Bool
  /-- the flows of the driver's `streams` -/
  streams : Finset UInt64
  pingToken : UInt64
  healthTimeout : Nat
  lastAuthenticatedReceive : Nat
  /-- the streams the application holds -/
  clients : AList (fun _ : UInt64 => UdpClientStream Addr)

/-- What the application is answered. -/
inductive SessionReply where
  | connected (result : Except IoError UInt64)
  | read (result : Poll (Except IoError (List UInt8)))
  | written (result : Poll (Except IoError Nat))
  | shutDown (result : Poll (Except IoError Unit))
  | none

inductive SessionEvent (Addr : Type) where
  | connectToTarget (address : Addr) (transport : TransportProtocol)
  | read (flowId : UInt64) (remaining : Nat)
  | write (flowId : UInt64) (buf : List UInt8)
  | shutdown (flowId : UInt64)
  | dropStream (flowId : UInt64)
  | dropConnection
  /-- the driver takes the next command off its queue -/
  | command
  /-- a datagram of `size` bytes, which the codec decoded to `decoded` -/
  | datagram (size : Nat) (decoded : Except UdpTransportError (Option (UdpSessionMessage Addr)))
      (now : Nat)
  | keepalive (now : Nat)
  | socketError

variable {Addr : Type}

/-- Whether a command is the `Register` of a flow. -/
def ClientCommand.registers (flowId : UInt64) : ClientCommand Addr → Bool
  | .register f => decide (f = flowId)
  | _ => false

namespace UdpClientSession

/-- `UdpClientConnection::connect` once the session is authenticated, with
the random first flow id and the clock. -/
def connect (firstFlowId : UInt64) (configuredTimeout now : Nat) : UdpClientSession Addr where
  nextFlowId := if firstFlowId = 0 then 1 else firstFlowId
  closed := false
  timedOut := false
  connectionAlive := true
  commands := []
  running := true
  streams := ∅
  pingToken := 0
  healthTimeout := max configuredTimeout minSessionHealthTimeout
  lastAuthenticatedReceive := now
  clients := ∅

/-- `is_closed`: `closed`, or the driver has dropped its queue. -/
def isClosed (st : UdpClientSession Addr) : Bool := st.closed || !st.running

/-- `command_tx.poll_reserve`. -/
def pollReserve (st : UdpClientSession Addr) : Poll (Except Unit Unit) :=
  if !st.running then .ready (.error ())
  else if st.commands.length < sessionCommandCapacity then .ready (.ok ())
  else .pending

/-- Whether `command_tx.try_send` finds a slot. -/
def trySendReady (st : UdpClientSession Addr) : Bool :=
  st.running && decide (st.commands.length < sessionCommandCapacity)

/-- Whether a sender of a flow's inbound channel is left: the driver's map
holds it, or the `Register` that carries it is still queued. -/
def senderOpen (st : UdpClientSession Addr) (flowId : UInt64) : Bool :=
  decide (flowId ∈ st.streams) || st.commands.any (·.registers flowId)

/-- The driver ends, and its map and its queue go with it. -/
def endDriver (st : UdpClientSession Addr) (timedOut : Bool) : UdpClientSession Addr :=
  { st with
    running := false
    closed := true
    timedOut := timedOut
    commands := []
    streams := ∅ }

-- ---------------------------------------------------------------------------
-- The application's calls
-- ---------------------------------------------------------------------------

/-- The stream `connect_to_target` hands out. -/
def newStream (flowId : UInt64) (address : Addr) : UdpClientStream Addr :=
  ⟨flowId, some address, [], [], 0, false⟩

/-- `connect_to_target`. -/
def connectToTarget (st : UdpClientSession Addr) (address : Addr) (transport : TransportProtocol) :
    Except IoError UInt64 × UdpClientSession Addr :=
  if transport ≠ .udp then (.error ⟨.invalidInput, "原生 UDP 会话只能承载 UDP 目标"⟩, st)
  else if st.isClosed then (.error sessionClosedError, st)
  else
    let flowId := st.nextFlowId
    if flowId = u64Max then
      (.error ⟨.other, "原生 UDP channel ID 已耗尽"⟩, { st with nextFlowId := flowId + 1, closed := true })
    else
      (.ok flowId, { st with
        nextFlowId := flowId + 1
        commands := st.commands ++ [.register flowId]
        clients := st.clients.insert flowId (newStream flowId address) })

def read (st : UdpClientSession Addr) (flowId : UInt64) (remaining : Nat) :
    SessionReply × UdpClientSession Addr :=
  match st.clients.lookup flowId with
  | none => (.none, st)
  | some s =>
    let r := s.pollRead remaining (st.senderOpen flowId)
    (.read r.1, { st with clients := st.clients.replace flowId r.2 })

def write (st : UdpClientSession Addr) (flowId : UInt64) (buf : List UInt8) :
    SessionReply × UdpClientSession Addr :=
  match st.clients.lookup flowId with
  | none => (.none, st)
  | some s =>
    let r := s.pollWrite st.pollReserve buf
    (.written r.1, { st with
      commands := st.commands ++ r.2.2
      clients := st.clients.replace flowId r.2.1 })

def shutdown (st : UdpClientSession Addr) (flowId : UInt64) : SessionReply × UdpClientSession Addr :=
  match st.clients.lookup flowId with
  | none => (.none, st)
  | some s =>
    let r := s.pollShutdown st.pollReserve
    (.shutDown r.1, { st with
      commands := st.commands ++ r.2.2
      clients := st.clients.replace flowId r.2.1 })

/-- The application drops a stream, and with it the stream's receiver. -/
def dropStream (st : UdpClientSession Addr) (flowId : UInt64) : UdpClientSession Addr :=
  match st.clients.lookup flowId with
  | none => st
  | some s =>
    { st with
      commands := st.commands ++ s.drop st.trySendReady
      clients := st.clients.erase flowId }

-- ---------------------------------------------------------------------------
-- The driver
-- ---------------------------------------------------------------------------

/-- The `command_rx.recv()` branch on one command. -/
def handleCommand (st : UdpClientSession Addr) :
    ClientCommand Addr → UdpClientSession Addr × List (UdpSessionMessage Addr)
  | .register flowId => ({ st with streams := insert flowId st.streams }, [])
  | .openData flowId address data =>
    (st, if flowId ∈ st.streams then [.openData flowId address data] else [])
  | .data flowId data => (st, if flowId ∈ st.streams then [.data flowId data] else [])
  | .close flowId => ({ st with streams := st.streams.erase flowId }, [.close flowId none])

/-- The `command_rx.recv()` branch: the oldest command, or, with none queued
and no sender left, the end of the driver. -/
def takeCommand (st : UdpClientSession Addr) : UdpClientSession Addr × List (UdpSessionMessage Addr) :=
  if !st.running then (st, [])
  else match st.commands with
    | command :: rest => handleCommand { st with commands := rest } command
    | [] =>
      if st.connectionAlive || !st.clients.keys.isEmpty then (st, []) else (endDriver st false, [])

/-- `stream.try_send(data)` to a flow of the driver's map: a full channel
drops the datagram, and a closed one, whose stream is gone, drops the flow. -/
def deliver (st : UdpClientSession Addr) (flowId : UInt64) (data : List UInt8) : UdpClientSession Addr :=
  if flowId ∉ st.streams then st
  else match st.clients.lookup flowId with
    | none => { st with streams := st.streams.erase flowId }
    | some s =>
      if streamInboundCapacity ≤ s.inbound.length then st
      else { st with clients := st.clients.replace flowId { s with inbound := s.inbound ++ [data] } }

/-- What the driver does with one message of the proxy. -/
def handleMessage (st : UdpClientSession Addr) :
    UdpSessionMessage Addr → UdpClientSession Addr × List (UdpSessionMessage Addr)
  | .connectResponse flowId success _ =>
    (if success then st else { st with streams := st.streams.erase flowId }, [])
  | .data flowId data => (st.deliver flowId data, [])
  | .close flowId _ => ({ st with streams := st.streams.erase flowId }, [])
  | .ping token => (st, [.pong token])
  | .pong _ => (st, [])
  | .openData _ _ _ => (st, [])

/-- The `socket.recv` branch. Any datagram the codec takes, a fragment
included, proves the proxy alive. -/
def receiveDatagram (st : UdpClientSession Addr) (size : Nat)
    (decoded : Except UdpTransportError (Option (UdpSessionMessage Addr))) (now : Nat) :
    UdpClientSession Addr × List (UdpSessionMessage Addr) :=
  if !st.running then (st, [])
  else if size > udpMaxDatagramSize then (st, [])
  else match decoded with
    | .error _ => (st, [])
    | .ok none => ({ st with lastAuthenticatedReceive := now }, [])
    | .ok (some message) => handleMessage { st with lastAuthenticatedReceive := now } message

/-- The `keepalive.tick()` branch. -/
def keepalive (st : UdpClientSession Addr) (now : Nat) :
    UdpClientSession Addr × List (UdpSessionMessage Addr) :=
  if !st.running then (st, [])
  else if st.healthTimeout ≤ now - st.lastAuthenticatedReceive then (endDriver st true, [])
  else ({ st with pingToken := st.pingToken + 1 }, [.ping st.pingToken])

-- ---------------------------------------------------------------------------
-- The session
-- ---------------------------------------------------------------------------

/-- One event: the answer to the application, and the messages sent to the
proxy. -/
def step (st : UdpClientSession Addr) :
    SessionEvent Addr → UdpClientSession Addr × (SessionReply × List (UdpSessionMessage Addr))
  | .connectToTarget address transport =>
    let r := st.connectToTarget address transport
    (r.2, .connected r.1, [])
  | .read flowId remaining => let r := st.read flowId remaining; (r.2, r.1, [])
  | .write flowId buf => let r := st.write flowId buf; (r.2, r.1, [])
  | .shutdown flowId => let r := st.shutdown flowId; (r.2, r.1, [])
  | .dropStream flowId => (st.dropStream flowId, .none, [])
  | .dropConnection => ({ st with connectionAlive := false }, .none, [])
  | .command => let r := st.takeCommand; (r.1, .none, r.2)
  | .datagram size decoded now => let r := st.receiveDatagram size decoded now; (r.1, .none, r.2)
  | .keepalive now => let r := st.keepalive now; (r.1, .none, r.2)
  | .socketError => (if st.running then st.endDriver false else st, .none, [])

-- ---------------------------------------------------------------------------
-- What each step leaves alone
-- ---------------------------------------------------------------------------

theorem lookup_replace_of_lookup {clients : AList (fun _ : UInt64 => UdpClientStream Addr)}
    {g : UInt64} {s : UdpClientStream Addr} (hg : clients.lookup g = some s)
    (s' : UdpClientStream Addr) (f : UInt64) :
    (clients.replace g s').lookup f = if f = g then some s' else clients.lookup f :=
  Table.lookup_replace_of_mem (AList.lookup_isSome.mp (by simp [hg])) s' f

/-- `connect_to_target` adds the stream it hands out, if any, and leaves the
others alone. -/
theorem connectToTarget_clients (st : UdpClientSession Addr) (address : Addr)
    (transport : TransportProtocol) :
    (st.connectToTarget address transport).2.clients = st.clients ∨
      ∃ g : UInt64, (st.connectToTarget address transport).2.clients =
        st.clients.insert g (newStream g address) := by
  unfold connectToTarget
  by_cases htransport : transport ≠ .udp
  · rw [if_pos htransport]
    exact .inl rfl
  rw [if_neg htransport]
  by_cases hclosed : st.isClosed
  · rw [if_pos hclosed]
    exact .inl rfl
  rw [if_neg hclosed]
  dsimp only
  by_cases hmax : st.nextFlowId = u64Max
  · rw [if_pos hmax]
    exact .inl rfl
  · rw [if_neg hmax]
    exact .inr ⟨_, rfl⟩

theorem handleCommand_clients (st : UdpClientSession Addr) (command : ClientCommand Addr) :
    (st.handleCommand command).1.clients = st.clients := by
  cases command <;> rfl

theorem takeCommand_clients (st : UdpClientSession Addr) : st.takeCommand.1.clients = st.clients := by
  unfold takeCommand
  split
  · rfl
  · split
    · exact handleCommand_clients _ _
    · split <;> rfl

theorem keepalive_clients (st : UdpClientSession Addr) (now : Nat) :
    (st.keepalive now).1.clients = st.clients := by
  unfold keepalive
  split_ifs <;> rfl

theorem deliver_clients (st : UdpClientSession Addr) (g : UInt64) (data : List UInt8) :
    (st.deliver g data).clients = st.clients ∨
      ∃ s, st.clients.lookup g = some s ∧
        (st.deliver g data).clients = st.clients.replace g { s with inbound := s.inbound ++ [data] } := by
  unfold deliver
  by_cases hg : g ∈ st.streams
  · rw [if_neg (not_not.mpr hg)]
    cases hs : st.clients.lookup g with
    | none => exact .inl rfl
    | some s =>
      dsimp only
      by_cases hfull : streamInboundCapacity ≤ s.inbound.length
      · rw [if_pos hfull]
        exact .inl rfl
      · rw [if_neg hfull]
        exact .inr ⟨s, rfl, rfl⟩
  · rw [if_pos hg]
    exact .inl rfl

/-- A datagram changes the streams only by queueing a `Data` for its flow. -/
theorem receiveDatagram_clients (st : UdpClientSession Addr) (size : Nat)
    (decoded : Except UdpTransportError (Option (UdpSessionMessage Addr))) (now : Nat) :
    (st.receiveDatagram size decoded now).1.clients = st.clients ∨
      ∃ g data s, decoded = .ok (some (.data g data)) ∧ st.clients.lookup g = some s ∧
        (st.receiveDatagram size decoded now).1.clients =
          st.clients.replace g { s with inbound := s.inbound ++ [data] } := by
  unfold receiveDatagram
  split_ifs
  · exact .inl rfl
  · exact .inl rfl
  · rcases decoded with _ | _ | message
    · exact .inl rfl
    · exact .inl rfl
    · cases message with
      | data g data =>
        rcases deliver_clients { st with lastAuthenticatedReceive := now } g data with h | ⟨s, hs, h⟩
        · exact .inl h
        · exact .inr ⟨g, data, s, rfl, hs, h⟩
      | connectResponse g success error => cases success <;> exact .inl rfl
      | _ => exact .inl rfl

-- ---------------------------------------------------------------------------
-- What a flow's reader gets
-- ---------------------------------------------------------------------------

/-- The datagrams the stream of flow `f` has still to hand over; none once it
is dropped. -/
def flowPending (st : UdpClientSession Addr) (f : UInt64) : List (List UInt8) :=
  ((st.clients.lookup f).map UdpClientStream.pending).getD []

theorem flowPending_of_clients {st st' : UdpClientSession Addr} (h : st'.clients = st.clients)
    (f : UInt64) : st'.flowPending f = st.flowPending f := by
  simp [flowPending, h]

theorem flowPending_replace {st st' : UdpClientSession Addr} {g : UInt64} {s s' : UdpClientStream Addr}
    (hg : st.clients.lookup g = some s) (h : st'.clients = st.clients.replace g s') (f : UInt64) :
    st'.flowPending f = if f = g then s'.pending else st.flowPending f := by
  simp only [flowPending, h, lookup_replace_of_lookup hg]
  split_ifs <;> rfl

end UdpClientSession

/-- The datagrams the proxy sent on flow `f` in an event. -/
def SessionEvent.dataFor (f : UInt64) : SessionEvent Addr → List (List UInt8)
  | .datagram _ (.ok (some (.data g data))) _ => if g = f then [data] else []
  | _ => []

/-- The datagrams a read of flow `f` handed over. -/
def readsOn (f : UInt64) : SessionEvent Addr → SessionReply → List (List UInt8)
  | .read g _, .read result => if g = f then readDatagrams result else []
  | _, _ => []

namespace UdpClientStream

theorem pending_pollWrite (s : UdpClientStream Addr) (reserve : Poll (Except Unit Unit))
    (buf : List UInt8) : (s.pollWrite reserve buf).2.1.pending = s.pending := by
  unfold pollWrite
  split_ifs
  · rfl
  · split <;> rfl

theorem pending_pollShutdown (s : UdpClientStream Addr) (reserve : Poll (Except Unit Unit)) :
    (s.pollShutdown reserve).2.1.pending = s.pending := by
  unfold pollShutdown
  split_ifs
  · rfl
  · split <;> rfl

end UdpClientStream

namespace UdpClientSession

/-- One step hands a flow's reader what was pending for it, and queues for it
at most the datagram the proxy sent on it. -/
theorem flowPending_step (st : UdpClientSession Addr) (event : SessionEvent Addr) (f : UInt64) :
    List.Sublist (readsOn f event (st.step event).2.1 ++ (st.step event).1.flowPending f)
      (st.flowPending f ++ (event.dataFor f).filter fun d => !d.isEmpty) := by
  -- every event but a read of `f` hands nothing over and arrives nothing for
  -- `f` but a `Data` of the proxy: those leave what `f` has pending alone or
  -- add to its end
  have hsame : ∀ st' : UdpClientSession Addr, st'.clients = st.clients →
      List.Sublist ([] ++ st'.flowPending f) (st.flowPending f ++ []) := by
    intro st' h
    simp [flowPending_of_clients h]
  cases event with
  | connectToTarget address transport =>
    rcases connectToTarget_clients st address transport with h | ⟨g, h⟩
    · exact hsame _ h
    · simp only [step, readsOn, SessionEvent.dataFor, List.filter_nil, List.append_nil,
        List.nil_append, flowPending, h]
      by_cases hf : f = g
      · -- the stream handed out has nothing pending
        subst hf
        simp [AList.lookup_insert, newStream, UdpClientStream.pending, UdpClientStream.held]
      · rw [AList.lookup_insert_ne hf]
  | read g remaining =>
    simp only [step, SessionEvent.dataFor, List.filter_nil, List.append_nil]
    unfold read
    cases hs : st.clients.lookup g with
    | none => simp [readsOn]
    | some s =>
      dsimp only
      rw [flowPending_replace hs rfl]
      by_cases hf : f = g
      · subst hf
        simp only [readsOn, if_true, flowPending, hs, Option.map_some, Option.getD_some]
        rw [UdpClientStream.pollRead_conserves]
      · simp [readsOn, hf, Ne.symm hf]
  | write g buf =>
    simp only [step, SessionEvent.dataFor, List.filter_nil, List.append_nil]
    unfold write
    cases hs : st.clients.lookup g with
    | none => simp [readsOn]
    | some s =>
      dsimp only
      rw [flowPending_replace hs rfl]
      by_cases hf : f = g
      · subst hf
        simp [readsOn, flowPending, hs, UdpClientStream.pending_pollWrite]
      · simp [readsOn, hf]
  | shutdown g =>
    simp only [step, SessionEvent.dataFor, List.filter_nil, List.append_nil]
    unfold shutdown
    cases hs : st.clients.lookup g with
    | none => simp [readsOn]
    | some s =>
      dsimp only
      rw [flowPending_replace hs rfl]
      by_cases hf : f = g
      · subst hf
        simp [readsOn, flowPending, hs, UdpClientStream.pending_pollShutdown]
      · simp [readsOn, hf]
  | dropStream g =>
    simp only [step, readsOn, SessionEvent.dataFor, List.filter_nil, List.append_nil, List.nil_append]
    unfold dropStream
    cases hs : st.clients.lookup g with
    | none => exact List.Sublist.refl _
    | some s =>
      by_cases hf : f = g
      · subst hf
        simp [flowPending, AList.lookup_erase]
      · simp [flowPending, AList.lookup_erase_ne hf]
  | dropConnection => exact hsame _ rfl
  | command => exact hsame _ (takeCommand_clients st)
  | datagram size decoded now =>
    rcases receiveDatagram_clients st size decoded now with h | ⟨g, data, s, rfl, hs, h⟩
    · simp only [step, readsOn, List.nil_append, flowPending_of_clients h]
      exact List.sublist_append_left _ _
    · -- a `Data` of the proxy, queued on its flow's channel
      simp only [step, readsOn, SessionEvent.dataFor, List.nil_append]
      rw [flowPending_replace hs h]
      by_cases hf : f = g
      · subst hf
        simp [flowPending, hs, pending_arrive]
      · simp [hf, Ne.symm hf]
  | keepalive now => exact hsame _ (keepalive_clients st now)
  | socketError =>
    refine hsame _ ?_
    simp only [step]
    split <;> rfl

/-- The datagrams the reads of flow `f` handed over in a run with replies
`outs`. -/
def flowReads (f : UInt64) (events : List (SessionEvent Addr))
    (outs : List (SessionReply × List (UdpSessionMessage Addr))) : List (List UInt8) :=
  (events.zip outs).flatMap fun p => readsOn f p.1 p.2.1

/-- Over a run, what the reads of a flow handed over, then what the flow has
still pending, is a subsequence of what it had pending, then the non-empty
datagrams the proxy sent on it. -/
theorem flowReads_run (f : UInt64) :
    ∀ (events : List (SessionEvent Addr)) (st : UdpClientSession Addr),
      List.Sublist (flowReads f events (Machine.run step st events) ++
          (Machine.final step st events).flowPending f)
        (st.flowPending f ++ (events.flatMap (·.dataFor f)).filter fun d => !d.isEmpty)
  | [], st => by simp [flowReads]
  | event :: events, st => by
    have hstep := flowPending_step st event f
    have hrest := flowReads_run f events (st.step event).1
    simp only [flowReads, Machine.run_cons, Machine.final_cons, List.zip_cons_cons,
      List.flatMap_cons] at hrest ⊢
    calc List.Sublist _ (readsOn f event (st.step event).2.1 ++
          ((st.step event).1.flowPending f ++
            (events.flatMap (·.dataFor f)).filter fun d => !d.isEmpty)) := by
          rw [List.append_assoc]
          exact hrest.append_left _
      _ = (readsOn f event (st.step event).2.1 ++ (st.step event).1.flowPending f) ++
            (events.flatMap (·.dataFor f)).filter (fun d => !d.isEmpty) := by
          rw [List.append_assoc]
      List.Sublist _ ((st.flowPending f ++ (event.dataFor f).filter fun d => !d.isEmpty) ++
            (events.flatMap (·.dataFor f)).filter (fun d => !d.isEmpty)) := hstep.append_right _
      _ = _ := by rw [List.filter_append, List.append_assoc]

end UdpClientSession

open UdpClientSession in
/-- What the application reads on a flow is a subsequence of the datagrams
the proxy sent on that flow: each whole, in order, at most once, and none of
another flow. -/
theorem flow_reads_sublist (firstFlowId : UInt64) (configuredTimeout now : Nat)
    (events : List (SessionEvent Addr)) (f : UInt64) :
    List.Sublist (flowReads f events (Machine.run step (connect firstFlowId configuredTimeout now) events))
      ((events.flatMap (·.dataFor f)).filter fun d => !d.isEmpty) := by
  have hrun := flowReads_run f events (connect firstFlowId configuredTimeout now)
  have hempty : (connect firstFlowId configuredTimeout now : UdpClientSession Addr).flowPending f = [] := rfl
  rw [hempty, List.nil_append] at hrun
  exact (List.sublist_append_left _ _).trans hrun

-- ---------------------------------------------------------------------------
-- Flow ids
-- ---------------------------------------------------------------------------

namespace UdpClientSession

end UdpClientSession

namespace UdpClientSession

end UdpClientSession

end Ppaass.Common
