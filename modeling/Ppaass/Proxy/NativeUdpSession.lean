import Ppaass.Lib.Machine
import Ppaass.Lib.Table
import Ppaass.Common.UdpSession
import Ppaass.Proxy.UdpRelayFlow

/-!
# The proxy's side of a native UDP session

`run_session` (`proxy/src/native_udp/session.rs`) serves one authenticated
native UDP session. It keeps a channel per flow in `channels`: the
`OpenData` of a new flow spawns a worker (`run_channel_worker`,
`native_udp/channel.rs`) with the flow's first datagram already in its
input, later `Data` of the flow goes into that input, and the client's
`Close` aborts the worker. A worker connects to the flow's target and
reports the outcome on the session's unbounded event queue, passes its
input on to the target, queues the target's datagrams for the client on the
bounded outbound queue, and reports on the event queue when its loop ends.

The session is a machine over its state, the workers it spawned and the two
queues, and the events around it: a datagram off `inbound_rx` with what the
codec decoded it to, the session taking the next message off either queue,
the loop ending, and a move of a worker. The loop may end at any time: the
idle timer, the listener closing `inbound_rx` and a failed send end it
alike, so the timer's deadline is left out. A worker connects, or fails to,
and ends whenever it does; of what it does with its target the model keeps
the datagrams it takes off its input and those its target answers with.
-/

namespace Ppaass.Proxy

open Ppaass.Common (UdpSessionMessage)
open Ppaass.Udp (UdpTransportError)

/-- `FlowAdmission`, the same three cases as the relay's. -/
abbrev FlowAdmission := UdpRelayFlowAdmission

/-- `classify_flow_admission` is `classify_udp_relay_flow_admission` line for
line. -/
def classifyFlowAdmission (flowExists : Bool) (activeFlowCount maxFlows : Nat) : FlowAdmission :=
  classifyUdpRelayFlowAdmission flowExists activeFlowCount maxFlows

/-- The fields of `ProxyConfig` that `run_session` reads, but for the idle
timeout. -/
structure SessionConfig where
  udpSessionChannelSize : Nat
  udpSessionMaxFlows : Nat
  deriving DecidableEq, Repr

/-- `channel_size`: the size of the outbound queue and of every worker's
input. -/
def SessionConfig.channelSize (config : SessionConfig) : Nat :=
  max config.udpSessionChannelSize 1

/-- What `Sender::try_send` answers. -/
inductive TrySendResult (α : Type) where
  | ok (queue : List α)
  | full
  | closed
  deriving DecidableEq, Repr

/-- `Sender::try_send` on a channel of `capacity` slots that holds `queue`:
`Closed` once the receiver is gone, else `Full` while every slot is taken. -/
def trySend {α : Type} (receiverAlive : Bool) (capacity : Nat) (queue : List α) (item : α) :
    TrySendResult α :=
  if !receiverAlive then .closed
  else if queue.length < capacity then .ok (queue ++ [item])
  else .full

/-- Where a worker is: connecting to its target, in its loop, or returned
(or aborted). -/
inductive WorkerPc where
  | connecting
  | relaying
  | ended
  deriving DecidableEq, Repr

/-- A task of `channel_tasks`: the flow it serves, where it is, and what its
`input_rx` holds, oldest first. -/
structure ChannelWorker where
  flowId : UInt64
  pc : WorkerPc
  input : List (List UInt8)
  deriving DecidableEq, Repr

/-- A worker that has returned or been aborted: its `input_rx` goes with it. -/
def ChannelWorker.finish (wk : ChannelWorker) : ChannelWorker :=
  { wk with pc := .ended, input := [] }

/-- `ChannelState`: whether the session still holds `input_tx`, and the
worker that `abort_handle` aborts, named by the order the session spawned
it. -/
structure ChannelState where
  inputOpen : Bool
  worker : Nat
  deriving DecidableEq, Repr

/-- `ChannelEvent`. -/
inductive ChannelEvent (Addr : Type) where
  | connectResult (flowId : UInt64) (response : UdpSessionMessage Addr)
  | closed (flowId : UInt64) (reason : Option String)
  deriving DecidableEq, Repr

/-- The state of `run_session`, with the workers it spawned, each named by
its place in `workers`. -/
structure NativeUdpSession (Addr : Type) where
  channels : AList (fun _ : UInt64 => ChannelState)
  workers : List ChannelWorker
  /-- what `outbound_rx` holds, oldest first -/
  outbound : List (UdpSessionMessage Addr)
  /-- what `channel_event_rx` holds, oldest first -/
  channelEvents : List (ChannelEvent Addr)
  /-- whether the loop still runs -/
  running : Bool

/-- What can happen next. -/
inductive NativeUdpSessionEvent (Addr : Type) where
  /-- a datagram off `inbound_rx`, which the codec decoded to `decoded` -/
  | inbound (decoded : Except UdpTransportError (Option (UdpSessionMessage Addr)))
  /-- the session takes the next message off `outbound_rx` and sends it -/
  | outbound
  /-- the session takes the next event off `channel_event_rx` -/
  | channelEvent
  /-- the loop ends -/
  | loopEnds
  /-- a worker has connected to its target, or failed to with `error` -/
  | workerConnects (worker : Nat) (error : Option String)
  /-- a worker takes the next datagram off its input and passes it on -/
  | workerReads (worker : Nat)
  /-- a worker's target answered with `data` -/
  | workerReceives (worker : Nat) (data : List UInt8)
  /-- a worker's loop ends, for its idle timeout or a socket error -/
  | workerEnds (worker : Nat) (reason : Option String)

/-- What the session does outside: a message to the client
(`send_session_message`), or a datagram a worker passes on to its target. -/
inductive SessionAction (Addr : Type) where
  | send (message : UdpSessionMessage Addr)
  | forward (worker : Nat) (data : List UInt8)
  deriving DecidableEq, Repr

namespace NativeUdpSession

variable {Addr : Type} (config : SessionConfig)

/-- The session once authenticated, before the loop. -/
def new : NativeUdpSession Addr := ⟨∅, [], [], [], true⟩

/-- `connect_response`, of `session.rs` and of `channel.rs` alike. -/
def connectResponse (flowId : UInt64) (error : Option String) : UdpSessionMessage Addr :=
  .connectResponse flowId error.isNone error

/-- `abort_handle.abort()`. -/
def abort (st : NativeUdpSession Addr) (worker : Nat) : NativeUdpSession Addr :=
  { st with workers := st.workers.modify worker ChannelWorker.finish }

/-- The loop has ended: `channels` is drained and every worker aborted, and
the queues go with the session. A panic ends it the same way. -/
def finish (st : NativeUdpSession Addr) : NativeUdpSession Addr where
  channels := ∅
  workers := st.workers.map ChannelWorker.finish
  outbound := []
  channelEvents := []
  running := false

/-- The text of the `ConnectResponse` that turns a flow away at the limit. -/
def flowLimitError (maxFlows : Nat) : String :=
  "native UDP session flow limit reached (" ++ toString maxFlows ++ ")"

/-- `OpenData`: a flow with a channel drops it, a full session turns it
away, and a new flow gets a channel and a worker whose input holds the
datagram. -/
def openData (st : NativeUdpSession Addr) (flowId : UInt64) (data : List UInt8) :
    NativeUdpSession Addr × List (SessionAction Addr) :=
  match classifyFlowAdmission (decide (flowId ∈ st.channels)) st.channels.entries.length
      config.udpSessionMaxFlows with
  | .existing => (st, [])
  | .atCapacity =>
    (st, [.send (connectResponse flowId (some (flowLimitError config.udpSessionMaxFlows)))])
  | .create =>
    match trySend true config.channelSize [] data with
    | .ok input =>
      ({ st with
          channels := st.channels.insert flowId ⟨true, st.workers.length⟩
          workers := st.workers ++ [⟨flowId, .connecting, input⟩] }, [])
    -- the `expect` panics
    | _ => (st.finish, [])

/-- `Data`: `try_send` into the flow's input, while the session holds it;
`Closed` lets go of it. -/
def data (st : NativeUdpSession Addr) (flowId : UInt64) (data : List UInt8) :
    NativeUdpSession Addr :=
  match st.channels.lookup flowId with
  | none => st
  | some ch =>
    if !ch.inputOpen then st
    else
      match st.workers[ch.worker]? with
      | none => st
      | some wk =>
        match trySend (wk.pc != .ended) config.channelSize wk.input data with
        | .ok input => { st with workers := st.workers.set ch.worker { wk with input := input } }
        | .full => st
        | .closed => { st with channels := st.channels.replace flowId { ch with inputOpen := false } }

/-- `Close` from the client: the channel goes and its worker is aborted. -/
def close (st : NativeUdpSession Addr) (flowId : UInt64) : NativeUdpSession Addr :=
  match st.channels.lookup flowId with
  | none => st
  | some ch => { st.abort ch.worker with channels := st.channels.erase flowId }

/-- The `match message` of the inbound branch. -/
def handleMessage (st : NativeUdpSession Addr) :
    UdpSessionMessage Addr → NativeUdpSession Addr × List (SessionAction Addr)
  | .openData flowId _ payload => st.openData config flowId payload
  | .data flowId payload => (st.data config flowId payload, [])
  | .close flowId _ => (st.close flowId, [])
  | .ping token => (st, [.send (.pong token)])
  | .pong _ | .connectResponse .. => (st, [])

/-- The `match event` of the channel-event branch. A `ConnectResult` goes to
the client while its flow has a channel, and a failed one lets go of the
input; `Closed` takes the flow's channel away, without aborting its worker,
and tells the client. -/
def handleChannelEvent (st : NativeUdpSession Addr) :
    ChannelEvent Addr → NativeUdpSession Addr × List (SessionAction Addr)
  | .connectResult flowId response =>
    match st.channels.lookup flowId with
    | none => (st, [])
    | some ch =>
      match response with
      | .connectResponse _ true _ => (st, [.send response])
      | _ =>
        ({ st with channels := st.channels.replace flowId { ch with inputOpen := false } },
          [.send response])
  | .closed flowId reason =>
    if flowId ∈ st.channels then
      ({ st with channels := st.channels.erase flowId }, [.send (.close flowId reason)])
    else (st, [])

/-- `send_connect_result`; a worker that failed returns. -/
def workerConnects (st : NativeUdpSession Addr) (worker : Nat) (wk : ChannelWorker)
    (error : Option String) : NativeUdpSession Addr :=
  { st with
      channelEvents :=
        st.channelEvents ++ [.connectResult wk.flowId (connectResponse wk.flowId error)]
      workers := st.workers.set worker
        (if error.isNone then { wk with pc := .relaying } else wk.finish) }

/-- `input_rx.recv()` in the worker's loop. -/
def workerReads (st : NativeUdpSession Addr) (worker : Nat) (wk : ChannelWorker) :
    NativeUdpSession Addr × List (SessionAction Addr) :=
  match wk.input with
  | [] => (st, [])
  | payload :: rest =>
    ({ st with workers := st.workers.set worker { wk with input := rest } },
      [.forward worker payload])

/-- `try_queue_target_response`: a full queue drops the datagram. -/
def workerReceives (st : NativeUdpSession Addr) (wk : ChannelWorker) (payload : List UInt8) :
    NativeUdpSession Addr :=
  match trySend true config.channelSize st.outbound (.data wk.flowId payload) with
  | .ok outbound => { st with outbound := outbound }
  | _ => st

/-- `send_channel_closed` as the worker returns. -/
def workerEnds (st : NativeUdpSession Addr) (worker : Nat) (wk : ChannelWorker)
    (reason : Option String) : NativeUdpSession Addr :=
  { st with
      channelEvents := st.channelEvents ++ [.closed wk.flowId reason]
      workers := st.workers.set worker wk.finish }

/-- A move of worker `worker`, which does nothing unless the worker is at a
point where it can make it. -/
def workerStep (st : NativeUdpSession Addr) (worker : Nat) (wk : ChannelWorker) :
    NativeUdpSessionEvent Addr → NativeUdpSession Addr × List (SessionAction Addr)
  | .workerConnects _ error =>
    if wk.pc = .connecting then (st.workerConnects worker wk error, []) else (st, [])
  | .workerReads _ => if wk.pc = .relaying then st.workerReads worker wk else (st, [])
  | .workerReceives _ payload =>
    if wk.pc = .relaying then (st.workerReceives config wk payload, []) else (st, [])
  | .workerEnds _ reason =>
    if wk.pc = .relaying then (st.workerEnds worker wk reason, []) else (st, [])
  | _ => (st, [])

/-- One turn of the loop, or one move of a worker. Once the loop has ended,
nothing happens: its workers are aborted. -/
def step (st : NativeUdpSession Addr) (event : NativeUdpSessionEvent Addr) :
    NativeUdpSession Addr × List (SessionAction Addr) :=
  if !st.running then (st, [])
  else
    match event with
    | .inbound (.ok (some message)) => st.handleMessage config message
    | .inbound _ => (st, [])
    | .outbound =>
      match st.outbound with
      | [] => (st, [])
      | message :: rest => ({ st with outbound := rest }, [.send message])
    | .channelEvent =>
      match st.channelEvents with
      | [] => (st, [])
      | e :: rest => { st with channelEvents := rest }.handleChannelEvent e
    | .loopEnds => (st.finish, [])
    | .workerConnects worker _ | .workerReads worker | .workerReceives worker _
    | .workerEnds worker _ =>
      match st.workers[worker]? with
      | none => (st, [])
      | some wk => st.workerStep config worker wk event

/-- The flow of each worker, by name. -/
def flowIds (st : NativeUdpSession Addr) : List UInt64 := st.workers.map (·.flowId)

-- ---------------------------------------------------------------------------
-- The queues
-- ---------------------------------------------------------------------------

theorem trySend_eq_ok {α : Type} {alive : Bool} {capacity : Nat} {queue queue' : List α}
    {item : α} : trySend alive capacity queue item = .ok queue' ↔
      alive = true ∧ queue.length < capacity ∧ queue' = queue ++ [item] := by
  unfold trySend
  cases alive <;> by_cases h : queue.length < capacity <;> simp [h, eq_comm]

/-- The first datagram of a new flow always fits: the `expect` never fires. -/
theorem trySend_fresh (payload : List UInt8) : trySend true config.channelSize [] payload = .ok [payload] :=
  trySend_eq_ok.mpr ⟨rfl, by simp only [List.length_nil, SessionConfig.channelSize]; omega, rfl⟩

-- ---------------------------------------------------------------------------
-- What each operation does
-- ---------------------------------------------------------------------------

section Operations

variable {config} {st : NativeUdpSession Addr}

/-- `OpenData` drops the datagram of a flow with a channel, turns a new flow
away at the limit, and else opens it. -/
theorem openData_cases (flowId : UInt64) (payload : List UInt8) :
    (flowId ∈ st.channels ∧ st.openData config flowId payload = (st, [])) ∨
    (flowId ∉ st.channels ∧ config.udpSessionMaxFlows ≤ st.channels.entries.length ∧
      st.openData config flowId payload =
        (st, [.send (connectResponse flowId (some (flowLimitError config.udpSessionMaxFlows)))])) ∨
    (flowId ∉ st.channels ∧ st.channels.entries.length < config.udpSessionMaxFlows ∧
      st.openData config flowId payload =
        ({ st with
            channels := st.channels.insert flowId ⟨true, st.workers.length⟩
            workers := st.workers ++ [⟨flowId, .connecting, [payload]⟩] }, [])) := by
  unfold openData classifyFlowAdmission classifyUdpRelayFlowAdmission
  by_cases hmem : flowId ∈ st.channels
  · exact .inl ⟨hmem, by simp [hmem]⟩
  · by_cases hfull : st.channels.entries.length ≥ config.udpSessionMaxFlows
    · exact .inr (.inl ⟨hmem, hfull, by simp [hmem, hfull]⟩)
    · exact .inr (.inr ⟨hmem, by omega, by simp [hmem, hfull, trySend_fresh]⟩)

@[simp] theorem flowIds_finish : st.finish.flowIds = st.flowIds := by
  simp [finish, flowIds, ChannelWorker.finish, Function.comp_def]

theorem flowIds_set {worker : Nat} {wk wk' : ChannelWorker} (hwk : st.workers[worker]? = some wk)
    (hflow : wk'.flowId = wk.flowId) : (st.workers.set worker wk').map (·.flowId) = st.flowIds := by
  obtain ⟨hlt, hget⟩ := List.getElem?_eq_some_iff.mp hwk
  unfold flowIds
  apply List.ext_getElem?
  intro i
  rw [List.map_set, List.getElem?_set]
  by_cases hi : worker = i
  · subst hi
    simp [hlt, hget, hflow]
  · simp [hi]

theorem flowIds_abort (worker : Nat) : (st.abort worker).flowIds = st.flowIds := by
  apply List.ext_getElem?
  intro i
  simp only [abort, flowIds, List.getElem?_map, List.getElem?_modify]
  cases st.workers[i]? <;> simp [ChannelWorker.finish, apply_ite]

/-- `Data` does nothing, or queues the datagram to the flow's worker, or finds
that worker gone and lets go of its input. -/
theorem data_cases (flowId : UInt64) (payload : List UInt8) :
    st.data config flowId payload = st ∨
    (∃ ch wk, st.channels.lookup flowId = some ch ∧ ch.inputOpen = true ∧
      st.workers[ch.worker]? = some wk ∧ wk.pc ≠ .ended ∧ wk.input.length < config.channelSize ∧
      st.data config flowId payload =
        { st with workers := st.workers.set ch.worker { wk with input := wk.input ++ [payload] } }) ∨
    (∃ ch wk, st.channels.lookup flowId = some ch ∧ st.workers[ch.worker]? = some wk ∧
      wk.pc = .ended ∧
      st.data config flowId payload =
        { st with channels := st.channels.replace flowId { ch with inputOpen := false } }) := by
  unfold data
  cases hch : st.channels.lookup flowId with
  | none => exact .inl rfl
  | some ch =>
    by_cases hopen : ch.inputOpen
    · cases hwk : st.workers[ch.worker]? with
      | none => exact .inl (by simp [hopen, hwk])
      | some wk =>
        by_cases hended : wk.pc = .ended
        · exact .inr (.inr ⟨ch, wk, rfl, hwk, hended, by simp [hopen, hwk, trySend, hended]⟩)
        · by_cases hroom : wk.input.length < config.channelSize
          · exact .inr (.inl ⟨ch, wk, rfl, hopen, hwk, hended, hroom,
              by simp [hopen, hwk, trySend, hended, hroom]⟩)
          · exact .inl (by simp [hopen, hwk, trySend, hended, hroom])
    · exact .inl (by simp [hopen])

theorem flowIds_data (flowId : UInt64) (payload : List UInt8) :
    (st.data config flowId payload).flowIds = st.flowIds := by
  rcases @data_cases _ config st flowId payload with
    h | ⟨ch, wk, -, -, hwk, -, -, h⟩ | ⟨ch, wk, -, -, -, h⟩ <;> rw [h]
  · exact flowIds_set hwk rfl
  · rfl

theorem flowIds_close (flowId : UInt64) : (st.close flowId).flowIds = st.flowIds := by
  unfold close
  cases st.channels.lookup flowId with
  | none => rfl
  | some ch => exact flowIds_abort ch.worker

theorem flowIds_handleMessage (message : UdpSessionMessage Addr) :
    st.flowIds <+: (st.handleMessage config message).1.flowIds := by
  cases message with
  | openData flowId address payload =>
    rcases @openData_cases _ config st flowId payload with
      ⟨-, h⟩ | ⟨-, -, h⟩ | ⟨-, -, h⟩ <;> simp only [handleMessage, h]
    · exact List.prefix_refl _
    · exact List.prefix_refl _
    · simp [flowIds]
  | data flowId payload => simp [handleMessage, flowIds_data]
  | close flowId reason => simp [handleMessage, flowIds_close]
  | connectResponse | ping | pong => exact List.prefix_refl _

@[simp] theorem workers_handleChannelEvent (e : ChannelEvent Addr) :
    (st.handleChannelEvent e).1.workers = st.workers := by
  unfold handleChannelEvent
  repeat' split
  all_goals rfl

theorem flowIds_workerStep {worker : Nat} {wk : ChannelWorker} (hwk : st.workers[worker]? = some wk)
    (event : NativeUdpSessionEvent Addr) :
    (st.workerStep config worker wk event).1.flowIds = st.flowIds := by
  cases event with
  | workerConnects _ error =>
    simp only [workerStep]
    split_ifs
    · exact flowIds_set hwk (by cases error <;> rfl)
    · rfl
  | workerReads _ =>
    simp only [workerStep, workerReads]
    split_ifs
    · split
      · rfl
      · exact flowIds_set hwk rfl
    · rfl
  | workerReceives _ payload =>
    simp only [workerStep, workerReceives]
    split_ifs
    · split <;> rfl
    · rfl
  | workerEnds _ reason =>
    simp only [workerStep]
    split_ifs
    · exact flowIds_set hwk rfl
    · rfl
  | inbound | outbound | channelEvent | loopEnds => rfl

/-- Workers are only ever added: each keeps its name and its flow. -/
theorem flowIds_step (event : NativeUdpSessionEvent Addr) :
    st.flowIds <+: (st.step config event).1.flowIds := by
  unfold step
  by_cases hrun : st.running
  · simp only [hrun, Bool.not_true, Bool.false_eq_true, if_false]
    cases event with
    | inbound decoded =>
      rcases decoded with _ | _ | message
      · exact List.prefix_refl _
      · exact List.prefix_refl _
      · exact flowIds_handleMessage message
    | outbound =>
      dsimp only
      split <;> exact List.prefix_refl _
    | channelEvent =>
      dsimp only
      split
      · exact List.prefix_refl _
      · simp [flowIds]
    | loopEnds => simp
    | workerConnects worker | workerReads worker | workerReceives worker | workerEnds worker =>
      dsimp only
      split
      · exact List.prefix_refl _
      · rename_i wk hwk
        rw [flowIds_workerStep hwk]
  · simp [hrun]

end Operations

-- ---------------------------------------------------------------------------
-- What holds in every state
-- ---------------------------------------------------------------------------

/-- What holds in every state of the session: the flow limit; each channel's
worker serves the channel's flow; every `ConnectResult` carries the
`connect_response` of its flow; and the outbound queue holds `Data` only. -/
structure Wf (st : NativeUdpSession Addr) : Prop where
  channels_le : st.channels.entries.length ≤ config.udpSessionMaxFlows
  channel_worker : ∀ f ch, st.channels.lookup f = some ch → st.flowIds[ch.worker]? = some f
  connect_results : ∀ f r, ChannelEvent.connectResult f r ∈ st.channelEvents →
    ∃ error, r = connectResponse f error
  outbound_data : ∀ m ∈ st.outbound, ∃ g payload, m = .data g payload

section Wf

variable {config} {st : NativeUdpSession Addr}

theorem getElem?_of_prefix {α : Type} {l l' : List α} (h : l <+: l') {i : Nat} {x : α}
    (hx : l[i]? = some x) : l'[i]? = some x := by
  obtain ⟨t, rfl⟩ := h
  rwa [List.getElem?_append_left (List.getElem?_eq_some_iff.mp hx).1]

theorem wf_new : Wf config (new : NativeUdpSession Addr) where
  channels_le := by simp [new]
  channel_worker := by simp [new]
  connect_results := by simp [new]
  outbound_data := by simp [new]

/-- A state whose channels are some of another's, possibly closed to input,
over the same workers or more, and whose queues gained only well-formed
entries. -/
theorem Wf.of_le (h : Wf config st) {st' : NativeUdpSession Addr}
    (hlen : st'.channels.entries.length ≤ st.channels.entries.length)
    (hchan : ∀ f ch', st'.channels.lookup f = some ch' →
      ∃ ch, st.channels.lookup f = some ch ∧ ch'.worker = ch.worker)
    (hflow : st.flowIds <+: st'.flowIds)
    (hev : ∀ f r, ChannelEvent.connectResult f r ∈ st'.channelEvents →
      ChannelEvent.connectResult f r ∈ st.channelEvents ∨ ∃ error, r = connectResponse f error)
    (hout : ∀ m ∈ st'.outbound, m ∈ st.outbound ∨ ∃ g payload, m = .data g payload) :
    Wf config st' where
  channels_le := hlen.trans h.channels_le
  channel_worker f ch' hch' := by
    obtain ⟨ch, hch, hworker⟩ := hchan f ch' hch'
    rw [hworker]
    exact getElem?_of_prefix hflow (h.channel_worker f ch hch)
  connect_results f r hr := (hev f r hr).elim (h.connect_results f r) id
  outbound_data m hm := (hout m hm).elim (h.outbound_data m) id

/-- The same channels and queues over workers that serve the same flows. -/
theorem Wf.of_workers (h : Wf config st) {st' : NativeUdpSession Addr}
    (hchannels : st'.channels = st.channels) (hflow : st'.flowIds = st.flowIds)
    (hevents : st'.channelEvents = st.channelEvents) (hout : st'.outbound = st.outbound) :
    Wf config st' :=
  h.of_le (by rw [hchannels]) (fun f ch' hch' => ⟨ch', by rwa [← hchannels], rfl⟩)
    (by rw [hflow]) (fun f r hr => .inl (by rwa [← hevents]))
    (fun m hm => .inl (by rwa [← hout]))

/-- Closing a flow's channel to input. -/
theorem Wf.replace (h : Wf config st) {flowId : UInt64} {ch : ChannelState}
    (hch : st.channels.lookup flowId = some ch) :
    Wf config { st with channels := st.channels.replace flowId { ch with inputOpen := false } } := by
  have hmem : flowId ∈ st.channels := AList.lookup_isSome.mp (by simp [hch])
  refine h.of_le (by simp) ?_ (List.prefix_refl _) (fun f r hr => .inl hr) (fun m hm => .inl hm)
  intro f ch' hch'
  rw [Table.lookup_replace_of_mem hmem] at hch'
  split_ifs at hch' with hf
  · cases hch'
    exact ⟨ch, hf ▸ hch, rfl⟩
  · exact ⟨ch', hch', rfl⟩

/-- Taking a flow's channel away. -/
theorem Wf.erase (h : Wf config st) {flowId : UInt64} (hmem : flowId ∈ st.channels)
    {st' : NativeUdpSession Addr} (hchannels : st'.channels = st.channels.erase flowId)
    (hflow : st'.flowIds = st.flowIds) (hevents : st'.channelEvents = st.channelEvents)
    (hout : st'.outbound = st.outbound) : Wf config st' := by
  refine h.of_le ?_ ?_ (by rw [hflow]) (fun f r hr => .inl (by rwa [← hevents]))
    (fun m hm => .inl (by rwa [← hout]))
  · have := Table.length_erase_of_mem hmem
    rw [hchannels]
    omega
  · intro f ch' hch'
    rw [hchannels] at hch'
    exact ⟨ch', Table.lookup_of_lookup_erase hch', rfl⟩

theorem Wf.finish (st : NativeUdpSession Addr) : Wf config st.finish where
  channels_le := by simp [NativeUdpSession.finish]
  channel_worker := by simp [NativeUdpSession.finish]
  connect_results := by simp [NativeUdpSession.finish]
  outbound_data := by simp [NativeUdpSession.finish]

theorem Wf.openData (h : Wf config st) (flowId : UInt64) (payload : List UInt8) :
    Wf config (st.openData config flowId payload).1 := by
  rcases @openData_cases _ config st flowId payload with
    ⟨-, hopen⟩ | ⟨-, -, hopen⟩ | ⟨hfresh, hroom, hopen⟩ <;> rw [hopen]
  · exact h
  · exact h
  · -- the new channel names the new worker, which serves its flow
    refine ⟨?_, ?_, h.connect_results, h.outbound_data⟩
    · dsimp only
      rw [Table.length_insert_of_notMem hfresh]
      omega
    · intro f ch hch
      dsimp only at hch ⊢
      by_cases hf : f = flowId
      · subst hf
        rw [AList.lookup_insert] at hch
        cases hch
        simp [flowIds]
      · rw [AList.lookup_insert_ne hf] at hch
        exact getElem?_of_prefix (by simp [flowIds]) (h.channel_worker f ch hch)

theorem Wf.data (h : Wf config st) (flowId : UInt64) (payload : List UInt8) :
    Wf config (st.data config flowId payload) := by
  rcases @data_cases _ config st flowId payload with
    hdata | ⟨ch, wk, -, -, hwk, -, -, hdata⟩ | ⟨ch, wk, hch, -, -, hdata⟩ <;> rw [hdata]
  · exact h
  · exact h.of_workers rfl (flowIds_set hwk rfl) rfl rfl
  · exact h.replace hch

theorem Wf.close (h : Wf config st) (flowId : UInt64) : Wf config (st.close flowId) := by
  unfold NativeUdpSession.close
  cases hch : st.channels.lookup flowId with
  | none => exact h
  | some ch =>
    exact h.erase (AList.lookup_isSome.mp (by simp [hch])) rfl (flowIds_abort ch.worker) rfl rfl

theorem Wf.handleMessage (h : Wf config st) (message : UdpSessionMessage Addr) :
    Wf config (st.handleMessage config message).1 := by
  cases message with
  | openData flowId address payload => exact h.openData flowId payload
  | data flowId payload => exact h.data flowId payload
  | close flowId reason => exact h.close flowId
  | connectResponse | ping | pong => exact h

theorem Wf.handleChannelEvent (h : Wf config st) (e : ChannelEvent Addr) :
    Wf config (st.handleChannelEvent e).1 := by
  cases e with
  | connectResult flowId response =>
    simp only [NativeUdpSession.handleChannelEvent]
    cases hch : st.channels.lookup flowId with
    | none => exact h
    | some ch =>
      dsimp only
      split
      · exact h
      · exact h.replace hch
  | closed flowId reason =>
    simp only [NativeUdpSession.handleChannelEvent]
    split_ifs with hmem
    · exact h.erase hmem rfl rfl rfl rfl
    · exact h

theorem Wf.workerStep (h : Wf config st) {worker : Nat} {wk : ChannelWorker}
    (hwk : st.workers[worker]? = some wk) (event : NativeUdpSessionEvent Addr) :
    Wf config (st.workerStep config worker wk event).1 := by
  have hflow := @flowIds_workerStep _ config st _ _ hwk event
  cases event with
  | workerConnects _ error =>
    simp only [NativeUdpSession.workerStep] at hflow ⊢
    split_ifs at hflow ⊢
    · refine h.of_le le_rfl (fun f ch' hch' => ⟨ch', hch', rfl⟩) (by rw [hflow])
        ?_ (fun m hm => .inl hm)
      intro f r hr
      simp only [NativeUdpSession.workerConnects, List.mem_append, List.mem_singleton,
        ChannelEvent.connectResult.injEq] at hr
      rcases hr with hr | ⟨rfl, rfl⟩
      · exact .inl hr
      · exact .inr ⟨error, rfl⟩
    · exact h
  | workerReads _ =>
    simp only [NativeUdpSession.workerStep] at hflow ⊢
    split_ifs at hflow ⊢
    · unfold NativeUdpSession.workerReads
      split
      · exact h
      · exact h.of_workers rfl (flowIds_set hwk rfl) rfl rfl
    · exact h
  | workerReceives _ payload =>
    simp only [NativeUdpSession.workerStep] at hflow ⊢
    split_ifs at hflow ⊢
    · unfold NativeUdpSession.workerReceives
      split
      · rename_i outbound hsend
        obtain ⟨-, -, rfl⟩ := trySend_eq_ok.mp hsend
        refine h.of_le le_rfl (fun f ch' hch' => ⟨ch', hch', rfl⟩) (List.prefix_refl _)
          (fun f r hr => .inl hr) ?_
        intro m hm
        rcases List.mem_append.mp hm with hm | hm
        · exact .inl hm
        · exact .inr ⟨wk.flowId, payload, List.mem_singleton.mp hm⟩
      · exact h
    · exact h
  | workerEnds _ reason =>
    simp only [NativeUdpSession.workerStep] at hflow ⊢
    split_ifs at hflow ⊢
    · refine h.of_le le_rfl (fun f ch' hch' => ⟨ch', hch', rfl⟩) (by rw [hflow])
        ?_ (fun m hm => .inl hm)
      intro f r hr
      simp only [NativeUdpSession.workerEnds, List.mem_append, List.mem_singleton,
        reduceCtorEq, or_false] at hr
      exact .inl hr
    · exact h
  | inbound | outbound | channelEvent | loopEnds => exact h

theorem Wf.step (h : Wf config st) (event : NativeUdpSessionEvent Addr) :
    Wf config (st.step config event).1 := by
  unfold NativeUdpSession.step
  by_cases hrun : st.running
  · simp only [hrun, Bool.not_true, Bool.false_eq_true, if_false]
    cases event with
    | inbound decoded =>
      rcases decoded with _ | _ | message
      · exact h
      · exact h
      · exact h.handleMessage message
    | outbound =>
      dsimp only
      split
      · exact h
      · rename_i message rest hout
        refine h.of_le le_rfl (fun f ch' hch' => ⟨ch', hch', rfl⟩) (List.prefix_refl _)
          (fun f r hr => .inl hr) (fun m hm => .inl ?_)
        rw [hout]
        exact List.mem_cons_of_mem _ hm
    | channelEvent =>
      dsimp only
      split
      · exact h
      · rename_i e rest hevents
        apply Wf.handleChannelEvent
        refine h.of_le le_rfl (fun f ch' hch' => ⟨ch', hch', rfl⟩) (List.prefix_refl _)
          (fun f r hr => .inl ?_) (fun m hm => .inl hm)
        rw [hevents]
        exact List.mem_cons_of_mem _ hr
    | loopEnds => exact Wf.finish st
    | workerConnects worker | workerReads worker | workerReceives worker | workerEnds worker =>
      dsimp only
      split
      · exact h
      · rename_i wk hwk
        exact h.workerStep hwk _
  · simp only [hrun, Bool.not_false, if_true]
    exact h

theorem wf_final (events : List (NativeUdpSessionEvent Addr)) :
    Wf config (Machine.final (step config) new events) := by
  have hp : Machine.Preserved (step config) (@Wf Addr config) := fun st event h => h.step event
  exact Machine.final_preserved hp wf_new events

end Wf

/-- The session never holds more channels than `udp_session_max_flows`,
whatever the client sends and whatever the workers do. -/
theorem flows_within_limit (events : List (NativeUdpSessionEvent Addr)) :
    (Machine.final (step config) new events).channels.entries.length ≤
      config.udpSessionMaxFlows :=
  (wf_final events).channels_le

-- ---------------------------------------------------------------------------
-- What each worker is given
-- ---------------------------------------------------------------------------

/-- The datagrams an event brings for a flow, each marked by whether it came
in an `OpenData`. -/
def payloadsFor (flowId : UInt64) : NativeUdpSessionEvent Addr → List (Bool × List UInt8)
  | .inbound (.ok (some (.openData f _ payload))) => if f = flowId then [(true, payload)] else []
  | .inbound (.ok (some (.data f payload))) => if f = flowId then [(false, payload)] else []
  | _ => []

/-- The datagrams the client's messages of a flow carry, in the order they
came. -/
def flowPayloads (flowId : UInt64) (events : List (NativeUdpSessionEvent Addr)) :
    List (Bool × List UInt8) :=
  events.flatMap (payloadsFor flowId)

/-- The datagrams a worker passed on to its target. -/
def forwarded (worker : Nat) (actions : List (SessionAction Addr)) : List (List UInt8) :=
  actions.flatMap fun
    | .forward w payload => if w = worker then [payload] else []
    | .send _ => []

/-- A flow's `OpenData` datagram, then some of its `Data` datagrams, in the
order they came. -/
def FollowsFlow (payloads : List (Bool × List UInt8)) (got : List (List UInt8)) : Prop :=
  ∃ first rest, List.Sublist ((true, first) :: rest.map fun x => (false, x)) payloads ∧
    got = first :: rest

/-- What a worker passed on and still holds: all it was given while it runs,
the first part of it once it has ended. -/
def WorkerGot (payloads : List (Bool × List UInt8)) (sent : List (List UInt8))
    (wk : ChannelWorker) : Prop :=
  ∃ got, FollowsFlow payloads got ∧ sent ++ wk.input <+: got ∧
    (wk.pc ≠ .ended → sent ++ wk.input = got)

section WorkerGot

variable {payloads : List (Bool × List UInt8)} {sent : List (List UInt8)} {wk : ChannelWorker}

theorem WorkerGot.mono (h : WorkerGot payloads sent wk) {payloads' : List (Bool × List UInt8)}
    (hp : List.Sublist payloads payloads') : WorkerGot payloads' sent wk := by
  obtain ⟨got, ⟨first, rest, hsub, hgot⟩, hpre, hrun⟩ := h
  exact ⟨got, ⟨first, rest, hsub.trans hp, hgot⟩, hpre, hrun⟩

theorem WorkerGot.finish (h : WorkerGot payloads sent wk) : WorkerGot payloads sent wk.finish := by
  obtain ⟨got, hfollow, hpre, -⟩ := h
  refine ⟨got, hfollow, ?_, fun hrun => absurd rfl hrun⟩
  simpa [ChannelWorker.finish] using (List.prefix_append sent wk.input).trans hpre

theorem WorkerGot.relay (h : WorkerGot payloads sent wk) (hpc : wk.pc ≠ .ended) :
    WorkerGot payloads sent { wk with pc := .relaying } := by
  obtain ⟨got, hfollow, hpre, hrun⟩ := h
  exact ⟨got, hfollow, hpre, fun _ => hrun hpc⟩

/-- The worker takes the head of its input and passes it on. -/
theorem WorkerGot.read (h : WorkerGot payloads sent wk) {payload : List UInt8}
    {rest : List (List UInt8)} (hinput : wk.input = payload :: rest) :
    WorkerGot payloads (sent ++ [payload]) { wk with input := rest } := by
  obtain ⟨got, hfollow, hpre, hrun⟩ := h
  refine ⟨got, hfollow, ?_, ?_⟩
  · simpa [hinput] using hpre
  · intro hpc
    simpa [hinput] using hrun hpc

/-- The session queues a `Data` datagram of the worker's flow to it. -/
theorem WorkerGot.enqueue (h : WorkerGot payloads sent wk) (hpc : wk.pc ≠ .ended)
    (payload : List UInt8) :
    WorkerGot (payloads ++ [(false, payload)]) sent { wk with input := wk.input ++ [payload] } := by
  obtain ⟨got, ⟨first, rest, hsub, rfl⟩, -, hrun⟩ := h
  refine ⟨first :: (rest ++ [payload]), ⟨first, rest ++ [payload], ?_, rfl⟩, ?_, fun _ => ?_⟩
  · simpa using hsub.append (List.Sublist.refl [(false, payload)])
  · rw [← List.append_assoc, hrun hpc]
    exact List.prefix_refl _
  · rw [← List.append_assoc, hrun hpc]
    rfl

/-- A new worker holds its flow's `OpenData` datagram and has passed nothing
on. -/
theorem workerGot_spawn (payloads : List (Bool × List UInt8)) (flowId : UInt64)
    (payload : List UInt8) :
    WorkerGot (payloads ++ [(true, payload)]) [] ⟨flowId, .connecting, [payload]⟩ :=
  ⟨[payload], ⟨payload, [], by simp, rfl⟩, List.prefix_refl _, fun _ => rfl⟩

end WorkerGot

/-- What every worker was given, over a history of events and actions; and
no action names a worker not yet spawned. -/
structure Given (st : NativeUdpSession Addr) (events : List (NativeUdpSessionEvent Addr))
    (actions : List (SessionAction Addr)) : Prop where
  unspawned : ∀ w, st.workers.length ≤ w → forwarded w actions = []
  worker : ∀ w wk, st.workers[w]? = some wk →
    WorkerGot (flowPayloads wk.flowId events) (forwarded w actions) wk

section Given

variable {config} {st : NativeUdpSession Addr} {events : List (NativeUdpSessionEvent Addr)}
  {actions : List (SessionAction Addr)}

@[simp] theorem flowPayloads_append (flowId : UInt64) (events : List (NativeUdpSessionEvent Addr))
    (event : NativeUdpSessionEvent Addr) :
    flowPayloads flowId (events ++ [event]) = flowPayloads flowId events ++ payloadsFor flowId event := by
  simp [flowPayloads]

@[simp] theorem forwarded_append (worker : Nat) (actions acts : List (SessionAction Addr)) :
    forwarded worker (actions ++ acts) = forwarded worker actions ++ forwarded worker acts := by
  simp [forwarded]

@[simp] theorem forwarded_send (worker : Nat) (message : UdpSessionMessage Addr) :
    forwarded worker [.send message] = [] := rfl

@[simp] theorem forwarded_nil (worker : Nat) : forwarded worker ([] : List (SessionAction Addr)) = [] :=
  rfl

theorem forwarded_handleMessage (worker : Nat) (message : UdpSessionMessage Addr) :
    forwarded worker (st.handleMessage config message).2 = [] := by
  cases message with
  | openData flowId address payload =>
    rcases @openData_cases _ config st flowId payload with
      ⟨-, h⟩ | ⟨-, -, h⟩ | ⟨-, -, h⟩ <;> simp [handleMessage, h]
  | data | close | connectResponse | ping | pong => simp [handleMessage]

theorem forwarded_handleChannelEvent (worker : Nat) (e : ChannelEvent Addr) :
    forwarded worker (st.handleChannelEvent e).2 = [] := by
  unfold handleChannelEvent
  repeat' split
  all_goals simp

theorem given_new : Given (new : NativeUdpSession Addr) [] [] :=
  ⟨fun _ _ => rfl, by simp [new]⟩

/-- The workers are as they were, and none passes anything on. -/
theorem Given.frame (h : Given st events actions) {st' : NativeUdpSession Addr}
    (event : NativeUdpSessionEvent Addr) {acts : List (SessionAction Addr)}
    (hworkers : st'.workers = st.workers) (hacts : ∀ w, forwarded w acts = []) :
    Given st' (events ++ [event]) (actions ++ acts) where
  unspawned w hw := by
    rw [hworkers] at hw
    rw [forwarded_append, hacts, h.unspawned w hw, List.append_nil]
  worker w wk hwk := by
    rw [hworkers] at hwk
    rw [forwarded_append, hacts, List.append_nil, flowPayloads_append]
    exact (h.worker w wk hwk).mono (List.sublist_append_left _ _)

/-- One worker's record changes, and only that worker may pass something on. -/
theorem Given.set (h : Given st events actions) {st' : NativeUdpSession Addr}
    (event : NativeUdpSessionEvent Addr) {acts : List (SessionAction Addr)} {w0 : Nat}
    {wk wk' : ChannelWorker} (hwk : st.workers[w0]? = some wk)
    (hworkers : st'.workers = st.workers.set w0 wk') (hflow : wk'.flowId = wk.flowId)
    (hacts : ∀ w, w ≠ w0 → forwarded w acts = [])
    (hgot : WorkerGot (flowPayloads wk.flowId events) (forwarded w0 actions) wk →
      WorkerGot (flowPayloads wk.flowId (events ++ [event])) (forwarded w0 (actions ++ acts)) wk') :
    Given st' (events ++ [event]) (actions ++ acts) where
  unspawned w hw := by
    have hlt : w0 < st.workers.length := (List.getElem?_eq_some_iff.mp hwk).1
    rw [hworkers, List.length_set] at hw
    rw [forwarded_append, hacts w (by omega), h.unspawned w hw, List.append_nil]
  worker w wk'' hwk'' := by
    have hlt : w0 < st.workers.length := (List.getElem?_eq_some_iff.mp hwk).1
    rw [hworkers, List.getElem?_set] at hwk''
    by_cases hw : w0 = w
    · subst hw
      simp only [if_true, hlt, Option.some.injEq] at hwk''
      subst hwk''
      rw [hflow]
      exact hgot (h.worker w0 wk hwk)
    · simp only [hw, if_false] at hwk''
      rw [forwarded_append, hacts w (Ne.symm hw), List.append_nil, flowPayloads_append]
      exact (h.worker w wk'' hwk'').mono (List.sublist_append_left _ _)

/-- A worker ends, and nothing is passed on. -/
theorem Given.finishOne (h : Given st events actions) {st' : NativeUdpSession Addr}
    (event : NativeUdpSessionEvent Addr) {w0 : Nat} {wk : ChannelWorker}
    (hwk : st.workers[w0]? = some wk) (hworkers : st'.workers = st.workers.set w0 wk.finish) :
    Given st' (events ++ [event]) (actions ++ []) :=
  h.set event hwk hworkers rfl (fun _ _ => rfl) fun hgot => by
    simpa using (hgot.mono (List.sublist_append_left _ (payloadsFor wk.flowId event))).finish

theorem Given.finish (h : Given st events actions) (event : NativeUdpSessionEvent Addr) :
    Given st.finish (events ++ [event]) (actions ++ []) where
  unspawned w hw := by
    simp only [NativeUdpSession.finish, List.length_map] at hw
    rw [forwarded_append, h.unspawned w hw, forwarded_nil, List.append_nil]
  worker w wk hwk := by
    simp only [NativeUdpSession.finish, List.getElem?_map, Option.map_eq_some_iff] at hwk
    obtain ⟨wk₀, hwk₀, rfl⟩ := hwk
    rw [forwarded_append, forwarded_nil, List.append_nil, flowPayloads_append]
    exact ((h.worker w wk₀ hwk₀).mono (List.sublist_append_left _ _)).finish

/-- `OpenData` of a new flow: the next worker holds its datagram. -/
theorem Given.spawn (h : Given st events actions) {st' : NativeUdpSession Addr} {flowId : UInt64}
    {address : Addr} {payload : List UInt8}
    (hworkers : st'.workers = st.workers ++ [⟨flowId, .connecting, [payload]⟩]) :
    Given st' (events ++ [.inbound (.ok (some (.openData flowId address payload)))]) (actions ++ []) where
  unspawned w hw := by
    rw [hworkers, List.length_append, List.length_singleton] at hw
    rw [forwarded_append, h.unspawned w (by omega), forwarded_nil, List.append_nil]
  worker w wk hwk := by
    rw [forwarded_append, forwarded_nil, List.append_nil, flowPayloads_append]
    rw [hworkers] at hwk
    by_cases hw : w < st.workers.length
    · rw [List.getElem?_append_left hw] at hwk
      exact (h.worker w wk hwk).mono (List.sublist_append_left _ _)
    · -- the new worker, named by the number of workers before it
      have hw' : w = st.workers.length := by
        have := (List.getElem?_eq_some_iff.mp hwk).1
        simp only [List.length_append, List.length_singleton] at this
        omega
      subst hw'
      rw [List.getElem?_concat_length, Option.some.injEq] at hwk
      subst hwk
      rw [h.unspawned _ le_rfl]
      simpa [payloadsFor] using workerGot_spawn (flowPayloads flowId events) flowId payload

/-- A channel's worker serves the channel's flow. -/
theorem Wf.flowId_of_channel (hwf : Wf config st) {flowId : UInt64} {ch : ChannelState}
    {wk : ChannelWorker} (hch : st.channels.lookup flowId = some ch)
    (hwk : st.workers[ch.worker]? = some wk) : wk.flowId = flowId := by
  have hget := hwf.channel_worker flowId ch hch
  simp only [flowIds, List.getElem?_map, hwk, Option.map_some, Option.some.injEq] at hget
  exact hget

/-- A channel's worker exists. -/
theorem Wf.worker_of_channel (hwf : Wf config st) {flowId : UInt64} {ch : ChannelState}
    (hch : st.channels.lookup flowId = some ch) : ∃ wk, st.workers[ch.worker]? = some wk := by
  have hget := hwf.channel_worker flowId ch hch
  simp only [flowIds, List.getElem?_map, Option.map_eq_some_iff] at hget
  obtain ⟨wk, hwk, -⟩ := hget
  exact ⟨wk, hwk⟩

theorem Given.handleMessage (h : Given st events actions) (hwf : Wf config st)
    (message : UdpSessionMessage Addr) :
    Given (st.handleMessage config message).1 (events ++ [.inbound (.ok (some message))])
      (actions ++ (st.handleMessage config message).2) := by
  cases message with
  | openData flowId address payload =>
    simp only [NativeUdpSession.handleMessage]
    rcases @openData_cases _ config st flowId payload with
      ⟨-, hopen⟩ | ⟨-, -, hopen⟩ | ⟨-, -, hopen⟩ <;> rw [hopen]
    · exact h.frame _ rfl fun _ => rfl
    · exact h.frame _ rfl fun _ => rfl
    · exact h.spawn rfl
  | data flowId payload =>
    simp only [NativeUdpSession.handleMessage]
    rcases @data_cases _ config st flowId payload with
      hdata | ⟨ch, wk, hch, -, hwk, hpc, -, hdata⟩ | ⟨ch, wk, -, -, -, hdata⟩ <;> rw [hdata]
    · exact h.frame _ rfl fun _ => rfl
    · -- the datagram joins the input of the flow's worker
      have hflow := hwf.flowId_of_channel hch hwk
      refine h.set _ hwk rfl rfl (fun _ _ => rfl) fun hgot => ?_
      rw [forwarded_append, forwarded_nil, List.append_nil, flowPayloads_append]
      simpa [payloadsFor, hflow] using hgot.enqueue hpc payload
    · exact h.frame _ rfl fun _ => rfl
  | close flowId reason =>
    simp only [NativeUdpSession.handleMessage, NativeUdpSession.close]
    cases hch : st.channels.lookup flowId with
    | none => exact h.frame _ rfl fun _ => rfl
    | some ch =>
      obtain ⟨wk, hwk⟩ := hwf.worker_of_channel hch
      refine h.finishOne _ hwk ?_
      simp [abort, List.modify_eq_set_getElem?, hwk]
  | connectResponse | ping | pong => exact h.frame _ rfl fun _ => rfl

theorem Given.workerStep (h : Given st events actions) {w0 : Nat} {wk : ChannelWorker}
    (hwk : st.workers[w0]? = some wk) (event : NativeUdpSessionEvent Addr) :
    Given (st.workerStep config w0 wk event).1 (events ++ [event])
      (actions ++ (st.workerStep config w0 wk event).2) := by
  cases event with
  | workerConnects _ error =>
    simp only [NativeUdpSession.workerStep]
    split_ifs with hpc
    · cases error with
      | none =>
        refine h.set _ hwk rfl rfl (fun _ _ => rfl) fun hgot => ?_
        simpa using (hgot.mono (List.sublist_append_left _ _)).relay (by rw [hpc]; decide)
      | some error => exact h.finishOne _ hwk rfl
    · exact h.frame _ rfl fun _ => rfl
  | workerReads _ =>
    simp only [NativeUdpSession.workerStep]
    split_ifs
    · unfold NativeUdpSession.workerReads
      split
      · exact h.frame _ rfl fun _ => rfl
      · rename_i payload rest hinput
        refine h.set _ hwk rfl rfl (fun w hw => by simp [forwarded, Ne.symm hw]) fun hgot => ?_
        simpa [forwarded] using (hgot.mono (List.sublist_append_left _ _)).read hinput
    · exact h.frame _ rfl fun _ => rfl
  | workerReceives _ payload =>
    simp only [NativeUdpSession.workerStep, NativeUdpSession.workerReceives]
    split_ifs
    · split <;> exact h.frame _ rfl fun _ => rfl
    · exact h.frame _ rfl fun _ => rfl
  | workerEnds _ reason =>
    simp only [NativeUdpSession.workerStep]
    split_ifs
    · exact h.finishOne _ hwk rfl
    · exact h.frame _ rfl fun _ => rfl
  | inbound | outbound | channelEvent | loopEnds => exact h.frame _ rfl fun _ => rfl

theorem Given.step (h : Given st events actions) (hwf : Wf config st)
    (event : NativeUdpSessionEvent Addr) :
    Given (st.step config event).1 (events ++ [event]) (actions ++ (st.step config event).2) := by
  unfold NativeUdpSession.step
  by_cases hrun : st.running
  · simp only [hrun, Bool.not_true, Bool.false_eq_true, if_false]
    cases event with
    | inbound decoded =>
      rcases decoded with _ | _ | message
      · exact h.frame _ rfl fun _ => rfl
      · exact h.frame _ rfl fun _ => rfl
      · exact h.handleMessage hwf message
    | outbound =>
      dsimp only
      split <;> exact h.frame _ rfl fun _ => rfl
    | channelEvent =>
      dsimp only
      split
      · exact h.frame _ rfl fun _ => rfl
      · exact h.frame _ (by simp) fun w => forwarded_handleChannelEvent w _
    | loopEnds => exact h.finish _
    | workerConnects worker | workerReads worker | workerReceives worker | workerEnds worker =>
      dsimp only
      split
      · exact h.frame _ rfl fun _ => rfl
      · rename_i wk hwk
        exact h.workerStep hwk _
  · simp only [hrun, Bool.not_false, if_true]
    exact h.frame _ rfl fun _ => rfl

end Given

theorem given_final (events : List (NativeUdpSessionEvent Addr)) :
    Given (Machine.final (step config) new events) events
      (Machine.run (step config) new events).flatten := by
  have hstep : ∀ (st : NativeUdpSession Addr) (evs : List (NativeUdpSessionEvent Addr))
      (outs : List (List (SessionAction Addr))) (event : NativeUdpSessionEvent Addr),
      Wf config st ∧ Given st evs outs.flatten →
        Wf config (st.step config event).1 ∧
          Given (st.step config event).1 (evs ++ [event]) (outs ++ [(st.step config event).2]).flatten :=
    fun st evs outs event ⟨hwf, h⟩ => ⟨hwf.step event, by simpa using h.step hwf event⟩
  have hnew : Wf config (new : NativeUdpSession Addr) ∧
      Given (new : NativeUdpSession Addr) [] ([] : List (List (SessionAction Addr))).flatten :=
    ⟨wf_new, given_new⟩
  simpa using (Machine.final_history hstep events hnew).2

/-- What each worker passed on to its target, followed by what it still
holds, is the `OpenData` datagram that opened its flow and then some of the
flow's `Data` datagrams, in the order the client's messages came: a worker
never gets another flow's datagram, one datagram twice, datagrams out of
order, or a second `OpenData`. -/
theorem worker_gets_its_flow (events : List (NativeUdpSessionEvent Addr)) (worker : Nat)
    (wk : ChannelWorker) (hwk : (Machine.final (step config) new events).workers[worker]? = some wk) :
    ∃ first rest, List.Sublist ((true, first) :: rest.map fun x => (false, x))
        (flowPayloads wk.flowId events) ∧
      forwarded worker (Machine.run (step config) new events).flatten ++ wk.input <+: first :: rest := by
  obtain ⟨got, ⟨first, rest, hsub, rfl⟩, hpre, -⟩ := (given_final config events).worker worker wk hwk
  exact ⟨first, rest, hsub, hpre⟩

/-- The worker the first `OpenData` of flow 5 spawns. -/
theorem worker_gets_its_flow_on_open :
    (Machine.final (step ⟨1, 1⟩) new [.inbound (.ok (some (.openData 5 () [1])))] :
        NativeUdpSession Unit).workers[0]? = some ⟨5, .connecting, [[1]]⟩ ∧
    ∃ first rest, List.Sublist ((true, first) :: rest.map fun x => (false, x))
        (flowPayloads 5 [(.inbound (.ok (some (.openData 5 () [1]))) : NativeUdpSessionEvent Unit)]) ∧
      forwarded 0 (Machine.run (step ⟨1, 1⟩) new
        [(.inbound (.ok (some (.openData 5 () [1]))) : NativeUdpSessionEvent Unit)]).flatten ++ [[1]] <+:
        first :: rest := by
  have hwk : (Machine.final (step ⟨1, 1⟩) new [.inbound (.ok (some (.openData 5 () [1])))] :
      NativeUdpSession Unit).workers[0]? = some ⟨5, .connecting, [[1]]⟩ := by decide
  exact ⟨hwk, worker_gets_its_flow ⟨1, 1⟩ _ 0 _ hwk⟩

-- ---------------------------------------------------------------------------
-- What the client is sent of each flow
-- ---------------------------------------------------------------------------

/-- The datagram a message carries for a flow, if it is that flow's `Data`. -/
def dataOf (flowId : UInt64) : UdpSessionMessage Addr → List (List UInt8)
  | .data f payload => if f = flowId then [payload] else []
  | _ => []

/-- The datagrams of a flow that the session sent the client. -/
def sentData (flowId : UInt64) (actions : List (SessionAction Addr)) : List (List UInt8) :=
  actions.flatMap fun
    | .send message => dataOf flowId message
    | .forward .. => []

/-- The datagram a worker's target answered with, if the worker serves the
flow by `flows`. -/
def receivedFor (flows : List UInt64) (flowId : UInt64) :
    NativeUdpSessionEvent Addr → List (List UInt8)
  | .workerReceives w payload => if flows[w]? = some flowId then [payload] else []
  | _ => []

section Sent

variable {config} {st : NativeUdpSession Addr}

@[simp] theorem sentData_send (flowId : UInt64) (message : UdpSessionMessage Addr) :
    sentData flowId [.send message] = dataOf flowId message := by
  simp [sentData]

@[simp] theorem sentData_nil (flowId : UInt64) : sentData flowId ([] : List (SessionAction Addr)) = [] :=
  rfl

theorem handleMessage_outbound_sentData (flowId : UInt64) (message : UdpSessionMessage Addr) :
    (st.handleMessage config message).1.outbound = st.outbound ∧
      sentData flowId (st.handleMessage config message).2 = [] := by
  cases message with
  | openData f address payload =>
    rcases @openData_cases _ config st f payload with
      ⟨-, h⟩ | ⟨-, -, h⟩ | ⟨-, -, h⟩ <;> simp [handleMessage, h, connectResponse, dataOf]
  | data f payload =>
    rcases @data_cases _ config st f payload with
      h | ⟨_, _, -, -, -, -, -, h⟩ | ⟨_, _, -, -, -, h⟩ <;> simp [handleMessage, h]
  | close f reason =>
    simp only [handleMessage, NativeUdpSession.close, sentData_nil, and_true]
    split <;> rfl
  | connectResponse | ping | pong => simp [handleMessage, dataOf]

theorem handleChannelEvent_outbound_sentData (hwf : Wf config st) {e : ChannelEvent Addr}
    (he : e ∈ st.channelEvents) (rest : List (ChannelEvent Addr)) (flowId : UInt64) :
    ({ st with channelEvents := rest }.handleChannelEvent e).1.outbound = st.outbound ∧
      sentData flowId ({ st with channelEvents := rest }.handleChannelEvent e).2 = [] := by
  cases e with
  | connectResult f response =>
    -- the response is the `connect_response` its worker built
    obtain ⟨error, rfl⟩ := hwf.connect_results f response he
    simp only [handleChannelEvent]
    split
    · simp
    · split <;> simp [connectResponse, dataOf]
  | closed f reason =>
    simp only [handleChannelEvent]
    split_ifs <;> simp [dataOf]

/-- What a step sends of a flow's datagrams, followed by what stays queued, is
what was queued followed by what the step's worker was answered with. -/
theorem sentData_step (hwf : Wf config st) {flows : List UInt64} (hflows : st.flowIds <+: flows)
    (flowId : UInt64) (event : NativeUdpSessionEvent Addr) :
    List.Sublist
      (sentData flowId (st.step config event).2 ++ (st.step config event).1.outbound.flatMap (dataOf flowId))
      (st.outbound.flatMap (dataOf flowId) ++ receivedFor flows flowId event) := by
  unfold NativeUdpSession.step
  by_cases hrun : st.running
  · rw [if_neg (by simp [hrun])]
    cases event with
    | inbound decoded =>
      rcases decoded with _ | _ | message
      · simp
      · simp
      · obtain ⟨hout, hsent⟩ := @handleMessage_outbound_sentData _ config st flowId message
        simp [hout, hsent]
    | outbound =>
      dsimp only
      split
      · simp
      · rename_i message rest hout
        simp [hout]
    | channelEvent =>
      dsimp only
      split
      · simp
      · rename_i e rest hevents
        obtain ⟨hout, hsent⟩ :=
          handleChannelEvent_outbound_sentData hwf (by rw [hevents]; exact List.mem_cons_self ..) rest flowId
        simp [hout, hsent]
    | loopEnds => simp [NativeUdpSession.finish]
    | workerReceives worker payload =>
      dsimp only
      split
      · simp
      · rename_i wk hwk
        -- the worker's flow is the one `flows` gives it
        have hflow : flows[worker]? = some wk.flowId :=
          getElem?_of_prefix hflows (by simp [flowIds, hwk])
        simp only [workerStep, workerReceives]
        split_ifs
        · split
          · rename_i outbound hsend
            obtain ⟨-, -, rfl⟩ := trySend_eq_ok.mp hsend
            by_cases hf : wk.flowId = flowId <;> simp [dataOf, receivedFor, hflow, hf]
          · simp
        · simp
    | workerConnects worker error =>
      dsimp only
      split
      · simp
      · simp only [workerStep]
        split_ifs <;> simp [workerConnects, receivedFor]
    | workerReads worker =>
      dsimp only
      split
      · simp
      · rename_i wk hwk
        simp only [workerStep]
        split_ifs
        · unfold workerReads
          split <;> simp [sentData, receivedFor]
        · simp
    | workerEnds worker reason =>
      dsimp only
      split
      · simp
      · simp only [workerStep]
        split_ifs <;> simp [workerEnds, receivedFor]
  · simp [hrun]

theorem flowIds_final (events : List (NativeUdpSessionEvent Addr)) :
    ∀ st : NativeUdpSession Addr, st.flowIds <+: (Machine.final (step config) st events).flowIds := by
  induction events with
  | nil => exact fun st => List.prefix_refl _
  | cons event events ih => exact fun st => (flowIds_step event).trans (ih _)

theorem sentData_run (flowId : UInt64) (events : List (NativeUdpSessionEvent Addr)) :
    ∀ st : NativeUdpSession Addr, Wf config st → ∀ {flows : List UInt64},
      (Machine.final (step config) st events).flowIds <+: flows →
      List.Sublist
        (sentData flowId (Machine.run (step config) st events).flatten ++
          (Machine.final (step config) st events).outbound.flatMap (dataOf flowId))
        (st.outbound.flatMap (dataOf flowId) ++ events.flatMap (receivedFor flows flowId)) := by
  induction events with
  | nil => intro st _ _ _; simp
  | cons event events ih =>
    intro st hwf flows hflows
    have hnext := ih (st.step config event).1 (hwf.step event) hflows
    have hnow := sentData_step hwf ((@flowIds_final _ config (event :: events) st).trans hflows) flowId event
    -- what this step sends, then what the rest of the run sends and leaves queued
    have hchain := (hnext.append_left (sentData flowId (st.step config event).2)).trans
      (by simpa only [List.append_assoc] using
        hnow.append_right (events.flatMap (receivedFor flows flowId)))
    simpa [sentData, List.append_assoc] using hchain

end Sent

/-- The datagrams the session sends the client on a flow are some of those
the flow's workers got from their targets, in the order they got them: none
from another flow's target, none twice, and none out of order. -/
theorem client_gets_its_flow (events : List (NativeUdpSessionEvent Addr)) (flowId : UInt64) :
    List.Sublist (sentData flowId (Machine.run (step config) new events).flatten)
      (events.flatMap (receivedFor (Machine.final (step config) new events).flowIds flowId)) := by
  have hrun := @sentData_run Addr config flowId events new wf_new _
    (List.prefix_refl (Machine.final (step config) new events).flowIds)
  simpa [new] using (List.sublist_append_left _ _).trans hrun

end NativeUdpSession

end Ppaass.Proxy
