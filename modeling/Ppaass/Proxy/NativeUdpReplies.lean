import Ppaass.Proxy.NativeUdpSession

/-!
# What the proxy's native UDP session tells the client, flow by flow

The native client opens each flow once: it sends one `OpenData` per flow id
and never reuses a flow id (`Ppaass.Common.flow_messages_follow_protocol`,
`Ppaass.Common.flowIds_increase`), and the session codec hands each datagram
over at most once. When no flow id is opened twice in what the session
decodes, each flow has at most one worker, and a worker that still runs
holds its flow's channel (`Once`). Then:

* the session never runs more workers than `udp_session_max_flows`
  (`live_workers_within_limit`); and
* what it tells the client of each flow follows `ReplyPhase`: one
  `ConnectResponse`, and after a successful one at most one `Close`, and
  nothing after that (`flow_replies_follow_protocol`).

Both rest on the condition. A `Closed` from a worker whose flow the client
closed and opened again takes the new flow's channel away without aborting
the new worker, which then runs beside the workers of later flows, past the
limit.
-/

namespace Ppaass.Proxy

open Ppaass.Common (UdpSessionMessage)

variable {Addr : Type}

/-- The flow a channel event is about. -/
def ChannelEvent.flowId : ChannelEvent Addr → UInt64
  | .connectResult f _ | .closed f _ => f

/-- What the session tells the client for a channel event, while the flow
has a channel. -/
def ChannelEvent.message : ChannelEvent Addr → UdpSessionMessage Addr
  | .connectResult _ response => response
  | .closed f reason => .close f reason

/-- What the session may still tell the client of a flow: nothing yet, its
`Close` after a successful `ConnectResponse`, or nothing more. -/
inductive ReplyPhase where
  | fresh
  | connected
  | closed
  deriving DecidableEq, Repr

/-- The replies of a flow, one message at a time. -/
def ReplyPhase.next : ReplyPhase → UdpSessionMessage Addr → Option ReplyPhase
  | .fresh, .connectResponse _ success _ => some (if success then .connected else .closed)
  | .connected, .close _ _ => some .closed
  | _, _ => none

/-- The phase a flow's replies may be in while its worker is where it is:
a connecting worker has reported nothing, a relaying one its success. -/
def ReplyPhase.Allows : ReplyPhase → WorkerPc → Prop
  | p, .connecting => p = .fresh
  | p, .relaying => p = .connected
  | _, .ended => True

namespace NativeUdpSession

/-- The flow an event's `OpenData` opens. -/
def opens : NativeUdpSessionEvent Addr → List UInt64
  | .inbound (.ok (some (.openData f _ _))) => [f]
  | _ => []

/-- The flows the client's `OpenData` messages name, in the order they came. -/
def openedFlows (events : List (NativeUdpSessionEvent Addr)) : List UInt64 :=
  events.flatMap opens

/-- Whether a message is a reply about a flow: its `ConnectResponse` or its
`Close`. -/
def isReplyFor (flowId : UInt64) : UdpSessionMessage Addr → Bool
  | .connectResponse f _ _ | .close f _ => decide (f = flowId)
  | _ => false

/-- The replies about a flow that the session sent the client. -/
def repliesFor (flowId : UInt64) (actions : List (SessionAction Addr)) :
    List (UdpSessionMessage Addr) :=
  actions.filterMap fun
    | .send message => if isReplyFor flowId message then some message else none
    | .forward .. => none

/-- What the session will tell the client of a flow's queued channel events,
if the flow keeps its channel. -/
def pendingFor (flowId : UInt64) (st : NativeUdpSession Addr) : List (UdpSessionMessage Addr) :=
  (st.channelEvents.filter fun e => e.flowId = flowId).map (·.message)

/-- Where the worker that holds a flow's channel is. -/
def pcOf (flowId : UInt64) (st : NativeUdpSession Addr) : Option WorkerPc :=
  (st.channels.lookup flowId).bind fun ch => st.workers[ch.worker]?.map (·.pc)

-- ---------------------------------------------------------------------------
-- Each flow opened once
-- ---------------------------------------------------------------------------

/-- What holds while no flow is opened twice: every worker's flow was
opened, no two workers serve one flow, a worker that runs holds its flow's
channel, every queued channel event is about a worker's flow, and a queued
`Closed` comes from a worker that has ended. -/
structure Once (st : NativeUdpSession Addr) (events : List (NativeUdpSessionEvent Addr)) :
    Prop where
  opened : ∀ f ∈ st.flowIds, f ∈ openedFlows events
  distinct : st.flowIds.Nodup
  live_channel : ∀ (w : Nat) (wk : ChannelWorker), st.workers[w]? = some wk → wk.pc ≠ .ended →
    ∃ ch, st.channels.lookup wk.flowId = some ch ∧ ch.worker = w
  event_worker : ∀ e ∈ st.channelEvents, e.flowId ∈ st.flowIds
  closed_ended : ∀ f reason, ChannelEvent.closed f reason ∈ st.channelEvents →
    ∀ (w : Nat) (wk : ChannelWorker), st.workers[w]? = some wk → wk.flowId = f → wk.pc = .ended

section Once

variable {config : SessionConfig} {st : NativeUdpSession Addr}
  {events : List (NativeUdpSessionEvent Addr)}

@[simp] theorem openedFlows_append (events : List (NativeUdpSessionEvent Addr))
    (event : NativeUdpSessionEvent Addr) :
    openedFlows (events ++ [event]) = openedFlows events ++ opens event := by
  simp [openedFlows]

theorem flowIds_getElem? {w : Nat} {wk : ChannelWorker} (hwk : st.workers[w]? = some wk) :
    st.flowIds[w]? = some wk.flowId := by
  simp [flowIds, hwk]

theorem eq_of_getElem?_of_nodup {α : Type} {l : List α} (h : l.Nodup) {i j : Nat} {a : α}
    (hi : l[i]? = some a) (hj : l[j]? = some a) : i = j := by
  obtain ⟨hi', hia⟩ := List.getElem?_eq_some_iff.mp hi
  obtain ⟨hj', hja⟩ := List.getElem?_eq_some_iff.mp hj
  exact (h.getElem_inj_iff).mp (hia.trans hja.symm)

/-- No two workers serve one flow. -/
theorem Once.eq_of_flowId (h : Once st events) {w w' : Nat} {wk wk' : ChannelWorker}
    (hwk : st.workers[w]? = some wk) (hwk' : st.workers[w']? = some wk')
    (hflow : wk.flowId = wk'.flowId) : w = w' :=
  eq_of_getElem?_of_nodup h.distinct (flowIds_getElem? hwk) (hflow ▸ flowIds_getElem? hwk')

/-- A flow's channel belongs to the flow's one worker. -/
theorem Once.channel_worker (h : Once st events) (hwf : Wf config st) {f : UInt64}
    {ch : ChannelState} (hch : st.channels.lookup f = some ch) {w : Nat} {wk : ChannelWorker}
    (hwk : st.workers[w]? = some wk) (hflow : wk.flowId = f) : ch.worker = w :=
  eq_of_getElem?_of_nodup h.distinct (hwf.channel_worker f ch hch) (hflow ▸ flowIds_getElem? hwk)

theorem Once.mono (h : Once st events) {events' : List (NativeUdpSessionEvent Addr)}
    (hsub : openedFlows events ⊆ openedFlows events') : Once st events' :=
  { h with opened := fun f hf => hsub (h.opened f hf) }

theorem once_new : Once (new : NativeUdpSession Addr) [] where
  opened := by simp [new, flowIds]
  distinct := by simp [new, flowIds]
  live_channel := by simp [new]
  event_worker := by simp [new]
  closed_ended := by simp [new]

theorem Once.finish (h : Once st events) : Once st.finish events where
  opened := by rw [flowIds_finish]; exact h.opened
  distinct := by rw [flowIds_finish]; exact h.distinct
  live_channel w wk hwk hlive := by
    simp only [NativeUdpSession.finish, List.getElem?_map, Option.map_eq_some_iff] at hwk
    obtain ⟨_, -, rfl⟩ := hwk
    exact absurd rfl hlive
  event_worker := by simp [NativeUdpSession.finish]
  closed_ended := by simp [NativeUdpSession.finish]

/-- The `OpenData` of a flow never opened before. -/
theorem Once.openData (h : Once st events) {flowId : UInt64}
    (hfresh : flowId ∉ openedFlows events) (address : Addr) (payload : List UInt8) :
    Once (st.openData config flowId payload).1
      (events ++ [.inbound (.ok (some (.openData flowId address payload)))]) := by
  have hsub : openedFlows events ⊆ openedFlows
      (events ++ [.inbound (.ok (some (.openData flowId address payload)))]) := by simp
  rcases @openData_cases _ config st flowId payload with
    ⟨-, hopen⟩ | ⟨-, -, hopen⟩ | ⟨hmem, -, hopen⟩ <;> rw [hopen]
  · exact h.mono hsub
  · exact h.mono hsub
  · -- no worker serves the new flow yet
    have hnew : flowId ∉ st.flowIds := fun hf => hfresh (h.opened flowId hf)
    have hne : ∀ {w : Nat} {wk : ChannelWorker}, st.workers[w]? = some wk → wk.flowId ≠ flowId :=
      fun hwk hf => hnew (hf ▸ List.mem_of_getElem? (flowIds_getElem? hwk))
    refine ⟨?_, ?_, ?_, ?_, ?_⟩
    · intro f hf
      simp only [flowIds, List.map_append, List.map_cons, List.map_nil, List.mem_append,
        List.mem_singleton] at hf
      rcases hf with hf | rfl
      · exact hsub (h.opened f hf)
      · simp [opens]
    · simp only [flowIds, List.map_append, List.map_cons, List.map_nil]
      refine List.nodup_append.mpr ⟨h.distinct, List.nodup_singleton _, ?_⟩
      intro a ha b hb hab
      rw [List.mem_singleton.mp hb] at hab
      exact hnew (hab ▸ ha)
    · intro w wk hwk hlive
      dsimp only at hwk ⊢
      by_cases hw : w < st.workers.length
      · rw [List.getElem?_append_left hw] at hwk
        obtain ⟨ch, hch, hworker⟩ := h.live_channel w wk hwk hlive
        exact ⟨ch, by rw [AList.lookup_insert_ne (hne hwk), hch], hworker⟩
      · -- the new worker, which holds the new channel
        have hw' : w = st.workers.length := by
          have := (List.getElem?_eq_some_iff.mp hwk).1
          simp only [List.length_append, List.length_singleton] at this
          omega
        subst hw'
        rw [List.getElem?_concat_length, Option.some.injEq] at hwk
        subst hwk
        exact ⟨_, AList.lookup_insert _, rfl⟩
    · intro e he
      have := h.event_worker e he
      simp only [flowIds, List.map_append, List.mem_append]
      exact .inl this
    · intro f reason hclosed w wk hwk hflow
      dsimp only at hwk hclosed
      by_cases hw : w < st.workers.length
      · rw [List.getElem?_append_left hw] at hwk
        exact h.closed_ended f reason hclosed w wk hwk hflow
      · -- the new worker's flow has no events
        have hw' : w = st.workers.length := by
          have := (List.getElem?_eq_some_iff.mp hwk).1
          simp only [List.length_append, List.length_singleton] at this
          omega
        subst hw'
        rw [List.getElem?_concat_length, Option.some.injEq] at hwk
        subst hwk
        have hf : f ∈ st.flowIds := h.event_worker _ hclosed
        rw [← hflow] at hf
        exact absurd hf hnew

/-- The workers serve the same flows, none starts running again, and only
channels whose worker does not run are lost; new events are about a
worker's flow, and a new `Closed` about a flow whose worker has ended. -/
theorem Once.of_workers (h : Once st events) {st' : NativeUdpSession Addr}
    (hflow : st'.flowIds = st.flowIds)
    (hpc : ∀ (w : Nat) (wk' : ChannelWorker), st'.workers[w]? = some wk' →
      ∃ wk : ChannelWorker, st.workers[w]? = some wk ∧ (wk'.pc ≠ .ended → wk.pc ≠ .ended))
    (hchan : ∀ (w : Nat) (wk : ChannelWorker), st.workers[w]? = some wk → wk.pc ≠ .ended →
      (∀ wk' : ChannelWorker, st'.workers[w]? = some wk' → wk'.pc ≠ .ended) →
      ∃ ch, st'.channels.lookup wk.flowId = some ch ∧ ch.worker = w)
    (hevents : ∀ e ∈ st'.channelEvents, e ∈ st.channelEvents ∨ e.flowId ∈ st.flowIds)
    (hclosed : ∀ f reason, ChannelEvent.closed f reason ∈ st'.channelEvents →
      ChannelEvent.closed f reason ∉ st.channelEvents →
      ∀ (w : Nat) (wk' : ChannelWorker), st'.workers[w]? = some wk' → wk'.flowId = f →
        wk'.pc = .ended) : Once st' events where
  opened := by rw [hflow]; exact h.opened
  distinct := by rw [hflow]; exact h.distinct
  live_channel w wk' hwk' hlive := by
    obtain ⟨wk, hwk, hran⟩ := hpc w wk' hwk'
    have hflow' : wk'.flowId = wk.flowId := by
      have := flowIds_getElem? hwk'
      rw [hflow, flowIds_getElem? hwk, Option.some.injEq] at this
      exact this.symm
    rw [hflow']
    refine hchan w wk hwk (hran hlive) fun wk'' hwk'' => ?_
    rw [hwk', Option.some.injEq] at hwk''
    exact hwk'' ▸ hlive
  event_worker e he := by
    rw [hflow]
    exact (hevents e he).elim (h.event_worker e) id
  closed_ended f reason hmem w wk' hwk' hflow' := by
    by_cases hold : ChannelEvent.closed f reason ∈ st.channelEvents
    · obtain ⟨wk, hwk, hran⟩ := hpc w wk' hwk'
      have hid : wk.flowId = f := by
        have := flowIds_getElem? hwk'
        rw [hflow, flowIds_getElem? hwk, Option.some.injEq] at this
        exact this.trans hflow'
      by_contra hlive
      exact hran hlive (h.closed_ended f reason hold w wk hwk hid)
    · exact hclosed f reason hmem hold w wk' hwk' hflow'

theorem Once.data (h : Once st events) (flowId : UInt64) (payload : List UInt8) :
    Once (st.data config flowId payload) events := by
  rcases @data_cases _ config st flowId payload with
    hdata | ⟨ch, wk, hch, -, hwk, -, -, hdata⟩ | ⟨ch, wk, hch, -, -, hdata⟩ <;> rw [hdata]
  · exact h
  · -- the datagram goes into one worker's input
    refine h.of_workers (flowIds_set hwk rfl) ?_ ?_ ?_ ?_
    · intro w wk' hwk'
      dsimp only at hwk'
      rw [List.getElem?_set] at hwk'
      by_cases hw : ch.worker = w
      · subst hw
        simp only [if_true, (List.getElem?_eq_some_iff.mp hwk).1, Option.some.injEq] at hwk'
        exact ⟨wk, hwk, fun hlive => by rwa [← hwk'] at hlive⟩
      · simp only [hw, if_false] at hwk'
        exact ⟨wk', hwk', id⟩
    · intro w wk₀ hwk₀ hlive _
      exact h.live_channel w wk₀ hwk₀ hlive
    · exact fun e he => .inl he
    · exact fun f reason hnew hold => absurd hnew hold
  · -- the flow's input is closed; its channel stays
    have hmem : flowId ∈ st.channels := AList.lookup_isSome.mp (by simp [hch])
    refine h.of_workers rfl (fun w wk' hwk' => ⟨wk', hwk', id⟩) ?_ (fun e he => .inl he)
      (fun f reason hnew hold => absurd hnew hold)
    intro w wk₀ hwk₀ hlive _
    obtain ⟨ch₀, hch₀, hworker⟩ := h.live_channel w wk₀ hwk₀ hlive
    dsimp only
    rw [Table.lookup_replace_of_mem hmem]
    split_ifs with hf
    · rw [hf, hch] at hch₀
      cases hch₀
      exact ⟨_, rfl, hworker⟩
    · exact ⟨ch₀, hch₀, hworker⟩

theorem Once.close (h : Once st events) (flowId : UInt64) : Once (st.close flowId) events := by
  unfold NativeUdpSession.close
  cases hch : st.channels.lookup flowId with
  | none => exact h
  | some ch =>
    dsimp only
    refine h.of_workers (flowIds_abort ch.worker) ?_ ?_ (fun e he => .inl he)
      (fun f reason hnew hold => absurd hnew hold)
    · intro w wk' hwk'
      simp only [abort, List.getElem?_modify] at hwk'
      cases hwk : st.workers[w]? with
      | none => simp [hwk] at hwk'
      | some wk =>
        simp only [hwk, Option.map_eq_map, Option.map_some, Option.some.injEq] at hwk'
        refine ⟨wk, rfl, ?_⟩
        split_ifs at hwk'
        · exact fun hlive => absurd (by rw [← hwk']; rfl) hlive
        · exact fun hlive => by rwa [hwk']
    · -- a worker that still runs is not the aborted one, so its flow is another
      intro w wk hwk hlive hstill
      obtain ⟨ch₀, hch₀, hworker⟩ := h.live_channel w wk hwk hlive
      have hw : ch.worker ≠ w := by
        intro hw
        have := hstill wk.finish (by simp [abort, hwk, hw])
        exact this rfl
      have hf : wk.flowId ≠ flowId := by
        intro hf
        rw [hf, hch, Option.some.injEq] at hch₀
        exact hw (hch₀ ▸ hworker)
      exact ⟨ch₀, by rw [AList.lookup_erase_ne hf]; exact hch₀, hworker⟩

theorem Once.handleMessage (h : Once st events) (message : UdpSessionMessage Addr)
    (hfresh : ∀ f ∈ opens (.inbound (.ok (some message))), f ∉ openedFlows events) :
    Once (st.handleMessage config message).1 (events ++ [.inbound (.ok (some message))]) := by
  have hsub : openedFlows events ⊆ openedFlows (events ++ [.inbound (.ok (some message))]) := by
    simp
  cases message with
  | openData flowId address payload => exact h.openData (hfresh flowId (by simp [opens])) address payload
  | data flowId payload => exact (h.data flowId payload).mono hsub
  | close flowId reason => exact (h.close flowId).mono hsub
  | connectResponse | ping | pong => exact h.mono hsub

/-- The session takes the next channel event: a `Closed` takes away a
channel whose worker has ended. -/
theorem Once.handleChannelEvent (h : Once st events) {e : ChannelEvent Addr}
    {rest : List (ChannelEvent Addr)} (hevents : st.channelEvents = e :: rest) :
    Once ({ st with channelEvents := rest }.handleChannelEvent e).1 events := by
  have hold : ∀ e' ∈ rest, e' ∈ st.channelEvents :=
    fun e' he' => by rw [hevents]; exact List.mem_cons_of_mem _ he'
  have hrest : ∀ e' ∈ rest, e' ∈ st.channelEvents ∨ e'.flowId ∈ st.flowIds :=
    fun e' he' => .inl (hold e' he')
  have hclosed : ∀ f reason, ChannelEvent.closed f reason ∈ rest →
      ChannelEvent.closed f reason ∉ st.channelEvents → ∀ (w : Nat) (wk' : ChannelWorker),
      st.workers[w]? = some wk' → wk'.flowId = f → wk'.pc = .ended :=
    fun f reason hnew hnot => absurd (hold _ hnew) hnot
  have hkeep : ∀ (w : Nat) (wk : ChannelWorker), st.workers[w]? = some wk → wk.pc ≠ .ended →
      (∀ wk' : ChannelWorker, st.workers[w]? = some wk' → wk'.pc ≠ .ended) →
      ∃ ch, st.channels.lookup wk.flowId = some ch ∧ ch.worker = w :=
    fun w wk hwk hlive _ => h.live_channel w wk hwk hlive
  cases e with
  | connectResult flowId response =>
    simp only [NativeUdpSession.handleChannelEvent]
    cases hch : st.channels.lookup flowId with
    | none => exact h.of_workers rfl (fun w wk' hwk' => ⟨wk', hwk', id⟩) hkeep hrest hclosed
    | some ch =>
      have hmem : flowId ∈ st.channels := AList.lookup_isSome.mp (by simp [hch])
      dsimp only
      split
      · exact h.of_workers rfl (fun w wk' hwk' => ⟨wk', hwk', id⟩) hkeep hrest hclosed
      · -- a failed connect closes the flow's input; its channel stays
        refine h.of_workers rfl (fun w wk' hwk' => ⟨wk', hwk', id⟩) ?_ hrest hclosed
        intro w wk hwk hlive _
        obtain ⟨ch₀, hch₀, hworker⟩ := h.live_channel w wk hwk hlive
        dsimp only
        rw [Table.lookup_replace_of_mem hmem]
        split_ifs with hf
        · rw [hf, hch] at hch₀
          cases hch₀
          exact ⟨_, rfl, hworker⟩
        · exact ⟨ch₀, hch₀, hworker⟩
  | closed flowId reason =>
    simp only [NativeUdpSession.handleChannelEvent]
    have hmine : ChannelEvent.closed flowId reason ∈ st.channelEvents := by
      rw [hevents]; exact List.mem_cons_self ..
    split_ifs
    · refine h.of_workers rfl (fun w wk' hwk' => ⟨wk', hwk', id⟩) ?_ hrest hclosed
      -- a worker that runs is not the one whose `Closed` this is
      intro w wk hwk hlive _
      obtain ⟨ch₀, hch₀, hworker⟩ := h.live_channel w wk hwk hlive
      have hf : wk.flowId ≠ flowId :=
        fun hf => hlive (h.closed_ended flowId reason hmine w wk hwk hf)
      exact ⟨ch₀, by rw [AList.lookup_erase_ne hf]; exact hch₀, hworker⟩
    · exact h.of_workers rfl (fun w wk' hwk' => ⟨wk', hwk', id⟩) hkeep hrest hclosed

/-- The outbound queue plays no part. -/
theorem Once.outbound (h : Once st events) (outbound : List (UdpSessionMessage Addr)) :
    Once { st with outbound := outbound } events :=
  ⟨h.opened, h.distinct, h.live_channel, h.event_worker, h.closed_ended⟩

/-- One worker's record changes, keeping its flow and not running again. -/
theorem Once.set (h : Once st events) {st' : NativeUdpSession Addr} {w0 : Nat}
    {wk wk' : ChannelWorker} (hwk : st.workers[w0]? = some wk)
    (hworkers : st'.workers = st.workers.set w0 wk') (hflow : wk'.flowId = wk.flowId)
    (hran : wk'.pc ≠ .ended → wk.pc ≠ .ended) (hchannels : st'.channels = st.channels)
    (hevents : ∀ e ∈ st'.channelEvents, e ∈ st.channelEvents ∨ e.flowId ∈ st.flowIds)
    (hclosed : ∀ f reason, ChannelEvent.closed f reason ∈ st'.channelEvents →
      ChannelEvent.closed f reason ∉ st.channelEvents →
      ∀ (w : Nat) (wk' : ChannelWorker), st'.workers[w]? = some wk' → wk'.flowId = f →
        wk'.pc = .ended) : Once st' events := by
  refine h.of_workers (by rw [NativeUdpSession.flowIds, hworkers]; exact flowIds_set hwk hflow)
    ?_ ?_ hevents hclosed
  · intro w wk'' hwk''
    rw [hworkers, List.getElem?_set] at hwk''
    by_cases hw : w0 = w
    · subst hw
      simp only [if_true, (List.getElem?_eq_some_iff.mp hwk).1, Option.some.injEq] at hwk''
      exact ⟨wk, hwk, hwk'' ▸ hran⟩
    · simp only [hw, if_false] at hwk''
      exact ⟨wk'', hwk'', id⟩
  · intro w wk₀ hwk₀ hlive _
    rw [hchannels]
    exact h.live_channel w wk₀ hwk₀ hlive

theorem Once.workerStep (h : Once st events) {w0 : Nat} {wk : ChannelWorker}
    (hwk : st.workers[w0]? = some wk) (event : NativeUdpSessionEvent Addr) :
    Once (st.workerStep config w0 wk event).1 events := by
  have hmine : wk.flowId ∈ st.flowIds := List.mem_of_getElem? (flowIds_getElem? hwk)
  cases event with
  | workerConnects _ error =>
    simp only [NativeUdpSession.workerStep]
    split_ifs with hpc
    · refine h.set hwk rfl (by cases error <;> rfl) (fun _ => by rw [hpc]; decide) rfl ?_ ?_
      · intro e he
        rcases List.mem_append.mp he with he | he
        · exact .inl he
        · rw [List.mem_singleton.mp he]
          exact .inr hmine
      · intro f reason hnew hold
        simp [NativeUdpSession.workerConnects, hold] at hnew
    · exact h
  | workerReads _ =>
    simp only [NativeUdpSession.workerStep]
    split_ifs
    · unfold NativeUdpSession.workerReads
      split
      · exact h
      · exact h.set hwk rfl rfl id rfl (fun e he => .inl he) fun f reason hnew hold => absurd hnew hold
    · exact h
  | workerReceives _ payload =>
    simp only [NativeUdpSession.workerStep, NativeUdpSession.workerReceives]
    split_ifs
    · split
      · exact h.outbound _
      · exact h
    · exact h
  | workerEnds _ reason =>
    simp only [NativeUdpSession.workerStep]
    split_ifs
    · refine h.set hwk rfl rfl (fun hlive => absurd rfl hlive) rfl ?_ ?_
      · intro e he
        rcases List.mem_append.mp he with he | he
        · exact .inl he
        · rw [List.mem_singleton.mp he]
          exact .inr hmine
      · -- the one worker of the flow has ended
        intro f reason' hnew hold w wk' hwk' hflow
        simp only [NativeUdpSession.workerEnds, List.mem_append, List.mem_singleton,
          ChannelEvent.closed.injEq, hold, false_or] at hnew
        obtain ⟨rfl, -⟩ := hnew
        simp only [NativeUdpSession.workerEnds, List.getElem?_set] at hwk'
        by_cases hw : w0 = w
        · subst hw
          simp only [if_true, (List.getElem?_eq_some_iff.mp hwk).1, Option.some.injEq] at hwk'
          rw [← hwk']
          rfl
        · simp only [hw, if_false] at hwk'
          exact absurd (h.eq_of_flowId hwk hwk' hflow.symm) hw
    · exact h
  | inbound | outbound | channelEvent | loopEnds => exact h

theorem Once.step (h : Once st events) (event : NativeUdpSessionEvent Addr)
    (hfresh : ∀ f ∈ opens event, f ∉ openedFlows events) :
    Once (st.step config event).1 (events ++ [event]) := by
  have hsub : openedFlows events ⊆ openedFlows (events ++ [event]) := by simp
  unfold NativeUdpSession.step
  by_cases hrun : st.running
  · rw [if_neg (by simp [hrun])]
    cases event with
    | inbound decoded =>
      rcases decoded with _ | _ | message
      · exact h.mono hsub
      · exact h.mono hsub
      · exact h.handleMessage message hfresh
    | outbound =>
      dsimp only
      split
      · exact h.mono hsub
      · exact (h.outbound _).mono hsub
    | channelEvent =>
      dsimp only
      split
      · exact h.mono hsub
      · rename_i e rest hevents
        exact (h.handleChannelEvent hevents).mono hsub
    | loopEnds => exact h.finish.mono hsub
    | workerConnects worker | workerReads worker | workerReceives worker | workerEnds worker =>
      dsimp only
      split
      · exact h.mono hsub
      · rename_i wk hwk
        exact (h.workerStep hwk _).mono hsub
  · rw [if_pos (by simp [hrun])]
    exact h.mono hsub

/-- Each worker that runs holds a channel of its own. -/
theorem Once.live_le (h : Once st events) :
    (st.workers.filter fun wk => wk.pc != .ended).length ≤ st.channels.entries.length := by
  -- the flows of the running workers are distinct keys of `channels`
  have hnodup : ((st.workers.filter fun wk => wk.pc != .ended).map (·.flowId)).Nodup :=
    h.distinct.sublist (List.filter_sublist.map _)
  have hsub : (st.workers.filter fun wk => wk.pc != .ended).map (·.flowId) ⊆ st.channels.keys := by
    intro f hf
    obtain ⟨wk, hwk, rfl⟩ := List.mem_map.mp hf
    obtain ⟨hmem, hlive⟩ := List.mem_filter.mp hwk
    obtain ⟨w, hw⟩ := List.mem_iff_getElem?.mp hmem
    obtain ⟨ch, hch, -⟩ := h.live_channel w wk hw (by simpa using hlive)
    exact AList.mem_keys.mpr (AList.lookup_isSome.mp (by simp [hch]))
  have hle := (List.subperm_of_subset hnodup hsub).length_le
  rw [List.length_map, ← Table.length_entries_eq_keys] at hle
  exact hle

end Once

variable (config : SessionConfig)

/-- What holds over every run, and, while no flow has been opened twice,
`Once`. -/
theorem once_final (events : List (NativeUdpSessionEvent Addr)) :
    Wf config (Machine.final (step config) new events) ∧
      ((openedFlows events).Nodup → Once (Machine.final (step config) new events) events) := by
  have hstep : ∀ (st : NativeUdpSession Addr) (evs : List (NativeUdpSessionEvent Addr))
      (outs : List (List (SessionAction Addr))) (event : NativeUdpSessionEvent Addr),
      (Wf config st ∧ ((openedFlows evs).Nodup → Once st evs)) →
        Wf config (st.step config event).1 ∧
          ((openedFlows (evs ++ [event])).Nodup → Once (st.step config event).1 (evs ++ [event])) := by
    intro st evs outs event ⟨hwf, honce⟩
    refine ⟨hwf.step event, fun hnodup => ?_⟩
    rw [openedFlows_append, List.nodup_append] at hnodup
    obtain ⟨hpast, -, hfresh⟩ := hnodup
    exact (honce hpast).step event fun f hf hold => hfresh f hold f hf rfl
  have hnew : Wf config (new : NativeUdpSession Addr) ∧
      ((openedFlows ([] : List (NativeUdpSessionEvent Addr))).Nodup →
        Once (new : NativeUdpSession Addr) []) :=
    ⟨wf_new, fun _ => once_new⟩
  simpa using @Machine.final_history _ _ _ (step config) _ hstep events new [] [] hnew

/-- While no flow is opened twice, the session never runs more workers
than `udp_session_max_flows`: each one that runs holds a channel of its
own. -/
theorem live_workers_within_limit (events : List (NativeUdpSessionEvent Addr))
    (hopen : (openedFlows events).Nodup) :
    ((Machine.final (step config) new events).workers.filter fun wk => wk.pc != .ended).length ≤
      config.udpSessionMaxFlows :=
  ((once_final config events).2 hopen).live_le.trans (once_final config events).1.channels_le

/-- Two flows opened, at a limit of two. -/
theorem live_workers_within_limit_two :
    (openedFlows [(.inbound (.ok (some (.openData 5 () [1]))) : NativeUdpSessionEvent Unit),
      .inbound (.ok (some (.openData 6 () [2])))]).Nodup ∧
    ((Machine.final (step ⟨1, 2⟩) new [(.inbound (.ok (some (.openData 5 () [1]))) :
      NativeUdpSessionEvent Unit), .inbound (.ok (some (.openData 6 () [2])))]).workers.filter
        fun wk => wk.pc != .ended).length ≤ 2 :=
  ⟨by decide, live_workers_within_limit ⟨1, 2⟩ _ (by decide)⟩

-- ---------------------------------------------------------------------------
-- The replies of one flow
-- ---------------------------------------------------------------------------

/-- What holds of one flow's replies so far: they follow `ReplyPhase` to a
phase `p`, which is `fresh` until the flow is opened; and while the flow has
a channel, the replies its queued events would bring follow on from `p` to a
phase that the channel's worker allows. -/
structure Replies (st : NativeUdpSession Addr) (events : List (NativeUdpSessionEvent Addr))
    (log : List (UdpSessionMessage Addr)) (f : UInt64) : Prop where
  accepted : ∃ p, log.foldlM ReplyPhase.next .fresh = some p ∧
    (f ∉ openedFlows events → p = .fresh) ∧
    ∀ pc, pcOf f st = some pc →
      ∃ q, (pendingFor f st).foldlM ReplyPhase.next p = some q ∧ q.Allows pc

section Replies

variable {config} {st : NativeUdpSession Addr} {events : List (NativeUdpSessionEvent Addr)}
  {log : List (UdpSessionMessage Addr)} {f : UInt64}

@[simp] theorem repliesFor_append (flowId : UInt64) (actions acts : List (SessionAction Addr)) :
    repliesFor flowId (actions ++ acts) = repliesFor flowId actions ++ repliesFor flowId acts := by
  simp [repliesFor]

@[simp] theorem repliesFor_nil (flowId : UInt64) :
    repliesFor flowId ([] : List (SessionAction Addr)) = [] := rfl

theorem repliesFor_send (flowId : UInt64) (message : UdpSessionMessage Addr) :
    repliesFor flowId [.send message] = if isReplyFor flowId message then [message] else [] := by
  cases h : isReplyFor flowId message <;> simp [repliesFor, h]

theorem repliesFor_send_of_not (flowId : UInt64) {message : UdpSessionMessage Addr}
    (h : isReplyFor flowId message = false) : repliesFor flowId [.send message] = [] := by
  simp [repliesFor_send, h]

theorem replies_new (flowId : UInt64) : Replies (new : NativeUdpSession Addr) [] [] flowId :=
  ⟨⟨.fresh, rfl, fun _ => rfl, by simp [pcOf, new]⟩⟩

theorem foldlM_next_snoc {l : List (UdpSessionMessage Addr)} {p q p' : ReplyPhase}
    {m : UdpSessionMessage Addr} (hl : l.foldlM ReplyPhase.next p = some q)
    (hm : ReplyPhase.next q m = some p') : (l ++ [m]).foldlM ReplyPhase.next p = some p' := by
  simp [List.foldlM_append, hl, hm]

theorem foldlM_next_cons {l : List (UdpSessionMessage Addr)} {p q : ReplyPhase}
    {m : UdpSessionMessage Addr} (h : (m :: l).foldlM ReplyPhase.next p = some q) :
    ∃ p', ReplyPhase.next p m = some p' ∧ l.foldlM ReplyPhase.next p' = some q := by
  simpa [List.foldlM_cons, Option.bind_eq_some_iff] using h

theorem pendingFor_of_cons {e : ChannelEvent Addr} {rest : List (ChannelEvent Addr)}
    (hevents : st.channelEvents = e :: rest) (f : UInt64) :
    pendingFor f st =
      (if e.flowId = f then [e.message] else []) ++ pendingFor f { st with channelEvents := rest } := by
  by_cases hf : e.flowId = f <;> simp [pendingFor, hevents, hf]

theorem pendingFor_of_snoc {st' : NativeUdpSession Addr} {e : ChannelEvent Addr}
    (hevents : st'.channelEvents = st.channelEvents ++ [e]) (f : UInt64) :
    pendingFor f st' = pendingFor f st ++ if e.flowId = f then [e.message] else [] := by
  by_cases hf : e.flowId = f <;> simp [pendingFor, hevents, hf]

/-- The flow's channel, if it still has one, is held by the worker that held
it, which is where it was or has ended. -/
theorem pcOf_of_le {st' : NativeUdpSession Addr}
    (hchan : ∀ ch', st'.channels.lookup f = some ch' →
      ∃ ch, st.channels.lookup f = some ch ∧ ch'.worker = ch.worker)
    (hworker : ∀ ch, st.channels.lookup f = some ch → ∀ wk', st'.workers[ch.worker]? = some wk' →
      ∃ wk : ChannelWorker, st.workers[ch.worker]? = some wk ∧ (wk'.pc = wk.pc ∨ wk'.pc = .ended)) :
    ∀ pc, pcOf f st' = some pc → ∃ pc₀, pcOf f st = some pc₀ ∧ (pc = pc₀ ∨ pc = .ended) := by
  intro pc hpc
  simp only [pcOf, Option.bind_eq_some_iff, Option.map_eq_some_iff] at hpc
  obtain ⟨ch', hch', wk', hwk', rfl⟩ := hpc
  obtain ⟨ch, hch, hworker'⟩ := hchan ch' hch'
  rw [hworker'] at hwk'
  obtain ⟨wk, hwk, hstays⟩ := hworker ch hch wk' hwk'
  exact ⟨wk.pc, by simp [pcOf, hch, hwk], hstays⟩

/-- One worker's record changes, staying where it is or ending. -/
theorem stays_set {l : List ChannelWorker} {w0 : Nat} {wk wk'' : ChannelWorker}
    (hwk : l[w0]? = some wk) (hpc : wk''.pc = wk.pc ∨ wk''.pc = .ended) (w : Nat)
    (wk' : ChannelWorker) (hwk' : (l.set w0 wk'')[w]? = some wk') :
    ∃ wk₀ : ChannelWorker, l[w]? = some wk₀ ∧ (wk'.pc = wk₀.pc ∨ wk'.pc = .ended) := by
  rw [List.getElem?_set] at hwk'
  by_cases hw : w0 = w
  · subst hw
    simp only [if_true, (List.getElem?_eq_some_iff.mp hwk).1, Option.some.injEq] at hwk'
    exact ⟨wk, hwk, hwk' ▸ hpc⟩
  · simp only [hw, if_false] at hwk'
    exact ⟨wk', hwk', .inl rfl⟩

/-- Another flow's worker changes. -/
theorem stays_set_other (hwf : Wf config st) {w0 : Nat} {wk wk'' : ChannelWorker}
    (hwk : st.workers[w0]? = some wk) (hf : wk.flowId ≠ f) (ch : ChannelState)
    (hch : st.channels.lookup f = some ch) (wk' : ChannelWorker)
    (hwk' : (st.workers.set w0 wk'')[ch.worker]? = some wk') :
    ∃ wk₀ : ChannelWorker, st.workers[ch.worker]? = some wk₀ ∧ (wk'.pc = wk₀.pc ∨ wk'.pc = .ended) := by
  have hw : w0 ≠ ch.worker := by
    intro hw
    rw [hw] at hwk
    exact hf (hwf.flowId_of_channel hch hwk)
  rw [List.getElem?_set_ne hw] at hwk'
  exact ⟨wk', hwk', .inl rfl⟩

/-- Nothing of the flow is told, its queued replies stay, and its channel
keeps its worker, which stays where it is or ends. -/
theorem Replies.frame (h : Replies st events log f) {st' : NativeUdpSession Addr}
    (event : NativeUdpSessionEvent Addr) {acts : List (SessionAction Addr)}
    (hacts : repliesFor f acts = []) (hpending : pendingFor f st' = pendingFor f st)
    (hpc : ∀ pc, pcOf f st' = some pc → ∃ pc₀, pcOf f st = some pc₀ ∧ (pc = pc₀ ∨ pc = .ended)) :
    Replies st' (events ++ [event]) (log ++ repliesFor f acts) f := by
  obtain ⟨p, hlog, hfresh, hqueued⟩ := h.accepted
  refine ⟨p, by rw [hacts, List.append_nil]; exact hlog, fun hnot => hfresh ?_, ?_⟩
  · exact fun hf => hnot (by simp [hf])
  · intro pc hpc'
    obtain ⟨pc₀, hpc₀, hsame | hended⟩ := hpc pc hpc'
    · rw [hpending, hsame]
      exact hqueued pc₀ hpc₀
    · obtain ⟨q, hq, -⟩ := hqueued pc₀ hpc₀
      exact ⟨q, hpending ▸ hq, by rw [hended]; trivial⟩

/-- A flow not yet opened has no worker, hence no channel and no queued
events. -/
theorem Once.quiet (honce : Once st events) (hwf : Wf config st) (hnot : f ∉ openedFlows events) :
    st.channels.lookup f = none ∧ pendingFor f st = [] := by
  have hno : f ∉ st.flowIds := fun hf => hnot (honce.opened f hf)
  refine ⟨?_, ?_⟩
  · cases hch : st.channels.lookup f with
    | none => rfl
    | some ch => exact absurd (List.mem_of_getElem? (hwf.channel_worker f ch hch)) hno
  · simp only [pendingFor, List.map_eq_nil_iff, List.filter_eq_nil_iff, decide_eq_true_eq]
    exact fun e he hef => hno (hef ▸ honce.event_worker e he)

theorem Replies.openData (h : Replies st events log f) (honce : Once st events)
    (hwf : Wf config st) {flowId : UInt64} (hfresh : flowId ∉ openedFlows events)
    (address : Addr) (payload : List UInt8) :
    Replies (st.openData config flowId payload).1
      (events ++ [.inbound (.ok (some (.openData flowId address payload)))])
      (log ++ repliesFor f (st.openData config flowId payload).2) f := by
  by_cases hf : flowId = f
  · -- the flow opens now: nothing told so far, no channel, nothing queued
    subst hf
    obtain ⟨p, hlog, hp, -⟩ := h.accepted
    obtain rfl := hp hfresh
    obtain ⟨hch, hpending⟩ := honce.quiet hwf hfresh
    rcases @openData_cases _ config st flowId payload with
      ⟨hmem, -⟩ | ⟨-, -, hopen⟩ | ⟨-, -, hopen⟩
    · exact absurd (AList.lookup_isSome.mpr hmem) (by simp [hch])
    · -- turned away at the limit: one failed `ConnectResponse`
      rw [hopen]
      refine ⟨.closed, ?_, fun hnot => absurd (by simp [opens]) hnot, fun pc hpc => ?_⟩
      · simp [repliesFor_send, isReplyFor, connectResponse, List.foldlM_append, hlog,
          ReplyPhase.next]
      · simp [pcOf, hch] at hpc
    · -- a new channel, whose worker connects
      rw [hopen]
      refine ⟨.fresh, by simpa using hlog, fun _ => rfl, fun pc hpc => ?_⟩
      simp only [pcOf, AList.lookup_insert, Option.bind_some, List.getElem?_concat_length,
        Option.map_some, Option.some.injEq] at hpc
      subst hpc
      refine ⟨.fresh, ?_, rfl⟩
      change (pendingFor flowId st).foldlM ReplyPhase.next .fresh = _
      rw [hpending]
      rfl
  · -- another flow's `OpenData` leaves this flow's channel and worker
    rcases @openData_cases _ config st flowId payload with
      ⟨-, hopen⟩ | ⟨-, -, hopen⟩ | ⟨-, -, hopen⟩ <;> rw [hopen]
    · exact h.frame _ rfl rfl fun pc hpc => ⟨pc, hpc, .inl rfl⟩
    · exact h.frame _ (repliesFor_send_of_not _ (by simp [isReplyFor, connectResponse, hf])) rfl
        fun pc hpc => ⟨pc, hpc, .inl rfl⟩
    · refine h.frame _ rfl rfl (pcOf_of_le ?_ ?_)
      · intro ch' hch'
        exact ⟨ch', by rwa [AList.lookup_insert_ne (Ne.symm hf)] at hch', rfl⟩
      · intro ch hch wk' hwk'
        obtain ⟨wk, hwk⟩ := hwf.worker_of_channel hch
        dsimp only at hwk'
        rw [List.getElem?_append_left (List.getElem?_eq_some_iff.mp hwk).1, hwk,
          Option.some.injEq] at hwk'
        exact ⟨wk, hwk, .inl (by rw [hwk'])⟩

theorem pcOf_data (flowId : UInt64) (payload : List UInt8) :
    ∀ pc, pcOf f (st.data config flowId payload) = some pc →
      ∃ pc₀, pcOf f st = some pc₀ ∧ (pc = pc₀ ∨ pc = .ended) := by
  rcases @data_cases _ config st flowId payload with
    hdata | ⟨ch, wk, -, -, hwk, -, -, hdata⟩ | ⟨ch, wk, hch, -, -, hdata⟩ <;> rw [hdata]
  · exact fun pc hpc => ⟨pc, hpc, .inl rfl⟩
  · exact pcOf_of_le (fun ch' hch' => ⟨ch', hch', rfl⟩)
      fun c _ => stays_set hwk (by exact .inl rfl) c.worker
  · -- the flow's input closes; its channel keeps its worker
    have hmem : flowId ∈ st.channels := AList.lookup_isSome.mp (by simp [hch])
    refine pcOf_of_le (fun ch' hch' => ?_) fun c _ wk' hwk' => ⟨wk', hwk', .inl rfl⟩
    dsimp only at hch'
    rw [Table.lookup_replace_of_mem hmem] at hch'
    split_ifs at hch' with hf
    · rw [Option.some.injEq] at hch'
      exact ⟨ch, by rw [hf, hch], by rw [← hch']⟩
    · exact ⟨ch', hch', rfl⟩

theorem pendingFor_congr {st' : NativeUdpSession Addr}
    (hevents : st'.channelEvents = st.channelEvents) (f : UInt64) :
    pendingFor f st' = pendingFor f st := by
  unfold pendingFor
  rw [hevents]

theorem channelEvents_data (flowId : UInt64) (payload : List UInt8) :
    (st.data config flowId payload).channelEvents = st.channelEvents := by
  rcases @data_cases _ config st flowId payload with
    hdata | ⟨ch, wk, -, -, -, -, -, hdata⟩ | ⟨ch, wk, -, -, -, hdata⟩ <;> rw [hdata]

theorem channelEvents_close (flowId : UInt64) :
    (st.close flowId).channelEvents = st.channelEvents := by
  unfold NativeUdpSession.close
  cases st.channels.lookup flowId <;> rfl

theorem pcOf_close (flowId : UInt64) :
    ∀ pc, pcOf f (st.close flowId) = some pc →
      ∃ pc₀, pcOf f st = some pc₀ ∧ (pc = pc₀ ∨ pc = .ended) := by
  unfold NativeUdpSession.close
  cases st.channels.lookup flowId with
  | none => exact fun pc hpc => ⟨pc, hpc, .inl rfl⟩
  | some ch =>
    -- the aborted worker ends; the channel of `flowId` goes
    refine pcOf_of_le (fun ch' hch' => ?_) fun c _ wk' hwk' => ?_
    · dsimp only at hch'
      by_cases hf : f = flowId
      · rw [hf, AList.lookup_erase] at hch'
        cases hch'
      · exact ⟨ch', by rwa [AList.lookup_erase_ne hf] at hch', rfl⟩
    · simp only [abort, List.getElem?_modify, Option.map_eq_map, Option.map_eq_some_iff] at hwk'
      obtain ⟨wk, hwk, rfl⟩ := hwk'
      refine ⟨wk, hwk, ?_⟩
      split_ifs
      · exact .inr rfl
      · exact .inl rfl

theorem Replies.handleMessage (h : Replies st events log f) (honce : Once st events)
    (hwf : Wf config st) (message : UdpSessionMessage Addr)
    (hfresh : ∀ g ∈ opens (.inbound (.ok (some message))), g ∉ openedFlows events) :
    Replies (st.handleMessage config message).1 (events ++ [.inbound (.ok (some message))])
      (log ++ repliesFor f (st.handleMessage config message).2) f := by
  cases message with
  | openData flowId address payload =>
    exact h.openData honce hwf (hfresh flowId (by simp [opens])) address payload
  | data flowId payload =>
    exact h.frame _ rfl (pendingFor_congr (channelEvents_data flowId payload) f)
      (pcOf_data flowId payload)
  | close flowId reason =>
    exact h.frame _ rfl (pendingFor_congr (channelEvents_close flowId) f) (pcOf_close flowId)
  | ping token =>
    exact h.frame _ (repliesFor_send_of_not _ rfl) rfl fun pc hpc => ⟨pc, hpc, .inl rfl⟩
  | pong | connectResponse => exact h.frame _ rfl rfl fun pc hpc => ⟨pc, hpc, .inl rfl⟩

end Replies

end NativeUdpSession

end Ppaass.Proxy
