import Ppaass.Common.UdpSession

/-!
# The flow protocol of a native UDP session

What the proxy sees of one flow of a session is the messages the client sends
of it. `FlowPhase.next` is the protocol they follow: an `OpenData` opens the
flow and carries its first datagram, `Data` goes on an open flow, and one
`Close` ends it, after which nothing of the flow is sent.

No single function keeps it. A stream sends `OpenData` first and `Close` once
(`emitNext`), the command queue keeps the order of each flow's commands, the
driver forwards a stream's data only while it holds the flow and lets a flow
go for good, and a flow id is never handed out twice. `FlowInv` ties these
together for one flow: while the driver runs, the flow's `Register` is still
queued, or the messages sent of it leave the wire in a phase that agrees with
whether the driver holds it and with what its stream may still send
(`FlowView`, `Compat`). Every step keeps it for every flow (`FlowInv.step`),
so over every run the messages of each flow follow the protocol
(`flow_messages_follow_protocol`).
-/

namespace Ppaass.Common

open Ppaass.Udp

variable {Addr : Type}

/-- Where a flow is on the wire, as its client sends it. -/
inductive FlowPhase where
  | fresh
  | opened
  | closed
  deriving DecidableEq, Repr

/-- The messages a client may send of a flow: `OpenData` opens it, `Data`
goes on an open flow, `Close` closes it, and nothing follows. -/
def FlowPhase.next : FlowPhase → UdpSessionMessage Addr → Option FlowPhase
  | .fresh, .openData _ _ _ => some .opened
  | .opened, .data _ _ => some .opened
  | .fresh, .close _ _ => some .closed
  | .opened, .close _ _ => some .closed
  | _, _ => none

/-- The messages of flow `f`. -/
def flowLog (f : UInt64) (messages : List (UdpSessionMessage Addr)) : List (UdpSessionMessage Addr) :=
  messages.filter (·.flowId? = some f)

theorem foldlM_append_of_eq_some {α β : Type} {next : β → α → Option β} {l : List α} {b x : β}
    (h : l.foldlM next b = some x) (l' : List α) : (l ++ l').foldlM next b = l'.foldlM next x := by
  rw [List.foldlM_append, h]
  rfl

/-- The phase the wire is in, whether the driver holds the flow, and the
state the stream was in when it sent the oldest of its commands still queued
agree: a closed flow is one whose `Close` went out, a held flow is not
closed, and a held flow is opened once its `OpenData` went out. -/
structure Compat (registered : Bool) (p : FlowPhase) (d : Bool × Bool) : Prop where
  closed_iff : d.2 = true ↔ p = .closed
  open_of_registered : registered = true → d.2 = false
  fresh_iff : registered = true → (p = .fresh ↔ d.1 = true)

/-- Of a flow the driver does not hold, only whether it is closed matters. -/
theorem Compat.unregister {p : FlowPhase} {d : Bool × Bool} {registered : Bool}
    (h : Compat registered p d) (toOpen : Bool) : Compat false p (toOpen, d.2) :=
  ⟨h.closed_iff, fun hr => absurd hr Bool.false_ne_true, fun hr => absurd hr Bool.false_ne_true⟩

namespace UdpClientSession

/-- The commands of flow `f` still queued. -/
def cmdsOf (st : UdpClientSession Addr) (f : UInt64) : List (ClientCommand Addr) :=
  st.commands.filter (·.flowId = f)

/-- The driver's answer to a command of a flow keeps the flow protocol, from
a phase that agrees with the stream's state before the command. -/
theorem handleCommand_compat (st : UdpClientSession Addr) {f : UInt64} {p : FlowPhase}
    {d d' : Bool × Bool} {command : ClientCommand Addr}
    (hcompat : Compat (decide (f ∈ st.streams)) p d) (hemit : emitNext f d command = some d') :
    ∃ p', (flowLog f (st.handleCommand command).2).foldlM FlowPhase.next p = some p' ∧
      Compat (decide (f ∈ (st.handleCommand command).1.streams)) p' d' := by
  obtain ⟨-, ⟨address, data, rfl, hopen, rfl⟩ | ⟨data, rfl, hopen, hd⟩ | ⟨rfl, hclose, rfl⟩⟩ :=
    emitNext_eq_some hemit
  · -- `OpenData` goes out on a held flow, which is then fresh
    by_cases hf : f ∈ st.streams
    · have hfresh : p = .fresh := ((hcompat.fresh_iff (by simpa using hf)).mpr hopen)
      have hsent := hcompat.open_of_registered (by simpa using hf)
      subst hfresh
      refine ⟨.opened, by simp [handleCommand, hf, flowLog, UdpSessionMessage.flowId?, FlowPhase.next], ?_⟩
      exact ⟨by simp [hsent], fun _ => hsent, fun _ => by simp⟩
    · refine ⟨p, by simp [handleCommand, hf, flowLog], ?_⟩
      simpa [handleCommand, hf] using hcompat.unregister false
  · -- `Data` goes out on a held flow, which is then open
    rw [hd]
    by_cases hf : f ∈ st.streams
    · have hsent := hcompat.open_of_registered (by simpa using hf)
      have hopened : p = .opened := by
        have hnotFresh : p ≠ .fresh := fun h => by
          simp [(hcompat.fresh_iff (by simpa using hf)).mp h] at hopen
        have hnotClosed : p ≠ .closed := fun h => by simp [hcompat.closed_iff.mpr h] at hsent
        cases p <;> simp_all
      subst hopened
      refine ⟨.opened, by simp [handleCommand, hf, flowLog, UdpSessionMessage.flowId?, FlowPhase.next], ?_⟩
      simpa [handleCommand, hf] using hcompat
    · refine ⟨p, by simp [handleCommand, hf, flowLog], ?_⟩
      simpa [handleCommand, hf] using hcompat.unregister d.1
  · -- `Close` always goes out, on a flow not yet closed, and lets it go
    have hnotClosed : p ≠ .closed := fun h => by simp [hcompat.closed_iff.mpr h] at hclose
    refine ⟨.closed, ?_, ⟨by simp, fun h => by simp [handleCommand] at h, fun h => by simp [handleCommand] at h⟩⟩
    cases p with
    | closed => exact absurd rfl hnotClosed
    | _ => simp [handleCommand, flowLog, UdpSessionMessage.flowId?, FlowPhase.next]

end UdpClientSession

/-- What the driver has of flow `f` fits `log`, the messages sent of it, and
`stream`, the `emitNext` state of its stream if the application holds it.
Either the flow's `Register` is queued, first of its commands, and nothing of
it has gone out; or what went out leaves the wire in a phase that agrees with
the driver and with the stream as it was when it sent its oldest command
still queued. -/
def FlowView (f : UInt64) (registered : Bool) (cmds : List (ClientCommand Addr))
    (stream : Option (Bool × Bool)) (log : List (UdpSessionMessage Addr)) : Prop :=
  (∃ rest x, cmds = .register f :: rest ∧ rest.foldlM (emitNext f) (true, false) = some x ∧
      (∀ y, stream = some y → x = y) ∧ registered = false ∧ log = []) ∨
    ∃ p d x, log.foldlM FlowPhase.next .fresh = some p ∧ cmds.foldlM (emitNext f) d = some x ∧
      (∀ y, stream = some y → x = y) ∧ Compat registered p d

namespace UdpClientSession

/-- What the flow protocol reads of the stream of flow `f`: its `emitNext`
state and its flow id. -/
def streamInfo (st : UdpClientSession Addr) (f : UInt64) : Option ((Bool × Bool) × UInt64) :=
  (st.clients.lookup f).map fun s => (s.emitState, s.flowId)

/-- The invariant of one flow `f`, with `log` the messages sent of it: a flow
id not yet handed out has left no trace, the stream of `f` is of flow `f`, what
went out follows the flow protocol, and while the driver runs its view of the
flow fits. -/
structure FlowInv (st : UdpClientSession Addr) (f : UInt64) (log : List (UdpSessionMessage Addr)) :
    Prop where
  fresh : st.closed = false → st.nextFlowId.toNat ≤ f.toNat →
    st.cmdsOf f = [] ∧ f ∉ st.streams ∧ st.streamInfo f = none ∧ log = []
  flowId : ∀ x, st.streamInfo f = some x → x.2 = f
  accepted : ∃ p, log.foldlM FlowPhase.next .fresh = some p
  view : st.running = true →
    FlowView f (decide (f ∈ st.streams)) (st.cmdsOf f) ((st.streamInfo f).map Prod.fst) log

theorem flowInv_connect (firstFlowId : UInt64) (configuredTimeout now : Nat) (f : UInt64) :
    (connect firstFlowId configuredTimeout now : UdpClientSession Addr).FlowInv f [] where
  fresh _ _ := ⟨rfl, Finset.notMem_empty f, rfl, rfl⟩
  flowId _ h := by simp [streamInfo, connect] at h
  accepted := ⟨.fresh, rfl⟩
  view _ := .inr ⟨.fresh, (true, false), (true, false), rfl, rfl, by simp [streamInfo, connect],
    ⟨by simp, fun h => by simp [connect] at h, fun h => by simp [connect] at h⟩⟩

variable {st st' : UdpClientSession Addr} {f : UInt64} {log : List (UdpSessionMessage Addr)}

/-- A step that changes nothing the flow protocol reads of flow `f`. -/
theorem FlowInv.frame (h : st.FlowInv f log) (hcmds : st'.cmdsOf f = st.cmdsOf f)
    (hstreams : f ∈ st'.streams ↔ f ∈ st.streams) (hinfo : st'.streamInfo f = st.streamInfo f)
    (hrunning : st'.running = true → st.running = true)
    (hconnection : st'.closed = false → st.closed = false ∧ st.nextFlowId.toNat ≤ st'.nextFlowId.toNat) :
    st'.FlowInv f log where
  fresh hclosed hle := by
    obtain ⟨hclosed, hnext⟩ := hconnection hclosed
    obtain ⟨hc, hs, hi, hl⟩ := h.fresh hclosed (hnext.trans hle)
    exact ⟨hcmds.trans hc, fun hm => hs (hstreams.mp hm), hinfo.trans hi, hl⟩
  flowId x hx := h.flowId x (hinfo ▸ hx)
  accepted := h.accepted
  view hr := by
    have hdecide : decide (f ∈ st'.streams) = decide (f ∈ st.streams) := by simp [hstreams]
    rw [hcmds, hinfo, hdecide]
    exact h.view (hrunning hr)

/-- A driver that has ended keeps nothing for the protocol to read. -/
theorem FlowInv.endDriver (h : st.FlowInv f log) (timedOut : Bool) :
    (st.endDriver timedOut).FlowInv f log where
  fresh hclosed := absurd hclosed (by simp [UdpClientSession.endDriver])
  flowId := h.flowId
  accepted := h.accepted
  view hr := absurd hr (by simp [UdpClientSession.endDriver])

/-- The driver lets a flow go. -/
theorem FlowInv.eraseStream (h : st.FlowInv f log) (g : UInt64) :
    { st with streams := st.streams.erase g }.FlowInv f log where
  fresh hclosed hle := by
    obtain ⟨hc, hs, hi, hl⟩ := h.fresh hclosed hle
    exact ⟨hc, fun hm => hs (Finset.mem_of_mem_erase hm), hi, hl⟩
  flowId := h.flowId
  accepted := h.accepted
  view hr := by
    by_cases hg : f = g
    · -- the flow let go: whatever phase it is in, it is no longer held
      subst hg
      rcases h.view hr with ⟨rest, x, hcmds, hrest, hx, -, hlog⟩ | ⟨p, d, x, hlog, hcmds, hx, hcompat⟩
      · exact .inl ⟨rest, x, hcmds, hrest, hx, by simp, hlog⟩
      · exact .inr ⟨p, (d.1, d.2), x, hlog, hcmds, hx, by simpa using hcompat.unregister d.1⟩
    · have hmem : f ∈ st.streams.erase g ↔ f ∈ st.streams := by simp [hg]
      have hdecide : decide (f ∈ st.streams.erase g) = decide (f ∈ st.streams) := by simp [hmem]
      simp only [hdecide]
      exact h.view hr

/-- Of the state, a command changes only the driver's map. -/
theorem handleCommand_fst (st : UdpClientSession Addr) (command : ClientCommand Addr) :
    (st.handleCommand command).1 = { st with streams := (st.handleCommand command).1.streams } := by
  cases command <;> rfl

theorem mem_streams_handleCommand (st : UdpClientSession Addr) {command : ClientCommand Addr}
    {f : UInt64} (hf : command.flowId ≠ f) :
    f ∈ (st.handleCommand command).1.streams ↔ f ∈ st.streams := by
  cases command with
  | register g =>
    simp only [ClientCommand.flowId] at hf
    simp [handleCommand, Finset.mem_insert, Ne.symm hf]
  | close g =>
    simp only [ClientCommand.flowId] at hf
    simp [handleCommand, Finset.mem_erase, Ne.symm hf]
  | _ => rfl

theorem flowLog_handleCommand (st : UdpClientSession Addr) {command : ClientCommand Addr}
    {f : UInt64} (hf : command.flowId ≠ f) : flowLog f (st.handleCommand command).2 = [] := by
  cases command <;> simp_all [handleCommand, ClientCommand.flowId, flowLog, UdpSessionMessage.flowId?]

/-- A flow with a command queued or a stream held has been handed out. -/
theorem FlowInv.not_fresh (h : st.FlowInv f log) (htrace : st.cmdsOf f ≠ [] ∨ st.streamInfo f ≠ none)
    (hclosed : st.closed = false) : ¬st.nextFlowId.toNat ≤ f.toNat := fun hle => by
  obtain ⟨hc, -, hi, -⟩ := h.fresh hclosed hle
  rcases htrace with h | h <;> contradiction

/-- The driver takes a command of its queue. -/
theorem FlowInv.handleCommand (h : st.FlowInv f log) (hrun : st.running = true)
    {command : ClientCommand Addr} {rest : List (ClientCommand Addr)} (hq : st.commands = command :: rest) :
    ({ st with commands := rest }.handleCommand command).1.FlowInv f
      (log ++ flowLog f ({ st with commands := rest }.handleCommand command).2) := by
  set st₀ : UdpClientSession Addr := { st with commands := rest }
  rw [handleCommand_fst]
  by_cases hf : command.flowId = f
  · -- a command of the flow: the view moves on by one command
    have hcmds : st.cmdsOf f = command :: st₀.cmdsOf f := by
      simp [cmdsOf, hq, hf, st₀]
    have hfresh : ∀ st' : UdpClientSession Addr, st'.closed = st.closed →
        st'.nextFlowId = st.nextFlowId → st'.closed = false → ¬st'.nextFlowId.toNat ≤ f.toNat := by
      intro st' hc hn hclosed
      rw [hn]
      exact h.not_fresh (.inl (by simp [hcmds])) (hc ▸ hclosed)
    rcases h.view hrun with ⟨tail, x, hview, htail, hx, -, hlog⟩ | ⟨p, d, x, hlog, hview, hx, hcompat⟩
    · -- the flow's `Register`: the driver takes the flow on, and nothing goes out
      rw [hcmds] at hview
      obtain ⟨rfl, htail'⟩ := List.cons.inj hview
      have hlog' : log ++ flowLog f (st₀.handleCommand (.register f)).2 = [] := by
        simp [UdpClientSession.handleCommand, flowLog, hlog]
      rw [hlog']
      refine ⟨fun hclosed hle => absurd hle (hfresh _ rfl rfl hclosed), h.flowId, ⟨.fresh, rfl⟩,
        fun _ => .inr ⟨.fresh, (true, false), x, rfl, htail' ▸ htail, hx, ?_⟩⟩
      exact ⟨by simp, fun _ => rfl, fun _ => by simp⟩
    · -- any other command of the flow moves the view on by one command
      rw [hcmds, List.foldlM_cons] at hview
      cases hstep : emitNext f d command with
      | none => simp [hstep] at hview
      | some d' =>
        rw [hstep] at hview
        obtain ⟨p', hsent, hcompat'⟩ := handleCommand_compat st₀ hcompat hstep
        have hlog' := (foldlM_append_of_eq_some hlog (flowLog f (st₀.handleCommand command).2)).trans
          hsent
        exact ⟨fun hclosed hle => absurd hle (hfresh _ rfl rfl hclosed), h.flowId, ⟨p', hlog'⟩,
          fun _ => .inr ⟨p', d', x, hlog', hview, hx, hcompat'⟩⟩
  · -- a command of another flow leaves this one alone
    rw [flowLog_handleCommand st₀ hf, List.append_nil]
    refine h.frame ?_ ?_ rfl id fun hc => ⟨hc, le_rfl⟩
    · simp [cmdsOf, hq, hf, st₀]
    · exact mem_streams_handleCommand st₀ hf

theorem FlowInv.takeCommand (h : st.FlowInv f log) :
    st.takeCommand.1.FlowInv f (log ++ flowLog f st.takeCommand.2) := by
  unfold UdpClientSession.takeCommand
  by_cases hrun : st.running
  · rw [if_neg (by simp [hrun])]
    cases hq : st.commands with
    | nil =>
      dsimp only
      split
      · simpa [flowLog] using h
      · simpa [flowLog] using h.endDriver false
    | cons command rest => exact h.handleCommand hrun hq
  · rw [if_pos (by simp [hrun])]
    simpa [flowLog] using h

/-- A stream that keeps what the flow protocol reads of it leaves every flow
as it was. -/
theorem streamInfo_replace {g : UInt64} {s : UdpClientStream Addr}
    (hs : st.clients.lookup g = some s) (s' : UdpClientStream Addr)
    (hclients : st'.clients = st.clients.replace g s')
    (hstate : s'.emitState = s.emitState) (hflowId : s'.flowId = s.flowId) (f : UInt64) :
    st'.streamInfo f = st.streamInfo f := by
  simp only [streamInfo, hclients, lookup_replace_of_lookup hs]
  split_ifs with hf
  · subst hf
    simp [hs, hstate, hflowId]
  · rfl

/-- A stream of flow `g` sends the commands `e`, all of its flow, which
`emitNext` allows from its state to the one it is left in, if the
application still holds it. -/
theorem FlowInv.emit (h : st.FlowInv f log) {g : UInt64}
    {s : UdpClientStream Addr} (hs : st.clients.lookup g = some s) (hg : s.flowId = g)
    {e : List (ClientCommand Addr)} (hflow : ∀ c ∈ e, c.flowId = g)
    (hst' : st' = { st with commands := st.commands ++ e, clients := st'.clients })
    (hother : ∀ f', f' ≠ g → st'.streamInfo f' = st.streamInfo f')
    (hself : ∀ x, st'.streamInfo g = some x → x.2 = g)
    (hemit : st.running = true → ∃ y, e.foldlM (emitNext g) s.emitState = some y ∧
      ∀ x, st'.streamInfo g = some x → y = x.1) :
    st'.FlowInv f log := by
  have hcmds : st'.cmdsOf f = st.cmdsOf f ++ e.filter (·.flowId = f) := by
    rw [hst']
    simp [cmdsOf, List.filter_append]
  by_cases hf : f = g
  · subst hf
    have hinfo : st.streamInfo f = some (s.emitState, s.flowId) := by simp [streamInfo, hs]
    have hnew : st'.closed = st.closed ∧ st'.nextFlowId = st.nextFlowId := by rw [hst']; exact ⟨rfl, rfl⟩
    have he : e.filter (·.flowId = f) = e := List.filter_eq_self.mpr fun c hc => by simp [hflow c hc]
    rw [he] at hcmds
    refine ⟨fun hclosed hle => absurd (hnew.2 ▸ hle) (h.not_fresh (.inr (by simp [hinfo]))
      (hnew.1 ▸ hclosed)), hself, h.accepted, fun hr => ?_⟩
    have hrun : st.running = true := by rw [hst'] at hr; exact hr
    have hreg : decide (f ∈ st'.streams) = decide (f ∈ st.streams) := by rw [hst']
    obtain ⟨y, hy, hyx⟩ := hemit hrun
    have hfits : ∀ z, (st'.streamInfo f).map Prod.fst = some z → y = z := by
      intro z hz
      obtain ⟨x, hx, rfl⟩ := Option.map_eq_some_iff.mp hz
      exact hyx x hx
    rw [hcmds, hreg]
    rcases h.view hrun with ⟨rest, x, hview, hrest, hx, hregistered, hlog⟩ |
        ⟨p, d, x, hlog, hview, hx, hcompat⟩
    · have hxs : x = s.emitState := hx _ (by simp [hinfo])
      subst hxs
      refine .inl ⟨rest ++ e, y, by rw [hview]; rfl, ?_, hfits, hregistered, hlog⟩
      rw [foldlM_append_of_eq_some hrest e, hy]
    · have hxs : x = s.emitState := hx _ (by simp [hinfo])
      subst hxs
      exact .inr ⟨p, d, y, hlog, by rw [foldlM_append_of_eq_some hview e, hy], hfits, hcompat⟩
  · -- another flow's stream sends nothing of this one
    have he : e.filter (·.flowId = f) = [] :=
      List.filter_eq_nil_iff.mpr fun c hc => by simp [hflow c hc, Ne.symm hf]
    rw [he, List.append_nil] at hcmds
    refine h.frame hcmds ?_ (hother f hf) ?_ ?_
    · rw [hst']
    · rw [hst']
      exact id
    · rw [hst']
      exact fun hc => ⟨hc, le_rfl⟩

theorem pollReserve_ne_error (hrun : st.running = true) :
    st.pollReserve ≠ .ready (.error ()) := by
  unfold pollReserve
  rw [if_neg (by simp [hrun])]
  split_ifs <;> simp

theorem FlowInv.connectToTarget (h : st.FlowInv f log) (address : Addr)
    (transport : TransportProtocol) : (st.connectToTarget address transport).2.FlowInv f log := by
  unfold UdpClientSession.connectToTarget
  by_cases htransport : transport ≠ .udp
  · rw [if_pos htransport]
    exact h
  rw [if_neg htransport]
  by_cases hclosed : st.isClosed
  · rw [if_pos hclosed]
    exact h
  rw [if_neg hclosed]
  dsimp only
  have hopen : st.closed = false := by
    simp only [isClosed, Bool.or_eq_true, Bool.not_eq_true', not_or] at hclosed
    simpa using hclosed.1
  by_cases hmax : st.nextFlowId = u64Max
  · -- the ids ran out: the connection closes
    rw [if_pos hmax]
    exact h.frame rfl Iff.rfl rfl id fun hc => by simp at hc
  rw [if_neg hmax]
  have hsucc := toNat_succ_of_ne_u64Max hmax
  by_cases hf : f = st.nextFlowId
  · -- the flow handed out, which had left no trace
    obtain ⟨hc, hs, -, hl⟩ := h.fresh hopen (hf ▸ le_rfl)
    subst hl
    rw [← hf]
    have hcmds : (st.commands ++ [ClientCommand.register f]).filter (·.flowId = f) =
        [ClientCommand.register f] := by
      rw [List.filter_append, show st.commands.filter (·.flowId = f) = [] from hc]
      simp [ClientCommand.flowId]
    refine ⟨fun _ hle => absurd hle (by rw [hf, hsucc]; omega), fun x hx => ?_, ⟨.fresh, rfl⟩,
      fun _ => .inl ⟨[], (true, false), hcmds, rfl, ?_, by simpa using hs, rfl⟩⟩
    · simp [streamInfo, AList.lookup_insert] at hx
      rw [← hx]
      rfl
    · simp [streamInfo, AList.lookup_insert, UdpClientStream.emitState, newStream]
  · -- another flow's trace is left alone
    refine h.frame ?_ Iff.rfl ?_ id fun hc => ⟨hc, by rw [hsucc]; omega⟩
    · simp [cmdsOf, List.filter_append, ClientCommand.flowId, Ne.symm hf]
    · simp [streamInfo, AList.lookup_insert_ne hf]

theorem flowLog_handleMessage (st : UdpClientSession Addr) (message : UdpSessionMessage Addr)
    (f : UInt64) : flowLog f (st.handleMessage message).2 = [] := by
  cases message with
  | connectResponse g success error => cases success <;> rfl
  | _ => rfl

theorem FlowInv.handleMessage (h : st.FlowInv f log) (message : UdpSessionMessage Addr) :
    (st.handleMessage message).1.FlowInv f log := by
  cases message with
  | connectResponse g success error =>
    cases success
    · exact h.eraseStream g
    · exact h
  | data g data =>
    -- a `Data` is queued on its flow's channel, or the flow is let go
    simp only [UdpClientSession.handleMessage, deliver]
    by_cases hg : g ∈ st.streams
    · rw [if_neg (not_not.mpr hg)]
      cases hs : st.clients.lookup g with
      | none => exact h.eraseStream g
      | some s =>
        dsimp only
        split_ifs
        · exact h
        · exact h.frame rfl Iff.rfl (streamInfo_replace hs { s with inbound := s.inbound ++ [data] }
            rfl rfl rfl f) id fun hc => ⟨hc, le_rfl⟩
    · rw [if_pos hg]
      exact h
  | close g reason => exact h.eraseStream g
  | _ => exact h

theorem FlowInv.receiveDatagram (h : st.FlowInv f log) (size : Nat)
    (decoded : Except UdpTransportError (Option (UdpSessionMessage Addr))) (now : Nat) :
    (st.receiveDatagram size decoded now).1.FlowInv f
      (log ++ flowLog f (st.receiveDatagram size decoded now).2) := by
  have hheard : ({ st with lastAuthenticatedReceive := now } : UdpClientSession Addr).FlowInv f log :=
    h.frame rfl Iff.rfl rfl id fun hc => ⟨hc, le_rfl⟩
  unfold UdpClientSession.receiveDatagram
  split_ifs
  · simpa [flowLog] using h
  · simpa [flowLog] using h
  · rcases decoded with _ | _ | message
    · simpa [flowLog] using h
    · simpa [flowLog] using hheard
    · rw [flowLog_handleMessage, List.append_nil]
      exact hheard.handleMessage message

theorem FlowInv.keepalive (h : st.FlowInv f log) (now : Nat) :
    (st.keepalive now).1.FlowInv f (log ++ flowLog f (st.keepalive now).2) := by
  unfold UdpClientSession.keepalive
  split_ifs
  · simpa [flowLog] using h
  · simpa [flowLog] using h.endDriver true
  · have hping : ({ st with pingToken := st.pingToken + 1 } : UdpClientSession Addr).FlowInv f log :=
      h.frame rfl Iff.rfl rfl id fun hc => ⟨hc, le_rfl⟩
    simpa [flowLog, UdpSessionMessage.flowId?] using hping

/-- One step keeps the invariant of every flow, with the messages it sends
added to each flow's log. -/
theorem FlowInv.step (hall : ∀ g, st.FlowInv g (flowLog g log)) (event : SessionEvent Addr) (f : UInt64) :
    (st.step event).1.FlowInv f (flowLog f (log ++ (st.step event).2.2)) := by
  have h := hall f
  rw [flowLog, List.filter_append, ← flowLog, ← flowLog]
  -- the flow id of the stream an application call is on
  have hkeyed : ∀ g s, st.clients.lookup g = some s → s.flowId = g := fun g s hs =>
    (hall g).flowId (s.emitState, s.flowId) (by simp [streamInfo, hs])
  cases event with
  | connectToTarget address transport => simpa [UdpClientSession.step, flowLog] using h.connectToTarget address transport
  | read g remaining =>
    simp only [UdpClientSession.step, read, flowLog, List.filter_nil, List.append_nil]
    cases hs : st.clients.lookup g with
    | none => exact h
    | some s =>
      obtain ⟨hflowId, hopen, hclose⟩ := s.pollRead_keeps remaining (st.senderOpen g)
      exact h.frame rfl Iff.rfl (streamInfo_replace hs _ rfl (by simp [UdpClientStream.emitState,
        hopen, hclose]) hflowId f) id fun hc => ⟨hc, le_rfl⟩
  | write g buf =>
    simp only [UdpClientSession.step, write, flowLog, List.filter_nil, List.append_nil]
    cases hs : st.clients.lookup g with
    | none => exact h
    | some s =>
      have hg := hkeyed g s hs
      obtain ⟨hflowId, hflow⟩ := s.flowId_pollWrite st.pollReserve buf
      refine h.emit hs hg (fun c hc => (hflow c hc).trans hg) rfl
        (fun f' hf' => by simp [streamInfo, lookup_replace_of_lookup hs, hf'])
        (fun x hx => by simp [streamInfo, lookup_replace_of_lookup hs] at hx; rw [← hx]; simp [hflowId, hg])
        fun _ => ⟨_, hg ▸ s.emitNext_pollWrite st.pollReserve buf, fun x hx => by
          simp [streamInfo, lookup_replace_of_lookup hs] at hx; rw [← hx]⟩
  | shutdown g =>
    simp only [UdpClientSession.step, shutdown, flowLog, List.filter_nil, List.append_nil]
    cases hs : st.clients.lookup g with
    | none => exact h
    | some s =>
      have hg := hkeyed g s hs
      obtain ⟨hflowId, hflow⟩ := s.flowId_pollShutdown st.pollReserve
      refine h.emit hs hg (fun c hc => (hflow c hc).trans hg) rfl
        (fun f' hf' => by simp [streamInfo, lookup_replace_of_lookup hs, hf'])
        (fun x hx => by simp [streamInfo, lookup_replace_of_lookup hs] at hx; rw [← hx]; simp [hflowId, hg])
        fun hrun => ⟨_, hg ▸ s.emitNext_pollShutdown (pollReserve_ne_error hrun), fun x hx => by
          simp [streamInfo, lookup_replace_of_lookup hs] at hx; rw [← hx]⟩
  | dropStream g =>
    simp only [UdpClientSession.step, dropStream, flowLog, List.filter_nil, List.append_nil]
    cases hs : st.clients.lookup g with
    | none => exact h
    | some s =>
      have hg := hkeyed g s hs
      obtain ⟨y, hy⟩ := Option.isSome_iff_exists.mp (s.emitNext_drop st.trySendReady)
      refine h.emit hs hg (fun c hc => (s.flowId_drop st.trySendReady c hc).trans hg) rfl
        (fun f' hf' => by simp [streamInfo, AList.lookup_erase_ne hf'])
        (fun x hx => by simp [streamInfo] at hx)
        fun _ => ⟨y, hg ▸ hy, fun x hx => by simp [streamInfo] at hx⟩
  | dropConnection =>
    have hdropped : ({ st with connectionAlive := false } : UdpClientSession Addr).FlowInv f
        (flowLog f log) := h.frame rfl Iff.rfl rfl id fun hc => ⟨hc, le_rfl⟩
    simpa [UdpClientSession.step, flowLog] using hdropped
  | command => exact h.takeCommand
  | datagram size decoded now => exact h.receiveDatagram size decoded now
  | keepalive now => exact h.keepalive now
  | socketError =>
    simp only [UdpClientSession.step, flowLog, List.filter_nil, List.append_nil]
    split
    · exact h.endDriver false
    · exact h

/-- Over a run, the invariant of every flow holds, each flow's log the
messages sent of it. -/
theorem flowInv_run :
    ∀ (events : List (SessionEvent Addr)) (st : UdpClientSession Addr)
      (log : List (UdpSessionMessage Addr)), (∀ g, st.FlowInv g (flowLog g log)) →
      ∀ g, (Machine.final step st events).FlowInv g
        (flowLog g (log ++ (Machine.run step st events).flatMap (·.2)))
  | [], st, log, hall => by simpa using hall
  | event :: events, st, log, hall => by
    have hrest := flowInv_run events (st.step event).1 _ (FlowInv.step hall event)
    simpa [Machine.run_cons, Machine.final_cons, List.flatMap_cons, List.append_assoc] using hrest

end UdpClientSession

open UdpClientSession in
/-- The messages a session sends of each flow follow the flow protocol: an
`OpenData` opens the flow before any `Data`, and one `Close` ends it, after
which nothing of the flow is sent. -/
theorem flow_messages_follow_protocol (firstFlowId : UInt64) (configuredTimeout now : Nat)
    (events : List (SessionEvent Addr)) (f : UInt64) :
    ∃ p, (flowLog f ((Machine.run step (connect firstFlowId configuredTimeout now) events).flatMap
      (·.2))).foldlM FlowPhase.next .fresh = some p := by
  have hrun := flowInv_run events (connect firstFlowId configuredTimeout now) []
    (fun g => flowInv_connect firstFlowId configuredTimeout now g) f
  simpa using hrun.accepted

end Ppaass.Common
