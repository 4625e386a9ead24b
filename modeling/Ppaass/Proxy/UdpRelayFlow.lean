import Ppaass.Lib.Machine
import Ppaass.Lib.Table

/-!
# The relay's flow set

`UdpRelayFlowSet` (`proxy/src/connection/udp_relay_flow.rs`) maps the flow
id of a relayed UDP packet to the sending half of a channel into a flow
task, which owns a UDP socket connected to the packet's target. Its owner,
the loop of `handle_udp_relay_connect` (`connection/udp_relay.rs`) or of
`run_udp_relay_channel` (`native_udp/channel.rs`), calls `dispatch` for each
packet and `remove` for each flow id that a task sends on `flow_done_tx`
when it ends. The two loops do the same with the flow set, so one model
serves both.

The flow set is modelled with the tasks around it: the live tasks, with the
datagrams their channels hold, and the flow ids in flight on
`flow_done_tx`. Tasks are named in the order they are spawned; the names
are not in the code, they let a statement say which task sent a flow id.
A task ends at any time (idle timeout, a socket error, its channel closed):
it sends its flow id and drops its receiver, after which `try_send` on the
channel answers `Closed`.

`remove` deletes whatever entry the flow id has. An entry whose task has
ended is also dropped by `dispatch`, on `Closed`, together with the packet
(`dispatch_closed`); a packet for the same id then creates a new flow, and
the ended task's flow id, still in flight, removes that flow while its task
is live (`stale_flowDone_removes_newer_flow`). As long as no packet creates
a flow for an id whose flow id is in flight, every flow id removes only the
flow of the task that sent it and a live task keeps its entry
(`flowDone_retires_own_flow`).
-/

namespace Ppaass.Proxy

inductive UdpRelayFlowAdmission where
  | existing
  | atCapacity
  | create
  deriving DecidableEq, Repr

def classifyUdpRelayFlowAdmission (flowExists : Bool) (activeFlowCount maxFlows : Nat) :
    UdpRelayFlowAdmission :=
  if flowExists then .existing
  else if activeFlowCount ≥ maxFlows then .atCapacity
  else .create

/-- `channel_size` and `max_flows` of `UdpRelayFlowOptions`; the idle timeout
only decides when a task ends, which the model leaves free. -/
structure UdpRelayFlowOptions where
  channelSize : Nat
  maxFlows : Nat

/-- `UdpRelayFlow`: the sender of the channel into a flow task, named by
that task. -/
structure UdpRelayFlow where
  task : Nat
  deriving DecidableEq, Repr

/-- A live flow task: its flow id and the datagrams its channel holds. -/
structure FlowTask where
  flowId : UInt64
  queue : List (List UInt8)
  deriving DecidableEq, Repr

/-- The flow set with the tasks around it. `flowDone` holds the flow ids on
`flow_done_tx`, oldest first, each with the task that sent it. -/
structure UdpRelayFlowSet where
  flows : AList (fun _ : UInt64 => UdpRelayFlow)
  tasks : AList (fun _ : Nat => FlowTask)
  flowDone : List (UInt64 × Nat)
  nextTask : Nat

/-- What `dispatch` did with a packet; the code only logs it. -/
inductive DispatchOutcome where
  | queued (task : Nat)
  | full
  | closed
  | atCapacity
  | notCreated
  | missing
  deriving DecidableEq, Repr

/-- What can happen next: the owner dispatches a decoded packet (with
whether `spawn_udp_relay_flow` would connect a socket to its target), the
owner takes the next flow id off `flow_done_rx`, a flow task ends, or a
flow task takes the next datagram off its channel. -/
inductive RelayEvent where
  | packet (flowId : UInt64) (data : List UInt8) (connects : Bool)
  | flowDone
  | taskEnds (task : Nat)
  | taskTakes (task : Nat)
  deriving DecidableEq, Repr

namespace UdpRelayFlowSet

/-- `UdpRelayFlowSet::new`, before any flow task exists. -/
def new : UdpRelayFlowSet := ⟨∅, ∅, [], 0⟩

def remove (s : UdpRelayFlowSet) (flowId : UInt64) : UdpRelayFlowSet :=
  { s with flows := s.flows.erase flowId }

variable (options : UdpRelayFlowOptions)

/-- The end of `dispatch`: `try_send` on the channel of the flow's task. -/
def sendToFlow (s : UdpRelayFlowSet) (flowId : UInt64) (data : List UInt8) :
    UdpRelayFlowSet × DispatchOutcome :=
  match s.flows.lookup flowId with
  | none => (s, .missing)
  | some flow =>
    match s.tasks.lookup flow.task with
    -- the task has dropped its receiver: `Closed`, and the packet goes with the entry
    | none => (s.remove flowId, .closed)
    | some task =>
      if task.queue.length ≥ options.channelSize then (s, .full)
      else
        ({ s with tasks := s.tasks.replace flow.task { task with queue := task.queue ++ [data] } },
          .queued flow.task)

/-- `create_flow`; `connects` is whether `spawn_udp_relay_flow` succeeds. -/
def createFlow (s : UdpRelayFlowSet) (flowId : UInt64) (connects : Bool) :
    Option UdpRelayFlowSet :=
  if s.flows.entries.length ≥ options.maxFlows then none
  else if connects then
    some { s with
      flows := s.flows.insert flowId ⟨s.nextTask⟩
      tasks := s.tasks.insert s.nextTask ⟨flowId, []⟩
      nextTask := s.nextTask + 1 }
  else none

def dispatch (s : UdpRelayFlowSet) (flowId : UInt64) (data : List UInt8) (connects : Bool) :
    UdpRelayFlowSet × DispatchOutcome :=
  match classifyUdpRelayFlowAdmission (decide (flowId ∈ s.flows)) s.flows.entries.length
      options.maxFlows with
  | .existing => s.sendToFlow options flowId data
  | .atCapacity => (s, .atCapacity)
  | .create =>
    match s.createFlow options flowId connects with
    | none => (s, .notCreated)
    | some s' => s'.sendToFlow options flowId data

/-- One turn of the owner's loop, or one move of a flow task. -/
def step (s : UdpRelayFlowSet) : RelayEvent → UdpRelayFlowSet × Option DispatchOutcome
  | .packet flowId data connects =>
    let r := s.dispatch options flowId data connects
    (r.1, some r.2)
  | .flowDone =>
    match s.flowDone with
    | [] => (s, none)
    | (flowId, _) :: rest => ({ s with flowDone := rest }.remove flowId, none)
  | .taskEnds task =>
    match s.tasks.lookup task with
    | none => (s, none)
    -- the loop breaks, the flow id is sent, and the receiver goes with the task
    | some t =>
      ({ s with tasks := s.tasks.erase task, flowDone := s.flowDone ++ [(t.flowId, task)] }, none)
  | .taskTakes task =>
    match s.tasks.lookup task with
    | none => (s, none)
    | some t => ({ s with tasks := s.tasks.replace task { t with queue := t.queue.tail } }, none)

-- ---------------------------------------------------------------------------
-- What dispatch does
-- ---------------------------------------------------------------------------

section Dispatch

variable {s : UdpRelayFlowSet} {flowId : UInt64} {data : List UInt8}

theorem createFlow_eq_some {connects : Bool} {s' : UdpRelayFlowSet}
    (h : s.createFlow options flowId connects = some s') :
    s.flows.entries.length < options.maxFlows ∧
      s' = { s with
        flows := s.flows.insert flowId ⟨s.nextTask⟩
        tasks := s.tasks.insert s.nextTask ⟨flowId, []⟩
        nextTask := s.nextTask + 1 } := by
  unfold createFlow at h
  split_ifs at h with hfull hconnects
  cases h
  exact ⟨by omega, rfl⟩

/-- What `dispatch` leaves: the state as it was, or what `sendToFlow` leaves,
on the state as it was or on the one a new flow for the packet's id was
created in. -/
theorem dispatch_fst_cases (connects : Bool) :
    (s.dispatch options flowId data connects).1 = s ∨
      (s.dispatch options flowId data connects).1 = (s.sendToFlow options flowId data).1 ∨
      ∃ s', flowId ∉ s.flows ∧ s.createFlow options flowId connects = some s' ∧
        (s.dispatch options flowId data connects).1 = (s'.sendToFlow options flowId data).1 := by
  unfold dispatch classifyUdpRelayFlowAdmission
  by_cases hmem : flowId ∈ s.flows
  · simp [hmem]
  · by_cases hfull : s.flows.entries.length ≥ options.maxFlows
    · simp [hmem, hfull]
    · cases hcreate : s.createFlow options flowId connects with
      | none => simp [hmem, hfull]
      | some s' => simp [hmem, hfull]

end Dispatch

-- ---------------------------------------------------------------------------
-- Flow ids that are not reused while their flow_done is in flight
-- ---------------------------------------------------------------------------

/-- What holds while no flow id is reused too early: every name in use is
below the next one; a task that sent a flow id has ended; a live task's
flow is in the map under its id; and under the id of a flow id in flight
the map has the sender's flow or nothing. -/
structure Inv (s : UdpRelayFlowSet) : Prop where
  task_lt : ∀ name ∈ s.tasks, name < s.nextTask
  sender_lt : ∀ p ∈ s.flowDone, p.2 < s.nextTask
  sender_ended : ∀ p ∈ s.flowDone, p.2 ∉ s.tasks
  live_flow : ∀ name task, s.tasks.lookup name = some task →
    s.flows.lookup task.flowId = some ⟨name⟩
  inflight_flow : ∀ p ∈ s.flowDone, s.flows.lookup p.1 = none ∨ s.flows.lookup p.1 = some ⟨p.2⟩

theorem inv_new : Inv new where
  task_lt := by simp [new]
  sender_lt := by simp [new]
  sender_ended := by simp [new]
  live_flow := by simp [new]
  inflight_flow := by simp [new]

/-- The owner dispatches a packet for a flow id that has an entry, or whose
flow id is not in flight. The agent cannot see this: it keeps one flow id
per client and target. -/
def NoEarlyReuse (s : UdpRelayFlowSet) : RelayEvent → Prop
  | .packet flowId _ _ => flowId ∉ s.flows → ∀ p ∈ s.flowDone, p.1 ≠ flowId
  | _ => True

section Preservation

variable {s : UdpRelayFlowSet}

theorem Inv.replace_queue (hinv : Inv s) {name : Nat} {task : FlowTask}
    (h : s.tasks.lookup name = some task) (queue : List (List UInt8)) :
    Inv { s with tasks := s.tasks.replace name { task with queue := queue } } := by
  have hmem : name ∈ s.tasks := AList.lookup_isSome.mp (by simp [h])
  constructor
  · intro n hn
    exact hinv.task_lt n (AList.mem_replace.mp hn)
  · exact hinv.sender_lt
  · exact fun p hp hlive => hinv.sender_ended p hp (AList.mem_replace.mp hlive)
  · intro n t hn
    rw [Table.lookup_replace_of_mem hmem] at hn
    split_ifs at hn with hname
    · cases hn
      rw [hname]
      exact hinv.live_flow name task h
    · exact hinv.live_flow n t hn
  · exact hinv.inflight_flow

/-- `Closed`: the entry of an ended task goes. -/
theorem Inv.remove_ended (hinv : Inv s) {flowId : UInt64} {flow : UdpRelayFlow}
    (hflow : s.flows.lookup flowId = some flow) (hended : s.tasks.lookup flow.task = none) :
    Inv (s.remove flowId) := by
  constructor
  · exact hinv.task_lt
  · exact hinv.sender_lt
  · exact hinv.sender_ended
  · intro n t hn
    have hn : s.tasks.lookup n = some t := hn
    have hlive := hinv.live_flow n t hn
    have hid : t.flowId ≠ flowId := by
      rintro hid
      rw [hid, hflow] at hlive
      cases hlive
      have hended : s.tasks.lookup n = none := hended
      rw [hn] at hended
      cases hended
    rw [remove, AList.lookup_erase_ne hid]
    exact hlive
  · intro p hp
    by_cases hid : p.1 = flowId
    · left
      rw [remove, hid, AList.lookup_erase]
    · rw [remove, AList.lookup_erase_ne hid]
      exact hinv.inflight_flow p hp

/-- A new flow takes the next name, under an id with no flow id in flight. -/
theorem Inv.create (hinv : Inv s) {flowId : UInt64} (hfresh : flowId ∉ s.flows)
    (hquiet : ∀ p ∈ s.flowDone, p.1 ≠ flowId) :
    Inv { s with
      flows := s.flows.insert flowId ⟨s.nextTask⟩
      tasks := s.tasks.insert s.nextTask ⟨flowId, []⟩
      nextTask := s.nextTask + 1 } := by
  constructor
  · intro n hn
    rcases (AList.mem_insert _).mp hn with rfl | hn
    · exact Nat.lt_succ_self _
    · exact Nat.lt_succ_of_lt (hinv.task_lt n hn)
  · exact fun p hp => Nat.lt_succ_of_lt (hinv.sender_lt p hp)
  · intro p hp hlive
    rcases (AList.mem_insert _).mp hlive with hname | hlive
    · have := hinv.sender_lt p hp
      omega
    · exact hinv.sender_ended p hp hlive
  · intro n t hn
    by_cases hname : n = s.nextTask
    · subst hname
      rw [AList.lookup_insert] at hn
      cases hn
      exact AList.lookup_insert _
    · rw [AList.lookup_insert_ne hname] at hn
      have hlive := hinv.live_flow n t hn
      -- the task's flow is in the map, so it is not under the new id
      have hid : t.flowId ≠ flowId := by
        rintro rfl
        exact hfresh (AList.lookup_isSome.mp (by simp [hlive]))
      rw [AList.lookup_insert_ne hid]
      exact hlive
  · intro p hp
    rw [AList.lookup_insert_ne (hquiet p hp)]
    exact hinv.inflight_flow p hp

theorem Inv.sendToFlow (options : UdpRelayFlowOptions) (hinv : Inv s) (flowId : UInt64)
    (data : List UInt8) : Inv (s.sendToFlow options flowId data).1 := by
  unfold UdpRelayFlowSet.sendToFlow
  cases hflow : s.flows.lookup flowId with
  | none => exact hinv
  | some flow =>
    dsimp only
    cases htask : s.tasks.lookup flow.task with
    | none => exact hinv.remove_ended hflow htask
    | some task =>
      simp only
      split_ifs
      · exact hinv
      · exact hinv.replace_queue htask _

theorem Inv.dispatch (options : UdpRelayFlowOptions) (hinv : Inv s) {flowId : UInt64}
    (hguard : flowId ∉ s.flows → ∀ p ∈ s.flowDone, p.1 ≠ flowId) (data : List UInt8)
    (connects : Bool) : Inv (s.dispatch options flowId data connects).1 := by
  rcases @dispatch_fst_cases options s flowId data connects with
    h | h | ⟨s', hfresh, hcreate, h⟩
  · rw [h]
    exact hinv
  · rw [h]
    exact hinv.sendToFlow options flowId data
  · rw [h]
    obtain ⟨-, rfl⟩ := createFlow_eq_some options hcreate
    exact (hinv.create hfresh (hguard hfresh)).sendToFlow options flowId data

/-- The owner takes a flow id: the map has the sender's flow under it, or
nothing. -/
theorem Inv.flowDone (hinv : Inv s) {flowId : UInt64} {sender : Nat}
    {rest : List (UInt64 × Nat)} (h : s.flowDone = (flowId, sender) :: rest) :
    Inv ({ s with flowDone := rest }.remove flowId) := by
  have hhead : (flowId, sender) ∈ s.flowDone := h ▸ List.mem_cons_self
  have hrest : ∀ p ∈ rest, p ∈ s.flowDone := fun p hp => h ▸ List.mem_cons_of_mem _ hp
  constructor
  · exact hinv.task_lt
  · exact fun p hp => hinv.sender_lt p (hrest p hp)
  · exact fun p hp => hinv.sender_ended p (hrest p hp)
  · intro n t hn
    have hn : s.tasks.lookup n = some t := hn
    have hlive := hinv.live_flow n t hn
    have hid : t.flowId ≠ flowId := by
      rintro hid
      -- the flow under the id would be the sender's, but the sender has ended
      rcases hinv.inflight_flow _ hhead with hnone | hsender
      · rw [← hid, hlive] at hnone
        cases hnone
      · rw [← hid, hlive] at hsender
        cases hsender
        exact hinv.sender_ended _ hhead (AList.lookup_isSome.mp (by simp [hn]))
    rw [remove, AList.lookup_erase_ne hid]
    exact hlive
  · intro p hp
    by_cases hid : p.1 = flowId
    · left
      rw [remove, hid, AList.lookup_erase]
    · rw [remove, AList.lookup_erase_ne hid]
      exact hinv.inflight_flow p (hrest p hp)

/-- A task ends: its flow id goes in flight with its flow still in the map. -/
theorem Inv.taskEnds (hinv : Inv s) {name : Nat} {task : FlowTask}
    (h : s.tasks.lookup name = some task) :
    Inv { s with tasks := s.tasks.erase name, flowDone := s.flowDone ++ [(task.flowId, name)] } := by
  have hmem : name ∈ s.tasks := AList.lookup_isSome.mp (by simp [h])
  constructor
  · exact fun n hn => hinv.task_lt n (AList.mem_erase.mp hn).2
  · intro p hp
    rcases List.mem_append.mp hp with hp | hp
    · exact hinv.sender_lt p hp
    · rw [List.mem_singleton.mp hp]
      exact hinv.task_lt name hmem
  · intro p hp hlive
    rcases List.mem_append.mp hp with hp | hp
    · exact hinv.sender_ended p hp (AList.mem_erase.mp hlive).2
    · rw [List.mem_singleton.mp hp] at hlive
      exact (AList.mem_erase.mp hlive).1 rfl
  · intro n t hn
    exact hinv.live_flow n t (Table.lookup_of_lookup_erase hn)
  · intro p hp
    rcases List.mem_append.mp hp with hp | hp
    · exact hinv.inflight_flow p hp
    · rw [List.mem_singleton.mp hp]
      exact .inr (hinv.live_flow name task h)

theorem Inv.step (options : UdpRelayFlowOptions) (hinv : Inv s) {e : RelayEvent}
    (hguard : NoEarlyReuse s e) : Inv (s.step options e).1 := by
  cases e with
  | packet flowId data connects => exact hinv.dispatch options hguard data connects
  | flowDone =>
    simp only [UdpRelayFlowSet.step]
    cases h : s.flowDone with
    | nil => exact hinv
    | cons p rest => exact hinv.flowDone h
  | taskEnds task =>
    simp only [UdpRelayFlowSet.step]
    cases h : s.tasks.lookup task with
    | none => exact hinv
    | some t => exact hinv.taskEnds h
  | taskTakes task =>
    simp only [UdpRelayFlowSet.step]
    cases h : s.tasks.lookup task with
    | none => exact hinv
    | some t => exact hinv.replace_queue h _

end Preservation

/-- While no flow id is reused before its flow_done is taken, a live task
keeps its flow in the map, and a flow id the owner takes removes the flow
of the task that sent it or nothing. -/
theorem flowDone_retires_own_flow (evs : List RelayEvent)
    (hadm : Machine.Admits (step options) NoEarlyReuse new evs) :
    (∀ name task, (Machine.final (step options) new evs).tasks.lookup name = some task →
      (Machine.final (step options) new evs).flows.lookup task.flowId = some ⟨name⟩) ∧
    (∀ p ∈ (Machine.final (step options) new evs).flowDone, ∀ flow,
      (Machine.final (step options) new evs).flows.lookup p.1 = some flow → flow.task = p.2) := by
  have hinv : Inv (Machine.final (step options) new evs) :=
    Machine.final_preservedOn (fun _ _ hinv hguard => hinv.step options hguard) inv_new evs hadm
  refine ⟨hinv.live_flow, fun p hp flow hflow => ?_⟩
  rcases hinv.inflight_flow p hp with hnone | hsender
  · rw [hnone] at hflow
    cases hflow
  · rw [hsender] at hflow
    cases hflow
    rfl

-- one id reopened after the flow_done of its first flow was taken
example :
    Machine.Admits (step ⟨1, 4⟩) NoEarlyReuse new
      [.packet 5 [1] true, .taskEnds 0, .flowDone, .packet 5 [2] true] := by
  simp only [Machine.Admits, NoEarlyReuse]
  decide

end UdpRelayFlowSet

end Ppaass.Proxy
