import Mathlib.Data.List.Basic
import Ppaass.Lib.Machine

/-!
# A stream of the native UDP client

`UdpClientStream` (`common/src/client_connection/udp.rs`) is one logical UDP
channel of a native UDP session. Its reader takes whole datagrams off the
inbound channel that the session driver fills; its writer hands each
non-empty buffer to the driver as one command.

Reading keeps datagram boundaries. `pollRead` refines `readSpec`, the read of
one datagram off a queue of datagrams, under `UdpClientStream.pending`: the
datagram held back after a short buffer, then the non-empty datagrams still
queued (`pollRead_refines`). Over any interleaving of arrivals and reads of
any sizes, the datagrams read are the non-empty datagrams that arrived, in
order, each whole and once (`reads_append_pending`).

Writing follows `emitNext`, the commands a stream may still send from the
state it is in: `OpenData` to its target before any `Data`, and `Close` at
most once, from `poll_shutdown` or from `drop` (`emitNext_pollWrite`,
`emitNext_pollShutdown`, `emitNext_drop`).

The stream's `command_tx` is the session's command queue; what
`poll_reserve` answers on it is an input here, and the session computes it.
-/

namespace Ppaass.Common

/-- The kinds of `io::Error` the native UDP client raises. -/
inductive IoErrorKind where
  | invalidInput
  | notConnected
  | timedOut
  | other
  deriving DecidableEq, Repr

structure IoError where
  kind : IoErrorKind
  message : String
  deriving DecidableEq, Repr

/-- `std::task::Poll`. -/
inductive Poll (α : Type) where
  | ready (value : α)
  | pending
  deriving DecidableEq, Repr

/-- `ClientCommand`. The inbound channel a `Register` carries is the flow's
own, which the model keeps with the flow's stream. -/
inductive ClientCommand (Addr : Type) where
  | register (flowId : UInt64)
  | openData (flowId : UInt64) (address : Addr) (data : List UInt8)
  | data (flowId : UInt64) (data : List UInt8)
  | close (flowId : UInt64)
  deriving DecidableEq, Repr

def ClientCommand.flowId {Addr : Type} : ClientCommand Addr → UInt64
  | .register flowId | .openData flowId _ _ | .data flowId _ | .close flowId => flowId

/-- What every call on a session that has ended answers. -/
def sessionClosedError : IoError := ⟨.notConnected, "原生 UDP 会话已关闭"⟩

/-- `short_datagram_buffer_error`. -/
def shortDatagramBufferError (available required : Nat) : IoError :=
  ⟨.invalidInput, "UDP read buffer is too small for one datagram: available=" ++
    toString available ++ ", required=" ++ toString required⟩

/-- `UdpClientStream`, with its receiver `inbound_rx` as the datagrams queued
on it, oldest first. -/
structure UdpClientStream (Addr : Type) where
  flowId : UInt64
  openAddress : Option Addr
  inbound : List (List UInt8)
  readBuf : List UInt8
  readPos : Nat
  closeSent : Bool

variable {Addr : Type}

namespace UdpClientStream

-- ---------------------------------------------------------------------------
-- Reading
-- ---------------------------------------------------------------------------

/-- The loop of `poll_read` over `inbound_rx.poll_recv` once the stream holds
nothing: it skips empty datagrams and stops at the first other one; with the
channel drained it ends the stream if no sender is left, and waits otherwise. -/
def recvLoop (s : UdpClientStream Addr) (remaining : Nat) (senderOpen : Bool) :
    List (List UInt8) → Poll (Except IoError (List UInt8)) × UdpClientStream Addr
  | [] => (if senderOpen then .pending else .ready (.ok []), { s with inbound := [] })
  | data :: rest =>
    if data.isEmpty then recvLoop s remaining senderOpen rest
    else if remaining < data.length then
      (.ready (.error (shortDatagramBufferError remaining data.length)),
        { s with inbound := rest, readBuf := data })
    else (.ready (.ok data), { s with inbound := rest, readBuf := data, readPos := data.length })

/-- `poll_read` into a buffer with room for `remaining` bytes. What it hands
over is the bytes it put in the buffer; `senderOpen` is whether a sender of
the inbound channel is left. -/
def pollRead (s : UdpClientStream Addr) (remaining : Nat) (senderOpen : Bool) :
    Poll (Except IoError (List UInt8)) × UdpClientStream Addr :=
  if remaining = 0 then (.ready (.ok []), s)
  else if s.readPos < s.readBuf.length then
    let datagramLen := s.readBuf.length - s.readPos
    if remaining < datagramLen then
      (.ready (.error (shortDatagramBufferError remaining datagramLen)), s)
    else (.ready (.ok (s.readBuf.drop s.readPos)), { s with readPos := s.readBuf.length })
  else recvLoop { s with readBuf := [], readPos := 0 } remaining senderOpen s.inbound

/-- The datagram a short buffer left held in `read_buf`, if any. -/
def held (s : UdpClientStream Addr) : List (List UInt8) :=
  if s.readPos < s.readBuf.length then [s.readBuf.drop s.readPos] else []

/-- The datagrams a reader of the stream has still to get: the one held back,
then the non-empty ones queued. -/
def pending (s : UdpClientStream Addr) : List (List UInt8) :=
  s.held ++ s.inbound.filter fun d => !d.isEmpty

end UdpClientStream

/-- Reading one datagram off a queue of datagrams into a buffer with room for
`remaining` bytes. A datagram that does not fit stays first in the queue; an
empty read is the end of the stream, or a buffer with no room. -/
def readSpec (remaining : Nat) (senderOpen : Bool) (queue : List (List UInt8)) :
    Poll (Except IoError (List UInt8)) × List (List UInt8) :=
  if remaining = 0 then (.ready (.ok []), queue)
  else match queue with
    | [] => (if senderOpen then .pending else .ready (.ok []), [])
    | d :: ds =>
      if remaining < d.length then
        (.ready (.error (shortDatagramBufferError remaining d.length)), d :: ds)
      else (.ready (.ok d), ds)

/-- The datagrams a read handed over. -/
def readDatagrams : Poll (Except IoError (List UInt8)) → List (List UInt8)
  | .ready (.ok data) => if data.isEmpty then [] else [data]
  | _ => []

/-- A read hands over the first datagram of the queue or nothing, and leaves
the rest. -/
theorem readSpec_conserves (remaining : Nat) (senderOpen : Bool)
    {queue : List (List UInt8)} (hqueue : ∀ d ∈ queue, d ≠ []) :
    readDatagrams (readSpec remaining senderOpen queue).1 ++
      (readSpec remaining senderOpen queue).2 = queue := by
  unfold readSpec
  by_cases hzero : remaining = 0
  · simp [hzero, readDatagrams]
  · rw [if_neg hzero]
    match queue with
    | [] => cases senderOpen <;> rfl
    | d :: ds =>
      have hd : d ≠ [] := hqueue d List.mem_cons_self
      by_cases hshort : remaining < d.length
      · simp [hshort, readDatagrams]
      · simp [hshort, readDatagrams, hd]

namespace UdpClientStream

theorem mem_pending {s : UdpClientStream Addr} {d : List UInt8} (hd : d ∈ s.pending) : d ≠ [] := by
  unfold pending held at hd
  split_ifs at hd with hpos
  · rcases List.mem_append.mp hd with hd | hd
    · rw [List.mem_singleton.mp hd]
      simpa [← List.length_pos_iff] using hpos
    · simpa using (List.mem_filter.mp hd).2
  · simpa using (List.mem_filter.mp hd).2

/-- The loop answers as `readSpec` on the non-empty datagrams queued, on a
stream that holds nothing. -/
theorem recvLoop_refines (s : UdpClientStream Addr) {remaining : Nat} (hremaining : remaining ≠ 0)
    (senderOpen : Bool) (hbuf : s.readBuf = []) (hpos : s.readPos = 0) :
    ∀ queue : List (List UInt8),
      ((recvLoop s remaining senderOpen queue).1, (recvLoop s remaining senderOpen queue).2.pending) =
        readSpec remaining senderOpen (queue.filter fun d => !d.isEmpty)
  | [] => by simp [recvLoop, readSpec, hremaining, pending, held, hbuf]
  | data :: rest => by
    by_cases hempty : data.isEmpty
    · simpa [recvLoop, hempty] using recvLoop_refines s hremaining senderOpen hbuf hpos rest
    · by_cases hshort : remaining < data.length
      · simp [recvLoop, readSpec, hremaining, hempty, hshort, pending, held, hpos,
          List.length_pos_iff.mpr (by simpa using hempty)]
      · simp [recvLoop, readSpec, hremaining, hempty, hshort, pending, held]

/-- `poll_read` answers as `readSpec` on the datagrams the stream has still
to hand over, and leaves what `readSpec` leaves. -/
theorem pollRead_refines (s : UdpClientStream Addr) (remaining : Nat) (senderOpen : Bool) :
    ((s.pollRead remaining senderOpen).1, (s.pollRead remaining senderOpen).2.pending) =
      readSpec remaining senderOpen s.pending := by
  unfold pollRead
  by_cases hzero : remaining = 0
  · simp [hzero, readSpec]
  rw [if_neg hzero]
  by_cases hheld : s.readPos < s.readBuf.length
  · -- the datagram a short buffer left behind comes first
    rw [if_pos hheld]
    have hpending : s.pending = s.readBuf.drop s.readPos :: s.inbound.filter fun d => !d.isEmpty := by
      simp [pending, held, hheld]
    rw [hpending]
    by_cases hshort : remaining < s.readBuf.length - s.readPos
    · simp [hshort, readSpec, hzero, hpending]
    · simp [hshort, readSpec, hzero, pending, held]
  · rw [if_neg hheld]
    have hpending : s.pending = s.inbound.filter fun d => !d.isEmpty := by
      simp [pending, held, hheld]
    rw [hpending]
    exact recvLoop_refines _ hzero senderOpen rfl rfl s.inbound

/-- The fields a read does not touch. -/
theorem recvLoop_keeps (s : UdpClientStream Addr) (remaining : Nat) (senderOpen : Bool) :
    ∀ queue : List (List UInt8),
      (recvLoop s remaining senderOpen queue).2.flowId = s.flowId ∧
      (recvLoop s remaining senderOpen queue).2.openAddress = s.openAddress ∧
      (recvLoop s remaining senderOpen queue).2.closeSent = s.closeSent
  | [] => ⟨rfl, rfl, rfl⟩
  | data :: rest => by
    by_cases hempty : data.isEmpty
    · simpa [recvLoop, hempty] using recvLoop_keeps s remaining senderOpen rest
    · by_cases hshort : remaining < data.length <;> simp [recvLoop, hempty, hshort]

theorem pollRead_keeps (s : UdpClientStream Addr) (remaining : Nat) (senderOpen : Bool) :
    (s.pollRead remaining senderOpen).2.flowId = s.flowId ∧
    (s.pollRead remaining senderOpen).2.openAddress = s.openAddress ∧
    (s.pollRead remaining senderOpen).2.closeSent = s.closeSent := by
  unfold pollRead
  by_cases hzero : remaining = 0
  · simp [hzero]
  rw [if_neg hzero]
  by_cases hheld : s.readPos < s.readBuf.length
  · rw [if_pos hheld]
    dsimp only
    split_ifs <;> exact ⟨rfl, rfl, rfl⟩
  · rw [if_neg hheld]
    exact recvLoop_keeps _ remaining senderOpen s.inbound

/-- A read hands over whole datagrams and loses none: what it hands over,
then what is left to hand over, is what was left before. -/
theorem pollRead_conserves (s : UdpClientStream Addr) (remaining : Nat) (senderOpen : Bool) :
    readDatagrams (s.pollRead remaining senderOpen).1 ++ (s.pollRead remaining senderOpen).2.pending =
      s.pending := by
  have h := pollRead_refines s remaining senderOpen
  have hread : (s.pollRead remaining senderOpen).1 = (readSpec remaining senderOpen s.pending).1 :=
    congrArg Prod.fst h
  have hleft : (s.pollRead remaining senderOpen).2.pending = (readSpec remaining senderOpen s.pending).2 :=
    congrArg Prod.snd h
  rw [hread, hleft]
  exact readSpec_conserves remaining senderOpen fun d hd => mem_pending hd

/-- An empty read is the end of the stream: no sender is left and nothing is
left to read, unless the buffer had no room. -/
theorem pollRead_eq_eof {s : UdpClientStream Addr} {remaining : Nat} {senderOpen : Bool}
    (h : (s.pollRead remaining senderOpen).1 = .ready (.ok [])) :
    remaining = 0 ∨ (senderOpen = false ∧ s.pending = []) := by
  have hspec : (readSpec remaining senderOpen s.pending).1 = .ready (.ok []) :=
    (congrArg Prod.fst (pollRead_refines s remaining senderOpen)).symm.trans h
  unfold readSpec at hspec
  by_cases hzero : remaining = 0
  · exact .inl hzero
  rw [if_neg hzero] at hspec
  refine .inr ?_
  cases hq : s.pending with
  | nil =>
    rw [hq] at hspec
    cases senderOpen
    · exact ⟨rfl, rfl⟩
    · cases hspec
  | cons d ds =>
    rw [hq] at hspec
    dsimp only at hspec
    have hd : d ≠ [] := mem_pending (hq ▸ List.mem_cons_self)
    split_ifs at hspec
    · cases hspec
    · cases hspec
      exact absurd rfl hd

end UdpClientStream

-- ---------------------------------------------------------------------------
-- The reading end over a run
-- ---------------------------------------------------------------------------

/-- What happens at the reading end of a stream: a datagram arrives on its
inbound channel, the application reads into a buffer with room for
`remaining` bytes, or the last sender of the channel goes away. -/
inductive ReadEvent where
  | arrive (datagram : List UInt8)
  | read (remaining : Nat)
  | hangUp

/-- The reading end of a stream, with whether a sender of its channel is
left; a read answers what `poll_read` answers. -/
def readStep : UdpClientStream Addr × Bool → ReadEvent →
    (UdpClientStream Addr × Bool) × Option (Poll (Except IoError (List UInt8)))
  | (s, senderOpen), .arrive datagram => (({ s with inbound := s.inbound ++ [datagram] }, senderOpen), none)
  | (s, senderOpen), .read remaining =>
    (((s.pollRead remaining senderOpen).2, senderOpen), some (s.pollRead remaining senderOpen).1)
  | (s, _), .hangUp => ((s, false), none)

/-- The reading end as a queue of whole datagrams, where an empty datagram
never arrives. -/
def datagramQueueStep : List (List UInt8) × Bool → ReadEvent →
    (List (List UInt8) × Bool) × Option (Poll (Except IoError (List UInt8)))
  | (queue, senderOpen), .arrive datagram =>
    ((queue ++ [datagram].filter (fun d => !d.isEmpty), senderOpen), none)
  | (queue, senderOpen), .read remaining =>
    (((readSpec remaining senderOpen queue).2, senderOpen), some (readSpec remaining senderOpen queue).1)
  | (queue, _), .hangUp => ((queue, false), none)

/-- The datagrams a run of the reading end handed over. -/
def handedOver (answers : List (Option (Poll (Except IoError (List UInt8))))) : List (List UInt8) :=
  answers.flatMap fun answer => answer.elim [] readDatagrams

@[simp] theorem handedOver_nil : handedOver [] = [] := rfl

@[simp] theorem handedOver_cons (answer : Option (Poll (Except IoError (List UInt8))))
    (answers : List (Option (Poll (Except IoError (List UInt8))))) :
    handedOver (answer :: answers) = answer.elim [] readDatagrams ++ handedOver answers := rfl

/-- The datagrams that arrived in a run. -/
def arrivals : List ReadEvent → List (List UInt8) :=
  List.filterMap fun
    | .arrive datagram => some datagram
    | _ => none

theorem pending_arrive (s : UdpClientStream Addr) (datagram : List UInt8) :
    ({ s with inbound := s.inbound ++ [datagram] } : UdpClientStream Addr).pending =
      s.pending ++ [datagram].filter fun d => !d.isEmpty := by
  simp [UdpClientStream.pending, UdpClientStream.held, List.filter_append]

/-- A stream's reading end is its queue of pending datagrams. -/
theorem readStep_simulates :
    Machine.Simulates (@readStep Addr) datagramQueueStep
      (fun x y => x.1.pending = y.1 ∧ x.2 = y.2) := by
  rintro ⟨s, senderOpen⟩ ⟨queue, senderOpen'⟩ event ⟨hqueue, rfl⟩
  cases event with
  | arrive datagram => exact ⟨⟨by simp [readStep, datagramQueueStep, pending_arrive, hqueue], rfl⟩, rfl⟩
  | read remaining =>
    dsimp only at hqueue
    have h := s.pollRead_refines remaining senderOpen
    rw [hqueue] at h
    have hanswer : (s.pollRead remaining senderOpen).1 = (readSpec remaining senderOpen queue).1 :=
      congrArg Prod.fst h
    exact ⟨⟨congrArg Prod.snd h, rfl⟩, by simp [readStep, datagramQueueStep, hanswer]⟩
  | hangUp => exact ⟨⟨hqueue, rfl⟩, rfl⟩

/-- The queue hands over its datagrams in order, each once. -/
theorem datagramQueue_conserves (events : List ReadEvent) :
    ∀ (queue : List (List UInt8)) (senderOpen : Bool), (∀ d ∈ queue, d ≠ []) →
      handedOver (Machine.run datagramQueueStep (queue, senderOpen) events) ++
        (Machine.final datagramQueueStep (queue, senderOpen) events).1 =
      queue ++ (arrivals events).filter fun d => !d.isEmpty := by
  induction events with
  | nil => simp [handedOver, arrivals]
  | cons event events ih =>
    intro queue senderOpen hqueue
    cases event with
    | arrive datagram =>
      have hnext : ∀ d ∈ queue ++ [datagram].filter (fun d => !d.isEmpty), d ≠ [] := by
        intro d hd
        rcases List.mem_append.mp hd with hd | hd
        · exact hqueue d hd
        · simpa using (List.mem_filter.mp hd).2
      simp only [Machine.run_cons, Machine.final_cons, datagramQueueStep, handedOver_cons,
        Option.elim, List.nil_append]
      rw [ih _ senderOpen hnext]
      by_cases hempty : datagram = [] <;> simp [arrivals, hempty]
    | read remaining =>
      -- a read hands over the head of the queue and leaves its tail
      have hsplit := readSpec_conserves remaining senderOpen hqueue
      have hnext : ∀ d ∈ (readSpec remaining senderOpen queue).2, d ≠ [] := fun d hd =>
        hqueue d (hsplit ▸ List.mem_append_right _ hd)
      simp only [Machine.run_cons, Machine.final_cons, datagramQueueStep, handedOver_cons,
        Option.elim]
      rw [List.append_assoc, ih _ senderOpen hnext, ← List.append_assoc, hsplit]
      rfl
    | hangUp =>
      simp only [Machine.run_cons, Machine.final_cons, datagramQueueStep, handedOver_cons,
        Option.elim, List.nil_append]
      exact ih queue false hqueue

/-- Over any run, a stream's reader answers every read, its errors and waits
included, as a queue of whole datagrams does. -/
theorem readRun_eq_datagramQueue (s : UdpClientStream Addr) (senderOpen : Bool)
    (events : List ReadEvent) :
    Machine.run readStep (s, senderOpen) events =
      Machine.run datagramQueueStep (s.pending, senderOpen) events := by
  have hrel : (s, senderOpen).1.pending = (s.pending, senderOpen).1 ∧
      (s, senderOpen).2 = (s.pending, senderOpen).2 := ⟨rfl, rfl⟩
  exact Machine.run_simulation readStep_simulates hrel events

/-- Over any interleaving of arrivals and reads of any sizes, the datagrams a
stream hands over, then those it has still to hand over, are those it had to
hand over, then the non-empty datagrams that arrived: none split, merged,
reordered, lost or handed over twice. -/
theorem reads_append_pending (s : UdpClientStream Addr) (senderOpen : Bool)
    (events : List ReadEvent) :
    handedOver (Machine.run readStep (s, senderOpen) events) ++
        (Machine.final readStep (s, senderOpen) events).1.pending =
      s.pending ++ (arrivals events).filter fun d => !d.isEmpty := by
  have hrel : (s, senderOpen).1.pending = (s.pending, senderOpen).1 ∧
      (s, senderOpen).2 = (s.pending, senderOpen).2 := ⟨rfl, rfl⟩
  rw [Machine.run_simulation readStep_simulates hrel events,
    (Machine.final_simulation readStep_simulates hrel events).1]
  exact datagramQueue_conserves events s.pending senderOpen fun d hd => UdpClientStream.mem_pending hd

namespace UdpClientStream

-- ---------------------------------------------------------------------------
-- Writing
-- ---------------------------------------------------------------------------

/-- `poll_write`, given what `command_tx.poll_reserve` answered. The first
non-empty buffer goes out as `OpenData` to the target, every later one as
`Data`; returns the commands sent. With a slot reserved, `send_item` cannot
fail. -/
def pollWrite (s : UdpClientStream Addr) (reserve : Poll (Except Unit Unit)) (buf : List UInt8) :
    Poll (Except IoError Nat) × UdpClientStream Addr × List (ClientCommand Addr) :=
  if buf.isEmpty then (.ready (.ok 0), s, [])
  else match reserve with
    | .ready (.ok ()) =>
      let command := match s.openAddress with
        | some address => ClientCommand.openData s.flowId address buf
        | none => .data s.flowId buf
      (.ready (.ok buf.length), { s with openAddress := none }, [command])
    | .ready (.error ()) => (.ready (.error sessionClosedError), s, [])
    | .pending => (.pending, s, [])

/-- `poll_shutdown`: `Close` once; a session that has ended counts as closed. -/
def pollShutdown (s : UdpClientStream Addr) (reserve : Poll (Except Unit Unit)) :
    Poll (Except IoError Unit) × UdpClientStream Addr × List (ClientCommand Addr) :=
  if s.closeSent then (.ready (.ok ()), s, [])
  else match reserve with
    | .ready (.ok ()) => (.ready (.ok ()), { s with closeSent := true }, [.close s.flowId])
    | .ready (.error ()) => (.ready (.ok ()), { s with closeSent := true }, [])
    | .pending => (.pending, s, [])

/-- `Drop`: a stream that has not sent `Close` tries to, without waiting;
`taken` is whether `try_send` found a slot. -/
def drop (s : UdpClientStream Addr) (taken : Bool) : List (ClientCommand Addr) :=
  if s.closeSent then [] else if taken then [.close s.flowId] else []

end UdpClientStream

/-- The commands a stream of flow `flowId` may still send, as a machine over
whether it has yet to open the flow and whether it has sent `Close`:
`OpenData` only before any `Data`, `Close` only once, nothing of another flow
and no `Register`. -/
def emitNext (flowId : UInt64) : Bool × Bool → ClientCommand Addr → Option (Bool × Bool)
  | (true, closeSent), .openData f _ _ => if f = flowId then some (false, closeSent) else none
  | (false, closeSent), .data f _ => if f = flowId then some (false, closeSent) else none
  | (toOpen, false), .close f => if f = flowId then some (toOpen, true) else none
  | _, _ => none

/-- What `emitNext` allows: `OpenData` of the flow while it is still to be
opened, `Data` once it is, and `Close` while none has been sent. -/
theorem emitNext_eq_some {flowId : UInt64} {d d' : Bool × Bool} {c : ClientCommand Addr}
    (h : emitNext flowId d c = some d') :
    c.flowId = flowId ∧
      ((∃ address data, c = .openData flowId address data ∧ d.1 = true ∧ d' = (false, d.2)) ∨
        (∃ data, c = .data flowId data ∧ d.1 = false ∧ d' = d) ∨
        (c = .close flowId ∧ d.2 = false ∧ d' = (d.1, true))) := by
  obtain ⟨toOpen, closeSent⟩ := d
  cases c with
  | register f => cases toOpen <;> cases closeSent <;> simp [emitNext] at h
  | openData f address data =>
    cases toOpen <;> cases closeSent <;> simp only [emitNext, reduceCtorEq] at h <;>
      split_ifs at h with hf <;> cases h <;> simp [ClientCommand.flowId, hf]
  | data f data =>
    cases toOpen <;> cases closeSent <;> simp only [emitNext, reduceCtorEq] at h <;>
      split_ifs at h with hf <;> cases h <;> simp [ClientCommand.flowId, hf]
  | close f =>
    cases toOpen <;> cases closeSent <;> simp only [emitNext, reduceCtorEq] at h <;>
      split_ifs at h with hf <;> cases h <;> simp [ClientCommand.flowId, hf]

/-- Every command `emitNext` allows is of its flow. -/
theorem flowId_of_foldlM_emitNext {flowId : UInt64} :
    ∀ {cs : List (ClientCommand Addr)} {d : Bool × Bool},
      (cs.foldlM (emitNext flowId) d).isSome → ∀ c ∈ cs, c.flowId = flowId
  | [], _, _, _, hc => absurd hc List.not_mem_nil
  | c :: cs, d, h, c', hc' => by
    rw [List.foldlM_cons] at h
    cases hstep : emitNext flowId d c with
    | none => simp [hstep] at h
    | some d' =>
      rw [hstep] at h
      rcases List.mem_cons.mp hc' with rfl | hc'
      · exact (emitNext_eq_some hstep).1
      · exact flowId_of_foldlM_emitNext h c' hc'

namespace UdpClientStream

/-- The state of a stream as `emitNext` reads it. -/
def emitState (s : UdpClientStream Addr) : Bool × Bool := (s.openAddress.isSome, s.closeSent)

theorem emitNext_pollWrite (s : UdpClientStream Addr) (reserve : Poll (Except Unit Unit))
    (buf : List UInt8) :
    (s.pollWrite reserve buf).2.2.foldlM (emitNext s.flowId) s.emitState =
      some (s.pollWrite reserve buf).2.1.emitState := by
  unfold pollWrite
  by_cases hbuf : buf.isEmpty
  · simp [hbuf]
  · rw [if_neg hbuf]
    rcases reserve with (_ | _) | _
    · rfl
    · cases ho : s.openAddress <;> simp [emitState, emitNext, ho]
    · rfl

/-- With the session still running, `poll_shutdown` sends what it marks as
sent. -/
theorem emitNext_pollShutdown (s : UdpClientStream Addr) {reserve : Poll (Except Unit Unit)}
    (hreserve : reserve ≠ .ready (.error ())) :
    (s.pollShutdown reserve).2.2.foldlM (emitNext s.flowId) s.emitState =
      some (s.pollShutdown reserve).2.1.emitState := by
  unfold pollShutdown
  by_cases hclose : s.closeSent
  · simp [hclose]
  · rw [if_neg hclose]
    rcases reserve with (_ | _) | _
    · exact absurd rfl hreserve
    · simp [emitState, emitNext, hclose]
    · rfl

theorem emitNext_drop (s : UdpClientStream Addr) (taken : Bool) :
    ((s.drop taken).foldlM (emitNext s.flowId) s.emitState).isSome := by
  unfold drop
  by_cases hclose : s.closeSent
  · simp [hclose]
  · cases taken <;> simp [hclose, emitState, emitNext]

/-- A stream sends commands of its own flow only, and keeps it. -/
theorem flowId_pollWrite (s : UdpClientStream Addr) (reserve : Poll (Except Unit Unit))
    (buf : List UInt8) :
    (s.pollWrite reserve buf).2.1.flowId = s.flowId ∧
      ∀ c ∈ (s.pollWrite reserve buf).2.2, c.flowId = s.flowId := by
  unfold pollWrite
  split_ifs
  · simp
  · rcases reserve with (_ | _) | _
    · simp
    · cases s.openAddress <;> simp [ClientCommand.flowId]
    · simp

theorem flowId_pollShutdown (s : UdpClientStream Addr) (reserve : Poll (Except Unit Unit)) :
    (s.pollShutdown reserve).2.1.flowId = s.flowId ∧
      ∀ c ∈ (s.pollShutdown reserve).2.2, c.flowId = s.flowId := by
  unfold pollShutdown
  split_ifs
  · simp
  · rcases reserve with (_ | _) | _ <;> simp [ClientCommand.flowId]

theorem flowId_drop (s : UdpClientStream Addr) (taken : Bool) :
    ∀ c ∈ s.drop taken, c.flowId = s.flowId := by
  unfold drop
  split_ifs <;> simp [ClientCommand.flowId]

end UdpClientStream

end Ppaass.Common
