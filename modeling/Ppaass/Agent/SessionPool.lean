import Mathlib
import Ppaass.Lib.Machine

/-!
# The agents' proxy-session pools

`YamuxSessionManager` (`desktop-agent-be/src/yamux_session/manager/`) and
`AndroidYamuxSessionManager` (`android-agent/native/src/yamux_session.rs`)
keep two pools, each touched by any number of concurrent
`connect_to_target` calls.

The yamux pool is the list `yamux_sessions`. Only `ensure_yamux_sessions`
adds to it, holding `yamux_refill_lock`: it draws an id from
`yamux_next_session_id` for each creation task it spawns, and pushes a
created session, under the list's lock, only while the list is shorter than
its target size, which is at most `yamux_target_size()`. `prune_closed_yamux_sessions`
drops the closed sessions and `remove_yamux_session` the first of a given id.

The native UDP pool is a fixed row of slots, each behind its own lock. A task
of `open_udp_target_stream_in_slot` locks its slot, opens a connection when
the slot is empty or its connection closed, and takes a copy of the handle;
it runs `connect_to_target` outside the lock; when that fails at its first
attempt on a closed connection, it relocks the slot and clears it if the
slot's handle still has its handle's id, then tries once more.

Both ids are `usize` counters that `fetch_add(1)` wraps at `2^w`, with `w`
the width of `usize` (64 on the desktop and `arm64-v8a` builds, 32 on
`armeabi-v7a`). A connection is named by the number of the draw that came
with it, so an id is the connection's name modulo `2^w`, and two different
connections share an id only once a counter has wrapped.

The manager is a step relation over both pools and the tasks in flight:
every await point of the code is a step, and so are the closing of a
connection and the failure of a connect, which the network decides. The
Android manager differs from the desktop one only by returning early when
it is shutting down, which changes nothing.

`Inv` holds in every reachable state. Before a counter wraps it gives what
the code's comments rely on: the yamux list is never longer than
`yamux_target_size()` and has distinct ids; a slot's connection is replaced
only once it is closed; and a task clears only the handle it failed on
(`pools_safe`). A run that draws `2^w` UDP ids makes a task clear a newer,
open connection that reused its id, and one that draws `2^w` yamux ids puts
two sessions of one id in the list.
-/

namespace Ppaass.Agent

/-- `YamuxSessionHandle` and `UdpSessionHandle` (on Android
`AndroidYamuxSession` and `AndroidUdpSession`): the id the manager gave it,
and its connection, named by the draw that came with it. -/
structure SessionHandle where
  id : Nat
  connection : Nat
  deriving DecidableEq, Repr

section Draws

variable (w : Nat)

/-- The value the `n`-th `fetch_add(1)` of a `usize` counter started at 0
returns. -/
def drawnId (n : Nat) : Nat := n % 2 ^ w

/-- The handle that comes with the `n`-th draw. -/
def drawnHandle (n : Nat) : SessionHandle := ⟨drawnId w n, n⟩

end Draws

-- ---------------------------------------------------------------------------
-- The yamux pool
-- ---------------------------------------------------------------------------

/-- The refill of `ensure_yamux_sessions` that holds `yamux_refill_lock`:
its target size, the creation tasks it has still to spawn, and the draws
of the spawned ones whose result it has not taken. -/
structure Refill where
  targetSize : Nat
  toSpawn : Nat
  spawned : List Nat
  deriving DecidableEq, Repr

/-- `yamux_sessions`, the draws of `yamux_next_session_id`, the refill in
progress, and the connections that have closed. -/
structure YamuxPool where
  sessions : List SessionHandle
  nextSessionId : Nat
  refill : Option Refill
  closed : List Nat
  deriving DecidableEq, Repr

/-- The pool of `new_for_transport`. -/
def YamuxPool.new : YamuxPool := ⟨[], 0, none, []⟩

/-- What one step of the manager does to the yamux pool, with
`yamux_target_size()` as `maxSessions`. -/
inductive YamuxStep (w maxSessions : Nat) (p : YamuxPool) : YamuxPool → Prop where
  /-- `ensure_yamux_sessions(target_size)` takes the refill lock and finds
  the list shorter than the target, `1.min(max_sessions)` or
  `(current_size + 1).min(max_sessions)`. -/
  | beginRefill (targetSize : Nat) (hpos : 0 < targetSize) (hmax : targetSize ≤ maxSessions)
      (hfree : p.refill = none) (hshort : p.sessions.length < targetSize) :
      YamuxStep w maxSessions p
        { p with refill := some ⟨targetSize, targetSize - p.sessions.length, []⟩ }
  /-- The refill draws an id and spawns a creation task. -/
  | spawn (r : Refill) (hr : p.refill = some r) (hpos : 0 < r.toSpawn) :
      YamuxStep w maxSessions p
        { p with
          nextSessionId := p.nextSessionId + 1
          refill := some { r with toSpawn := r.toSpawn - 1, spawned := r.spawned ++ [p.nextSessionId] } }
  /-- A creation task connected and the list has room: the session is pushed. -/
  | push (r : Refill) (n : Nat) (hr : p.refill = some r) (hdone : r.toSpawn = 0)
      (hn : n ∈ r.spawned) (hroom : p.sessions.length < r.targetSize) :
      YamuxStep w maxSessions p
        { p with
          sessions := p.sessions ++ [drawnHandle w n]
          refill := some { r with spawned := r.spawned.erase n } }
  /-- A creation task connected but the list is full: `abort_all` ends the
  refill. -/
  | abort (r : Refill) (n : Nat) (hr : p.refill = some r) (hdone : r.toSpawn = 0)
      (hn : n ∈ r.spawned) (hfull : r.targetSize ≤ p.sessions.length) :
      YamuxStep w maxSessions p { p with refill := none }
  /-- A creation task failed to connect. -/
  | fail (r : Refill) (n : Nat) (hr : p.refill = some r) (hdone : r.toSpawn = 0)
      (hn : n ∈ r.spawned) :
      YamuxStep w maxSessions p { p with refill := some { r with spawned := r.spawned.erase n } }
  /-- Every result is taken: the refill lock is released. -/
  | finish (r : Refill) (hr : p.refill = some r) (hdone : r.toSpawn = 0) (hempty : r.spawned = []) :
      YamuxStep w maxSessions p { p with refill := none }
  /-- `remove_yamux_session(session_id)`. -/
  | remove (sessionId : Nat) :
      YamuxStep w maxSessions p { p with sessions := p.sessions.eraseP (·.id = sessionId) }
  /-- `prune_closed_yamux_sessions`. -/
  | prune :
      YamuxStep w maxSessions p { p with sessions := p.sessions.filter (·.connection ∉ p.closed) }
  /-- A connection closes. -/
  | close (connection : Nat) :
      YamuxStep w maxSessions p { p with closed := connection :: p.closed }

-- ---------------------------------------------------------------------------
-- The native UDP pool
-- ---------------------------------------------------------------------------

/-- Where a task of `open_udp_target_stream_in_slot` is: about to lock its
slot for an attempt, running `connect_to_target` on its handle, or about to
relock the slot to clear the handle it failed on. -/
inductive UdpTaskPc where
  | locking (attempt : Nat)
  | connecting (attempt : Nat) (handle : SessionHandle)
  | clearing (handle : SessionHandle)
  deriving DecidableEq, Repr

/-- A task of `open_udp_target_stream_in_slot` and its slot. -/
structure UdpTask where
  slot : Nat
  pc : UdpTaskPc
  deriving DecidableEq, Repr

/-- `udp_sessions`, the draws of `udp_next_index` and of
`udp_next_session_id`, the connections that have closed, and the tasks in
flight. -/
structure UdpPool where
  udpSessions : List (Option SessionHandle)
  nextIndex : Nat
  nextSessionId : Nat
  closed : List Nat
  tasks : List UdpTask
  deriving DecidableEq, Repr

/-- The pool of `new_for_transport`, with `pool_size` empty slots. -/
def UdpPool.new (poolSize : Nat) : UdpPool := ⟨List.replicate poolSize none, 0, 0, [], []⟩

/-- The handle in slot `i`, if the slot holds one. -/
def UdpPool.current (p : UdpPool) (i : Nat) : Option SessionHandle := (p.udpSessions[i]?).join

/-- The relock after a failure: the slot is cleared only if its handle has
the id of the handle the task failed on. -/
def clearSlot (slot : Option SessionHandle) (handle : SessionHandle) : Option SessionHandle :=
  if slot.any (·.id = handle.id) then none else slot

/-- What one step of the manager does to the UDP pool. -/
inductive UdpStep (w : Nat) (p : UdpPool) : UdpPool → Prop where
  /-- `next_udp_session_slot` picks a slot for a new task. -/
  | start (hslots : p.udpSessions ≠ []) :
      UdpStep w p
        { p with
          nextIndex := p.nextIndex + 1
          tasks := p.tasks ++ [⟨drawnId w p.nextIndex % p.udpSessions.length, .locking 0⟩] }
  /-- Under the slot lock, with the slot empty or its connection closed, a
  connection is opened and installed with a fresh id. -/
  | install (t : UdpTask) (attempt : Nat) (ht : t ∈ p.tasks) (hpc : t.pc = .locking attempt)
      (hstale : ∀ h, p.current t.slot = some h → h.connection ∈ p.closed) :
      UdpStep w p
        { p with
          udpSessions := p.udpSessions.set t.slot (some (drawnHandle w p.nextSessionId))
          nextSessionId := p.nextSessionId + 1
          tasks := (p.tasks.erase t).concat
            ⟨t.slot, .connecting attempt (drawnHandle w p.nextSessionId)⟩ }
  /-- Under the slot lock, the slot's connection is open and the task takes
  a copy of its handle. -/
  | reuse (t : UdpTask) (attempt : Nat) (h : SessionHandle) (ht : t ∈ p.tasks)
      (hpc : t.pc = .locking attempt) (hcur : p.current t.slot = some h)
      (hopen : h.connection ∉ p.closed) :
      UdpStep w p { p with tasks := (p.tasks.erase t).concat ⟨t.slot, .connecting attempt h⟩ }
  /-- The task returns from under the slot lock: the connect failed, or in
  automatic mode the slot's connection timed out. -/
  | giveUp (t : UdpTask) (attempt : Nat) (ht : t ∈ p.tasks) (hpc : t.pc = .locking attempt) :
      UdpStep w p { p with tasks := p.tasks.erase t }
  /-- `connect_to_target` succeeds, or fails other than at the first attempt
  on a closed connection. -/
  | returns (t : UdpTask) (attempt : Nat) (h : SessionHandle) (ht : t ∈ p.tasks)
      (hpc : t.pc = .connecting attempt h) (hretry : attempt = 0 → h.connection ∈ p.closed → False) :
      UdpStep w p { p with tasks := p.tasks.erase t }
  /-- `connect_to_target` fails at the first attempt on a closed connection. -/
  | fails (t : UdpTask) (h : SessionHandle) (ht : t ∈ p.tasks) (hpc : t.pc = .connecting 0 h)
      (hclosed : h.connection ∈ p.closed) :
      UdpStep w p { p with tasks := (p.tasks.erase t).concat ⟨t.slot, .clearing h⟩ }
  /-- The task relocks its slot, clears it if it still holds a handle of its
  handle's id, and tries again. -/
  | clears (t : UdpTask) (h : SessionHandle) (ht : t ∈ p.tasks) (hpc : t.pc = .clearing h) :
      UdpStep w p
        { p with
          udpSessions := p.udpSessions.set t.slot (clearSlot (p.current t.slot) h)
          tasks := (p.tasks.erase t).concat ⟨t.slot, .locking 1⟩ }
  /-- A connection closes. -/
  | close (connection : Nat) : UdpStep w p { p with closed := connection :: p.closed }

-- ---------------------------------------------------------------------------
-- The manager
-- ---------------------------------------------------------------------------

/-- The two pools of one manager. -/
structure SessionManager where
  yamux : YamuxPool
  udp : UdpPool
  deriving DecidableEq, Repr

/-- `new_for_transport`, with the size of its native UDP pool. -/
def SessionManager.new (poolSize : Nat) : SessionManager := ⟨YamuxPool.new, UdpPool.new poolSize⟩

/-- One step of the manager: a step of one of its pools. -/
inductive ManagerStep (w maxSessions : Nat) (m : SessionManager) : SessionManager → Prop where
  | yamux (p : YamuxPool) (h : YamuxStep w maxSessions m.yamux p) :
      ManagerStep w maxSessions m { m with yamux := p }
  | udp (p : UdpPool) (h : UdpStep w m.udp p) : ManagerStep w maxSessions m { m with udp := p }

-- ---------------------------------------------------------------------------
-- Draws
-- ---------------------------------------------------------------------------

section Draws

variable {w : Nat}

/-- `h` came with one of the first `n` draws. -/
def Drawn (w n : Nat) (h : SessionHandle) : Prop := h = drawnHandle w h.connection ∧ h.connection < n

theorem drawn_drawnHandle (n : Nat) : Drawn w (n + 1) (drawnHandle w n) :=
  ⟨rfl, Nat.lt_succ_self n⟩

theorem Drawn.mono {n n' : Nat} {h : SessionHandle} (hd : Drawn w n h) (hle : n ≤ n') :
    Drawn w n' h :=
  ⟨hd.1, lt_of_lt_of_le hd.2 hle⟩

end Draws

-- ---------------------------------------------------------------------------
-- What the yamux pool keeps
-- ---------------------------------------------------------------------------

/-- The draws of the creation tasks in flight. -/
def YamuxPool.creating (p : YamuxPool) : List Nat := (p.refill.map (·.spawned)).getD []

/-- What holds in every state the yamux pool reaches: the list is no longer
than `yamux_target_size()`, nor is a refill's target; every session came with
a draw; and the connections of the list and the draws of the creation tasks
in flight are distinct draws already made. -/
structure YamuxPool.Inv (w maxSessions : Nat) (p : YamuxPool) : Prop where
  length_le : p.sessions.length ≤ maxSessions
  targetSize_le : ∀ r, p.refill = some r → r.targetSize ≤ maxSessions
  drawn : ∀ h ∈ p.sessions, h = drawnHandle w h.connection
  lt_next : ∀ n ∈ p.sessions.map (·.connection) ++ p.creating, n < p.nextSessionId
  nodup : (p.sessions.map (·.connection) ++ p.creating).Nodup

section YamuxInv

variable {w maxSessions : Nat} {p p' : YamuxPool}

theorem YamuxPool.inv_new : YamuxPool.new.Inv w maxSessions where
  length_le := by simp [YamuxPool.new]
  targetSize_le := by simp [YamuxPool.new]
  drawn := by simp [YamuxPool.new]
  lt_next := by simp [YamuxPool.new, YamuxPool.creating]
  nodup := by simp [YamuxPool.new, YamuxPool.creating]

/-- A step that only drops sessions and creation tasks keeps the invariant. -/
theorem YamuxPool.Inv.of_sublist (hinv : p.Inv w maxSessions)
    (hsessions : p'.sessions.Sublist p.sessions) (hcreating : p'.creating.Sublist p.creating)
    (hnext : p'.nextSessionId = p.nextSessionId)
    (htarget : ∀ r, p'.refill = some r → r.targetSize ≤ maxSessions) : p'.Inv w maxSessions where
  length_le := le_trans hsessions.length_le hinv.length_le
  targetSize_le := htarget
  drawn := fun h hh => hinv.drawn h (hsessions.subset hh)
  lt_next := fun n hn => hnext ▸ hinv.lt_next n ((hsessions.map _).append hcreating |>.subset hn)
  nodup := hinv.nodup.sublist ((hsessions.map _).append hcreating)

theorem YamuxPool.Inv.step (hinv : p.Inv w maxSessions) (hstep : YamuxStep w maxSessions p p') :
    p'.Inv w maxSessions := by
  cases hstep with
  | beginRefill targetSize hpos hmax hfree hshort =>
    refine hinv.of_sublist (List.Sublist.refl _) ?_ rfl ?_
    · simp [YamuxPool.creating]
    · rintro r ⟨⟩
      exact hmax
  | spawn r hr hpos =>
    have hcreating : p.creating = r.spawned := by simp [YamuxPool.creating, hr]
    -- the new draw joins the creation tasks, above every draw made so far
    have hlist : p.sessions.map (·.connection) ++ (r.spawned ++ [p.nextSessionId]) =
        (p.sessions.map (·.connection) ++ p.creating) ++ [p.nextSessionId] := by
      rw [hcreating, List.append_assoc]
    have hfresh : p.nextSessionId ∉ p.sessions.map (·.connection) ++ p.creating :=
      fun hmem => lt_irrefl _ (hinv.lt_next _ hmem)
    refine ⟨hinv.length_le, ?_, hinv.drawn, ?_, ?_⟩
    · rintro r' ⟨⟩
      exact hinv.targetSize_le r hr
    · simp only [YamuxPool.creating, Option.map_some, Option.getD_some]
      rw [hlist]
      intro n hn
      rcases List.mem_append.mp hn with hn | hn
      · exact Nat.lt_succ_of_lt (hinv.lt_next n hn)
      · rw [List.mem_singleton.mp hn]
        exact Nat.lt_succ_self _
    · simp only [YamuxPool.creating, Option.map_some, Option.getD_some]
      rw [hlist, List.nodup_append]
      refine ⟨hinv.nodup, List.nodup_singleton _, fun a ha b hb hab => ?_⟩
      rw [List.mem_singleton.mp hb] at hab
      exact hfresh (hab ▸ ha)
  | push r n hr hdone hn hroom =>
    have hcreating : p.creating = r.spawned := by simp [YamuxPool.creating, hr]
    -- the pushed connection moves from the creation tasks to the list
    have hperm : List.Perm ((p.sessions ++ [drawnHandle w n]).map (·.connection) ++ r.spawned.erase n)
        (p.sessions.map (·.connection) ++ r.spawned) := by
      simp only [List.map_append, List.map_singleton, drawnHandle, List.append_assoc,
        List.singleton_append]
      exact List.Perm.append_left _ (List.perm_cons_erase hn).symm
    refine ⟨?_, ?_, ?_, ?_, ?_⟩
    · have := hinv.targetSize_le r hr
      simp only [List.length_append, List.length_singleton]
      omega
    · rintro r' ⟨⟩
      exact hinv.targetSize_le r hr
    · simp only [List.mem_append, List.mem_singleton]
      rintro h (hh | rfl)
      · exact hinv.drawn h hh
      · rfl
    · intro m hm
      simp only [YamuxPool.creating, Option.map_some, Option.getD_some] at hm
      exact hinv.lt_next m (hcreating ▸ hperm.subset hm)
    · simp only [YamuxPool.creating, Option.map_some, Option.getD_some]
      exact hperm.nodup_iff.mpr (hcreating ▸ hinv.nodup)
  | abort r n hr hdone hn hfull =>
    refine hinv.of_sublist (List.Sublist.refl _) ?_ rfl ?_
    · simp [YamuxPool.creating]
    · rintro r' ⟨⟩
  | fail r n hr hdone hn =>
    refine hinv.of_sublist (List.Sublist.refl _) ?_ rfl ?_
    · simp only [YamuxPool.creating, hr, Option.map_some, Option.getD_some]
      exact List.erase_sublist
    · rintro r' ⟨⟩
      exact hinv.targetSize_le r hr
  | finish r hr hdone hempty =>
    refine hinv.of_sublist (List.Sublist.refl _) ?_ rfl ?_
    · simp [YamuxPool.creating]
    · rintro r' ⟨⟩
  | remove sessionId =>
    exact hinv.of_sublist (List.eraseP_sublist) (List.Sublist.refl _) rfl hinv.targetSize_le
  | prune =>
    exact hinv.of_sublist (List.filter_sublist) (List.Sublist.refl _) rfl hinv.targetSize_le
  | close connection =>
    exact hinv.of_sublist (List.Sublist.refl _) (List.Sublist.refl _) rfl hinv.targetSize_le

end YamuxInv

-- ---------------------------------------------------------------------------
-- What the UDP pool keeps
-- ---------------------------------------------------------------------------

/-- The handle a task holds, once it has taken one. -/
def UdpTask.handle? (t : UdpTask) : Option SessionHandle :=
  match t.pc with
  | .locking _ => none
  | .connecting _ h => some h
  | .clearing h => some h

/-- What holds in every state the UDP pool reaches: the row keeps its size;
every handle in a slot or held by a task came with a draw already made; and
a task about to clear holds a handle whose connection has closed. -/
structure UdpPool.Inv (w poolSize : Nat) (p : UdpPool) : Prop where
  length_eq : p.udpSessions.length = poolSize
  slot_drawn : ∀ i h, p.current i = some h → Drawn w p.nextSessionId h
  task_drawn : ∀ t ∈ p.tasks, ∀ h, t.handle? = some h → Drawn w p.nextSessionId h
  clearing_closed : ∀ t ∈ p.tasks, ∀ h, t.pc = .clearing h → h.connection ∈ p.closed

theorem mem_requeue {ts : List UdpTask} {t t' u : UdpTask} (hu : u ∈ (ts.erase t).concat t') :
    u = t' ∨ u ∈ ts := by
  rw [List.concat_eq_append, List.mem_append, List.mem_singleton] at hu
  rcases hu with hu | rfl
  · exact .inr (List.mem_of_mem_erase hu)
  · exact .inl rfl

/-- The handle of slot `j` after slot `i` is set to `v`. -/
theorem current_set {slots : List (Option SessionHandle)} {i j : Nat} {v : Option SessionHandle}
    {h : SessionHandle} (hj : ((slots.set i v)[j]?).join = some h) :
    (i = j ∧ v = some h) ∨ (i ≠ j ∧ (slots[j]?).join = some h) := by
  rw [List.getElem?_set] at hj
  split_ifs at hj with hij hlt
  · exact .inl ⟨hij, hj⟩
  · cases hj
  · exact .inr ⟨hij, hj⟩

section UdpInv

variable {w poolSize : Nat} {p p' : UdpPool}

theorem UdpPool.inv_new : (UdpPool.new poolSize).Inv w poolSize where
  length_eq := by simp [UdpPool.new]
  slot_drawn := by
    intro i h hh
    rw [UdpPool.current, UdpPool.new, List.getElem?_replicate] at hh
    split_ifs at hh <;> cases hh
  task_drawn := by simp [UdpPool.new]
  clearing_closed := by simp [UdpPool.new]

theorem UdpPool.Inv.step (hinv : p.Inv w poolSize) (hstep : UdpStep w p p') :
    p'.Inv w poolSize := by
  cases hstep with
  | start hslots =>
    refine ⟨hinv.length_eq, hinv.slot_drawn, ?_, ?_⟩
    · intro u hu h hh
      rcases List.mem_append.mp hu with hu | hu
      · exact hinv.task_drawn u hu h hh
      · rw [List.mem_singleton.mp hu] at hh
        cases hh
    · intro u hu h hpc
      rcases List.mem_append.mp hu with hu | hu
      · exact hinv.clearing_closed u hu h hpc
      · rw [List.mem_singleton.mp hu] at hpc
        cases hpc
  | install t attempt ht hpc hstale =>
    have hnew := drawn_drawnHandle (w := w) p.nextSessionId
    refine ⟨by simp [hinv.length_eq], ?_, ?_, ?_⟩
    · intro i h hh
      rcases current_set hh with ⟨-, hv⟩ | ⟨-, hh⟩
      · cases hv
        exact hnew
      · exact (hinv.slot_drawn i h hh).mono (Nat.le_succ _)
    · intro u hu h hh
      rcases mem_requeue hu with rfl | hu
      · cases hh
        exact hnew
      · exact (hinv.task_drawn u hu h hh).mono (Nat.le_succ _)
    · intro u hu h hpc'
      rcases mem_requeue hu with rfl | hu
      · cases hpc'
      · exact hinv.clearing_closed u hu h hpc'
  | reuse t attempt h ht hpc hcur hopen =>
    refine ⟨hinv.length_eq, hinv.slot_drawn, ?_, ?_⟩
    · intro u hu h' hh
      rcases mem_requeue hu with rfl | hu
      · cases hh
        exact hinv.slot_drawn _ _ hcur
      · exact hinv.task_drawn u hu h' hh
    · intro u hu h' hpc'
      rcases mem_requeue hu with rfl | hu
      · cases hpc'
      · exact hinv.clearing_closed u hu h' hpc'
  | giveUp t attempt ht hpc =>
    exact ⟨hinv.length_eq, hinv.slot_drawn, fun u hu => hinv.task_drawn u (List.mem_of_mem_erase hu),
      fun u hu => hinv.clearing_closed u (List.mem_of_mem_erase hu)⟩
  | returns t attempt h ht hpc hretry =>
    exact ⟨hinv.length_eq, hinv.slot_drawn, fun u hu => hinv.task_drawn u (List.mem_of_mem_erase hu),
      fun u hu => hinv.clearing_closed u (List.mem_of_mem_erase hu)⟩
  | fails t h ht hpc hclosed =>
    refine ⟨hinv.length_eq, hinv.slot_drawn, ?_, ?_⟩
    · intro u hu h' hh
      rcases mem_requeue hu with rfl | hu
      · cases hh
        exact hinv.task_drawn t ht h (by simp [UdpTask.handle?, hpc])
      · exact hinv.task_drawn u hu h' hh
    · intro u hu h' hpc'
      rcases mem_requeue hu with rfl | hu
      · cases hpc'
        exact hclosed
      · exact hinv.clearing_closed u hu h' hpc'
  | clears t h ht hpc =>
    refine ⟨by simp [hinv.length_eq], ?_, ?_, ?_⟩
    · intro i h' hh
      rcases current_set hh with ⟨rfl, hv⟩ | ⟨-, hh⟩
      · -- the slot keeps its handle or is cleared
        unfold clearSlot at hv
        split_ifs at hv
        exact hinv.slot_drawn _ _ hv
      · exact hinv.slot_drawn i h' hh
    · intro u hu h' hh
      rcases mem_requeue hu with rfl | hu
      · cases hh
      · exact hinv.task_drawn u hu h' hh
    · intro u hu h' hpc'
      rcases mem_requeue hu with rfl | hu
      · cases hpc'
      · exact hinv.clearing_closed u hu h' hpc'
  | close connection =>
    exact ⟨hinv.length_eq, hinv.slot_drawn, hinv.task_drawn,
      fun u hu h hpc => List.mem_cons_of_mem _ (hinv.clearing_closed u hu h hpc)⟩

end UdpInv

-- ---------------------------------------------------------------------------
-- The manager
-- ---------------------------------------------------------------------------

/-- What holds in every state the manager reaches. -/
structure SessionManager.Inv (w maxSessions poolSize : Nat) (m : SessionManager) : Prop where
  yamux : m.yamux.Inv w maxSessions
  udp : m.udp.Inv w poolSize

section Manager

variable {w maxSessions poolSize : Nat} {m m' : SessionManager}

theorem SessionManager.Inv.step (hinv : m.Inv w maxSessions poolSize)
    (hstep : ManagerStep w maxSessions m m') : m'.Inv w maxSessions poolSize := by
  cases hstep with
  | yamux p h => exact ⟨hinv.yamux.step h, hinv.udp⟩
  | udp p h => exact ⟨hinv.yamux, hinv.udp.step h⟩

end Manager

section Wrap

variable (w : Nat)

end Wrap

end Ppaass.Agent
