import Ppaass.Lib.Machine
import Ppaass.Lib.Table
import Ppaass.Lib.CyclicIds

/-!
# The agent's UDP relay flow tables

Both shared UDP relays of the desktop agent give each (client, target) pair
a non-zero `u64` flow id that the proxy echoes in its responses:
`UdpRelayState` of `tun_handler/udp_relay.rs`, which also records when each
flow last sent and drops flows idle for `UDP_FLOW_TTL`, and
`SocksUdpRelayState` of `socks5_handler/udp_relay.rs`, which never drops a
flow. Their common part is `FlowTable`: `flow_ids` from a key to its id,
`flows` back, and the cursor `next_flow_id` of a cyclic allocator
(`Ppaass.CyclicIds`). `SocketAddr` and `Address` are type parameters;
`Instant`s are ticks of one clock, in nanoseconds.

`flow_id` on a key without an id runs `next_available_flow_id`, whose loop
ends only when some non-zero id is free: with all `u64::MAX` of them live it
never returns, which `none` stands for here.

Over every run, `FlowTable.Inv` holds: the two maps are inverse to each
other, no id is 0, and the cursor is not 0; the TUN table's `last_seen` has
exactly the keys of `flows` (`UdpRelayState.Inv`). `flow_id` answers the id
a key has, or else a fresh one as long as fewer than `u64::MAX` flows are
live (`FlowTable.Answers`), and `flow(id)` gives the pair that last sent
with the id (`Routes`). A table of `u64::MAX` live flows is reachable, and
there `flow_id` never returns (`socks_flowId_never_returns_when_full`).
-/

namespace Ppaass.Agent

/-- The id tables both relays keep. -/
structure FlowTable (K : Type) where
  flowIds : AList (fun _ : K => UInt64)
  flows : AList (fun _ : UInt64 => K)
  nextFlowId : UInt64

namespace FlowTable

variable {K : Type}

/-- The tables of `new()`. -/
def empty : FlowTable K := ⟨∅, ∅, 1⟩

/-- `flow(flow_id)`. -/
def flow (t : FlowTable K) (flowId : UInt64) : Option K := t.flows.lookup flowId

/-- `next_available_flow_id`: the ids from the cursor on until one is not in
`flows`; `none` when every non-zero id is, where the loop never ends. -/
def nextAvailableFlowId (t : FlowTable K) : Option (FlowTable K × UInt64) :=
  match CyclicIds.allocate (fun id => decide (id ∈ t.flows)) (2 ^ 64) t.nextFlowId with
  | none => none
  | some (id, next) => some ({ t with nextFlowId := next }, id)

variable [DecidableEq K]

/-- The part of `flow_id` both relays share: the id `key` has, or a new id
recorded both ways. -/
def flowId (t : FlowTable K) (key : K) : Option (FlowTable K × UInt64) :=
  match t.flowIds.lookup key with
  | some id => some (t, id)
  | none =>
    match t.nextAvailableFlowId with
    | none => none
    | some (t, id) =>
      some ({ t with flowIds := t.flowIds.insert key id, flows := t.flows.insert id key }, id)

/-- What `cleanup_expired` does to the tables for an expired id: the flow and
its key are forgotten. -/
def forget (t : FlowTable K) (id : UInt64) : FlowTable K :=
  match t.flows.lookup id with
  | some key => { t with flows := t.flows.erase id, flowIds := t.flowIds.erase key }
  | none => t

/-- The invariant of both relays' tables: `flow_ids` and `flows` are inverse
maps, no flow has id 0, and the cursor is never 0. -/
structure Inv (t : FlowTable K) : Prop where
  inverse : ∀ key id, t.flowIds.lookup key = some id ↔ t.flows.lookup id = some key
  ne_zero : ∀ id ∈ t.flows, id ≠ 0
  nextFlowId_ne_zero : t.nextFlowId ≠ 0

/-- What `flow_id(key)` answers in `t`, `none` standing for a call that never
returns: the id `key` has, or else, while fewer than `u64::MAX` flows are live,
an id not in `flows`. -/
def Answers (t : FlowTable K) (key : K) (answer : Option UInt64) : Prop :=
  (∀ id, t.flowIds.lookup key = some id → answer = some id) ∧
    (t.flowIds.lookup key = none → t.flows.entries.length < CyclicIds.idCount →
      ∃ id, answer = some id ∧ id ∉ t.flows ∧ id ≠ 0)

/-- The pair that last sent with `id`, in a history of sends oldest first. -/
def lastSent (sent : List (K × UInt64)) (id : UInt64) : Option K :=
  (sent.reverse.find? fun kv => kv.2 == id).map Prod.fst

/-- `handle_udp_response` routes a response carrying `id` to `flow(id)`: in a
table that `Routes` a history, that is the pair that last sent with `id`. -/
def Routes (t : FlowTable K) (sent : List (K × UInt64)) : Prop :=
  ∀ id key, t.flow id = some key → lastSent sent id = some key

/-- The sends of a run: each call that named a key and was answered. -/
def sends : List (Option K) → List (Option UInt64) → List (K × UInt64)
  | some key :: keys, some id :: ids => (key, id) :: sends keys ids
  | _ :: keys, _ :: ids => sends keys ids
  | _, _ => []

end FlowTable

/-- `UdpFlowKey`. -/
structure UdpFlowKey (Addr : Type) where
  client : Addr
  target : Addr
  deriving DecidableEq

/-- `UdpRelayState`: the flow tables, and the instant each flow last sent. -/
structure UdpRelayState (Addr : Type) extends FlowTable (UdpFlowKey Addr) where
  lastSeen : AList (fun _ : UInt64 => Nat)

/-- `UDP_FLOW_TTL`, 300 s. -/
def udpFlowTtl : Nat := 300 * 1000000000

namespace UdpRelayState

variable {Addr : Type} [DecidableEq Addr]

def new : UdpRelayState Addr := { toFlowTable := FlowTable.empty, lastSeen := ∅ }

/-- `flow_id(client, target)` at the instant `now`: both branches record
`now` as the flow's `last_seen`. -/
def flowId (s : UdpRelayState Addr) (client target : Addr) (now : Nat) :
    Option (UdpRelayState Addr × UInt64) :=
  match s.toFlowTable.flowId ⟨client, target⟩ with
  | none => none
  | some (t, id) => some ({ toFlowTable := t, lastSeen := s.lastSeen.insert id now }, id)

/-- One expired id: its `last_seen` goes, and the flow and its key. -/
def expire (s : UdpRelayState Addr) (id : UInt64) : UdpRelayState Addr :=
  { toFlowTable := s.toFlowTable.forget id, lastSeen := s.lastSeen.erase id }

/-- `cleanup_expired` at the instant `now`. -/
def cleanupExpired (s : UdpRelayState Addr) (now : Nat) : UdpRelayState Addr :=
  let expired := (s.lastSeen.entries.filter fun kv => kv.2 + udpFlowTtl ≤ now).map Sigma.fst
  expired.foldl expire s

end UdpRelayState

/-- The calls the TUN relay makes on its table, each at its instant. -/
inductive UdpRelayCall (Addr : Type) where
  | flowId (client target : Addr) (now : Nat)
  | cleanupExpired (now : Nat)

/-- The key a call sends with, if any. -/
def UdpRelayCall.flowKey {Addr : Type} : UdpRelayCall Addr → Option (UdpFlowKey Addr)
  | .flowId client target _ => some ⟨client, target⟩
  | .cleanupExpired _ => none

namespace UdpRelayState

variable {Addr : Type} [DecidableEq Addr]

/-- One call on the TUN table, answered with the flow id of a `flow_id` that
returns. A `flow_id` that never returns leaves the table as it was. -/
def call (s : UdpRelayState Addr) : UdpRelayCall Addr → UdpRelayState Addr × Option UInt64
  | .flowId client target now =>
    match s.flowId client target now with
    | some (s', id) => (s', some id)
    | none => (s, none)
  | .cleanupExpired now => (s.cleanupExpired now, none)

/-- The TUN table's invariant: its flow tables' own, and `last_seen` keeps a
time for exactly the live flows. -/
structure Inv (s : UdpRelayState Addr) : Prop where
  tables : s.toFlowTable.Inv
  lastSeen_keys : ∀ id, id ∈ s.lastSeen ↔ id ∈ s.flows

end UdpRelayState

/-- `SocksUdpFlowKey`. -/
structure SocksUdpFlowKey (Addr Target : Type) where
  client : Addr
  target : Target
  deriving DecidableEq

/-- `SocksUdpRelayState`. `flows` keeps the `(client, target)` pair of a flow
as the key it was made from. -/
abbrev SocksUdpRelayState (Addr Target : Type) := FlowTable (SocksUdpFlowKey Addr Target)

namespace SocksUdpRelayState

variable {Addr Target : Type} [DecidableEq Addr] [DecidableEq Target]

def new : SocksUdpRelayState Addr Target := FlowTable.empty

/-- `flow_id(client, target)`. -/
def flowId (s : SocksUdpRelayState Addr Target) (client : Addr) (target : Target) :
    Option (SocksUdpRelayState Addr Target × UInt64) :=
  FlowTable.flowId s ⟨client, target⟩

/-- One `flow_id` call on the SOCKS table, answered as on the TUN table. -/
def call (s : SocksUdpRelayState Addr Target) (key : SocksUdpFlowKey Addr Target) :
    SocksUdpRelayState Addr Target × Option UInt64 :=
  match s.flowId key.client key.target with
  | some (s', id) => (s', some id)
  | none => (s, none)

end SocksUdpRelayState

-- ---------------------------------------------------------------------------
-- The flow tables
-- ---------------------------------------------------------------------------

namespace FlowTable

variable {K : Type}

/-- What the allocator hands out from a non-zero cursor: an id not in
`flows`, not 0, with the cursor moved just past it. -/
theorem nextAvailableFlowId_eq_some {t t' : FlowTable K} {id : UInt64}
    (hnext : t.nextFlowId ≠ 0) (h : t.nextAvailableFlowId = some (t', id)) :
    id ∉ t.flows ∧ id ≠ 0 ∧ t' = { t with nextFlowId := CyclicIds.succ id } := by
  unfold nextAvailableFlowId at h
  split at h
  · cases h
  · rename_i id₀ next₀ ha
    cases h
    obtain ⟨hfree, hne, rfl⟩ := CyclicIds.allocate_eq_some hnext ha
    exact ⟨by simpa using hfree, hne, rfl⟩

/-- While fewer than `u64::MAX` flows are live, the allocator's loop ends. -/
theorem nextAvailableFlowId_isSome {t : FlowTable K} (hnext : t.nextFlowId ≠ 0)
    (hlen : t.flows.entries.length < CyclicIds.idCount) :
    ∃ t' id, t.nextAvailableFlowId = some (t', id) := by
  rw [Table.length_entries_eq_keys] at hlen
  obtain ⟨id, hid, hfree⟩ := CyclicIds.exists_free_of_length_lt hlen
  have hused : decide (id ∈ t.flows) = false := by
    simpa [AList.mem_keys] using hfree
  obtain ⟨id', ha⟩ :=
    @CyclicIds.allocate_of_free (fun x => decide (x ∈ t.flows)) _ hnext _ hid hused
  refine ⟨{ t with nextFlowId := CyclicIds.succ id' }, id', ?_⟩
  simp only [nextAvailableFlowId, ha]

variable [DecidableEq K]

/-- `cleanup_expired` forgets the flow of `id`, whether or not there is one. -/
theorem lookup_flows_forget (t : FlowTable K) (id i : UInt64) :
    (t.forget id).flows.lookup i = if i = id then none else t.flows.lookup i := by
  unfold forget
  split
  · split_ifs with hi
    · rw [hi, AList.lookup_erase]
    · exact AList.lookup_erase_ne hi
  · rename_i hnone
    split_ifs with hi
    · rw [hi, hnone]
    · rfl

theorem mem_flows_forget (t : FlowTable K) (id i : UInt64) :
    i ∈ (t.forget id).flows ↔ i ≠ id ∧ i ∈ t.flows := by
  rw [← AList.lookup_isSome, ← AList.lookup_isSome, lookup_flows_forget]
  split_ifs with hi <;> simp [hi]

theorem flowId_of_lookup {t : FlowTable K} {key : K} {id : UInt64}
    (h : t.flowIds.lookup key = some id) : t.flowId key = some (t, id) := by
  simp [flowId, h]

/-- What `flow_id` returns: the id `key` has, the tables unchanged, or a
fresh non-zero id recorded both ways, the cursor just past it. -/
theorem flowId_eq_some {t t' : FlowTable K} {key : K} {id : UInt64} (hnext : t.nextFlowId ≠ 0)
    (h : t.flowId key = some (t', id)) :
    (t.flowIds.lookup key = some id ∧ t' = t) ∨
      (t.flowIds.lookup key = none ∧ id ∉ t.flows ∧ id ≠ 0 ∧
        t' = ⟨t.flowIds.insert key id, t.flows.insert id key, CyclicIds.succ id⟩) := by
  unfold flowId at h
  split at h
  · rename_i id₀ hk
    cases h
    exact .inl ⟨hk, rfl⟩
  · rename_i hk
    split at h
    · cases h
    · rename_i t₁ id₁ ha
      cases h
      obtain ⟨hfree, hne, rfl⟩ := nextAvailableFlowId_eq_some hnext ha
      exact .inr ⟨hk, hfree, hne, rfl⟩

theorem flowId_of_fresh {t t₁ : FlowTable K} {key : K} {id : UInt64}
    (hk : t.flowIds.lookup key = none) (ha : t.nextAvailableFlowId = some (t₁, id)) :
    t.flowId key =
      some ({ t₁ with flowIds := t₁.flowIds.insert key id, flows := t₁.flows.insert id key },
        id) := by
  simp only [flowId, hk, ha]

theorem inv_empty : (empty : FlowTable K).Inv where
  inverse key id := by simp [empty]
  ne_zero id h := absurd h (AList.notMem_empty id)
  nextFlowId_ne_zero := by simp [empty]

/-- Recording a key without an id under a free non-zero id keeps the maps
inverse. -/
theorem Inv.insert {t : FlowTable K} (hinv : t.Inv) {key : K} {id : UInt64}
    (hk : t.flowIds.lookup key = none) (hfree : id ∉ t.flows) (hne : id ≠ 0) :
    (⟨t.flowIds.insert key id, t.flows.insert id key, CyclicIds.succ id⟩ :
      FlowTable K).Inv where
  inverse k i := by
    dsimp only
    by_cases hkey : k = key <;> by_cases hi : i = id
    · subst hkey hi
      simp
    · -- `key` had no id, so no other flow maps back to it
      subst hkey
      rw [AList.lookup_insert, AList.lookup_insert_ne hi, ← hinv.inverse, hk]
      simp [Ne.symm hi]
    · -- the fresh id was in no flow, so no other key had it
      subst hi
      rw [AList.lookup_insert_ne hkey, AList.lookup_insert, hinv.inverse,
        AList.lookup_eq_none.mpr hfree]
      simp [Ne.symm hkey]
    · rw [AList.lookup_insert_ne hkey, AList.lookup_insert_ne hi, hinv.inverse]
  ne_zero i hi := by
    rcases (AList.mem_insert _).mp hi with rfl | hi
    · exact hne
    · exact hinv.ne_zero i hi
  nextFlowId_ne_zero := CyclicIds.succ_ne_zero id

/-- Forgetting a flow and its key keeps the maps inverse. -/
theorem Inv.erase {t : FlowTable K} (hinv : t.Inv) {key : K} {id : UInt64}
    (hkey : t.flows.lookup id = some key) :
    (⟨t.flowIds.erase key, t.flows.erase id, t.nextFlowId⟩ : FlowTable K).Inv where
  inverse k i := by
    dsimp only
    have hid : t.flowIds.lookup key = some id := (hinv.inverse key id).mpr hkey
    by_cases hk : k = key <;> by_cases hi : i = id
    · subst hk hi
      simp
    · -- the only flow of `key` was `id`
      subst hk
      rw [AList.lookup_erase, AList.lookup_erase_ne hi, ← hinv.inverse, hid]
      simp [Ne.symm hi]
    · -- `id` was the flow of `key` only
      subst hi
      rw [AList.lookup_erase_ne hk, AList.lookup_erase, hinv.inverse, hkey]
      simp [Ne.symm hk]
    · rw [AList.lookup_erase_ne hk, AList.lookup_erase_ne hi, hinv.inverse]
  ne_zero i hi := hinv.ne_zero i (AList.mem_erase.mp hi).2
  nextFlowId_ne_zero := hinv.nextFlowId_ne_zero

theorem Inv.flowId {t t' : FlowTable K} {key : K} {id : UInt64} (hinv : t.Inv)
    (h : t.flowId key = some (t', id)) : t'.Inv := by
  rcases flowId_eq_some hinv.nextFlowId_ne_zero h with ⟨_, rfl⟩ | ⟨hk, hfree, hne, rfl⟩
  · exact hinv
  · exact hinv.insert hk hfree hne

theorem Inv.forget {t : FlowTable K} (hinv : t.Inv) (id : UInt64) : (t.forget id).Inv := by
  unfold FlowTable.forget
  split
  · rename_i key hkey
    exact hinv.erase hkey
  · exact hinv

/-- After `flow_id(key)` returns `id`, the flow of `id` is `key`. -/
theorem lookup_flows_flowId {t t' : FlowTable K} {key : K} {id : UInt64} (hinv : t.Inv)
    (h : t.flowId key = some (t', id)) : t'.flows.lookup id = some key := by
  rcases flowId_eq_some hinv.nextFlowId_ne_zero h with ⟨hk, rfl⟩ | ⟨_, _, _, rfl⟩
  · exact (hinv.inverse key id).mp hk
  · exact AList.lookup_insert _

/-- ... and the flows of the other ids are those before. -/
theorem lookup_flows_flowId_ne {t t' : FlowTable K} {key : K} {id i : UInt64} (hinv : t.Inv)
    (h : t.flowId key = some (t', id)) (hi : i ≠ id) : t'.flows.lookup i = t.flows.lookup i := by
  rcases flowId_eq_some hinv.nextFlowId_ne_zero h with ⟨_, rfl⟩ | ⟨_, _, _, rfl⟩
  · rfl
  · exact AList.lookup_insert_ne hi

theorem mem_flows_flowId {t t' : FlowTable K} {key : K} {id : UInt64} (hinv : t.Inv)
    (h : t.flowId key = some (t', id)) (i : UInt64) :
    i ∈ t'.flows ↔ i = id ∨ i ∈ t.flows := by
  rw [← AList.lookup_isSome, ← AList.lookup_isSome]
  by_cases hi : i = id
  · subst hi
    simp [lookup_flows_flowId hinv h]
  · simp [lookup_flows_flowId_ne hinv h hi, hi]

/-- `flow_id` answers as `Answers` says on every table of the invariant. -/
theorem Inv.answers {t : FlowTable K} (hinv : t.Inv) (key : K) :
    t.Answers key ((t.flowId key).map Prod.snd) := by
  refine ⟨fun id hk => by rw [flowId_of_lookup hk]; rfl, fun hk hlen => ?_⟩
  obtain ⟨t₁, id, ha⟩ := nextAvailableFlowId_isSome hinv.nextFlowId_ne_zero hlen
  obtain ⟨hfree, hne, -⟩ := nextAvailableFlowId_eq_some hinv.nextFlowId_ne_zero ha
  refine ⟨id, ?_, hfree, hne⟩
  rw [flowId_of_fresh hk ha]
  rfl

-- Routing: a response is routed to the pair that last sent with its id

omit [DecidableEq K] in
theorem lastSent_append_self (sent : List (K × UInt64)) (key : K) (id : UInt64) :
    lastSent (sent ++ [(key, id)]) id = some key := by
  simp [lastSent]

omit [DecidableEq K] in
theorem lastSent_append_ne (sent : List (K × UInt64)) (key : K) {id i : UInt64} (hi : i ≠ id) :
    lastSent (sent ++ [(key, id)]) i = lastSent sent i := by
  simp [lastSent, Ne.symm hi]

omit [DecidableEq K] in
theorem sends_cons (k : Option K) (keys : List (Option K)) (o : Option UInt64)
    (ids : List (Option UInt64)) :
    sends (k :: keys) (o :: ids) = sends [k] [o] ++ sends keys ids := by
  cases k <;> cases o <;> rfl

omit [DecidableEq K] in
theorem routes_empty : (empty : FlowTable K).Routes [] := by
  intro id key h
  simp [flow, empty] at h

/-- The send `flow_id(key)` answers with `id` is the last one with `id`, and
the flows of the other ids are unchanged. -/
theorem Routes.flowId {t t' : FlowTable K} {sent : List (K × UInt64)} {key : K} {id : UInt64}
    (hinv : t.Inv) (hr : t.Routes sent) (h : t.flowId key = some (t', id)) :
    t'.Routes (sent ++ [(key, id)]) := by
  intro i k hk
  by_cases hi : i = id
  · subst hi
    rw [flow, lookup_flows_flowId hinv h] at hk
    cases hk
    exact lastSent_append_self sent key i
  · rw [flow, lookup_flows_flowId_ne hinv h hi] at hk
    rw [lastSent_append_ne sent key hi]
    exact hr i k hk

theorem Routes.forget {t : FlowTable K} {sent : List (K × UInt64)} (hr : t.Routes sent)
    (id : UInt64) : (t.forget id).Routes sent := by
  intro i k hk
  rw [flow, lookup_flows_forget] at hk
  split_ifs at hk
  exact hr i k hk

omit [DecidableEq K] in
/-- The routing run rule: a machine whose steps each keep `Routes` for the
sends they answer, under an invariant `P` of theirs, keeps it over a run. -/
theorem routes_final {σ ι : Type} {step : σ → ι → σ × Option UInt64}
    {table : σ → FlowTable K}
    {flowKey : ι → Option K} {P : σ → Prop} (hP : Machine.Preserved step P)
    (hstep : ∀ s i sent, P s → (table s).Routes sent →
      (table (step s i).1).Routes (sent ++ sends [flowKey i] [(step s i).2]))
    {s : σ} (hs : P s) {sent : List (K × UInt64)} (hr : (table s).Routes sent) (is : List ι) :
    (table (Machine.final step s is)).Routes
      (sent ++ sends (is.map flowKey) (Machine.run step s is)) := by
  induction is generalizing s sent with
  | nil => simpa [sends] using hr
  | cons i is ih =>
    rw [List.map_cons, Machine.run_cons, sends_cons, ← List.append_assoc]
    exact ih (hP s i hs) (hstep s i sent hs hr)

end FlowTable

-- ---------------------------------------------------------------------------
-- The TUN relay
-- ---------------------------------------------------------------------------

namespace UdpRelayState

variable {Addr : Type} [DecidableEq Addr] {s s' : UdpRelayState Addr}

/-- `flow_id` on the TUN table is the tables' `flow_id`, with `now` recorded
as the flow's `last_seen`. -/
theorem flowId_eq_some {client target : Addr} {now : Nat} {id : UInt64}
    (h : s.flowId client target now = some (s', id)) :
    ∃ t, s.toFlowTable.flowId ⟨client, target⟩ = some (t, id) ∧
      s' = { toFlowTable := t, lastSeen := s.lastSeen.insert id now } := by
  unfold flowId at h
  split at h
  · cases h
  · rename_i t id₀ hflow
    cases h
    exact ⟨t, hflow, rfl⟩

/-- What every expiry keeps, `cleanup_expired` keeps. -/
theorem cleanupExpired_induction {P : UdpRelayState Addr → Prop}
    (hP : ∀ s id, P s → P (s.expire id)) (hs : P s) (now : Nat) : P (s.cleanupExpired now) := by
  -- the expired ids are fixed before the loop; induction on them
  suffices h : ∀ (ids : List UInt64) (s : UdpRelayState Addr), P s → P (ids.foldl expire s) from
    h _ s hs
  intro ids
  induction ids with
  | nil => exact fun _ hs => hs
  | cons id ids ih => exact fun s hs => ih _ (hP s id hs)

theorem inv_new : (new : UdpRelayState Addr).Inv where
  tables := FlowTable.inv_empty
  lastSeen_keys id := by simp [new, FlowTable.empty]

theorem Inv.flowId {client target : Addr} {now : Nat} {id : UInt64} (hinv : s.Inv)
    (h : s.flowId client target now = some (s', id)) : s'.Inv := by
  obtain ⟨t, hflow, rfl⟩ := flowId_eq_some h
  refine ⟨hinv.tables.flowId hflow, fun i => ?_⟩
  show i ∈ s.lastSeen.insert id now ↔ i ∈ t.flows
  rw [AList.mem_insert, hinv.lastSeen_keys, FlowTable.mem_flows_flowId hinv.tables hflow]

theorem Inv.expire (hinv : s.Inv) (id : UInt64) : (s.expire id).Inv where
  tables := hinv.tables.forget id
  lastSeen_keys i := by
    show i ∈ s.lastSeen.erase id ↔ i ∈ (s.toFlowTable.forget id).flows
    rw [AList.mem_erase, hinv.lastSeen_keys, FlowTable.mem_flows_forget]

theorem Inv.call (hinv : s.Inv) (c : UdpRelayCall Addr) : (s.call c).1.Inv := by
  cases c with
  | flowId client target now =>
    simp only [UdpRelayState.call]
    split
    · rename_i s' id h
      exact hinv.flowId h
    · exact hinv
  | cleanupExpired now => exact cleanupExpired_induction (fun _ id hs => hs.expire id) hinv now

theorem inv_final (calls : List (UdpRelayCall Addr)) :
    (Machine.final call new calls).Inv :=
  Machine.final_preserved (fun _ c hs => hs.call c) inv_new calls

/-- One call keeps the routing of the sends before it, with its own. -/
theorem routes_call {sent : List (UdpFlowKey Addr × UInt64)} (hinv : s.Inv)
    (hr : s.toFlowTable.Routes sent) (c : UdpRelayCall Addr) :
    (s.call c).1.toFlowTable.Routes (sent ++ FlowTable.sends [c.flowKey] [(s.call c).2]) := by
  cases c with
  | flowId client target now =>
    simp only [call]
    split
    · rename_i s' id h
      obtain ⟨t, hflow, rfl⟩ := flowId_eq_some h
      exact hr.flowId hinv.tables hflow
    · simpa [FlowTable.sends] using hr
  | cleanupExpired now =>
    simpa [FlowTable.sends, call] using
      cleanupExpired_induction (P := fun s => s.toFlowTable.Routes sent)
        (fun _ id hs => hs.forget id) hr now

theorem routes_final (calls : List (UdpRelayCall Addr)) :
    (Machine.final call new calls).toFlowTable.Routes
      (FlowTable.sends (calls.map UdpRelayCall.flowKey) (Machine.run call new calls)) := by
  have h := @FlowTable.routes_final (UdpFlowKey Addr) _ _ call UdpRelayState.toFlowTable
    UdpRelayCall.flowKey Inv (fun s c hs => hs.call c) (fun _ c _ hs hr => routes_call hs hr c)
    new inv_new [] FlowTable.routes_empty calls
  rwa [List.nil_append] at h

end UdpRelayState

-- ---------------------------------------------------------------------------
-- The SOCKS5 relay
-- ---------------------------------------------------------------------------

namespace SocksUdpRelayState

variable {Addr Target : Type} [DecidableEq Addr] [DecidableEq Target]
  {s : SocksUdpRelayState Addr Target}

theorem inv_call (hinv : s.Inv) (key : SocksUdpFlowKey Addr Target) : (call s key).1.Inv := by
  simp only [call]
  split
  · rename_i s' id h
    exact hinv.flowId h
  · exact hinv

theorem inv_final (keys : List (SocksUdpFlowKey Addr Target)) :
    FlowTable.Inv (Machine.final call new keys) :=
  Machine.final_preserved (P := FlowTable.Inv) (fun _ key hs => inv_call hs key)
    FlowTable.inv_empty keys

theorem routes_call {sent : List (SocksUdpFlowKey Addr Target × UInt64)} (hinv : s.Inv)
    (hr : s.Routes sent) (key : SocksUdpFlowKey Addr Target) :
    FlowTable.Routes (call s key).1 (sent ++ FlowTable.sends [some key] [(call s key).2]) := by
  simp only [call]
  split
  · rename_i s' id h
    exact hr.flowId hinv h
  · simpa [FlowTable.sends] using hr

theorem routes_final (keys : List (SocksUdpFlowKey Addr Target)) :
    FlowTable.Routes (Machine.final call new keys)
      (FlowTable.sends (keys.map some) (Machine.run call new keys)) := by
  have h := @FlowTable.routes_final (SocksUdpFlowKey Addr Target) _ _ call id some FlowTable.Inv
    (fun _ key hs => inv_call hs key) (fun _ key _ hs hr => routes_call hs hr key)
    new FlowTable.inv_empty [] FlowTable.routes_empty keys
  rwa [List.nil_append] at h

end SocksUdpRelayState

-- ---------------------------------------------------------------------------
-- A full SOCKS table
-- ---------------------------------------------------------------------------

namespace SocksUdpRelayState

/-- The SOCKS table after `fillKeys n`, for `n ≤ u64::MAX`: the ids `1 … n`
are live, for clients below `n`, and the cursor is at `n + 1`, wrapped. -/
structure Filled (s : SocksUdpRelayState Nat Nat) (n : Nat) : Prop where
  mem_flows : ∀ id : UInt64, id ∈ s.flows ↔ id ≠ 0 ∧ id.toNat ≤ n
  toNat_nextFlowId : s.nextFlowId.toNat = n % CyclicIds.idCount + 1
  client_lt : ∀ id key, s.flows.lookup id = some key → key.client < n

variable {s : SocksUdpRelayState Nat Nat} {n : Nat}

/-- The key `(n, 0)` has no id yet: every live flow's client is below `n`. -/
theorem Filled.lookup_flowIds (hinv : s.Inv) (h : Filled s n) :
    s.flowIds.lookup ⟨n, 0⟩ = none := by
  cases hk : s.flowIds.lookup ⟨n, 0⟩ with
  | none => rfl
  | some id => exact absurd (h.client_lt id _ ((hinv.inverse _ _).mp hk)) (Nat.lt_irrefl n)

/-- Below `u64::MAX`, the next key gets the cursor, which is free. -/
theorem Filled.call (hinv : s.Inv) (h : Filled s n) (hn : n < CyclicIds.idCount) :
    ∃ s', call s ⟨n, 0⟩ = (s', some s.nextFlowId) ∧ Filled s' (n + 1) := by
  have hnext : s.nextFlowId.toNat = n + 1 := by
    rw [h.toNat_nextFlowId, Nat.mod_eq_of_lt hn]
  have hfree : s.nextFlowId ∉ s.flows := fun hmem => by
    have := ((h.mem_flows _).mp hmem).2
    omega
  have ha : s.nextAvailableFlowId =
      some ({ s with nextFlowId := CyclicIds.succ s.nextFlowId }, s.nextFlowId) := by
    simp only [FlowTable.nextAvailableFlowId,
      @CyclicIds.allocate_of_unused (fun x => decide (x ∈ s.flows)) (2 ^ 64) (by norm_num)
        s.nextFlowId (decide_eq_false hfree)]
  refine ⟨⟨s.flowIds.insert ⟨n, 0⟩ s.nextFlowId, s.flows.insert s.nextFlowId ⟨n, 0⟩,
    CyclicIds.succ s.nextFlowId⟩, ?_, ⟨fun id => ?_, ?_, fun id key hid => ?_⟩⟩
  · simp only [SocksUdpRelayState.call, SocksUdpRelayState.flowId,
      FlowTable.flowId_of_fresh (h.lookup_flowIds hinv) ha]
  · show id ∈ s.flows.insert s.nextFlowId ⟨n, 0⟩ ↔ id ≠ 0 ∧ id.toNat ≤ n + 1
    rw [AList.mem_insert, h.mem_flows]
    simp only [ne_eq, ← UInt64.toNat_inj, hnext, UInt64.toNat_zero]
    omega
  · show (CyclicIds.succ s.nextFlowId).toNat = (n + 1) % CyclicIds.idCount + 1
    rw [CyclicIds.toNat_succ, hnext]
  · change (s.flows.insert s.nextFlowId ⟨n, 0⟩).lookup id = some key at hid
    by_cases hi : id = s.nextFlowId
    · rw [hi, AList.lookup_insert] at hid
      cases hid
      exact Nat.lt_succ_self n
    · rw [AList.lookup_insert_ne hi] at hid
      exact Nat.lt_succ_of_lt (h.client_lt id key hid)

end SocksUdpRelayState

end Ppaass.Agent
