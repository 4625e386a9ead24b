import Ppaass.Lib.Probe
import Ppaass.Lib.Table
import Ppaass.Lib.Fragments
import Ppaass.Agent.DnsParser
import Ppaass.Agent.DirectAccess

/-!
# The agents' DNS transaction ids and response cache

The TUN DNS proxies of both agents (`tun_handler/dns_proxy.rs` and the Android
agent's `netstack/dns_proxy.rs`, the same here line for line) send every query
upstream under an id of their own (`allocate_dns_id`, `write_dns_id`) and keep
answers in a `DnsResponseCache`: an answer with a positive TTL is kept under
its normalised question for at most `DNS_RESPONSE_CACHE_MAX_TTL`, the cache
holds at most `DNS_RESPONSE_CACHE_MAX_ENTRIES` of them, evicting the one that
expires first, and a hit is served under the id of the query it answers.

The `HashMap`s are association lists in their iteration order, and the clock,
in milliseconds, is read once per call. `write_dns_id` panics on a packet of
fewer than two bytes, so the functions that call it return `Except Stop`.

`allocate_dns_id` hands out an id no pending query holds, and fails only when
all 65536 are held (`allocateDnsId_fresh`); the cache keeps its bound, and a
packet of a whole DNS header in every entry, so that a hit never panics
(`DnsResponseCache.Inv`); and an answer is served from the cache, under the
asking query's id, until it expires (`get_after_insert`).
-/

namespace Ppaass.Agent

open Ppaass.BigEndian

def dnsResponseCacheMaxEntries : Nat := 4096

/-- `DNS_RESPONSE_CACHE_MAX_TTL`: 300 s. -/
def dnsResponseCacheMaxTtl : Nat := 300000

/-- `dns_id`: the first two bytes, big-endian. -/
def dnsId (packet : List UInt8) : Option UInt16 :=
  (getRange packet 0 2).map fun bytes => UInt16.ofNat (ofBytes bytes)

/-- `write_dns_id`, which panics on a packet shorter than two bytes. -/
def writeDnsId (packet : List UInt8) (id : UInt16) : Except Stop (List UInt8) :=
  if packet.length < 2 then .error .panic
  else .ok (fixedBytes 2 id.toNat ++ packet.drop 2)

/-- `allocate_dns_id`: the ids from `next_id` on, all 65536 of them, until one
is not pending; the cursor moves on past every id it tries. -/
def allocateDnsId {β : Type} (pending : AList (fun _ : UInt16 => β)) (nextId : UInt16) :
    Option UInt16 × UInt16 :=
  Probe.probe (· + 1) (fun id => decide (id ∈ pending)) 65536 nextId

structure DnsCacheKey where
  query : List Char
  recordType : List Char
  deriving DecidableEq

/-- `dns_cache_key`. -/
def dnsCacheKey (ops : StrOps) (query recordType : List Char) : DnsCacheKey :=
  ⟨(trimEndMatches '.' (ops.trim query)).map Char.toLower, recordType.map Char.toUpper⟩

structure CachedDnsResponse where
  packet : List UInt8
  expiresAt : Nat

structure DnsResponseCache where
  entries : AList (fun _ : DnsCacheKey => CachedDnsResponse)

/-- `Iterator::min_by_key`: the first of the least. -/
def minByKey {α : Type} (key : α → Nat) : List α → Option α
  | [] => none
  | a :: as =>
    match minByKey key as with
    | none => some a
    | some b => if key b < key a then some b else some a

namespace DnsResponseCache

def empty : DnsResponseCache := ⟨∅⟩

def len (c : DnsResponseCache) : Nat := c.entries.entries.length

def cleanupExpired (c : DnsResponseCache) (now : Nat) : DnsResponseCache :=
  ⟨⟨c.entries.entries.filter fun kv => now < kv.2.expiresAt,
    c.entries.nodupKeys.sublist List.filter_sublist⟩⟩

def evictOne (c : DnsResponseCache) : DnsResponseCache :=
  match minByKey (fun kv : (_ : DnsCacheKey) × CachedDnsResponse => kv.2.expiresAt)
      c.entries.entries with
  | some kv => ⟨c.entries.erase kv.1⟩
  | none => c

def get (ops : StrOps) (c : DnsResponseCache) (query recordType : List Char)
    (requestId : UInt16) (now : Nat) : Except Stop (Option (List UInt8) × DnsResponseCache) :=
  let c := c.cleanupExpired now
  let key := dnsCacheKey ops query recordType
  match c.entries.lookup key with
  | none => .ok (none, c)
  | some entry =>
    if entry.expiresAt ≤ now then .ok (none, ⟨c.entries.erase key⟩)
    else do
      let packet ← writeDnsId entry.packet requestId
      pure (some packet, c)

/-- `insert`: the whole response is kept under id 0, for its least TTL but at
most `DNS_RESPONSE_CACHE_MAX_TTL`. -/
def insert (ops : StrOps) (c : DnsResponseCache) (query recordType : List Char)
    (summary : DnsResponseSummary) (response : List UInt8) (now : Nat) :
    Except Stop DnsResponseCache :=
  if summary.status ≠ "NOERROR" ∨ summary.answers.isEmpty then .ok c
  else
    match summary.minTtl with
    | none => .ok c
    | some ttlSecs =>
      if ttlSecs = 0 then .ok c
      else do
        let c := c.cleanupExpired now
        let c := if c.len ≥ dnsResponseCacheMaxEntries then c.evictOne else c
        let packet ← writeDnsId response 0
        pure ⟨c.entries.insert (dnsCacheKey ops query recordType)
          ⟨packet, now + min (ttlSecs.toNat * 1000) dnsResponseCacheMaxTtl⟩⟩

end DnsResponseCache

-- ---------------------------------------------------------------------------
-- Transaction ids
-- ---------------------------------------------------------------------------

theorem writeDnsId_eq_ok {packet : List UInt8} (h : 2 ≤ packet.length) (id : UInt16) :
    writeDnsId packet id = .ok (fixedBytes 2 id.toNat ++ packet.drop 2) := by
  rw [writeDnsId, if_neg (by omega)]

theorem writeDnsId_of_ok {packet packet' : List UInt8} {id : UInt16}
    (h : writeDnsId packet id = .ok packet') :
    2 ≤ packet.length ∧ packet' = fixedBytes 2 id.toNat ++ packet.drop 2 := by
  unfold writeDnsId at h
  split_ifs at h with hshort
  cases h
  exact ⟨by omega, rfl⟩

theorem dnsId_fixedBytes_append (id : UInt16) (rest : List UInt8) :
    dnsId (fixedBytes 2 id.toNat ++ rest) = some id := by
  have hlen : (fixedBytes 2 id.toNat).length = 2 := length_fixedBytes 2 _
  unfold dnsId getRange
  rw [if_pos (by simp [hlen]), List.drop_zero, Nat.sub_zero, List.take_left' hlen,
    Option.map_some, ofBytes_fixedBytes,
    Nat.mod_eq_of_lt (lt_of_lt_of_eq id.toNat_lt (by norm_num)), UInt16.ofNat_toNat]

theorem length_writeDnsId {packet packet' : List UInt8} {id : UInt16}
    (h : writeDnsId packet id = .ok packet') : packet'.length = packet.length := by
  obtain ⟨hlen, rfl⟩ := writeDnsId_of_ok h
  simp only [List.length_append, length_fixedBytes, List.length_drop]
  omega

/-- The id `j` places after `a`, wrapping past `u16::MAX`. -/
theorem iterate_add_one (a : UInt16) (j : Nat) :
    (fun id : UInt16 => id + 1)^[j] a = a + UInt16.ofNat j := by
  induction j with
  | zero => simp
  | succ j ih =>
    rw [Function.iterate_succ_apply', ih, add_assoc]
    congr 1
    rw [← UInt16.toNat_inj, UInt16.toNat_add, UInt16.toNat_ofNat', UInt16.toNat_ofNat',
      UInt16.toNat_one]
    omega

section Allocate

variable {β : Type} (pending : AList (fun _ : UInt16 => β))

/-- Every id is reached from any cursor within 65536 tries. -/
theorem exists_iterate_add_one (a b : UInt16) :
    ∃ j < 65536, (fun id : UInt16 => id + 1)^[j] a = b := by
  refine ⟨(b - a).toNat, (b - a).toNat_lt, ?_⟩
  rw [iterate_add_one, UInt16.ofNat_toNat]
  exact add_sub_cancel a b

/-- Distinct ids are at most 65536. -/
theorem length_le_of_nodup_ids {l : List UInt16} (hl : l.Nodup) : l.length ≤ 65536 := by
  have hnodup : (l.map UInt16.toNat).Nodup := hl.map fun _ _ h => UInt16.toNat_inj.mp h
  have := Fragments.length_le_of_nodup hnodup (k := 65536) fun i hi => by
    obtain ⟨id, _, rfl⟩ := List.mem_map.mp hi
    exact id.toNat_lt
  simpa using this

/-- When every id is pending, all 65536 of them are. -/
theorem length_keys_of_forall_mem (h : ∀ id : UInt16, id ∈ pending) :
    pending.keys.length = 65536 := by
  have hall : ((List.range 65536).map UInt16.ofNat).Nodup :=
    (List.nodup_range).map_on fun i hi j hj hij => by
      rw [List.mem_range] at hi hj
      have := congrArg UInt16.toNat hij
      rwa [UInt16.toNat_ofNat', UInt16.toNat_ofNat', Nat.mod_eq_of_lt hi,
        Nat.mod_eq_of_lt hj] at this
  have hsub : (List.range 65536).map UInt16.ofNat ⊆ pending.keys :=
    fun id _ => AList.mem_keys.mpr (h id)
  have := hall.length_le_of_subset hsub
  simp only [List.length_map, List.length_range] at this
  exact le_antisymm (length_le_of_nodup_ids pending.keys_nodup) this

/-- An id handed out is free, and the cursor moves past it. -/
theorem allocateDnsId_eq_some {nextId id : UInt16} (hid : (allocateDnsId pending nextId).1 = some id) :
    id ∉ pending ∧ (allocateDnsId pending nextId).2 = id + 1 := by
  have heq : allocateDnsId pending nextId = (some id, (allocateDnsId pending nextId).2) := by
    rw [← hid]
  obtain ⟨hfree, hnext, _⟩ := Probe.probe_eq_some heq
  exact ⟨by simpa using hfree, hnext⟩

theorem allocateDnsId_eq_none_iff (nextId : UInt16) :
    (allocateDnsId pending nextId).1 = none ↔ pending.keys.length = 65536 := by
  constructor
  · -- every id was tried, and every one is pending
    intro hnone
    apply length_keys_of_forall_mem
    intro id
    obtain ⟨j, hj, rfl⟩ := exists_iterate_add_one nextId id
    simpa using Probe.used_of_probe_eq_none hnone j hj
  · -- a free id would have been found
    intro hfull
    cases hres : (allocateDnsId pending nextId).1 with
    | none => rfl
    | some id =>
      exfalso
      have hmem : id ∉ pending.keys := fun h =>
        (allocateDnsId_eq_some pending hres).1 (AList.mem_keys.mp h)
      -- a free id and the 65536 pending ones would be 65537 distinct ids
      have := length_le_of_nodup_ids (List.nodup_cons.mpr ⟨hmem, pending.keys_nodup⟩)
      rw [List.length_cons, hfull] at this
      omega

/-- `allocate_dns_id` hands out an id no pending query holds, moving the
cursor past it, and returns `None` exactly when all 65536 ids are pending. -/
theorem allocateDnsId_fresh (nextId : UInt16) :
    (∀ id, (allocateDnsId pending nextId).1 = some id →
      id ∉ pending ∧ (allocateDnsId pending nextId).2 = id + 1) ∧
    ((allocateDnsId pending nextId).1 = none ↔ pending.keys.length = 65536) :=
  ⟨fun _ hid => allocateDnsId_eq_some pending hid, allocateDnsId_eq_none_iff pending nextId⟩

end Allocate

-- ---------------------------------------------------------------------------
-- The cache
-- ---------------------------------------------------------------------------

theorem minByKey_mem {α : Type} {key : α → Nat} : ∀ {l : List α} {a : α},
    minByKey key l = some a → a ∈ l
  | [], _, h => by cases h
  | b :: l, a, h => by
    simp only [minByKey] at h
    cases hrest : minByKey key l with
    | none =>
      rw [hrest] at h
      cases h
      exact List.mem_cons_self
    | some m =>
      rw [hrest] at h
      dsimp only at h
      split_ifs at h
      · cases h
        exact List.mem_cons_of_mem _ (minByKey_mem hrest)
      · cases h
        exact List.mem_cons_self

theorem minByKey_isSome {α : Type} (key : α → Nat) : ∀ {l : List α}, l ≠ [] →
    (minByKey key l).isSome
  | [], h => absurd rfl h
  | b :: l, _ => by
    simp only [minByKey]
    cases minByKey key l with
    | none => rfl
    | some m =>
      dsimp only
      split_ifs <;> rfl

theorem length_insert_le {α β : Type} [DecidableEq α] (s : AList (fun _ : α => β)) (k : α)
    (v : β) : (s.insert k v).entries.length ≤ s.entries.length + 1 := by
  rw [AList.entries_insert, List.length_cons]
  exact Nat.add_le_add_right (List.kerase_sublist k s.entries).length_le 1

namespace DnsResponseCache

/-- What every call keeps: at most `DNS_RESPONSE_CACHE_MAX_ENTRIES` entries,
each a packet of at least a DNS header, which `get` can give an id. -/
structure Inv (c : DnsResponseCache) : Prop where
  len_le : c.len ≤ dnsResponseCacheMaxEntries
  packets : ∀ key e, c.entries.lookup key = some e → 12 ≤ e.packet.length

variable {c : DnsResponseCache} {ops : StrOps}

theorem inv_empty : empty.Inv where
  len_le := Nat.zero_le _
  packets _ _ he := by cases he

theorem lookup_of_lookup_cleanupExpired {now : Nat} {key : DnsCacheKey} {e : CachedDnsResponse}
    (h : (c.cleanupExpired now).entries.lookup key = some e) : c.entries.lookup key = some e :=
  Table.lookup_of_subset (List.filter_subset_self _) h

/-- An entry that has not expired survives the sweep. -/
theorem lookup_cleanupExpired {now : Nat} {key : DnsCacheKey} {e : CachedDnsResponse}
    (h : c.entries.lookup key = some e) (hlive : now < e.expiresAt) :
    (c.cleanupExpired now).entries.lookup key = some e := by
  rw [← Option.mem_def, AList.mem_lookup_iff] at h ⊢
  exact List.mem_filter.mpr ⟨h, by simpa using hlive⟩

theorem lookup_of_lookup_evictOne {key : DnsCacheKey} {e : CachedDnsResponse}
    (h : c.evictOne.entries.lookup key = some e) : c.entries.lookup key = some e := by
  unfold evictOne at h
  split at h
  · exact Table.lookup_of_lookup_erase h
  · exact h

theorem len_evictOne (h : 0 < c.len) : c.evictOne.len + 1 = c.len := by
  unfold evictOne
  obtain ⟨kv, hkv⟩ := Option.isSome_iff_exists.mp
    (minByKey_isSome (fun kv : (_ : DnsCacheKey) × CachedDnsResponse => kv.2.expiresAt)
      (List.ne_nil_of_length_pos h))
  rw [hkv]
  -- the least entry is in the table, so erasing its key removes one entry
  have hmem : kv.1 ∈ c.entries := AList.mem_keys.mpr (List.mem_map_of_mem (minByKey_mem hkv))
  exact Table.length_erase_of_mem hmem

theorem Inv.cleanupExpired (h : c.Inv) (now : Nat) : (c.cleanupExpired now).Inv where
  len_le := (List.length_filter_le _ _).trans h.len_le
  packets key e he := h.packets key e (lookup_of_lookup_cleanupExpired he)

/-- `get` never panics on a cache that keeps the invariant, and keeps it. -/
theorem Inv.get (h : c.Inv) (ops : StrOps) (query recordType : List Char) (requestId : UInt16)
    (now : Nat) :
    ∃ r c', c.get ops query recordType requestId now = .ok (r, c') ∧ c'.Inv := by
  have hclean := h.cleanupExpired now
  unfold DnsResponseCache.get
  dsimp only
  cases hlook : (c.cleanupExpired now).entries.lookup (dnsCacheKey ops query recordType) with
  | none => exact ⟨_, _, rfl, hclean⟩
  | some entry =>
    dsimp only
    split_ifs
    · refine ⟨_, _, rfl, ⟨?_, ?_⟩⟩
      · exact (List.kerase_sublist _ _).length_le.trans hclean.len_le
      · exact fun key e he => hclean.packets key e (Table.lookup_of_lookup_erase he)
    · have hlen := hclean.packets _ _ hlook
      rw [writeDnsId_eq_ok (by omega)]
      exact ⟨_, _, rfl, hclean⟩

/-- An entry put in holds its packet; the others are the table's. -/
theorem packets_insert {t : AList (fun _ : DnsCacheKey => CachedDnsResponse)}
    (ht : ∀ key e, t.lookup key = some e → 12 ≤ e.packet.length) {k : DnsCacheKey}
    {e₀ : CachedDnsResponse} (h₀ : 12 ≤ e₀.packet.length) :
    ∀ key e, (t.insert k e₀).lookup key = some e → 12 ≤ e.packet.length := by
  intro key e he
  by_cases hkey : key = k
  · subst hkey
    rw [AList.lookup_insert] at he
    cases he
    exact h₀
  · rw [AList.lookup_insert_ne hkey] at he
    exact ht key e he

/-- `insert` of a response whose summary says `NOERROR` only when it holds a
whole DNS header never panics, and keeps the invariant. -/
theorem Inv.insert (h : c.Inv) (ops : StrOps) (query recordType : List Char)
    (summary : DnsResponseSummary)
    {response : List UInt8} (hsummary : summary.status = "NOERROR" → 12 ≤ response.length)
    (now : Nat) : ∃ c', c.insert ops query recordType summary response now = .ok c' ∧ c'.Inv := by
  unfold DnsResponseCache.insert
  split_ifs with hskip
  · exact ⟨c, rfl, h⟩
  have hstatus : summary.status = "NOERROR" := by
    by_contra hne
    exact hskip (Or.inl hne)
  have hlen := hsummary hstatus
  have hpacket : 12 ≤ (fixedBytes 2 (0 : UInt16).toNat ++ response.drop 2).length := by
    simp only [List.length_append, length_fixedBytes, List.length_drop]
    omega
  cases httl : summary.minTtl with
  | none => exact ⟨c, rfl, h⟩
  | some ttl =>
    dsimp only
    by_cases hzero : ttl = 0
    · rw [if_pos hzero]
      exact ⟨c, rfl, h⟩
    rw [if_neg hzero, writeDnsId_eq_ok (by omega)]
    have hclean := h.cleanupExpired now
    split_ifs with hfull
    · -- a full cache gives up one entry before the new one comes in
      have hevict := len_evictOne (c := c.cleanupExpired now)
        (by unfold dnsResponseCacheMaxEntries at hfull; omega)
      refine ⟨_, rfl, ⟨?_, packets_insert (fun key e he =>
        hclean.packets key e (lookup_of_lookup_evictOne he)) hpacket⟩⟩
      have := hclean.len_le
      have := length_insert_le (c.cleanupExpired now).evictOne.entries
        (dnsCacheKey ops query recordType)
        ⟨fixedBytes 2 (0 : UInt16).toNat ++ response.drop 2,
          now + min (ttl.toNat * 1000) dnsResponseCacheMaxTtl⟩
      unfold len at *
      dsimp only
      omega
    · refine ⟨_, rfl, ⟨?_, packets_insert hclean.packets hpacket⟩⟩
      have := length_insert_le (c.cleanupExpired now).entries (dnsCacheKey ops query recordType)
        ⟨fixedBytes 2 (0 : UInt16).toNat ++ response.drop 2,
          now + min (ttl.toNat * 1000) dnsResponseCacheMaxTtl⟩
      unfold len at *
      dsimp only
      omega

section Insert

variable {query recordType : List Char} {summary : DnsResponseSummary} {response : List UInt8}
  {now : Nat} {ttl : UInt32} {c' : DnsResponseCache}

/-- What a successful `insert` of a cacheable answer puts under its key. -/
theorem lookup_of_insert (hins : c.insert ops query recordType summary response now = .ok c')
    (hstatus : summary.status = "NOERROR") (hanswers : summary.answers ≠ [])
    (httl : summary.minTtl = some ttl) (hpos : ttl ≠ 0) :
    c'.entries.lookup (dnsCacheKey ops query recordType) =
      some ⟨fixedBytes 2 (0 : UInt16).toNat ++ response.drop 2,
        now + min (ttl.toNat * 1000) dnsResponseCacheMaxTtl⟩ := by
  have hkeep : ¬(summary.status ≠ "NOERROR" ∨ summary.answers.isEmpty) := by
    simp [hstatus, hanswers]
  unfold DnsResponseCache.insert at hins
  simp only [if_neg hkeep, httl, if_neg hpos] at hins
  cases hw : writeDnsId response 0 with
  | error e =>
    rw [hw] at hins
    cases hins
  | ok packet =>
    rw [hw] at hins
    cases hins
    rw [(writeDnsId_of_ok hw).2, AList.lookup_insert]

/-- An answer put in the cache is served, under the asking query's id, to
every query of the same normalised question until it expires. -/
theorem get_after_insert (hins : c.insert ops query recordType summary response now = .ok c')
    (hstatus : summary.status = "NOERROR") (hanswers : summary.answers ≠ [])
    (httl : summary.minTtl = some ttl) (hpos : ttl ≠ 0) (query' recordType' : List Char)
    (hkey : dnsCacheKey ops query' recordType' = dnsCacheKey ops query recordType)
    (requestId : UInt16) (later : Nat)
    (hlater : later < now + min (ttl.toNat * 1000) dnsResponseCacheMaxTtl) :
    ∃ c'', c'.get ops query' recordType' requestId later =
      .ok (some (fixedBytes 2 requestId.toNat ++ response.drop 2), c'') := by
  have hlook := lookup_of_insert hins hstatus hanswers httl hpos
  have hcached : (fixedBytes 2 (0 : UInt16).toNat ++ response.drop 2).drop 2 = response.drop 2 :=
    List.drop_left' (length_fixedBytes 2 _)
  unfold DnsResponseCache.get
  dsimp only
  rw [hkey, lookup_cleanupExpired hlook hlater]
  dsimp only
  rw [if_neg (by omega), writeDnsId_eq_ok (by simp [length_fixedBytes]), hcached]
  exact ⟨_, rfl⟩

/-- String operations that trim nothing. -/
def plainStrOps : StrOps := ⟨id, id, fun _ => none, fun _ => none⟩

/-- An answer of `example.com` with id `0x1234` and a TTL of 60 s, cached at
time 0, served 5 s later to a query of `EXAMPLE.com.` with id `0x5678`. -/
theorem get_after_insert_example :
    ∃ c', (empty.insert plainStrOps "example.com".toList "A".toList
        ⟨"NOERROR", ["93.184.216.34"], some 60⟩ [0x12, 0x34, 0x81, 0x80, 0, 1, 0, 1, 0, 0, 0, 0]
        0 = .ok c') ∧
      ∃ c'', c'.get plainStrOps "EXAMPLE.com.".toList "a".toList 0x5678 5000 =
        .ok (some (fixedBytes 2 (0x5678 : UInt16).toNat ++ [0x81, 0x80, 0, 1, 0, 1, 0, 0, 0, 0]),
          c'') := by
  obtain ⟨c', hins⟩ : ∃ c', empty.insert plainStrOps "example.com".toList "A".toList
      ⟨"NOERROR", ["93.184.216.34"], some 60⟩ [0x12, 0x34, 0x81, 0x80, 0, 1, 0, 1, 0, 0, 0, 0]
      0 = .ok c' := ⟨_, rfl⟩
  exact ⟨c', hins, get_after_insert hins rfl (by decide) rfl (by decide) _ _ (by decide) 0x5678
    5000 (by decide)⟩

end Insert

end DnsResponseCache

end Ppaass.Agent
