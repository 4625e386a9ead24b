import Mathlib.Data.List.Sort
import Ppaass.Lib.Machine
import Ppaass.Lib.Table
import Ppaass.Agent.DirectAccess

/-!
# The Android agent's IP to domain cache

The proxy DNS of the Android agent records, for every IP an answer carries,
the domain that was asked for (`record_resolution`), so that a TUN connection
to that IP can be routed by the domain rules (`matching_domain_for_ip`). An
entry lives `ttl` after its last recording, keeps at most `MAX_DOMAINS_PER_IP`
domains (dropping the oldest), and the cache keeps at most `MAX_CACHE_IPS` IPs
(dropping the entries that expire first); expired entries are swept at most
once a minute. The desktop agent's copy has none of these limits.

The `DashMap` is an association list in its iteration order, and calls are
taken one at a time. The clock counts milliseconds.

Over every run, from the empty cache and whatever the queries, answers and
clocks, the bounds hold and every entry's domains are distinct and non-empty
(`direct_domain_cache_bounded`); and a domain just recorded for an IP is found
for it until it expires, unless the capacity bound dropped the IP
(`matchingDomainForIp_recordResolution`).
-/

namespace Ppaass.Agent

open Ppaass.Proxy (IpAddr)

def maxCacheIps : Nat := 4096

def maxDomainsPerIp : Nat := 16

/-- `CLEANUP_INTERVAL`: 60 s. -/
def cleanupInterval : Nat := 60000

structure DomainCacheEntry where
  domains : List (List Char)
  expiresAt : Nat
  deriving DecidableEq, Repr

abbrev DomainTable := AList (fun _ : IpAddr => DomainCacheEntry)

structure DirectDomainCache where
  ttl : Nat
  ipToDomains : DomainTable
  lastCleanup : Nat

namespace DirectDomainCache

def new (ttl now : Nat) : DirectDomainCache := ⟨ttl, ∅, now⟩

/-- The cache's `normalize_domain`, which lowercases ASCII only. -/
def normalizeDomain (ops : StrOps) (domain : List Char) : List Char :=
  (trimEndMatches '.' (ops.trim domain)).map Char.toLower

/-- `ip_to_domains.len()`. -/
def len (c : DirectDomainCache) : Nat := c.ipToDomains.entries.length

def removeExpired (c : DirectDomainCache) (now : Nat) : DirectDomainCache :=
  { c with
    ipToDomains := ⟨c.ipToDomains.entries.filter fun kv => !(kv.2.expiresAt ≤ now),
      c.ipToDomains.nodupKeys.sublist List.filter_sublist⟩ }

/-- `enforce_capacity`: over the bound, remove the entries that expire first,
as many as there are too many; `sort_by_key` is stable. -/
def enforceCapacity (c : DirectDomainCache) : DirectDomainCache :=
  let len := c.len
  if len ≤ maxCacheIps then c
  else
    let entries := (c.ipToDomains.entries.map fun kv => (kv.1, kv.2.expiresAt)).mergeSort
      fun a b => a.2 ≤ b.2
    { c with
      ipToDomains := Ppaass.Table.eraseAll c.ipToDomains
        ((entries.take (len - maxCacheIps)).map (·.1)) }

/-- `cleanup_if_due`; the `try_lock` always succeeds when calls are taken one
at a time. -/
def cleanupIfDue (c : DirectDomainCache) (now : Nat) : DirectDomainCache :=
  if now - c.lastCleanup < cleanupInterval then c
  else
    let c := ({ c with lastCleanup := now } : DirectDomainCache).removeExpired now
    if c.len > maxCacheIps then c.enforceCapacity else c

/-- Add a domain to an entry's domains unless it is there, dropping the oldest
when there are `MAX_DOMAINS_PER_IP` already. -/
def pushDomain (domains : List (List Char)) (domain : List Char) : List (List Char) :=
  if domains.any (· == domain) then domains
  else (if domains.length ≥ maxDomainsPerIp then domains.eraseIdx 0 else domains) ++ [domain]

/-- One answer of `record_resolution` that is an IP. -/
def recordAnswer (domain : List Char) (now expiresAt : Nat) (t : DomainTable) (ip : IpAddr) :
    DomainTable :=
  match t.lookup ip with
  | some entry =>
    let domains := if entry.expiresAt ≤ now then [] else entry.domains
    t.replace ip ⟨pushDomain domains domain, expiresAt⟩
  | none => t.insert ip ⟨[domain], expiresAt⟩

def recordResolution (ops : StrOps) (c : DirectDomainCache) (query : List Char)
    (answers : List (List Char)) (now : Nat) : DirectDomainCache :=
  let domain := normalizeDomain ops query
  if domain = [] then c
  else
    let c := c.cleanupIfDue now
    let expiresAt := now + c.ttl
    let ips := answers.filterMap ops.parseIpAddr
    let c := { c with ipToDomains := ips.foldl (recordAnswer domain now expiresAt) c.ipToDomains }
    if !ips.isEmpty && c.len > maxCacheIps then c.enforceCapacity else c

/-- `matching_domain_for_ip`: the first domain of the IP's live entry that
`predicate` accepts; an expired entry is removed. -/
def matchingDomainForIp (c : DirectDomainCache) (ip : IpAddr) (predicate : List Char → Bool)
    (now : Nat) : Option (List Char) × DirectDomainCache :=
  match c.ipToDomains.lookup ip with
  | none => (none, c)
  | some entry =>
    if entry.expiresAt ≤ now then (none, { c with ipToDomains := c.ipToDomains.erase ip })
    else (entry.domains.find? predicate, c)

end DirectDomainCache

/-- The calls the proxy DNS and the TUN handlers make. -/
inductive CacheStep (ops : StrOps) : DirectDomainCache → DirectDomainCache → Prop
  | record (c : DirectDomainCache) (query : List Char) (answers : List (List Char)) (now : Nat) :
      CacheStep ops c (c.recordResolution ops query answers now)
  | lookup (c : DirectDomainCache) (ip : IpAddr) (predicate : List Char → Bool) (now : Nat) :
      CacheStep ops c (c.matchingDomainForIp ip predicate now).2


-- ---------------------------------------------------------------------------
-- The bounds over every run
-- ---------------------------------------------------------------------------

namespace DirectDomainCache

open Ppaass.Table

/-- What `record_resolution` makes of an entry: at most `MAX_DOMAINS_PER_IP`
distinct, non-empty domains. -/
def EntryOk (e : DomainCacheEntry) : Prop :=
  e.domains.length ≤ maxDomainsPerIp ∧ e.domains.Nodup ∧ [] ∉ e.domains

def EntriesOk (t : DomainTable) : Prop :=
  ∀ ip e, t.lookup ip = some e → EntryOk e

structure Inv (c : DirectDomainCache) : Prop where
  len_le : c.len ≤ maxCacheIps
  entries_ok : EntriesOk c.ipToDomains

variable {t : DomainTable} {c : DirectDomainCache}

theorem EntriesOk.of_subset (h : EntriesOk t) {t' : DomainTable}
    (hsub : t'.entries ⊆ t.entries) : EntriesOk t' :=
  fun ip e he => h ip e (lookup_of_subset hsub he)

theorem EntriesOk.eraseAll (h : EntriesOk t) (ips : List IpAddr) :
    EntriesOk (Ppaass.Table.eraseAll t ips) := by
  intro ip e he
  rw [lookup_eraseAll] at he
  split_ifs at he
  exact h ip e he

theorem EntriesOk.erase (h : EntriesOk t) (ip : IpAddr) : EntriesOk (t.erase ip) :=
  fun ip' e he => h ip' e (lookup_of_lookup_erase he)

/-- `enforce_capacity` leaves at most `MAX_CACHE_IPS` entries: over the bound it
removes exactly the surplus, the first entries of a permutation of the table. -/
theorem len_enforceCapacity_le (c : DirectDomainCache) : c.enforceCapacity.len ≤ maxCacheIps := by
  unfold enforceCapacity
  dsimp only
  split_ifs with hle
  · exact hle
  · set sorted := (c.ipToDomains.entries.map fun kv => (kv.1, kv.2.expiresAt)).mergeSort
      fun a b => a.2 ≤ b.2
    set surplus := c.len - maxCacheIps with hsurplus
    have hperm : (sorted.map (·.1)).Perm c.ipToDomains.keys := by
      have := (List.mergeSort_perm (c.ipToDomains.entries.map fun kv => (kv.1, kv.2.expiresAt))
        fun a b => a.2 ≤ b.2).map (·.1)
      simpa [AList.keys, List.keys, List.map_map, Function.comp_def] using this
    have hlen : (sorted.map (·.1)).length = c.len := by
      rw [hperm.length_eq, len, length_entries_eq_keys]
    -- the surplus keys taken are distinct and all in the table
    have hnodup : ((sorted.map (·.1)).take surplus).Nodup :=
      (List.take_sublist surplus _).nodup (hperm.nodup_iff.mpr c.ipToDomains.keys_nodup)
    have hmem : ∀ ip ∈ (sorted.map (·.1)).take surplus, ip ∈ c.ipToDomains :=
      fun ip hip => AList.mem_keys.mp (hperm.subset (List.mem_of_mem_take hip))
    have herase := length_eraseAll hnodup hmem
    have htake : ((sorted.map (·.1)).take surplus).length = surplus := by
      rw [List.length_take, hlen]
      omega
    show (eraseAll c.ipToDomains ((sorted.take surplus).map (·.1))).entries.length ≤ maxCacheIps
    rw [List.map_take]
    unfold len at hle hsurplus
    omega

theorem entriesOk_enforceCapacity (h : EntriesOk c.ipToDomains) :
    EntriesOk c.enforceCapacity.ipToDomains := by
  unfold enforceCapacity
  by_cases hle : c.len ≤ maxCacheIps
  · rw [if_pos hle]
    exact h
  · rw [if_neg hle]
    dsimp only
    exact h.eraseAll _

/-- What an IP had before an answer records a domain for it: the domains of its
live entry. -/
def priorDomains (t : DomainTable) (ip : IpAddr) (now : Nat) : List (List Char) :=
  match t.lookup ip with
  | some entry => if entry.expiresAt ≤ now then [] else entry.domains
  | none => []

theorem lookup_recordAnswer (domain : List Char) (now expiresAt : Nat) (t : DomainTable)
    (ip ip' : IpAddr) :
    (recordAnswer domain now expiresAt t ip).lookup ip' =
      if ip' = ip then some ⟨pushDomain (priorDomains t ip now) domain, expiresAt⟩
      else t.lookup ip' := by
  unfold recordAnswer priorDomains
  cases hlook : t.lookup ip with
  | none =>
    by_cases hip : ip' = ip
    · subst hip
      simp [AList.lookup_insert, pushDomain]
    · simp [AList.lookup_insert_ne hip, hip]
  | some entry =>
    have hmem : ip ∈ t := AList.lookup_isSome.mp (by rw [hlook]; rfl)
    simp only [lookup_replace, hmem, and_true]

theorem mem_pushDomain (domains : List (List Char)) (domain : List Char) :
    domain ∈ pushDomain domains domain := by
  unfold pushDomain
  split_ifs with hany
  · simpa using hany
  all_goals exact List.mem_append_right _ (List.mem_singleton_self _)

/-- Pushing a domain keeps the bounds of the list. -/
theorem pushDomain_ok {domains : List (List Char)} {domain : List Char} (hd : domain ≠ [])
    (hlen : domains.length ≤ maxDomainsPerIp) (hnodup : domains.Nodup) (hnil : [] ∉ domains) :
    EntryOk ⟨pushDomain domains domain, 0⟩ := by
  unfold pushDomain
  split_ifs with hany hfull
  · exact ⟨hlen, hnodup, hnil⟩
  · -- full: the oldest goes
    have hnot : domain ∉ domains := by simpa using hany
    have hsub := List.eraseIdx_sublist domains 0
    refine ⟨?_, ?_, ?_⟩
    · simp only [maxDomainsPerIp] at hlen hfull ⊢
      simp only [List.length_append, List.length_eraseIdx, List.length_singleton]
      split_ifs <;> omega
    · exact (hsub.nodup hnodup).append (List.nodup_singleton _)
        (List.disjoint_singleton.mpr fun h => hnot (hsub.subset h))
    · simp only [List.mem_append, List.mem_singleton, not_or]
      exact ⟨fun h => hnil (hsub.subset h), Ne.symm hd⟩
  · have hnot : domain ∉ domains := by simpa using hany
    refine ⟨?_, ?_, ?_⟩
    · simp only [List.length_append, List.length_singleton]
      omega
    · exact hnodup.append (List.nodup_singleton _) (List.disjoint_singleton.mpr hnot)
    · simp only [List.mem_append, List.mem_singleton, not_or]
      exact ⟨hnil, Ne.symm hd⟩

theorem priorDomains_ok (h : EntriesOk t) (ip : IpAddr) (now : Nat) :
    (priorDomains t ip now).length ≤ maxDomainsPerIp ∧ (priorDomains t ip now).Nodup ∧
      [] ∉ priorDomains t ip now := by
  unfold priorDomains
  cases hlook : t.lookup ip with
  | none => simp
  | some entry =>
    dsimp only
    split_ifs
    · simp
    · exact h ip entry hlook

theorem EntriesOk.recordAnswer (h : EntriesOk t) {domain : List Char} (hd : domain ≠ [])
    (now expiresAt : Nat) (ip : IpAddr) :
    EntriesOk (DirectDomainCache.recordAnswer domain now expiresAt t ip) := by
  intro ip' e he
  rw [lookup_recordAnswer] at he
  split_ifs at he
  · cases he
    obtain ⟨hlen, hnodup, hnil⟩ := priorDomains_ok h ip now
    exact pushDomain_ok hd hlen hnodup hnil
  · exact h ip' e he

theorem EntriesOk.foldl_recordAnswer (h : EntriesOk t) {domain : List Char} (hd : domain ≠ [])
    (now expiresAt : Nat) (ips : List IpAddr) :
    EntriesOk (ips.foldl (DirectDomainCache.recordAnswer domain now expiresAt) t) := by
  induction ips generalizing t with
  | nil => exact h
  | cons ip ips ih => exact ih (h.recordAnswer hd now expiresAt ip)

theorem Inv.cleanupIfDue (h : c.Inv) (now : Nat) : (c.cleanupIfDue now).Inv := by
  unfold DirectDomainCache.cleanupIfDue
  dsimp only
  split_ifs
  · exact h
  · exact ⟨len_enforceCapacity_le _,
      entriesOk_enforceCapacity (h.entries_ok.of_subset (List.filter_subset_self _))⟩
  · refine ⟨?_, h.entries_ok.of_subset (List.filter_subset_self _)⟩
    exact (List.length_filter_le _ _).trans h.len_le

theorem Inv.recordResolution (h : c.Inv) (ops : StrOps) (query : List Char)
    (answers : List (List Char)) (now : Nat) : (c.recordResolution ops query answers now).Inv := by
  unfold DirectDomainCache.recordResolution
  dsimp only
  have hclean := h.cleanupIfDue now
  split_ifs with hempty hover
  · exact h
  · exact ⟨len_enforceCapacity_le _,
      entriesOk_enforceCapacity (hclean.entries_ok.foldl_recordAnswer hempty _ _ _)⟩
  · refine ⟨?_, hclean.entries_ok.foldl_recordAnswer hempty _ _ _⟩
    -- no IP was recorded, or the bound still holds
    by_cases hips : (answers.filterMap ops.parseIpAddr).isEmpty
    · rw [List.isEmpty_iff.mp hips]
      exact hclean.len_le
    · simpa [hips] using hover

theorem Inv.matchingDomainForIp (h : c.Inv) (ip : IpAddr) (predicate : List Char → Bool)
    (now : Nat) : (c.matchingDomainForIp ip predicate now).2.Inv := by
  unfold DirectDomainCache.matchingDomainForIp
  cases hlook : c.ipToDomains.lookup ip with
  | none => exact h
  | some entry =>
    dsimp only
    split_ifs
    · have hmem : ip ∈ c.ipToDomains := AList.lookup_isSome.mp (by rw [hlook]; rfl)
      have herase := length_erase_of_mem hmem
      refine ⟨?_, h.entries_ok.erase ip⟩
      have := h.len_le
      show (c.ipToDomains.erase ip).entries.length ≤ maxCacheIps
      unfold len at this
      omega
    · exact h

theorem inv_new (ttl now : Nat) : (DirectDomainCache.new ttl now).Inv where
  len_le := Nat.zero_le _
  entries_ok _ _ he := by cases he

theorem Inv.step {ops : StrOps} {c' : DirectDomainCache} (h : c.Inv) (hstep : CacheStep ops c c') :
    c'.Inv := by
  cases hstep with
  | record query answers now => exact h.recordResolution ops query answers now
  | lookup ip predicate now => exact h.matchingDomainForIp ip predicate now

-- ---------------------------------------------------------------------------
-- Recording, then looking up
-- ---------------------------------------------------------------------------

/-- `domain` is among the domains of the entry of `ip`, which expires at
`expiresAt`. -/
def Recorded (domain : List Char) (expiresAt : Nat) (t : DomainTable) (ip : IpAddr) : Prop :=
  ∃ e, t.lookup ip = some e ∧ domain ∈ e.domains ∧ e.expiresAt = expiresAt

variable {domain : List Char} {now expiresAt : Nat}

/-- An answer records its domain for its IP and keeps it for every other IP. -/
theorem recorded_recordAnswer {ip ip' : IpAddr}
    (h : ip = ip' ∨ Recorded domain expiresAt t ip) :
    Recorded domain expiresAt (recordAnswer domain now expiresAt t ip') ip := by
  unfold Recorded
  rw [lookup_recordAnswer]
  by_cases hip : ip = ip'
  · rw [if_pos hip]
    exact ⟨_, rfl, mem_pushDomain _ _, rfl⟩
  · rw [if_neg hip]
    exact h.resolve_left hip

theorem recorded_foldl_recordAnswer (domain : List Char) (now expiresAt : Nat) {ip : IpAddr}
    (ips : List IpAddr) (t : DomainTable) (h : ip ∈ ips ∨ Recorded domain expiresAt t ip) :
    Recorded domain expiresAt (ips.foldl (recordAnswer domain now expiresAt) t) ip := by
  induction ips generalizing t with
  | nil => simpa using h
  | cons ip' ips ih =>
    apply ih
    -- the IP is met later, or now, or was recorded already
    rcases h with hmem | hrec
    · rcases List.mem_cons.mp hmem with heq | hrest
      · exact Or.inr (recorded_recordAnswer (Or.inl heq))
      · exact Or.inl hrest
    · exact Or.inr (recorded_recordAnswer (Or.inr hrec))

theorem length_recordAnswer_le (domain : List Char) (now expiresAt : Nat) (t : DomainTable)
    (ip : IpAddr) :
    (recordAnswer domain now expiresAt t ip).entries.length ≤ t.entries.length + 1 := by
  unfold recordAnswer
  cases hlook : t.lookup ip with
  | none =>
    rw [length_insert_of_notMem (AList.lookup_eq_none.mp hlook)]
  | some entry =>
    dsimp only
    rw [length_replace]
    omega

theorem length_foldl_recordAnswer_le (domain : List Char) (now expiresAt : Nat)
    (ips : List IpAddr) (t : DomainTable) :
    (ips.foldl (recordAnswer domain now expiresAt) t).entries.length ≤
      t.entries.length + ips.length := by
  induction ips generalizing t with
  | nil => simp
  | cons ip ips ih =>
    have := length_recordAnswer_le domain now expiresAt t ip
    have := ih (recordAnswer domain now expiresAt t ip)
    simp only [List.foldl_cons, List.length_cons]
    omega

theorem len_removeExpired_le (c : DirectDomainCache) (now : Nat) :
    (c.removeExpired now).len ≤ c.len :=
  List.length_filter_le _ _

theorem len_cleanupIfDue_le (c : DirectDomainCache) (now : Nat) :
    (c.cleanupIfDue now).len ≤ c.len := by
  unfold cleanupIfDue
  dsimp only
  split_ifs with hdue hover
  · exact le_rfl
  · -- over the bound after the sweep: `enforce_capacity` goes below it
    exact (len_enforceCapacity_le _).trans
      ((Nat.le_of_lt hover).trans (len_removeExpired_le _ now))
  · exact len_removeExpired_le _ now

theorem ttl_cleanupIfDue (c : DirectDomainCache) (now : Nat) : (c.cleanupIfDue now).ttl = c.ttl := by
  unfold cleanupIfDue enforceCapacity
  dsimp only
  split_ifs <;> rfl

/-- With room for every IP of the answers, `record_resolution` removes nothing
it records: the table is the fold of the answers over the swept one. -/
theorem recordResolution_of_room {ops : StrOps} {query : List Char} {answers : List (List Char)}
    (hquery : normalizeDomain ops query ≠ [])
    (hroom : c.len + (answers.filterMap ops.parseIpAddr).length ≤ maxCacheIps) :
    c.recordResolution ops query answers now =
      { c.cleanupIfDue now with
        ipToDomains := (answers.filterMap ops.parseIpAddr).foldl
          (recordAnswer (normalizeDomain ops query) now (now + c.ttl))
          (c.cleanupIfDue now).ipToDomains } := by
  have hfit := length_foldl_recordAnswer_le (normalizeDomain ops query) now (now + c.ttl)
    (answers.filterMap ops.parseIpAddr) (c.cleanupIfDue now).ipToDomains
  have hclean := len_cleanupIfDue_le c now
  unfold recordResolution
  dsimp only
  rw [if_neg hquery, ttl_cleanupIfDue, if_neg]
  unfold len at hroom hclean
  simp only [len, Bool.and_eq_true, not_and]
  exact fun _ hover => absurd (of_decide_eq_true hover) (by omega)

end DirectDomainCache

/-- A domain recorded for an IP of the answers is found for that IP until its
entry expires, by any predicate that accepts it, when the cache had room for the
answers' IPs. -/
theorem matchingDomainForIp_recordResolution (ops : StrOps) (c : DirectDomainCache)
    (query : List Char) (answers : List (List Char)) (now t : Nat) (ip : IpAddr)
    (predicate : List Char → Bool)
    (hip : ip ∈ answers.filterMap ops.parseIpAddr)
    (hquery : DirectDomainCache.normalizeDomain ops query ≠ [])
    (hpred : predicate (DirectDomainCache.normalizeDomain ops query) = true)
    (hlive : t < now + c.ttl)
    (hroom : c.len + (answers.filterMap ops.parseIpAddr).length ≤ maxCacheIps) :
    ∃ d, ((c.recordResolution ops query answers now).matchingDomainForIp ip predicate t).1 =
      some d ∧ predicate d = true := by
  obtain ⟨e, hlook, hmem, hexp⟩ := DirectDomainCache.recorded_foldl_recordAnswer
    (DirectDomainCache.normalizeDomain ops query) now (now + c.ttl) _
    (c.cleanupIfDue now).ipToDomains (Or.inl hip)
  rw [DirectDomainCache.recordResolution_of_room hquery hroom]
  unfold DirectDomainCache.matchingDomainForIp
  simp only [hlook]
  rw [if_neg (by omega)]
  -- the entry holds the domain, so `find` gives a domain the predicate accepts
  have hsome : (e.domains.find? predicate).isSome := by
    rw [List.isSome_find?, List.any_eq_true]
    exact ⟨_, hmem, hpred⟩
  obtain ⟨d, hd⟩ := Option.isSome_iff_exists.mp hsome
  exact ⟨d, hd, List.find?_some hd⟩

/-- Over every run of the Android agent's cache, whatever the queries, answers
and clock, it holds at most `MAX_CACHE_IPS` IPs, and each IP at most
`MAX_DOMAINS_PER_IP` domains, distinct and non-empty. -/
theorem direct_domain_cache_bounded (ops : StrOps) (ttl now : Nat) (c : DirectDomainCache)
    (hreach : Machine.Reachable (DirectDomainCache.new ttl now) (CacheStep ops) c) :
    c.len ≤ maxCacheIps ∧ ∀ ip e, c.ipToDomains.lookup ip = some e →
      e.domains.length ≤ maxDomainsPerIp ∧ e.domains.Nodup ∧ [] ∉ e.domains := by
  have hinv : c.Inv :=
    hreach.induction_on (DirectDomainCache.inv_new ttl now) fun _ _ h hstep => h.step hstep
  exact ⟨hinv.len_le, hinv.entries_ok⟩

/-- String operations that read `1.2.3.4` and nothing else. -/
def sampleOps : StrOps :=
  ⟨id, id, fun s => if s = "1.2.3.4".toList then some 0x01020304 else none, fun _ => none⟩

/-- The cache after one answer. -/
def sampleCache : DirectDomainCache :=
  (DirectDomainCache.new 600000 0).recordResolution sampleOps "example.com".toList
    ["1.2.3.4".toList] 1000

theorem direct_domain_cache_bounded_sample :
    Machine.Reachable (DirectDomainCache.new 600000 0) (CacheStep sampleOps) sampleCache ∧
      sampleCache.len ≤ maxCacheIps ∧
      ∀ ip e, sampleCache.ipToDomains.lookup ip = some e →
        e.domains.length ≤ maxDomainsPerIp ∧ e.domains.Nodup ∧ [] ∉ e.domains := by
  have h0 : Machine.Reachable (DirectDomainCache.new 600000 0) (CacheStep sampleOps)
      (DirectDomainCache.new 600000 0) := Machine.Reachable.init
  have h1 := h0.tail (CacheStep.record _ "example.com".toList ["1.2.3.4".toList] 1000)
  exact ⟨h1, direct_domain_cache_bounded sampleOps 600000 0 sampleCache h1⟩

theorem matchingDomainForIp_recordResolution_sample :
    ∃ d, (sampleCache.matchingDomainForIp (.v4 0x01020304) (fun _ => true) 5000).1 = some d ∧
      (fun _ => true) d = true :=
  matchingDomainForIp_recordResolution sampleOps _ "example.com".toList ["1.2.3.4".toList] 1000
    5000 (.v4 0x01020304) (fun _ => true) (by decide) (by decide) rfl (by decide) (by decide)

end Ppaass.Agent
