import Mathlib.Data.List.AList
import Mathlib.Data.List.MinMax
import Ppaass.Lib.Table
import Ppaass.Protocol.Udp.Crypto

/-!
# Reassembling fragmented UDP messages

`FragmentReassembler` of `udp_transport/reassembly.rs`: a table, keyed by
session id and message id, of the messages of which some fragments have
arrived, bounded in entries, in buffered bytes and in age.

The `HashMap` is a Mathlib `AList`, a finite map that keeps its keys distinct;
its list of entries stands for the map's iteration order, which only decides
which of several equally old entries eviction takes (`min_by_key` takes the
first, as `List.argmin` does). `Instant`s and `Duration`s are ticks of one
clock, `Nat`; `checked_duration_since(..).unwrap_or_default()` is truncated
subtraction. The `checked_add`s on `usize` byte counters cannot overflow below
`usize::MAX` bytes and are left out.
-/

namespace Ppaass.Udp

structure ReassemblyConfig where
  maxEntries : Nat
  maxTotalBytes : Nat
  timeout : Nat
  deriving DecidableEq, Repr

/-- `ReassemblyConfig::default()`; the clock counts nanoseconds. -/
def ReassemblyConfig.default : ReassemblyConfig := ⟨64, 1024 * 1024, 1000000000⟩

structure ReassemblyEntry where
  fragmentCount : UInt16
  totalLen : UInt32
  fragments : List (Option (List UInt8))
  receivedCount : Nat
  receivedBytes : Nat
  updatedAt : Nat
  deriving DecidableEq, Repr

/-- The entry `push` opens for the first fragment of a message. -/
def ReassemblyEntry.opened (header : UdpPacketHeader) (now : Nat) : ReassemblyEntry :=
  { fragmentCount := header.fragmentCount, totalLen := header.totalLen,
    fragments := List.replicate header.fragmentCount.toNat none, receivedCount := 0,
    receivedBytes := 0, updatedAt := now }

abbrev ReassemblyKey := UdpSessionId × UInt64

abbrev EntryTable := AList (fun _ : ReassemblyKey => ReassemblyEntry)

structure FragmentReassembler where
  config : ReassemblyConfig
  entries : EntryTable
  totalBytes : Nat

namespace FragmentReassembler

def fromValidConfig (config : ReassemblyConfig) : FragmentReassembler := ⟨config, ∅, 0⟩

def new (config : ReassemblyConfig) : Except UdpTransportError FragmentReassembler :=
  if config.maxEntries = 0 then .error (.reassemblyLimit "max_entries must be non-zero")
  else if config.maxTotalBytes = 0 then
    .error (.reassemblyLimit "max_total_bytes must be non-zero")
  else if config.timeout = 0 then .error (.reassemblyLimit "timeout must be non-zero")
  else .ok (fromValidConfig config)

/-- `entries.len()`. -/
def entryCount (r : FragmentReassembler) : Nat := r.entries.entries.length

/-- `cleanup_expired`: drop the entries whose last fragment is `timeout` or
more old, and their bytes; the result is how many were dropped. -/
def cleanupExpired (r : FragmentReassembler) (now : Nat) : FragmentReassembler × Nat :=
  let keep : Sigma (fun _ : ReassemblyKey => ReassemblyEntry) → Bool :=
    fun kv => now - kv.2.updatedAt < r.config.timeout
  let removedBytes := ((r.entries.entries.filter (fun kv => !keep kv)).map
    (fun kv => kv.2.receivedBytes)).sum
  let entries : EntryTable :=
    ⟨r.entries.entries.filter keep, r.entries.nodupKeys.sublist List.filter_sublist⟩
  ({ r with entries, totalBytes := r.totalBytes - removedBytes },
    r.entryCount - entries.entries.length)

/-- `evict_oldest_except`: remove the least recently updated entry other than
`except`, if there is one, and say which. -/
def evictOldestExcept (r : FragmentReassembler) (except : Option ReassemblyKey) :
    FragmentReassembler × Except UdpTransportError (Option ReassemblyKey) :=
  match (r.entries.entries.filter (fun kv => except != some kv.1)).argmin
      (fun kv => kv.2.updatedAt) with
  | none => (r, .ok none)
  | some oldest =>
    match r.entries.lookup oldest.1 with
    | none => (r, .error (.inconsistentReassemblyState "selected reassembly entry is missing"))
    | some removed =>
      ({ r with
          entries := r.entries.erase oldest.1,
          totalBytes := r.totalBytes - removed.receivedBytes }, .ok (some oldest.1))

end FragmentReassembler

/-- `validate_fragment`. -/
def validateFragment (fragment : DecryptedUdpFragment) : Except UdpTransportError Unit := do
  fragment.header.validate
  if fragment.payload.length > udpMaxFragmentPlaintext then
    throw (.invalidHeader "fragment plaintext exceeds datagram capacity")
  if fragment.header.totalLen.toNat > udpMaxMessageSize then
    throw (.messageTooLarge fragment.header.totalLen.toNat)
  if fragment.payload.length > fragment.header.totalLen.toNat then
    throw (.invalidHeader "fragment bytes exceed declared total_len")
  if fragment.header.fragmentCount.toNat > udpMaxFragments then
    throw (.tooManyFragments fragment.header.fragmentCount.toNat)
  if fragment.header.totalLen ≠ 0 ∧ fragment.payload = [] then
    throw (.invalidHeader "non-empty messages cannot contain empty fragments")

/-- What the checks on an existing entry decide for a fragment: it repeats a
fragment already held, or it is new and brings the entry to `entryBytes`. -/
inductive FragmentCheck where
  | duplicate
  | fresh (entryBytes : Nat)
  deriving DecidableEq, Repr

/-- The block of `push` that computes `entry_bytes`. -/
def checkFragment (config : ReassemblyConfig) (entry : ReassemblyEntry)
    (header : UdpPacketHeader) (payload : List UInt8) : Except UdpTransportError FragmentCheck :=
  if entry.fragmentCount ≠ header.fragmentCount ∨ entry.totalLen ≠ header.totalLen then
    .error .conflictingFragment
  else
    match entry.fragments.getD header.fragmentIndex.toNat none with
    | some existing =>
      if existing = payload then .ok .duplicate else .error .conflictingFragment
    | none =>
      let entryBytes := entry.receivedBytes + payload.length
      if entryBytes > entry.totalLen.toNat then
        .error (.invalidHeader "fragment bytes exceed declared total_len")
      else if entryBytes > config.maxTotalBytes then
        .error (.reassemblyLimit "current message exceeds maximum buffered fragment bytes")
      else .ok (.fresh entryBytes)

namespace FragmentReassembler

/-- The `!contains_key` block of `push`: a fragment of a message not yet in
the table opens an entry for it, evicting the oldest entry from a full
table. -/
def admitEntry (r : FragmentReassembler) (key : ReassemblyKey) (header : UdpPacketHeader)
    (payload : List UInt8) (now : Nat) : FragmentReassembler × Except UdpTransportError Unit :=
  if key ∈ r.entries then (r, .ok ())
  else if payload.length > r.config.maxTotalBytes then
    (r, .error (.reassemblyLimit "current message exceeds maximum buffered fragment bytes"))
  else
    let evicted : FragmentReassembler × Except UdpTransportError Unit :=
      if r.entryCount ≥ r.config.maxEntries then
        match r.evictOldestExcept none with
        | (r', .ok (some _)) => (r', .ok ())
        | (r', .ok none) => (r', .error (.inconsistentReassemblyState
            "a full reassembly table has no entry to evict"))
        | (r', .error e) => (r', .error e)
      else (r, .ok ())
    match evicted with
    | (r', .error e) => (r', .error e)
    | (r', .ok ()) =>
      ({ r' with entries := r'.entries.insert key (ReassemblyEntry.opened header now) }, .ok ())

/-- The eviction loop of `push`: evict other entries until `extra` more bytes
fit. Each round removes an entry, so any `fuel` above the number of
entries gives the loop's result (`makeRoomFuel_congr`). -/
def makeRoomFuel (key : ReassemblyKey) (extra : Nat) :
    Nat → FragmentReassembler → FragmentReassembler × Except UdpTransportError Unit
  | 0, r => (r, .error (.reassemblyLimit "maximum buffered fragment bytes reached"))
  | fuel + 1, r =>
    if r.totalBytes + extra ≤ r.config.maxTotalBytes then (r, .ok ())
    else
      match r.evictOldestExcept (some key) with
      | (r', .error e) => (r', .error e)
      | (r', .ok none) =>
        (r', .error (.reassemblyLimit "maximum buffered fragment bytes reached"))
      | (r', .ok (some _)) => makeRoomFuel key extra fuel r'

def makeRoom (r : FragmentReassembler) (key : ReassemblyKey) (extra : Nat) :
    FragmentReassembler × Except UdpTransportError Unit :=
  makeRoomFuel key extra (r.entryCount + 1) r

/-- The end of `push` for a fresh fragment: store it, and hand the message out
once all its fragments are in. -/
def store (r : FragmentReassembler) (key : ReassemblyKey) (index : Nat) (payload : List UInt8)
    (entryBytes now : Nat) :
    FragmentReassembler × Except UdpTransportError (Option (List UInt8)) :=
  match r.entries.lookup key with
  | none => (r, .error (.inconsistentReassemblyState "current reassembly entry was evicted"))
  | some entry =>
    let entry : ReassemblyEntry :=
      { entry with
        fragments := entry.fragments.set index (some payload),
        receivedCount := entry.receivedCount + 1,
        receivedBytes := entryBytes,
        updatedAt := now }
    let r : FragmentReassembler :=
      { r with
        entries := r.entries.replace key entry,
        totalBytes := r.totalBytes + payload.length }
    if entry.receivedCount ≠ entry.fragmentCount.toNat then (r, .ok none)
    else
      let r : FragmentReassembler :=
        { r with
          entries := r.entries.erase key,
          totalBytes := r.totalBytes - entry.receivedBytes }
      if entry.receivedBytes ≠ entry.totalLen.toNat then
        (r, .error (.invalidHeader "reassembled length does not match total_len"))
      else
        match entry.fragments.mapM id with
        | none => (r, .error (.inconsistentReassemblyState
            "completed message contains a missing fragment"))
        | some parts => (r, .ok (some parts.flatten))

/-- `push`. -/
def push (r : FragmentReassembler) (fragment : DecryptedUdpFragment) (now : Nat) :
    FragmentReassembler × Except UdpTransportError (Option (List UInt8)) :=
  match validateFragment fragment with
  | .error e => (r, .error e)
  | .ok () =>
    let header := fragment.header
    if header.fragmentCount = 1 then
      if fragment.payload.length ≠ header.totalLen.toNat then
        (r, .error (.invalidHeader "single fragment length does not match total_len"))
      else (r, .ok (some fragment.payload))
    else
      let r := (r.cleanupExpired now).1
      let key := (header.sessionId, header.messageId)
      match r.admitEntry key header fragment.payload now with
      | (r, .error e) => (r, .error e)
      | (r, .ok ()) =>
        match r.entries.lookup key with
        | none => (r, .error (.inconsistentReassemblyState
            "reassembly entry is missing after insertion"))
        | some entry =>
          match checkFragment r.config entry header fragment.payload with
          | .error e => (r, .error e)
          | .ok .duplicate => (r, .ok none)
          | .ok (.fresh entryBytes) =>
            match r.makeRoom key fragment.payload.length with
            | (r, .error e) => (r, .error e)
            | (r, .ok ()) =>
              r.store key header.fragmentIndex.toNat fragment.payload entryBytes now

end FragmentReassembler

-- ---------------------------------------------------------------------------
-- What each part of `push` does
-- ---------------------------------------------------------------------------

theorem validateFragment_eq_ok_iff (f : DecryptedUdpFragment) :
    validateFragment f = .ok () ↔ f.header.Valid ∧
      f.payload.length ≤ udpMaxFragmentPlaintext ∧ f.header.totalLen.toNat ≤ udpMaxMessageSize ∧
      f.payload.length ≤ f.header.totalLen.toNat ∧ f.header.fragmentCount.toNat ≤ udpMaxFragments ∧
      (f.header.totalLen ≠ 0 → f.payload ≠ []) := by
  rw [← UdpPacketHeader.validate_eq_ok_iff]
  cases hval : f.header.validate with
  | error e => simp [validateFragment, hval]
  | ok u =>
    simp only [validateFragment, hval, Result.ok_bind]
    split_ifs <;>
      simp_all [bind, Except.bind, pure, Except.pure, throw, throwThe, MonadExceptOf.throw]

namespace FragmentReassembler

theorem evictOldestExcept_eq_some {r r' : FragmentReassembler} {except : Option ReassemblyKey}
    {k : ReassemblyKey} (h : r.evictOldestExcept except = (r', .ok (some k))) :
    r'.config = r.config ∧ r'.entryCount + 1 = r.entryCount := by
  unfold evictOldestExcept at h
  split at h
  · cases h
  · split at h
    · cases h
    · rename_i oldest _ removed hlook
      cases h
      exact ⟨rfl, Table.length_erase_of_mem (AList.lookup_isSome.mp (by simp [hlook]))⟩

/-- The result of the eviction loop does not depend on the fuel, once it is
more than the number of entries. -/
theorem makeRoomFuel_congr (key : ReassemblyKey) (extra : Nat) {fuel fuel' : Nat} :
    ∀ {r : FragmentReassembler}, r.entryCount < fuel → r.entryCount < fuel' →
      makeRoomFuel key extra fuel r = makeRoomFuel key extra fuel' r := by
  induction fuel generalizing fuel' with
  | zero => intro r h; omega
  | succ n ih =>
    intro r h h'
    obtain ⟨m, rfl⟩ : ∃ m, fuel' = m + 1 := ⟨fuel' - 1, by omega⟩
    simp only [makeRoomFuel]
    split_ifs with hfits
    · rfl
    · -- each eviction removes one entry, so the fuel left stays above the count
      rcases hev : r.evictOldestExcept (some key) with ⟨r', _ | _ | _⟩
      · rfl
      · rfl
      · obtain ⟨-, hcount⟩ := evictOldestExcept_eq_some hev
        exact ih (by omega) (by omega)

/-- When no entry is `timeout` old, `cleanup_expired` removes nothing. -/
theorem cleanupExpired_of_fresh {r : FragmentReassembler} {now : Nat}
    (hfresh : ∀ kv ∈ r.entries.entries, now - kv.2.updatedAt < r.config.timeout) :
    (r.cleanupExpired now).1 = r := by
  have hall : r.entries.entries.filter
      (fun kv => decide (now - kv.2.updatedAt < r.config.timeout)) = r.entries.entries :=
    List.filter_eq_self.mpr (fun kv hkv => by simpa using hfresh kv hkv)
  have hnone : r.entries.entries.filter
      (fun kv => !decide (now - kv.2.updatedAt < r.config.timeout)) = [] :=
    List.filter_eq_nil_iff.mpr (fun kv hkv => by simpa using hfresh kv hkv)
  simp only [cleanupExpired, hnone, List.map_nil, List.sum_nil, Nat.sub_zero]
  congr 1
  exact AList.ext hall

theorem admitEntry_of_mem {r : FragmentReassembler} {key : ReassemblyKey}
    (hkey : key ∈ r.entries) (header : UdpPacketHeader) (payload : List UInt8) (now : Nat) :
    r.admitEntry key header payload now = (r, .ok ()) := by
  simp [admitEntry, hkey]

/-- A fragment of a message not in a table with room opens its entry. -/
theorem admitEntry_of_not_mem {r : FragmentReassembler} {key : ReassemblyKey}
    (hkey : key ∉ r.entries) (hroom : r.entryCount < r.config.maxEntries)
    (header : UdpPacketHeader) {payload : List UInt8}
    (hbytes : payload.length ≤ r.config.maxTotalBytes) (now : Nat) :
    r.admitEntry key header payload now =
      ({ r with entries := r.entries.insert key (ReassemblyEntry.opened header now) }, .ok ()) := by
  simp only [admitEntry, hkey, if_false, Nat.not_lt.mpr hbytes, Nat.not_le.mpr hroom]

theorem makeRoom_of_fits {r : FragmentReassembler} {key : ReassemblyKey} {extra : Nat}
    (hfits : r.totalBytes + extra ≤ r.config.maxTotalBytes) :
    r.makeRoom key extra = (r, .ok ()) := by
  simp [makeRoom, makeRoomFuel, hfits]

theorem checkFragment_fresh (config : ReassemblyConfig) {entry : ReassemblyEntry}
    {header : UdpPacketHeader} {payload : List UInt8}
    (hcount : entry.fragmentCount = header.fragmentCount) (hlen : entry.totalLen = header.totalLen)
    (hnone : entry.fragments.getD header.fragmentIndex.toNat none = none)
    (htotal : entry.receivedBytes + payload.length ≤ entry.totalLen.toNat)
    (hmax : entry.receivedBytes + payload.length ≤ config.maxTotalBytes) :
    checkFragment config entry header payload =
      .ok (.fresh (entry.receivedBytes + payload.length)) := by
  rw [hlen] at htotal
  simp only [checkFragment, hcount, hlen, ne_eq, not_true_eq_false, or_self, if_false, hnone]
  rw [if_neg (Nat.not_lt.mpr htotal), if_neg (Nat.not_lt.mpr hmax)]

/-- A new fragment that would take its message past `max_total_bytes` is
refused, however much room the table has. -/
theorem checkFragment_over_max (config : ReassemblyConfig) {entry : ReassemblyEntry}
    {header : UdpPacketHeader} {payload : List UInt8}
    (hcount : entry.fragmentCount = header.fragmentCount) (hlen : entry.totalLen = header.totalLen)
    (hnone : entry.fragments.getD header.fragmentIndex.toNat none = none)
    (htotal : entry.receivedBytes + payload.length ≤ entry.totalLen.toNat)
    (hover : config.maxTotalBytes < entry.receivedBytes + payload.length) :
    checkFragment config entry header payload = .error (.reassemblyLimit
      "current message exceeds maximum buffered fragment bytes") := by
  rw [hlen] at htotal
  simp only [checkFragment, hcount, hlen, ne_eq, not_true_eq_false, or_self, if_false, hnone]
  rw [if_neg (Nat.not_lt.mpr htotal), if_pos hover]

/-- The entry `store` writes back for a fresh fragment. -/
def storedEntry (entry : ReassemblyEntry) (index : Nat) (payload : List UInt8)
    (entryBytes now : Nat) : ReassemblyEntry :=
  { entry with
    fragments := entry.fragments.set index (some payload),
    receivedCount := entry.receivedCount + 1,
    receivedBytes := entryBytes,
    updatedAt := now }

theorem store_incomplete {r : FragmentReassembler} {key : ReassemblyKey} {entry : ReassemblyEntry}
    (hkey : r.entries.lookup key = some entry) {index : Nat} {payload : List UInt8}
    {entryBytes now : Nat} (hmore : entry.receivedCount + 1 ≠ entry.fragmentCount.toNat) :
    r.store key index payload entryBytes now =
      ({ r with
          entries := r.entries.replace key (storedEntry entry index payload entryBytes now),
          totalBytes := r.totalBytes + payload.length }, .ok none) := by
  simp only [store, hkey, storedEntry]
  rw [if_pos hmore]

theorem store_complete {r : FragmentReassembler} {key : ReassemblyKey} {entry : ReassemblyEntry}
    (hkey : r.entries.lookup key = some entry) {index : Nat} {payload : List UInt8}
    {entryBytes now : Nat} (hlast : entry.receivedCount + 1 = entry.fragmentCount.toNat)
    (hbytes : entryBytes = entry.totalLen.toNat) {parts : List (List UInt8)}
    (hparts : (entry.fragments.set index (some payload)).mapM id = some parts) :
    r.store key index payload entryBytes now =
      ({ r with
          entries :=
            (r.entries.replace key (storedEntry entry index payload entryBytes now)).erase key,
          totalBytes := r.totalBytes + payload.length - entryBytes },
        .ok (some parts.flatten)) := by
  simp only [store, hkey, storedEntry, hlast, ne_eq, not_true_eq_false, if_false, hbytes, hparts]

/-- A last fragment that completes the entry with other than `total_len`
bytes: the entry is dropped and its bytes released, and the call fails. -/
theorem store_mismatch {r : FragmentReassembler} {key : ReassemblyKey} {entry : ReassemblyEntry}
    (hkey : r.entries.lookup key = some entry) {index : Nat} {payload : List UInt8}
    {entryBytes now : Nat} (hlast : entry.receivedCount + 1 = entry.fragmentCount.toNat)
    (hbytes : entryBytes ≠ entry.totalLen.toNat) :
    r.store key index payload entryBytes now =
      ({ r with
          entries :=
            (r.entries.replace key (storedEntry entry index payload entryBytes now)).erase key,
          totalBytes := r.totalBytes + payload.length - entryBytes },
        .error (.invalidHeader "reassembled length does not match total_len")) := by
  simp only [store, hkey, storedEntry, hlast, ne_eq, not_true_eq_false, if_false, hbytes,
    not_false_eq_true, if_true]

/-- A fragment the checks find new: the message's shape matches, the
fragment's slot is empty, and its bytes fit the message and the budget. -/
theorem checkFragment_eq_fresh {config : ReassemblyConfig} {entry : ReassemblyEntry}
    {header : UdpPacketHeader} {payload : List UInt8} {entryBytes : Nat}
    (h : checkFragment config entry header payload = .ok (.fresh entryBytes)) :
    entry.fragmentCount = header.fragmentCount ∧ entry.totalLen = header.totalLen ∧
      entry.fragments.getD header.fragmentIndex.toNat none = none ∧
      entryBytes = entry.receivedBytes + payload.length ∧ entryBytes ≤ entry.totalLen.toNat ∧
      entryBytes ≤ config.maxTotalBytes := by
  unfold checkFragment at h
  split_ifs at h with hshape
  simp only [ne_eq, not_or, not_not] at hshape
  split at h
  · split_ifs at h
    cases h
  · rename_i hslot
    dsimp only at h
    split_ifs at h with htotal hmax
    cases h
    exact ⟨hshape.1, hshape.2, hslot, rfl, Nat.le_of_not_lt htotal, Nat.le_of_not_lt hmax⟩

/-- The errors of the checks on an existing entry. -/
theorem checkFragment_error {config : ReassemblyConfig} {entry : ReassemblyEntry}
    {header : UdpPacketHeader} {payload : List UInt8} {e : UdpTransportError}
    (h : checkFragment config entry header payload = .error e) :
    e = .conflictingFragment ∨ e = .invalidHeader "fragment bytes exceed declared total_len" ∨
      e = .reassemblyLimit "current message exceeds maximum buffered fragment bytes" := by
  unfold checkFragment at h
  split_ifs at h
  · cases h
    exact .inl rfl
  · split at h
    · split_ifs at h
      cases h
      exact .inl rfl
    · dsimp only at h
      split_ifs at h
      · cases h
        exact .inr (.inl rfl)
      · cases h
        exact .inr (.inr rfl)

/-- The first fragment of a message passes the checks against the entry just
opened for it. -/
theorem checkFragment_opened (config : ReassemblyConfig) {header : UdpPacketHeader}
    {payload : List UInt8} (now : Nat)
    (hindex : header.fragmentIndex.toNat < header.fragmentCount.toNat)
    (htotal : payload.length ≤ header.totalLen.toNat) (hmax : payload.length ≤ config.maxTotalBytes) :
    checkFragment config (ReassemblyEntry.opened header now) header payload =
      .ok (.fresh payload.length) := by
  have hslot : (ReassemblyEntry.opened header now).fragments.getD header.fragmentIndex.toNat none =
      none := by
    simp [ReassemblyEntry.opened, List.getD_eq_getElem?_getD, hindex]
  have h := checkFragment_fresh config rfl rfl hslot (by simpa [ReassemblyEntry.opened] using htotal)
    (by simpa [ReassemblyEntry.opened] using hmax)
  simpa [ReassemblyEntry.opened] using h

/-- A fragment of a message the table holds, which the checks on the
message's entry refuse, is refused with their error; when nothing has
expired the table is left as it was. -/
theorem push_refused {r : FragmentReassembler} {f : DecryptedUdpFragment} {now : Nat}
    {entry : ReassemblyEntry} {e : UdpTransportError} (hv : validateFragment f = .ok ())
    (hmulti : f.header.fragmentCount ≠ 1)
    (hfresh : ∀ kv ∈ r.entries.entries, now - kv.2.updatedAt < r.config.timeout)
    (hkey : r.entries.lookup (f.header.sessionId, f.header.messageId) = some entry)
    (hcheck : checkFragment r.config entry f.header f.payload = .error e) :
    r.push f now = (r, .error e) := by
  have hmem : (f.header.sessionId, f.header.messageId) ∈ r.entries :=
    AList.lookup_isSome.mp (by rw [hkey]; rfl)
  simp only [push, hv, hmulti, if_false, cleanupExpired_of_fresh hfresh, admitEntry_of_mem hmem,
    hkey, hcheck]

/-- A message of one fragment is handed out at once and the table is not
touched. -/
theorem push_single {r : FragmentReassembler} {f : DecryptedUdpFragment} (now : Nat)
    (hv : validateFragment f = .ok ()) (hone : f.header.fragmentCount = 1)
    (hlen : f.payload.length = f.header.totalLen.toNat) :
    r.push f now = (r, .ok (some f.payload)) := by
  simp [push, hv, hone, hlen]

/-- `push` of a fresh fragment of a multi-fragment message, when nothing has
expired, the table has room and the bytes fit: the message's entry `e`
(opened if need be) receives the fragment, and nothing else changes. -/
theorem push_fresh {r : FragmentReassembler} {f : DecryptedUdpFragment} {now : Nat}
    {e : ReassemblyEntry} (hv : validateFragment f = .ok ()) (hmulti : f.header.fragmentCount ≠ 1)
    (hfresh : ∀ kv ∈ r.entries.entries, now - kv.2.updatedAt < r.config.timeout)
    (he : (r.entries.lookup (f.header.sessionId, f.header.messageId)).getD
      (ReassemblyEntry.opened f.header now) = e)
    (hroom : (f.header.sessionId, f.header.messageId) ∉ r.entries →
      r.entryCount < r.config.maxEntries)
    (hcount : e.fragmentCount = f.header.fragmentCount) (hlen : e.totalLen = f.header.totalLen)
    (hnone : e.fragments.getD f.header.fragmentIndex.toNat none = none)
    (htotal : e.receivedBytes + f.payload.length ≤ e.totalLen.toNat)
    (hmax : e.receivedBytes + f.payload.length ≤ r.config.maxTotalBytes)
    (hbytes : r.totalBytes + f.payload.length ≤ r.config.maxTotalBytes) :
    ∃ r₁ : FragmentReassembler, r₁.config = r.config ∧ r₁.totalBytes = r.totalBytes ∧
      r₁.entries.lookup (f.header.sessionId, f.header.messageId) = some e ∧
      (∀ k, k ≠ (f.header.sessionId, f.header.messageId) →
        r₁.entries.lookup k = r.entries.lookup k) ∧
      (r₁.entryCount = if (f.header.sessionId, f.header.messageId) ∈ r.entries then r.entryCount
        else r.entryCount + 1) ∧
      r.push f now = r₁.store (f.header.sessionId, f.header.messageId)
        f.header.fragmentIndex.toNat f.payload (e.receivedBytes + f.payload.length) now := by
  have hcl := cleanupExpired_of_fresh hfresh
  have hcheck := checkFragment_fresh r.config hcount hlen hnone htotal hmax
  by_cases hmem : (f.header.sessionId, f.header.messageId) ∈ r.entries
  · -- the message already has an entry
    obtain ⟨e', he'⟩ := Option.isSome_iff_exists.mp (AList.lookup_isSome.mpr hmem)
    rw [he', Option.getD_some] at he
    subst he
    refine ⟨r, rfl, rfl, he', fun _ _ => rfl, by rw [if_pos hmem], ?_⟩
    simp only [push, hv, hmulti, if_false, hcl, admitEntry_of_mem hmem, he', hcheck,
      makeRoom_of_fits hbytes]
  · -- the first fragment to arrive opens the entry
    rw [AList.lookup_eq_none.mpr hmem, Option.getD_none] at he
    subst he
    refine ⟨{ r with
        entries := r.entries.insert (f.header.sessionId, f.header.messageId)
          (ReassemblyEntry.opened f.header now) }, rfl, rfl, AList.lookup_insert _,
      fun k hk => AList.lookup_insert_ne hk, ?_, ?_⟩
    · rw [if_neg hmem]
      exact Table.length_insert_of_notMem hmem _
    · simp only [push, hv, hmulti, if_false, hcl,
        admitEntry_of_not_mem hmem (hroom hmem) f.header
          (show f.payload.length ≤ r.config.maxTotalBytes by omega) now,
        AList.lookup_insert, hcheck]
      rw [makeRoom_of_fits]
      exact hbytes

section PushSteps

/-! What `push` answers, block by block, stated once so that the proofs about
it never unfold it. -/

variable {r r₂ r₃ : FragmentReassembler} {f : DecryptedUdpFragment} {now : Nat}

theorem push_of_invalid {e : UdpTransportError} (hv : validateFragment f = .error e) :
    r.push f now = (r, .error e) := by
  simp only [push, hv]

theorem push_single_cases (hv : validateFragment f = .ok ()) (hone : f.header.fragmentCount = 1) :
    r.push f now = (r, .ok (some f.payload)) ∨
      r.push f now =
        (r, .error (.invalidHeader "single fragment length does not match total_len")) := by
  by_cases hlen : f.payload.length = f.header.totalLen.toNat
  · exact .inl (push_single now hv hone hlen)
  · refine .inr ?_
    simp only [push, hv, hone, if_true, ne_eq, hlen, not_false_eq_true]

variable (hv : validateFragment f = .ok ()) (hmulti : f.header.fragmentCount ≠ 1)
include hv hmulti

theorem push_of_admitEntry_error {e : UdpTransportError}
    (hadm : (r.cleanupExpired now).1.admitEntry (f.header.sessionId, f.header.messageId) f.header
      f.payload now = (r₂, .error e)) :
    r.push f now = (r₂, .error e) := by
  simp only [push, hv, hmulti, if_false, hadm]

variable {entry : ReassemblyEntry}
  (hadm : (r.cleanupExpired now).1.admitEntry (f.header.sessionId, f.header.messageId) f.header
    f.payload now = (r₂, .ok ()))
  (hlook : r₂.entries.lookup (f.header.sessionId, f.header.messageId) = some entry)
include hadm hlook

theorem push_of_checkFragment_error {e : UdpTransportError}
    (hcheck : checkFragment r₂.config entry f.header f.payload = .error e) :
    r.push f now = (r₂, .error e) := by
  simp only [push, hv, hmulti, if_false, hadm, hlook, hcheck]

theorem push_of_duplicate (hcheck : checkFragment r₂.config entry f.header f.payload = .ok .duplicate) :
    r.push f now = (r₂, .ok none) := by
  simp only [push, hv, hmulti, if_false, hadm, hlook, hcheck]

theorem push_of_fresh {entryBytes : Nat}
    (hcheck : checkFragment r₂.config entry f.header f.payload = .ok (.fresh entryBytes))
    (hroom : r₂.makeRoom (f.header.sessionId, f.header.messageId) f.payload.length = (r₃, .ok ())) :
    r.push f now =
      r₃.store (f.header.sessionId, f.header.messageId) f.header.fragmentIndex.toNat f.payload
        entryBytes now := by
  simp only [push, hv, hmulti, if_false, hadm, hlook, hcheck, hroom]

end PushSteps

end FragmentReassembler

end Ppaass.Udp
