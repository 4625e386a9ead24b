import Ppaass.Lib.Machine
import Ppaass.Protocol.Udp.Reassembly

/-!
# The reassembler's accounting

The representation invariant of `FragmentReassembler`, over any sequence of
`push` and `cleanup_expired` calls from `new(config)`, with any fragments
and any instants, not necessarily increasing: `total_bytes` is the sum of
the entries' `received_bytes`; each entry has a slot per fragment, counts
exactly its filled slots and their bytes, within `total_len`, and still
misses a fragment; the table holds at most `max_entries` entries and at
most `max_total_bytes` bytes (`Inv`, `inv_final`).

`Inv` is kept by each operation on the table (`Inv.erase`,
`Inv.insertOpened`, `Inv.cleanupExpired`, `Inv.storeIncomplete`,
`Inv.storeComplete`), and each block of `push` is described once from a
state that has it (`admitEntry_cases`, `makeRoom_spec`, `store_cases`). From
them: the eviction loop always meets the byte budget without touching the
current message, the current entry is never lost, and a completed entry has
every fragment, so `push` never answers `InconsistentReassemblyState` or
"maximum buffered fragment bytes reached".

A failing `push` leaves the table as `cleanup_expired` left it, with one
exception (`push_error_state`): a last fragment that completes an entry
whose bytes differ from its `total_len`. That entry is dropped, and so are
the entries the byte-budget loop evicted for the fragment before the
mismatch was found (`length_mismatch_evicts_other_message`).
-/

namespace Ppaass.Udp

/-- The bytes a slot of `fragments` holds. -/
def slotLength (slot : Option (List UInt8)) : Nat := (slot.getD []).length

namespace ReassemblyEntry

/-- An entry as `push` keeps it: a slot per fragment, counters that are those
of the filled slots, and a fragment still missing. -/
structure WellFormed (e : ReassemblyEntry) : Prop where
  length_fragments : e.fragments.length = e.fragmentCount.toNat
  receivedCount_eq : e.receivedCount = e.fragments.countP Option.isSome
  receivedCount_lt : e.receivedCount < e.fragmentCount.toNat
  receivedBytes_eq : e.receivedBytes = (e.fragments.map slotLength).sum
  receivedBytes_le : e.receivedBytes ≤ e.totalLen.toNat

theorem wellFormed_opened {header : UdpPacketHeader} (hcount : 0 < header.fragmentCount.toNat)
    (now : Nat) : (opened header now).WellFormed where
  length_fragments := List.length_replicate
  receivedCount_eq := by
    simp only [opened, List.countP_replicate, Option.isSome_none, Bool.false_eq_true, if_false]
  receivedCount_lt := hcount
  receivedBytes_eq := by simp [opened, slotLength]
  receivedBytes_le := Nat.zero_le _

/-- Filling an empty slot counts one more fragment and its bytes. -/
theorem countP_sum_set_some {l : List (Option (List UInt8))} {i : Nat} (hi : i < l.length)
    (hslot : l.getD i none = none) (p : List UInt8) :
    (l.set i (some p)).countP Option.isSome = l.countP Option.isSome + 1 ∧
      ((l.set i (some p)).map slotLength).sum = (l.map slotLength).sum + p.length := by
  have hnone : l[i] = none := by rwa [List.getD_eq_getElem _ _ hi] at hslot
  have hcount := Table.countP_set Option.isSome l hi (some p)
  have hsum := Table.sum_map_set slotLength l hi (some p)
  simp only [hnone, Option.isSome_none, Option.isSome_some, Bool.false_eq_true, if_false,
    if_true, slotLength, Option.getD_none, Option.getD_some, List.length_nil] at hcount hsum
  exact ⟨by omega, by simpa [slotLength] using hsum⟩

variable {e : ReassemblyEntry} {index : Nat} {payload : List UInt8} {entryBytes now : Nat}

/-- A fragment stored in an empty slot keeps the entry well formed while a
fragment is still missing. -/
theorem WellFormed.stored (he : e.WellFormed) (hindex : index < e.fragmentCount.toNat)
    (hslot : e.fragments.getD index none = none) (hbytes : entryBytes = e.receivedBytes + payload.length)
    (hle : entryBytes ≤ e.totalLen.toNat) (hmore : e.receivedCount + 1 ≠ e.fragmentCount.toNat) :
    (FragmentReassembler.storedEntry e index payload entryBytes now).WellFormed := by
  obtain ⟨hcount, hsum⟩ := countP_sum_set_some (he.length_fragments ▸ hindex) hslot payload
  have hlt := he.receivedCount_lt
  refine ⟨?_, ?_, ?_, ?_, hle⟩ <;> simp only [FragmentReassembler.storedEntry]
  · rw [List.length_set, he.length_fragments]
  · rw [hcount, he.receivedCount_eq]
  · omega
  · rw [hsum, hbytes, he.receivedBytes_eq]

/-- When the last missing fragment is stored, every slot is filled. -/
theorem WellFormed.mapM_stored (he : e.WellFormed) (hindex : index < e.fragmentCount.toNat)
    (hslot : e.fragments.getD index none = none)
    (hlast : e.receivedCount + 1 = e.fragmentCount.toNat) :
    ∃ parts, (e.fragments.set index (some payload)).mapM id = some parts := by
  obtain ⟨hcount, -⟩ := countP_sum_set_some (he.length_fragments ▸ hindex) hslot payload
  have hall : ∀ slot ∈ e.fragments.set index (some payload), slot.isSome := by
    refine List.countP_eq_length.mp ?_
    rw [hcount, List.length_set, he.length_fragments, ← he.receivedCount_eq, hlast]
  clear hcount
  generalize e.fragments.set index (some payload) = slots at hall ⊢
  induction slots with
  | nil => exact ⟨[], rfl⟩
  | cons slot rest ih =>
    obtain ⟨part, rfl⟩ := Option.isSome_iff_exists.mp (hall slot List.mem_cons_self)
    obtain ⟨parts, hparts⟩ := ih fun s hs => hall s (List.mem_cons_of_mem _ hs)
    exact ⟨part :: parts, by simp [hparts]⟩

end ReassemblyEntry

namespace FragmentReassembler

/-- `received_bytes` summed over the entries. -/
def receivedTotal (r : FragmentReassembler) : Nat :=
  Table.total ReassemblyEntry.receivedBytes r.entries

/-- The representation invariant of `FragmentReassembler`. -/
structure Inv (r : FragmentReassembler) : Prop where
  maxEntries_pos : 0 < r.config.maxEntries
  totalBytes_eq : r.totalBytes = r.receivedTotal
  wellFormed : ∀ k e, r.entries.lookup k = some e → e.WellFormed
  entryCount_le : r.entryCount ≤ r.config.maxEntries
  totalBytes_le : r.totalBytes ≤ r.config.maxTotalBytes

theorem new_eq_ok {config : ReassemblyConfig} {r : FragmentReassembler} (h : new config = .ok r) :
    r = fromValidConfig config ∧ 0 < config.maxEntries := by
  simp only [new] at h
  split_ifs at h with h1
  cases h
  exact ⟨rfl, Nat.pos_of_ne_zero h1⟩

theorem inv_fromValidConfig {config : ReassemblyConfig} (h : 0 < config.maxEntries) :
    (fromValidConfig config).Inv where
  maxEntries_pos := h
  totalBytes_eq := rfl
  wellFormed := fun _ _ hk => by cases hk
  entryCount_le := Nat.zero_le _
  totalBytes_le := Nat.zero_le _

section Operations

variable {r : FragmentReassembler}

/-- Removing an entry and its bytes, as `evict_oldest_except` and the
completion of a message do. -/
theorem Inv.erase (hinv : r.Inv) {k : ReassemblyKey} {e : ReassemblyEntry}
    (hk : r.entries.lookup k = some e) :
    ({ r with entries := r.entries.erase k, totalBytes := r.totalBytes - e.receivedBytes } :
      FragmentReassembler).Inv where
  maxEntries_pos := hinv.maxEntries_pos
  totalBytes_eq := by
    have hsplit := Table.total_erase_add ReassemblyEntry.receivedBytes hk
    have htotal := hinv.totalBytes_eq
    simp only [receivedTotal] at htotal ⊢
    omega
  wellFormed := fun k' e' hk' => hinv.wellFormed k' e' (Table.lookup_of_lookup_erase hk')
  entryCount_le := by
    have hmem : k ∈ r.entries := AList.lookup_isSome.mp (Option.isSome_iff_exists.mpr ⟨e, hk⟩)
    have hlen := Table.length_erase_of_mem hmem
    have hle := hinv.entryCount_le
    simp only [entryCount] at hle ⊢
    omega
  totalBytes_le := Nat.le_trans (Nat.sub_le _ _) hinv.totalBytes_le

/-- Opening the entry of a new message in a table with room. -/
theorem Inv.insertOpened (hinv : r.Inv) {key : ReassemblyKey} (hkey : key ∉ r.entries)
    (hroom : r.entryCount < r.config.maxEntries) {header : UdpPacketHeader}
    (hcount : 0 < header.fragmentCount.toNat) (now : Nat) :
    ({ r with entries := r.entries.insert key (ReassemblyEntry.opened header now) } :
      FragmentReassembler).Inv where
  maxEntries_pos := hinv.maxEntries_pos
  totalBytes_eq := by
    have htotal := hinv.totalBytes_eq
    simp only [receivedTotal, Table.total_insert_of_notMem _ hkey] at htotal ⊢
    simp only [ReassemblyEntry.opened]
    omega
  wellFormed := fun k e hk => by
    by_cases hkk : k = key
    · subst hkk
      rw [AList.lookup_insert, Option.some_inj] at hk
      subst hk
      exact ReassemblyEntry.wellFormed_opened hcount now
    · rw [AList.lookup_insert_ne hkk] at hk
      exact hinv.wellFormed k e hk
  entryCount_le := by
    simp only [entryCount, Table.length_insert_of_notMem hkey] at hroom ⊢
    omega
  totalBytes_le := hinv.totalBytes_le

theorem Inv.cleanupExpired (hinv : r.Inv) (now : Nat) : (r.cleanupExpired now).1.Inv where
  maxEntries_pos := hinv.maxEntries_pos
  totalBytes_eq := by
    have hsplit := Table.sum_map_filter_add_not (fun kv => kv.2.receivedBytes)
      (fun kv => decide (now - kv.2.updatedAt < r.config.timeout)) r.entries.entries
    have htotal := hinv.totalBytes_eq
    simp only [receivedTotal, Table.total] at htotal
    simp only [FragmentReassembler.cleanupExpired, receivedTotal, Table.total]
    omega
  wellFormed := fun k e hk => by
    refine hinv.wellFormed k e (AList.mem_lookup_iff.mpr ?_)
    exact (List.mem_filter.mp (AList.mem_lookup_iff.mp hk)).1
  entryCount_le := Nat.le_trans (List.length_filter_le _ _) hinv.entryCount_le
  totalBytes_le := Nat.le_trans (Nat.sub_le _ _) hinv.totalBytes_le

/-- `evict_oldest_except` finds no entry but `except`, or removes another
entry and its bytes; the lookup of the entry it picked never fails. -/
theorem evictOldestExcept_cases (r : FragmentReassembler) (except : Option ReassemblyKey) :
    ((∀ kv ∈ r.entries.entries, except = some kv.1) ∧ r.evictOldestExcept except = (r, .ok none)) ∨
      ∃ k e, except ≠ some k ∧ r.entries.lookup k = some e ∧
        r.evictOldestExcept except =
          ({ r with entries := r.entries.erase k, totalBytes := r.totalBytes - e.receivedBytes },
            .ok (some k)) := by
  cases hmin : (r.entries.entries.filter (fun kv => except != some kv.1)).argmin
      (fun kv => kv.2.updatedAt) with
  | none =>
    -- nothing but `except` is left
    refine .inl ⟨fun kv hkv => ?_, by simp only [evictOldestExcept, hmin]⟩
    have hnil := List.argmin_eq_none.mp hmin
    by_contra hne
    have hmem : kv ∈ r.entries.entries.filter (fun kv => except != some kv.1) :=
      List.mem_filter.mpr ⟨hkv, by simpa using hne⟩
    rw [hnil] at hmem
    cases hmem
  | some oldest =>
    have hmem := List.mem_filter.mp (List.argmin_mem hmin)
    have hlook : r.entries.lookup oldest.1 = some oldest.2 := AList.mem_lookup_iff.mpr hmem.1
    refine .inr ⟨oldest.1, oldest.2, by simpa using hmem.2, hlook, ?_⟩
    simp only [evictOldestExcept, hmin, hlook]

theorem Inv.evictOldestExcept (hinv : r.Inv) (except : Option ReassemblyKey) :
    (r.evictOldestExcept except).1.Inv := by
  rcases evictOldestExcept_cases r except with ⟨-, hev⟩ | ⟨k, e, -, hk, hev⟩
  · rw [hev]
    exact hinv
  · rw [hev]
    exact hinv.erase hk

section Store

variable {r : FragmentReassembler} {key : ReassemblyKey} {entry : ReassemblyEntry} {index : Nat}
  {payload : List UInt8} {entryBytes : Nat} (now : Nat)
  (hinv : r.Inv) (hkey : r.entries.lookup key = some entry)
  (hindex : index < entry.fragmentCount.toNat) (hslot : entry.fragments.getD index none = none)
  (hbytes : entryBytes = entry.receivedBytes + payload.length)
include hinv hkey hindex hslot hbytes

/-- Storing a fragment of an entry that still misses another. -/
theorem Inv.storeIncomplete (hle : entryBytes ≤ entry.totalLen.toNat)
    (hfit : r.totalBytes + payload.length ≤ r.config.maxTotalBytes)
    (hmore : entry.receivedCount + 1 ≠ entry.fragmentCount.toNat) :
    ({ r with
        entries := r.entries.replace key (storedEntry entry index payload entryBytes now),
        totalBytes := r.totalBytes + payload.length } : FragmentReassembler).Inv where
  maxEntries_pos := hinv.maxEntries_pos
  totalBytes_eq := by
    have hrep := Table.total_replace_add ReassemblyEntry.receivedBytes hkey
      (storedEntry entry index payload entryBytes now)
    have htotal := hinv.totalBytes_eq
    simp only [receivedTotal, storedEntry] at htotal hrep ⊢
    omega
  wellFormed := fun k e hk => by
    have hmem : key ∈ r.entries := AList.lookup_isSome.mp (Option.isSome_iff_exists.mpr ⟨_, hkey⟩)
    rw [Table.lookup_replace_of_mem hmem] at hk
    split_ifs at hk
    · cases hk
      exact (hinv.wellFormed key entry hkey).stored hindex hslot hbytes hle hmore
    · exact hinv.wellFormed k e hk
  entryCount_le := by
    simp only [entryCount, Table.length_replace]
    exact hinv.entryCount_le
  totalBytes_le := hfit

omit hindex hslot in
/-- Storing the last fragment of an entry and removing the entry, as `push`
does whether or not the message's length then matches. -/
theorem Inv.storeComplete :
    ({ r with
        entries :=
          (r.entries.replace key (storedEntry entry index payload entryBytes now)).erase key,
        totalBytes := r.totalBytes + payload.length - entryBytes } : FragmentReassembler).Inv where
  maxEntries_pos := hinv.maxEntries_pos
  totalBytes_eq := by
    have hmem : key ∈ r.entries := AList.lookup_isSome.mp (Option.isSome_iff_exists.mpr ⟨_, hkey⟩)
    have hrep := Table.total_replace_add ReassemblyEntry.receivedBytes hkey
      (storedEntry entry index payload entryBytes now)
    have herase := Table.total_erase_add ReassemblyEntry.receivedBytes
      (by rw [Table.lookup_replace_of_mem hmem, if_pos rfl] :
        (r.entries.replace key (storedEntry entry index payload entryBytes now)).lookup key =
          some (storedEntry entry index payload entryBytes now))
    have htotal := hinv.totalBytes_eq
    simp only [receivedTotal, storedEntry] at htotal hrep herase ⊢
    omega
  wellFormed := fun k e hk => by
    have hne : k ≠ key := fun h => by
      subst h
      rw [AList.lookup_erase] at hk
      cases hk
    have hmem : key ∈ r.entries := AList.lookup_isSome.mp (Option.isSome_iff_exists.mpr ⟨_, hkey⟩)
    rw [AList.lookup_erase_ne hne, Table.lookup_replace_of_mem hmem, if_neg hne] at hk
    exact hinv.wellFormed k e hk
  entryCount_le := by
    rw [Table.erase_replace]
    exact (hinv.erase hkey).entryCount_le
  totalBytes_le := by
    show r.totalBytes + payload.length - entryBytes ≤ r.config.maxTotalBytes
    have := hinv.totalBytes_le
    omega

/-- The end of `push` for a fresh fragment that fits: the entry takes the
fragment, and then waits for more, hands out the message, or is dropped for
a length that does not match `total_len`; the invariant holds after each. -/
theorem store_cases (hle : entryBytes ≤ entry.totalLen.toNat)
    (hfit : r.totalBytes + payload.length ≤ r.config.maxTotalBytes) :
    (r.store key index payload entryBytes now).1.Inv ∧
      (r.store key index payload entryBytes now).1.config = r.config ∧
      ((r.store key index payload entryBytes now).2 = .ok none ∨
        (∃ parts, (r.store key index payload entryBytes now).2 = .ok (some parts)) ∨
        (entry.receivedCount + 1 = entry.fragmentCount.toNat ∧ entryBytes ≠ entry.totalLen.toNat ∧
          r.store key index payload entryBytes now =
            ({ r with
                entries :=
                  (r.entries.replace key (storedEntry entry index payload entryBytes now)).erase key,
                totalBytes := r.totalBytes + payload.length - entryBytes },
              .error (.invalidHeader "reassembled length does not match total_len")))) := by
  by_cases hmore : entry.receivedCount + 1 = entry.fragmentCount.toNat
  · -- the fragment completes the entry, which is removed
    by_cases hmatch : entryBytes = entry.totalLen.toNat
    · obtain ⟨parts, hparts⟩ : ∃ parts, (entry.fragments.set index (some payload)).mapM id =
          some parts := (hinv.wellFormed key entry hkey).mapM_stored hindex hslot hmore
      rw [store_complete hkey hmore hmatch hparts]
      exact ⟨hinv.storeComplete now hkey hbytes, rfl, .inr (.inl ⟨_, rfl⟩)⟩
    · rw [store_mismatch hkey hmore hmatch]
      exact ⟨hinv.storeComplete now hkey hbytes, rfl, .inr (.inr ⟨hmore, hmatch, rfl⟩)⟩
  · rw [store_incomplete hkey hmore]
    exact ⟨hinv.storeIncomplete now hkey hindex hslot hbytes hle hfit hmore, rfl, .inl rfl⟩

end Store

section Admission

variable {r : FragmentReassembler}

/-- The `!contains_key` block of `push` from a state with the invariant: a
message that has an entry is left alone, a first fragment over the byte
budget is refused, and otherwise the message's entry is opened, after the
oldest entry is evicted from a full table; that eviction always finds an
entry. -/
theorem admitEntry_cases (hinv : r.Inv) (key : ReassemblyKey) {header : UdpPacketHeader}
    (hcount : 0 < header.fragmentCount.toNat) (payload : List UInt8) (now : Nat) :
    (key ∈ r.entries ∧ r.admitEntry key header payload now = (r, .ok ())) ∨
    (key ∉ r.entries ∧ r.config.maxTotalBytes < payload.length ∧
      r.admitEntry key header payload now = (r, .error (.reassemblyLimit
        "current message exceeds maximum buffered fragment bytes"))) ∨
    (key ∉ r.entries ∧ payload.length ≤ r.config.maxTotalBytes ∧
      ∃ r', r.admitEntry key header payload now = (r', .ok ()) ∧ r'.Inv ∧ r'.config = r.config ∧
        r'.entries.lookup key = some (ReassemblyEntry.opened header now)) := by
  by_cases hmem : key ∈ r.entries
  · exact .inl ⟨hmem, admitEntry_of_mem hmem header payload now⟩
  by_cases hbig : r.config.maxTotalBytes < payload.length
  · exact .inr (.inl ⟨hmem, hbig, by simp only [admitEntry, hmem, if_false, hbig, if_true]⟩)
  refine .inr (.inr ⟨hmem, Nat.le_of_not_lt hbig, ?_⟩)
  by_cases hfull : r.config.maxEntries ≤ r.entryCount
  · -- a full table is not empty, so eviction removes its oldest entry
    rcases evictOldestExcept_cases r none with ⟨hall, -⟩ | ⟨k, e, -, hk, hev⟩
    · have hpos : 0 < r.entries.entries.length := Nat.lt_of_lt_of_le hinv.maxEntries_pos hfull
      obtain ⟨kv, hkv⟩ := List.exists_mem_of_length_pos hpos
      cases hall kv hkv
    · have hkmem : k ∈ r.entries := AList.lookup_isSome.mp (Option.isSome_iff_exists.mpr ⟨_, hk⟩)
      have hlen := Table.length_erase_of_mem hkmem
      have hroom : (r.entries.erase k).entries.length < r.config.maxEntries := by
        have := hinv.entryCount_le
        simp only [entryCount] at this
        omega
      have hkey : key ∉ r.entries.erase k := fun h => hmem (AList.mem_erase.mp h).2
      refine ⟨_, ?_, (hinv.erase hk).insertOpened hkey hroom hcount now, rfl,
        AList.lookup_insert _⟩
      simp only [admitEntry, hmem, if_false, hbig, ge_iff_le, hfull, if_true, hev]
  · have hroom := Nat.lt_of_not_le hfull
    exact ⟨_, admitEntry_of_not_mem hmem hroom header (Nat.le_of_not_lt hbig) now,
      hinv.insertOpened hmem hroom hcount now, rfl, AList.lookup_insert _⟩

/-- The byte-budget loop of `push` from a state with the invariant, in which
the current message's entry `e` with the new fragment's `extra` bytes fits the
budget: it evicts other entries until the fragment fits, and gets there
before the fuel runs out. -/
theorem makeRoomFuel_spec {key : ReassemblyKey} {extra : Nat} {e : ReassemblyEntry} :
    ∀ (fuel : Nat) (r : FragmentReassembler), r.entryCount < fuel → r.Inv →
      r.entries.lookup key = some e → e.receivedBytes + extra ≤ r.config.maxTotalBytes →
      ∃ r', makeRoomFuel key extra fuel r = (r', .ok ()) ∧ r'.Inv ∧ r'.config = r.config ∧
        r'.entries.lookup key = some e ∧ r'.totalBytes + extra ≤ r'.config.maxTotalBytes ∧
        ∀ k e', r'.entries.lookup k = some e' → r.entries.lookup k = some e' := by
  intro fuel
  induction fuel with
  | zero => intro r hfuel; omega
  | succ fuel ih =>
    intro r hfuel hinv hkey hfit
    by_cases hfits : r.totalBytes + extra ≤ r.config.maxTotalBytes
    · exact ⟨r, by simp only [makeRoomFuel, hfits, if_true], hinv, rfl, hkey, hfits,
        fun _ _ h => h⟩
    rcases evictOldestExcept_cases r (some key) with ⟨hall, -⟩ | ⟨k, e', hne, hk, hev⟩
    · -- only the current entry is left, and it fits: the loop has already stopped
      have hsole : r.receivedTotal = e.receivedBytes :=
        Table.total_of_forall_key _ hkey fun kv hkv => (Option.some_inj.mp (hall kv hkv)).symm
      have := hinv.totalBytes_eq
      omega
    · -- another entry is evicted and the loop goes round again
      have hkk : key ≠ k := fun h => hne (congrArg some h)
      have hkmem : k ∈ r.entries := AList.lookup_isSome.mp (Option.isSome_iff_exists.mpr ⟨_, hk⟩)
      have hlen := Table.length_erase_of_mem hkmem
      obtain ⟨r', hloop, hinv', hcfg, hkey', hfit', hsub⟩ := ih _
        (by simp only [entryCount] at hfuel ⊢; omega) (hinv.erase hk)
        (by rw [AList.lookup_erase_ne hkk]; exact hkey) hfit
      refine ⟨r', ?_, hinv', hcfg, hkey', hfit', fun k₁ e₁ h₁ => ?_⟩
      · simp only [makeRoomFuel, hfits, if_false, hev]
        exact hloop
      · exact Table.lookup_of_lookup_erase (hsub k₁ e₁ h₁)

theorem makeRoom_spec (hinv : r.Inv) {key : ReassemblyKey} {e : ReassemblyEntry}
    (hkey : r.entries.lookup key = some e) {extra : Nat}
    (hfit : e.receivedBytes + extra ≤ r.config.maxTotalBytes) :
    ∃ r', r.makeRoom key extra = (r', .ok ()) ∧ r'.Inv ∧ r'.config = r.config ∧
      r'.entries.lookup key = some e ∧ r'.totalBytes + extra ≤ r'.config.maxTotalBytes ∧
      ∀ k e', r'.entries.lookup k = some e' → r.entries.lookup k = some e' :=
  makeRoomFuel_spec _ r (Nat.lt_succ_self _) hinv hkey hfit

end Admission

end Operations

-- ---------------------------------------------------------------------------
-- `push`
-- ---------------------------------------------------------------------------

/-- The errors `push` answers from a state with the invariant: those of
`validate_fragment`, a single fragment of the wrong length, a fragment that
contradicts its message's entry or overflows its message, and a completed
message of the wrong length. -/
inductive PushError (f : DecryptedUdpFragment) : UdpTransportError → Prop
  | invalid {e : UdpTransportError} : validateFragment f = .error e → PushError f e
  | singleLength :
    PushError f (.invalidHeader "single fragment length does not match total_len")
  | messageOverBudget :
    PushError f (.reassemblyLimit "current message exceeds maximum buffered fragment bytes")
  | conflicting : PushError f .conflictingFragment
  | overTotalLen : PushError f (.invalidHeader "fragment bytes exceed declared total_len")
  | lengthMismatch :
    PushError f (.invalidHeader "reassembled length does not match total_len")

/-- `validate_fragment` rejects only on the header and the fragment's own
bytes, never with a reassembly error. -/
theorem validateFragment_error {f : DecryptedUdpFragment} {e : UdpTransportError}
    (h : validateFragment f = .error e) :
    (∀ msg, e ≠ .inconsistentReassemblyState msg) ∧ ∀ msg, e ≠ .reassemblyLimit msg := by
  cases hval : f.header.validate with
  | error e' =>
    simp only [validateFragment, hval, Result.error_bind, Except.error.injEq] at h
    subst h
    simp only [UdpPacketHeader.validate] at hval
    split_ifs at hval <;> cases hval <;> simp
  | ok u =>
    simp only [validateFragment, hval, Result.ok_bind] at h
    split_ifs at h <;> cases h <;> simp

theorem PushError.ne_inconsistent {f : DecryptedUdpFragment} {e : UdpTransportError}
    (h : PushError f e) (msg : String) : e ≠ .inconsistentReassemblyState msg := by
  cases h with
  | invalid hv => exact (validateFragment_error hv).1 msg
  | _ => simp

theorem PushError.ne_budget {f : DecryptedUdpFragment} {e : UdpTransportError}
    (h : PushError f e) : e ≠ .reassemblyLimit "maximum buffered fragment bytes reached" := by
  cases h with
  | invalid hv => exact (validateFragment_error hv).2 _
  | _ => simp

section Push

variable {r r₂ : FragmentReassembler} {f : DecryptedUdpFragment} {now : Nat}
  {entry : ReassemblyEntry}

/-- `push` once the message has its entry: the fragment is refused by the
checks on the entry, a duplicate, or stored after the byte-budget loop made
room for it. -/
theorem push_after_admission (hv : validateFragment f = .ok ())
    (hmulti : f.header.fragmentCount ≠ 1)
    (hadm : (r.cleanupExpired now).1.admitEntry (f.header.sessionId, f.header.messageId)
      f.header f.payload now = (r₂, .ok ()))
    (hlook : r₂.entries.lookup (f.header.sessionId, f.header.messageId) = some entry)
    (hinv₂ : r₂.Inv) (hindex : f.header.fragmentIndex.toNat < f.header.fragmentCount.toNat) :
    (r.push f now).1.Inv ∧ (r.push f now).1.config = r₂.config ∧
      ∀ e, (r.push f now).2 = .error e → PushError f e := by
  cases hcheck : checkFragment r₂.config entry f.header f.payload with
  | error e =>
    rw [push_of_checkFragment_error hv hmulti hadm hlook hcheck]
    refine ⟨hinv₂, rfl, fun e' he' => ?_⟩
    cases he'
    rcases checkFragment_error hcheck with rfl | rfl | rfl
    · exact .conflicting
    · exact .overTotalLen
    · exact .messageOverBudget
  | ok c =>
    cases c with
    | duplicate =>
      rw [push_of_duplicate hv hmulti hadm hlook hcheck]
      exact ⟨hinv₂, rfl, fun e he => by cases he⟩
    | fresh entryBytes =>
      obtain ⟨hcount, -, hslot, hbytes, hle, hmax⟩ := checkFragment_eq_fresh hcheck
      obtain ⟨r₃, hroom, hinv₃, hcfg₃, hlook₃, hfit₃, -⟩ := makeRoom_spec hinv₂ hlook
        (show entry.receivedBytes + f.payload.length ≤ r₂.config.maxTotalBytes by omega)
      rw [push_of_fresh hv hmulti hadm hlook hcheck hroom]
      have hindex' : f.header.fragmentIndex.toNat < entry.fragmentCount.toNat := by
        rw [hcount]
        exact hindex
      obtain ⟨hinv₄, hcfg₄, hout⟩ := store_cases now hinv₃ hlook₃ hindex' hslot hbytes hle hfit₃
      refine ⟨hinv₄, hcfg₄.trans hcfg₃, fun e he => ?_⟩
      rcases hout with hok | ⟨parts, hok⟩ | ⟨-, -, hmis⟩
      · rw [hok] at he
        cases he
      · rw [hok] at he
        cases he
      · rw [hmis] at he
        cases he
        exact .lengthMismatch

/-- `push` from a state with the invariant keeps it, and answers only the
errors of `PushError`. -/
theorem push_cases (hinv : r.Inv) (f : DecryptedUdpFragment) (now : Nat) :
    (r.push f now).1.Inv ∧ (r.push f now).1.config = r.config ∧
      ∀ e, (r.push f now).2 = .error e → PushError f e := by
  cases hv : validateFragment f with
  | error e =>
    rw [push_of_invalid hv]
    exact ⟨hinv, rfl, fun e' he' => by cases he'; exact .invalid hv⟩
  | ok u =>
    cases u
    obtain ⟨hvalid, -⟩ := (validateFragment_eq_ok_iff f).mp hv
    by_cases hone : f.header.fragmentCount = 1
    · -- a message of one fragment never reaches the table
      rcases push_single_cases hv hone with hpush | hpush <;> rw [hpush]
      · exact ⟨hinv, rfl, fun e he => by cases he⟩
      · exact ⟨hinv, rfl, fun e he => by cases he; exact .singleLength⟩
    have hinv₁ := hinv.cleanupExpired now
    rcases admitEntry_cases hinv₁ (f.header.sessionId, f.header.messageId) hvalid.count_pos
        f.payload now with ⟨hmem, hadm⟩ | ⟨-, -, hadm⟩ | ⟨-, -, r₂, hadm, hinv₂, hcfg₂, hlook₂⟩
    · obtain ⟨entry, hlook⟩ := Option.isSome_iff_exists.mp (AList.lookup_isSome.mpr hmem)
      obtain ⟨hinv', hcfg', herr⟩ := push_after_admission hv hone hadm hlook hinv₁ hvalid.index_lt
      exact ⟨hinv', hcfg', herr⟩
    · rw [push_of_admitEntry_error hv hone hadm]
      exact ⟨hinv₁, rfl, fun e he => by cases he; exact .messageOverBudget⟩
    · obtain ⟨hinv', hcfg', herr⟩ := push_after_admission hv hone hadm hlook₂ hinv₂ hvalid.index_lt
      exact ⟨hinv', hcfg'.trans hcfg₂, herr⟩

/-- The first fragment of a new message, once its entry is opened, is stored
and the call succeeds: a message of several fragments is not complete after
one. -/
theorem push_of_opened (hv : validateFragment f = .ok ()) (hmulti : f.header.fragmentCount ≠ 1)
    (hadm : (r.cleanupExpired now).1.admitEntry (f.header.sessionId, f.header.messageId)
      f.header f.payload now = (r₂, .ok ()))
    (hlook : r₂.entries.lookup (f.header.sessionId, f.header.messageId) =
      some (ReassemblyEntry.opened f.header now))
    (hinv₂ : r₂.Inv) (hsmall : f.payload.length ≤ r₂.config.maxTotalBytes) :
    (r.push f now).2 = .ok none := by
  obtain ⟨hvalid, -, -, htotal, -, -⟩ := (validateFragment_eq_ok_iff f).mp hv
  have hcheck := checkFragment_opened r₂.config now hvalid.index_lt htotal hsmall
  obtain ⟨r₃, hroom, -, -, hlook₃, -, -⟩ := makeRoom_spec hinv₂ hlook
    (show (ReassemblyEntry.opened f.header now).receivedBytes + f.payload.length ≤
      r₂.config.maxTotalBytes from by simpa [ReassemblyEntry.opened] using hsmall)
  have hmore : (ReassemblyEntry.opened f.header now).receivedCount + 1 ≠
      (ReassemblyEntry.opened f.header now).fragmentCount.toNat := by
    simp only [ReassemblyEntry.opened, Nat.zero_add]
    intro hone
    exact hmulti (UInt16.toNat_inj.mp (by rw [← hone]; rfl))
  rw [push_of_fresh hv hmulti hadm hlook hcheck hroom, store_incomplete hlook₃ hmore]

/-- How `push` leaves the table `r₁` (what `cleanup_expired` left) as `r'`
when the fragment `f` was the last missing one of its message's entry
`entry`, whose bytes then differ from its `total_len`: the entry is gone,
the other entries are some of `r₁`'s, and all of them when `r₁`'s bytes and
the fragment's fit the budget without eviction. -/
structure DroppedMismatch (r₁ r' : FragmentReassembler) (f : DecryptedUdpFragment)
    (entry : ReassemblyEntry) : Prop where
  lastFragment : entry.receivedCount + 1 = entry.fragmentCount.toNat
  wrongLength : entry.receivedBytes + f.payload.length ≠ entry.totalLen.toNat
  dropped : r'.entries.lookup (f.header.sessionId, f.header.messageId) = none
  only_removed : ∀ k e, r'.entries.lookup k = some e → r₁.entries.lookup k = some e
  exact_of_fits : r₁.totalBytes + f.payload.length ≤ r₁.config.maxTotalBytes →
    r' = { r₁ with
      entries := r₁.entries.erase (f.header.sessionId, f.header.messageId),
      totalBytes := r₁.totalBytes - entry.receivedBytes }

/-- A failing `push` of a fragment of a message that has an entry: the table
is what `cleanup_expired` left, unless the fragment completed the entry with
the wrong length. -/
theorem push_error_of_mem (hinv₁ : (r.cleanupExpired now).1.Inv) (hv : validateFragment f = .ok ())
    (hmulti : f.header.fragmentCount ≠ 1)
    (hlook : (r.cleanupExpired now).1.entries.lookup (f.header.sessionId, f.header.messageId) =
      some entry) {e : UdpTransportError} (h : (r.push f now).2 = .error e) :
    (r.push f now).1 = (r.cleanupExpired now).1 ∨
      (e = .invalidHeader "reassembled length does not match total_len" ∧
        DroppedMismatch (r.cleanupExpired now).1 (r.push f now).1 f entry) := by
  have hmem : (f.header.sessionId, f.header.messageId) ∈ (r.cleanupExpired now).1.entries :=
    AList.lookup_isSome.mp (Option.isSome_iff_exists.mpr ⟨_, hlook⟩)
  have hadm := admitEntry_of_mem hmem f.header f.payload now
  obtain ⟨hvalid, -⟩ := (validateFragment_eq_ok_iff f).mp hv
  cases hcheck : checkFragment (r.cleanupExpired now).1.config entry f.header f.payload with
  | error e' =>
    exact .inl (by rw [push_of_checkFragment_error hv hmulti hadm hlook hcheck])
  | ok c =>
    cases c with
    | duplicate =>
      rw [push_of_duplicate hv hmulti hadm hlook hcheck] at h
      cases h
    | fresh entryBytes =>
      obtain ⟨hcount, -, hslot, hbytes, hle, hmax⟩ := checkFragment_eq_fresh hcheck
      obtain ⟨r₃, hroom, hinv₃, -, hlook₃, hfit₃, hsub⟩ := makeRoom_spec hinv₁ hlook
        (show entry.receivedBytes + f.payload.length ≤ r.config.maxTotalBytes by
          exact hbytes ▸ hmax)
      have hindex : f.header.fragmentIndex.toNat < entry.fragmentCount.toNat := by
        rw [hcount]
        exact hvalid.index_lt
      rw [push_of_fresh hv hmulti hadm hlook hcheck hroom] at h ⊢
      obtain ⟨-, -, hout⟩ := store_cases now hinv₃ hlook₃ hindex hslot hbytes hle hfit₃
      rcases hout with hok | ⟨parts, hok⟩ | ⟨hmore, hmatch, hmis⟩
      · rw [hok] at h
        cases h
      · rw [hok] at h
        cases h
      -- the completed entry has the wrong length: it is dropped after the loop
      rw [hmis] at h ⊢
      cases h
      have hmem₃ : (f.header.sessionId, f.header.messageId) ∈ r₃.entries :=
        AList.lookup_isSome.mp (Option.isSome_iff_exists.mpr ⟨_, hlook₃⟩)
      refine .inr ⟨rfl, hmore, hbytes ▸ hmatch, AList.lookup_erase _ _, fun k e' hk => ?_,
        fun hfits => ?_⟩
      · have hne : k ≠ (f.header.sessionId, f.header.messageId) := fun hk' => by
          subst hk'
          rw [AList.lookup_erase] at hk
          cases hk
        rw [AList.lookup_erase_ne hne, Table.lookup_replace_of_mem hmem₃, if_neg hne] at hk
        exact hsub k e' hk
      · -- within the budget the loop evicts nothing
        rw [makeRoom_of_fits hfits, Prod.mk.injEq] at hroom
        obtain ⟨rfl, -⟩ := hroom
        simp only [Table.erase_replace, FragmentReassembler.mk.injEq, true_and]
        omega

/-- What a failing `push` leaves, from a state with the invariant: the state
itself when the fragment is refused before the table is looked at, the table
`cleanup_expired(now)` left for every other refusal but one, and for a last
fragment that completes its entry with the wrong length that table as
`DroppedMismatch` says. -/
theorem push_error_state (hinv : r.Inv) {e : UdpTransportError} (h : (r.push f now).2 = .error e) :
    (r.push f now).1 = r ∨ (r.push f now).1 = (r.cleanupExpired now).1 ∨
      (e = .invalidHeader "reassembled length does not match total_len" ∧
        ∃ entry, (r.cleanupExpired now).1.entries.lookup (f.header.sessionId, f.header.messageId) =
          some entry ∧ DroppedMismatch (r.cleanupExpired now).1 (r.push f now).1 f entry) := by
  cases hv : validateFragment f with
  | error e' => exact .inl (by rw [push_of_invalid hv])
  | ok u =>
    cases u
    obtain ⟨hvalid, -⟩ := (validateFragment_eq_ok_iff f).mp hv
    by_cases hone : f.header.fragmentCount = 1
    · rcases (push_single_cases hv hone : r.push f now = _ ∨ r.push f now = _) with
        hpush | hpush <;> exact .inl (by rw [hpush])
    have hinv₁ := hinv.cleanupExpired now
    rcases admitEntry_cases hinv₁ (f.header.sessionId, f.header.messageId) hvalid.count_pos
        f.payload now with ⟨hmem, -⟩ | ⟨-, -, hadm⟩ | ⟨-, hsmall, r₂, hadm, hinv₂, hcfg₂, hlook₂⟩
    · -- the message has an entry
      obtain ⟨entry, hlook⟩ := Option.isSome_iff_exists.mp (AList.lookup_isSome.mpr hmem)
      rcases push_error_of_mem hinv₁ hv hone hlook h with hst | ⟨he, hdrop⟩
      · exact .inr (.inl hst)
      · exact .inr (.inr ⟨he, entry, hlook, hdrop⟩)
    · -- a first fragment over the budget
      exact .inr (.inl (by rw [push_of_admitEntry_error hv hone hadm]))
    · -- a first fragment within the budget is stored: the call does not fail
      rw [push_of_opened hv hone hadm hlook₂ hinv₂ (hcfg₂ ▸ hsmall)] at h
      cases h

end Push

-- ---------------------------------------------------------------------------
-- Runs
-- ---------------------------------------------------------------------------

/-- The calls a user of the reassembler makes. -/
inductive ReassemblyCall where
  | push (fragment : DecryptedUdpFragment) (now : Nat)
  | cleanupExpired (now : Nat)

/-- What a call answers. -/
inductive ReassemblyAnswer where
  | pushed (result : Except UdpTransportError (Option (List UInt8)))
  | cleaned (removed : Nat)

/-- One call on the reassembler. -/
def call (r : FragmentReassembler) : ReassemblyCall → FragmentReassembler × ReassemblyAnswer
  | .push f now => ((r.push f now).1, .pushed (r.push f now).2)
  | .cleanupExpired now => ((r.cleanupExpired now).1, .cleaned (r.cleanupExpired now).2)

theorem Inv.call {r : FragmentReassembler} (hinv : r.Inv) (c : ReassemblyCall) :
    (r.call c).1.Inv ∧ (r.call c).1.config = r.config := by
  cases c with
  | push f now => exact ⟨(push_cases hinv f now).1, (push_cases hinv f now).2.1⟩
  | cleanupExpired now => exact ⟨hinv.cleanupExpired now, rfl⟩

/-- Every state a run of calls reaches from `new(config)` has the invariant
and the same config. -/
theorem inv_final {config : ReassemblyConfig} {r₀ : FragmentReassembler}
    (hnew : new config = .ok r₀) (calls : List ReassemblyCall) :
    (Machine.final call r₀ calls).Inv ∧ (Machine.final call r₀ calls).config = config := by
  obtain ⟨rfl, hpos⟩ := new_eq_ok hnew
  refine Machine.final_preserved (P := fun r : FragmentReassembler => r.Inv ∧ r.config = config) ?_
    ⟨inv_fromValidConfig hpos, rfl⟩ calls
  rintro r c ⟨hinv, hcfg⟩
  obtain ⟨hinv', hcfg'⟩ := hinv.call c
  exact ⟨hinv', hcfg'.trans hcfg⟩

/-- No part of the entries holds more than `total_bytes`: what `cleanup_expired`,
`evict_oldest_except` and the completion of a message subtract from it is
never more than it holds. -/
theorem Inv.sum_filter_le {r : FragmentReassembler} (hinv : r.Inv)
    (p : (Σ _ : ReassemblyKey, ReassemblyEntry) → Bool) :
    ((r.entries.entries.filter p).map fun kv => kv.2.receivedBytes).sum ≤ r.totalBytes := by
  have hsplit := Table.sum_map_filter_add_not (fun kv => kv.2.receivedBytes) p r.entries.entries
  have htotal := hinv.totalBytes_eq
  simp only [receivedTotal, Table.total] at htotal
  omega

/-- The representation invariant over every run from `new(config)`, whatever
the fragments and however the instants go: `total_bytes` is the sum of the
entries' `received_bytes`, every entry is well formed, the table keeps within
`max_entries` and `max_total_bytes`, no part of the entries holds more than
`total_bytes`, and the next `push` answers neither a lost entry nor an unmet
byte budget. -/
theorem reassembler_accounting {config : ReassemblyConfig} {r₀ : FragmentReassembler}
    (hnew : new config = .ok r₀) (calls : List ReassemblyCall) :
    let r := Machine.final call r₀ calls
    r.config = config ∧ r.totalBytes = r.receivedTotal ∧
      (∀ k e, r.entries.lookup k = some e → e.WellFormed) ∧
      r.entryCount ≤ config.maxEntries ∧ r.totalBytes ≤ config.maxTotalBytes ∧
      (∀ p : (Σ _ : ReassemblyKey, ReassemblyEntry) → Bool,
        ((r.entries.entries.filter p).map fun kv => kv.2.receivedBytes).sum ≤ r.totalBytes) ∧
      ∀ f now, (∀ msg, (r.push f now).2 ≠ .error (.inconsistentReassemblyState msg)) ∧
        (r.push f now).2 ≠ .error (.reassemblyLimit "maximum buffered fragment bytes reached") := by
  intro r
  obtain ⟨hinv, hcfg⟩ := inv_final hnew calls
  have hentries := hinv.entryCount_le
  have hbytes := hinv.totalBytes_le
  rw [hcfg] at hentries hbytes
  refine ⟨hcfg, hinv.totalBytes_eq, hinv.wellFormed, hentries, hbytes, hinv.sum_filter_le,
    fun f now => ⟨fun msg herr => ?_, fun herr => ?_⟩⟩
  · exact ((push_cases hinv f now).2.2 _ herr).ne_inconsistent msg rfl
  · exact ((push_cases hinv f now).2.2 _ herr).ne_budget rfl

/-- A fragment of a message of the session with the all-zero id. -/
def sampleFragment (messageId : UInt64) (index count : UInt16) (totalLen : UInt32)
    (payload : List UInt8) : DecryptedUdpFragment :=
  ⟨UdpPacketHeader.new .encrypted (Vector.replicate 16 0) 0 messageId index count totalLen, payload⟩

theorem reassembler_accounting_default :
    new ReassemblyConfig.default = .ok (fromValidConfig ReassemblyConfig.default) ∧
      (Machine.final call (fromValidConfig ReassemblyConfig.default)
        [.push (sampleFragment 1 0 2 10 [1, 1, 1, 1, 1]) 0, .cleanupExpired 1]).entryCount ≤
        ReassemblyConfig.default.maxEntries := by
  have hnew : new ReassemblyConfig.default = .ok (fromValidConfig ReassemblyConfig.default) := rfl
  exact ⟨hnew, (reassembler_accounting hnew
    [.push (sampleFragment 1 0 2 10 [1, 1, 1, 1, 1]) 0, .cleanupExpired 1]).2.2.2.1⟩

/-- With a budget of 10 bytes, message 1 holds 5 bytes and message 2 one
byte of its declared 8. Message 2's last fragment brings 5 bytes: the table
would hold 11, so the byte-budget loop evicts message 1; only then does the
completed message 2 turn out to hold 6 bytes, not 8. The call fails, and
message 1's entry is gone with it, though `cleanup_expired` keeps it. -/
theorem length_mismatch_evicts_other_message :
    let r : FragmentReassembler := Machine.final call (fromValidConfig ⟨4, 10, 1000⟩)
      [.push (sampleFragment 1 0 2 10 [1, 1, 1, 1, 1]) 0, .push (sampleFragment 2 0 2 8 [2]) 1]
    let f : DecryptedUdpFragment := sampleFragment 2 1 2 8 [3, 3, 3, 3, 3]
    (r.push f 2).2 = .error (.invalidHeader "reassembled length does not match total_len") ∧
      ((r.cleanupExpired 2).1.entries.lookup (Vector.replicate 16 0, 1)).isSome ∧
      (r.push f 2).1.entries.lookup (Vector.replicate 16 0, 1) = none ∧
      (r.push f 2).1.totalBytes = 0 := by
  decide

end FragmentReassembler

end Ppaass.Udp
