import Mathlib

/-!
# Finite maps with a fixed value type

A `HashMap` with keys of type `α` and values of type `β` is modelled as a
Mathlib `AList`, whose list of entries keeps its keys distinct. These are the
facts about `replace`, `erase` and `insert` that the proofs about such a map
use: what a key looks up to after a `replace`, and how each changes the number
of entries and a sum of weights over the values (`total`).
-/

namespace Ppaass.Table

variable {α β : Type _}

theorem length_entries_eq_keys (s : AList (fun _ : α => β)) :
    s.entries.length = s.keys.length := by
  simp [AList.keys, List.keys]

variable [DecidableEq α]

/-- Replacing the value of a key changes what that key, if present, looks up
to, and nothing else. -/
theorem lookup_replace (s : AList (fun _ : α => β)) (k a : α) (v : β) :
    (s.replace k v).lookup a = if a = k ∧ k ∈ s then some v else s.lookup a := by
  obtain ⟨l, hl⟩ := s
  simp only [AList.replace, AList.lookup, AList.mem_keys, AList.keys]
  clear hl
  induction l with
  | nil => simp [List.kreplace, List.dlookup_nil]
  | cons kv l ih =>
    obtain ⟨k', v'⟩ := kv
    by_cases hk : k = k'
    · -- the head is the key replaced
      subst hk
      have hrep : List.kreplace k v (⟨k, v'⟩ :: l) = ⟨k, v⟩ :: l := by
        unfold List.kreplace
        exact List.lookmap_cons_some _ _ (if_pos rfl)
      rw [hrep]
      by_cases ha : a = k
      · subst ha
        simp [List.dlookup_cons_eq]
      · rw [List.dlookup_cons_ne l (⟨k, v⟩ : Σ _ : α, β) ha,
          List.dlookup_cons_ne l (⟨k, v'⟩ : Σ _ : α, β) ha]
        simp [ha]
    · have hrep : List.kreplace k v (⟨k', v'⟩ :: l) = ⟨k', v'⟩ :: List.kreplace k v l := by
        unfold List.kreplace
        exact List.lookmap_cons_none _ _ (if_neg hk)
      rw [hrep]
      by_cases ha : a = k'
      · subst ha
        simp [List.dlookup_cons_eq, Ne.symm hk]
      · rw [List.dlookup_cons_ne _ (⟨k', v'⟩ : Σ _ : α, β) ha,
          List.dlookup_cons_ne _ (⟨k', v'⟩ : Σ _ : α, β) ha, ih]
        have hmem : k ∈ (⟨k', v'⟩ :: l : List (Σ _ : α, β)).keys ↔ k ∈ l.keys := by
          simp [List.keys, hk]
        by_cases hc : a = k ∧ k ∈ l.keys
        · rw [if_pos hc, if_pos ⟨hc.1, hmem.mpr hc.2⟩]
        · rw [if_neg hc, if_neg (fun h => hc ⟨h.1, hmem.mp h.2⟩)]

/-- What a key looks up to after replacing the value of a key that is present. -/
theorem lookup_replace_of_mem {s : AList (fun _ : α => β)} {k : α} (hk : k ∈ s) (v : β) (a : α) :
    (s.replace k v).lookup a = if a = k then some v else s.lookup a := by
  simp [lookup_replace, hk]

/-- Erasing a key only takes entries away. -/
theorem lookup_of_lookup_erase {s : AList (fun _ : α => β)} {k a : α} {v : β}
    (h : (s.erase k).lookup a = some v) : s.lookup a = some v := by
  by_cases ha : a = k
  · rw [ha, AList.lookup_erase] at h
    cases h
  · rwa [AList.lookup_erase_ne ha] at h

/-- Erasing a key forgets what replaced its value. -/
theorem erase_replace (s : AList (fun _ : α => β)) (k : α) (v : β) :
    (s.replace k v).erase k = s.erase k := by
  obtain ⟨l, hl⟩ := s
  refine AList.ext ?_
  simp only [AList.erase, AList.replace]
  clear hl
  induction l with
  | nil => rfl
  | cons kv l ih =>
    obtain ⟨k', w⟩ := kv
    by_cases hkk : k = k'
    · subst hkk
      have hrep : List.kreplace k v (⟨k, w⟩ :: l) = ⟨k, v⟩ :: l := by
        unfold List.kreplace
        exact List.lookmap_cons_some _ _ (if_pos rfl)
      rw [hrep, List.kerase_cons_eq (s := (⟨k, v⟩ : Σ _ : α, β)) rfl,
        List.kerase_cons_eq (s := (⟨k, w⟩ : Σ _ : α, β)) rfl]
    · have hrep : List.kreplace k v (⟨k', w⟩ :: l) = ⟨k', w⟩ :: List.kreplace k v l := by
        unfold List.kreplace
        exact List.lookmap_cons_none _ _ (if_neg hkk)
      rw [hrep, List.kerase_cons_ne (s := (⟨k', w⟩ : Σ _ : α, β)) hkk,
        List.kerase_cons_ne (s := (⟨k', w⟩ : Σ _ : α, β)) hkk, ih]

@[simp] theorem length_replace (s : AList (fun _ : α => β)) (k : α) (v : β) :
    (s.replace k v).entries.length = s.entries.length := by
  rw [length_entries_eq_keys, AList.keys_replace, ← length_entries_eq_keys]

theorem length_erase_of_mem {s : AList (fun _ : α => β)} {k : α} (hk : k ∈ s) :
    (s.erase k).entries.length + 1 = s.entries.length := by
  rw [length_entries_eq_keys, AList.keys_erase, length_entries_eq_keys,
    List.length_erase_of_mem (AList.mem_keys.mp hk)]
  have := List.length_pos_of_mem (AList.mem_keys.mp hk)
  omega

theorem mem_entries_of_mem_erase {s : AList (fun _ : α => β)} {k : α}
    {kv : Σ _ : α, β} (h : kv ∈ (s.erase k).entries) : kv ∈ s.entries :=
  (List.kerase_sublist k s.entries).subset h

theorem length_insert_of_notMem {s : AList (fun _ : α => β)} {k : α} (hk : k ∉ s) (v : β) :
    (s.insert k v).entries.length = s.entries.length + 1 := by
  rw [AList.entries_insert_of_notMem hk, List.length_cons]

/-- A map whose entries are among another's looks its keys up to the same
values. -/
theorem lookup_of_subset {s s' : AList (fun _ : α => β)} (h : s'.entries ⊆ s.entries) {a : α}
    {v : β} (hv : s'.lookup a = some v) : s.lookup a = some v := by
  rw [← Option.mem_def, AList.mem_lookup_iff] at hv ⊢
  exact h hv

/-- Removing keys one by one. -/
def eraseAll (s : AList (fun _ : α => β)) (keys : List α) : AList (fun _ : α => β) :=
  keys.foldl (fun s k => s.erase k) s

theorem lookup_eraseAll (s : AList (fun _ : α => β)) (keys : List α) (a : α) :
    (eraseAll s keys).lookup a = if a ∈ keys then none else s.lookup a := by
  induction keys generalizing s with
  | nil => simp [eraseAll]
  | cons k keys ih =>
    change (eraseAll (s.erase k) keys).lookup a = _
    rw [ih]
    by_cases hk : a = k
    · subst hk
      simp [AList.lookup_erase]
    · simp [AList.lookup_erase_ne hk, hk]

/-- Removing distinct keys that are all present takes that many entries away. -/
theorem length_eraseAll {s : AList (fun _ : α => β)} {keys : List α} (hnodup : keys.Nodup)
    (hmem : ∀ k ∈ keys, k ∈ s) : (eraseAll s keys).entries.length + keys.length =
      s.entries.length := by
  induction keys generalizing s with
  | nil => rfl
  | cons k keys ih =>
    obtain ⟨hk, hnodup⟩ := List.nodup_cons.mp hnodup
    have hrest : ∀ k' ∈ keys, k' ∈ s.erase k := fun k' hk' =>
      AList.mem_erase.mpr ⟨fun h => hk (h ▸ hk'), hmem k' (List.mem_cons_of_mem k hk')⟩
    have := ih (s := s.erase k) hnodup hrest
    have herase := length_erase_of_mem (hmem k List.mem_cons_self)
    change (eraseAll (s.erase k) keys).entries.length + (keys.length + 1) = _
    omega

-- ---------------------------------------------------------------------------
-- Sums of weights
-- ---------------------------------------------------------------------------

section Total

variable {γ : Type _}

/-- A sum of weights splits over the elements a predicate keeps and those it
drops. -/
theorem sum_map_filter_add_not (f : γ → Nat) (p : γ → Bool) (l : List γ) :
    ((l.filter p).map f).sum + ((l.filter fun a => !p a).map f).sum = (l.map f).sum := by
  induction l with
  | nil => rfl
  | cons a l ih =>
    cases hp : p a with
    | true =>
      simp only [List.filter_cons, hp, Bool.not_true, Bool.false_eq_true, if_true, if_false,
        List.map_cons, List.sum_cons]
      omega
    | false =>
      simp only [List.filter_cons, hp, Bool.not_false, Bool.false_eq_true, if_true, if_false,
        List.map_cons, List.sum_cons]
      omega

/-- Putting `x` in place of the element at `i` changes a sum of weights by the
difference of their weights. -/
theorem sum_map_set (f : γ → Nat) :
    ∀ (l : List γ) {i : Nat} (hi : i < l.length) (x : γ),
      ((l.set i x).map f).sum + f l[i] = (l.map f).sum + f x
  | y :: l, 0, _, x => by
    simp only [List.set_cons_zero, List.map_cons, List.sum_cons, List.getElem_cons_zero]
    omega
  | y :: l, i + 1, hi, x => by
    have ih := sum_map_set f l (i := i) (by simpa using hi) x
    simp only [List.set_cons_succ, List.map_cons, List.sum_cons, List.getElem_cons_succ]
    omega

/-- Putting `x` in place of the element at `i` changes how many elements
satisfy `p` by the difference it makes at `i`. -/
theorem countP_set (p : γ → Bool) :
    ∀ (l : List γ) {i : Nat} (hi : i < l.length) (x : γ),
      (l.set i x).countP p + (if p l[i] then 1 else 0) = l.countP p + (if p x then 1 else 0)
  | y :: l, 0, _, x => by
    simp only [List.set_cons_zero, List.countP_cons, List.getElem_cons_zero]
    omega
  | y :: l, i + 1, hi, x => by
    have ih := countP_set p l (i := i) (by simpa using hi) x
    simp only [List.set_cons_succ, List.countP_cons, List.getElem_cons_succ]
    omega

/-- The sum of a weight over the values of a map. -/
def total (f : β → Nat) (s : AList (fun _ : α => β)) : Nat :=
  (s.entries.map fun kv => f kv.2).sum

variable (f : β → Nat)

theorem total_insert_of_notMem {s : AList (fun _ : α => β)} {k : α} (hk : k ∉ s) (v : β) :
    total f (s.insert k v) = f v + total f s := by
  simp only [total, AList.entries_insert_of_notMem hk, List.map_cons, List.sum_cons]

/-- Erasing a key takes its value's weight off the total. -/
theorem total_erase_add {s : AList (fun _ : α => β)} {k : α} {v : β}
    (hk : s.lookup k = some v) : total f (s.erase k) + f v = total f s := by
  obtain ⟨l, hl⟩ := s
  simp only [total, AList.erase, AList.lookup] at hk ⊢
  clear hl
  induction l with
  | nil => cases hk
  | cons kv l ih =>
    obtain ⟨k', w⟩ := kv
    by_cases hkk : k = k'
    · -- the head is the entry erased
      subst hkk
      rw [List.dlookup_cons_eq, Option.some_inj] at hk
      subst hk
      simp only [List.kerase_cons_eq (s := (⟨k, w⟩ : Σ _ : α, β)) rfl, List.map_cons, List.sum_cons]
      omega
    · rw [List.dlookup_cons_ne _ _ hkk] at hk
      have := ih hk
      simp only [List.kerase_cons_ne (s := (⟨k', w⟩ : Σ _ : α, β)) hkk, List.map_cons, List.sum_cons]
      omega

/-- Replacing the value of a key trades its old weight for the new one. -/
theorem total_replace_add {s : AList (fun _ : α => β)} {k : α} {v : β}
    (hk : s.lookup k = some v) (v' : β) :
    total f (s.replace k v') + f v = total f s + f v' := by
  obtain ⟨l, hl⟩ := s
  simp only [total, AList.replace, AList.lookup] at hk ⊢
  clear hl
  induction l with
  | nil => cases hk
  | cons kv l ih =>
    obtain ⟨k', w⟩ := kv
    by_cases hkk : k = k'
    · -- the head is the entry replaced
      subst hkk
      rw [List.dlookup_cons_eq, Option.some_inj] at hk
      subst hk
      have hrep : List.kreplace k v' (⟨k, w⟩ :: l) = ⟨k, v'⟩ :: l := by
        unfold List.kreplace
        exact List.lookmap_cons_some _ _ (if_pos rfl)
      simp only [hrep, List.map_cons, List.sum_cons]
      omega
    · rw [List.dlookup_cons_ne _ _ hkk] at hk
      have hrep : List.kreplace k v' (⟨k', w⟩ :: l) = ⟨k', w⟩ :: List.kreplace k v' l := by
        unfold List.kreplace
        exact List.lookmap_cons_none _ _ (if_neg hkk)
      have := ih hk
      simp only [hrep, List.map_cons, List.sum_cons]
      omega

/-- A map whose every entry has the key `k` weighs what `k`'s value does. -/
theorem total_of_forall_key {s : AList (fun _ : α => β)} {k : α} {v : β}
    (hk : s.lookup k = some v) (hall : ∀ kv ∈ s.entries, kv.1 = k) : total f s = f v := by
  have hnil : (s.erase k).entries = [] := by
    refine List.eq_nil_iff_forall_not_mem.mpr fun kv hkv => ?_
    have hne := (AList.mem_erase.mp (AList.mem_keys.mpr (List.mem_keys_of_mem hkv))).1
    exact hne (hall kv (mem_entries_of_mem_erase hkv))
  have herase : total f (s.erase k) = 0 := by simp only [total, hnil, List.map_nil, List.sum_nil]
  have := total_erase_add f hk
  omega

theorem le_total_of_lookup {s : AList (fun _ : α => β)} {k : α} {v : β}
    (hk : s.lookup k = some v) : f v ≤ total f s := by
  have := total_erase_add f hk
  omega

end Total

end Ppaass.Table
