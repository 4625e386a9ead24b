import Mathlib
import Ppaass.Lib.Machine

/-!
# Delivering fragmented messages

A sender cuts message `j` into `counts[j]` fragments; the receiver gets the
fragments of all the messages in some order and hands a message out when its
last fragment arrives. `receive` is that receiver, with the deliveries so far
as its state. However the fragments are ordered, as long as each arrives once,
it hands every message out exactly once (`count_some_eq_one`).

A receiver that keeps the fragments of partly received messages is bounded in
how many such messages and how many bytes of them it holds: `partialCount`,
`heldBytes` and `bufferedBytes` measure these on the deliveries so far, for a
given size of each fragment.
-/

namespace Ppaass.Fragments

/-- Fragment `index` of message `message`, arriving at `time`. -/
structure Delivery where
  message : Nat
  index : Nat
  time : Nat
  deriving DecidableEq, Repr

def Delivery.key (d : Delivery) : Nat × Nat := (d.message, d.index)

-- ---------------------------------------------------------------------------
-- The deliveries of one message
-- ---------------------------------------------------------------------------

/-- The deliveries of message `j` in `P`. -/
def deliveredOf (P : List Delivery) (j : Nat) : List Delivery :=
  P.filter fun d => d.message = j

/-- How many fragments of message `j` have arrived. -/
def arrived (P : List Delivery) (j : Nat) : Nat := (deliveredOf P j).length

/-- When the last fragment of message `j` arrived, `0` before any did. -/
def lastTime (P : List Delivery) (j : Nat) : Nat :=
  ((deliveredOf P j).getLast?.map Delivery.time).getD 0

section Delivered

variable (P Q : List Delivery) (d : Delivery) (j : Nat)

theorem deliveredOf_append : deliveredOf (P ++ Q) j = deliveredOf P j ++ deliveredOf Q j :=
  List.filter_append ..

theorem deliveredOf_singleton : deliveredOf [d] j = if d.message = j then [d] else [] := by
  by_cases h : d.message = j <;> simp [deliveredOf, h]

@[simp] theorem arrived_nil : arrived [] j = 0 := rfl

theorem arrived_append : arrived (P ++ Q) j = arrived P j + arrived Q j := by
  simp [arrived, deliveredOf_append]

theorem arrived_singleton : arrived [d] j = if d.message = j then 1 else 0 := by
  by_cases h : d.message = j <;> simp [arrived, deliveredOf_singleton, h]

theorem arrived_cons : arrived (d :: Q) j = arrived [d] j + arrived Q j :=
  arrived_append [d] Q j

theorem arrived_append_self : arrived (P ++ [d]) d.message = arrived P d.message + 1 := by
  rw [arrived_append, arrived_singleton, if_pos rfl]

theorem arrived_append_ne {d : Delivery} {j : Nat} (h : d.message ≠ j) :
    arrived (P ++ [d]) j = arrived P j := by
  rw [arrived_append, arrived_singleton, if_neg h, Nat.add_zero]

theorem lastTime_append_self : lastTime (P ++ [d]) d.message = d.time := by
  simp [lastTime, deliveredOf_append, deliveredOf_singleton]

theorem lastTime_append_ne {d : Delivery} {j : Nat} (h : d.message ≠ j) :
    lastTime (P ++ [d]) j = lastTime P j := by
  simp [lastTime, deliveredOf_append, deliveredOf_singleton, h]

theorem mem_deliveredOf {d : Delivery} : d ∈ deliveredOf P j ↔ d ∈ P ∧ d.message = j := by
  simp [deliveredOf]

end Delivered

/-- Among deliveries of distinct fragments, none repeats one delivered
before it. -/
theorem key_notMem_take {sched : List Delivery} (h : (sched.map Delivery.key).Nodup) {n : Nat}
    (hn : n < sched.length) : sched[n].key ∉ (sched.take n).map Delivery.key := by
  have hsplit : sched.map Delivery.key = (sched.take n).map Delivery.key ++
      sched[n].key :: (sched.drop (n + 1)).map Delivery.key := by
    rw [← List.map_cons, ← List.drop_eq_getElem_cons hn, ← List.map_append,
      List.take_append_drop]
  rw [hsplit, List.nodup_append] at h
  exact fun hmem => h.2.2 _ hmem _ List.mem_cons_self rfl

theorem nodup_keys_append {P : List Delivery} {d : Delivery} (hP : (P.map Delivery.key).Nodup)
    (hd : d.key ∉ P.map Delivery.key) : ((P ++ [d]).map Delivery.key).Nodup := by
  rw [List.map_append, List.map_singleton, List.nodup_append]
  refine ⟨hP, List.nodup_singleton _, fun a ha b hb hab => hd ?_⟩
  rw [← List.mem_singleton.mp hb, ← hab]
  exact ha

/-- The fragments of message `j` that have arrived. -/
def indicesOf (P : List Delivery) (j : Nat) : List Nat := (deliveredOf P j).map Delivery.index

theorem mem_indicesOf {P : List Delivery} {j i : Nat} :
    i ∈ indicesOf P j ↔ (j, i) ∈ P.map Delivery.key := by
  simp only [indicesOf, List.mem_map, mem_deliveredOf, Delivery.key, Prod.mk.injEq]
  constructor
  · rintro ⟨d, ⟨hd, rfl⟩, rfl⟩
    exact ⟨d, hd, rfl, rfl⟩
  · rintro ⟨d, hd, rfl, rfl⟩
    exact ⟨d, ⟨hd, rfl⟩, rfl⟩

theorem length_indicesOf (P : List Delivery) (j : Nat) : (indicesOf P j).length = arrived P j :=
  List.length_map ..

theorem indicesOf_eq_nil {P : List Delivery} {j : Nat} (h : arrived P j = 0) :
    indicesOf P j = [] :=
  List.eq_nil_of_length_eq_zero (by rw [length_indicesOf, h])

theorem indicesOf_append (P : List Delivery) (d : Delivery) :
    indicesOf (P ++ [d]) d.message = indicesOf P d.message ++ [d.index] := by
  simp [indicesOf, deliveredOf_append, deliveredOf_singleton]

/-- No fragment of a message arrives twice when no fragment arrives twice. -/
theorem nodup_indicesOf {P : List Delivery} (hP : (P.map Delivery.key).Nodup) (j : Nat) :
    (indicesOf P j).Nodup := by
  have hsub : ((deliveredOf P j).map Delivery.key).Nodup :=
    hP.sublist ((List.filter_sublist).map _)
  refine (List.Nodup.of_map Delivery.key hsub |>.map_on ?_)
  intro d hd d' hd' hidx
  have hj := (mem_deliveredOf P j).mp hd
  have hj' := (mem_deliveredOf P j).mp hd'
  exact List.inj_on_of_nodup_map hsub hd hd' (by simp [Delivery.key, hj.2, hj'.2, hidx])

-- ---------------------------------------------------------------------------
-- Sums over the messages
-- ---------------------------------------------------------------------------

/-- Changing one term of a sum over `range n` changes the sum by as much. -/
theorem sum_range_update (f g : Nat → Nat) {n j : Nat} (hj : j < n)
    (hfg : ∀ i < n, i ≠ j → f i = g i) :
    ((List.range n).map g).sum + f j = ((List.range n).map f).sum + g j := by
  induction n with
  | zero => omega
  | succ n ih =>
    simp only [List.range_succ, List.map_append, List.sum_append, List.map_singleton,
      List.sum_singleton]
    by_cases hjn : j = n
    · -- the term changed is the last one; the others agree
      subst hjn
      have hrest : (List.range j).map g = (List.range j).map f :=
        List.map_congr_left fun i hi => (hfg i (by simp at hi; omega) (by simp at hi; omega)).symm
      rw [hrest]
      omega
    · have := ih (by omega) fun i hi hne => hfg i (by omega) hne
      have hlast := hfg n (by omega) (Ne.symm hjn)
      omega

theorem sum_range_ite_eq {n j : Nat} (hj : j < n) (a : Nat) :
    ((List.range n).map fun i => if i = j then a else 0).sum = a := by
  have := sum_range_update (fun _ => 0) (fun i => if i = j then a else 0) hj
    fun i _ hne => by simp [hne]
  simpa using this

section Subrange

variable {l : List Nat} {k : Nat}

/-- Distinct numbers below `k` are at most `k` many. -/
theorem length_le_of_nodup (hl : l.Nodup) (hk : ∀ i ∈ l, i < k) : l.length ≤ k := by
  have := (hl.subperm fun i hi => List.mem_range.mpr (hk i hi)).length_le
  simpa using this

variable (f : Nat → Nat) in
/-- Distinct numbers below `k` weigh at most all the numbers below `k`. -/
theorem sum_le_sum_range (hl : l.Nodup) (hk : ∀ i ∈ l, i < k) :
    (l.map f).sum ≤ ((List.range k).map f).sum := by
  obtain ⟨l', hperm, hsub⟩ := hl.subperm fun i hi => List.mem_range.mpr (hk i hi)
  rw [← (hperm.map f).sum_eq]
  exact (hsub.map f).sum_le_sum fun _ _ => Nat.zero_le _

/-- `k` distinct numbers below `k` are all of them. -/
theorem perm_range_of_length (hl : l.Nodup) (hk : ∀ i ∈ l, i < k) (hlen : l.length = k) :
    l.Perm (List.range k) :=
  (hl.subperm fun i hi => List.mem_range.mpr (hk i hi)).perm_of_length_le (by simp [hlen])

end Subrange

-- ---------------------------------------------------------------------------
-- The receiver
-- ---------------------------------------------------------------------------

section Receive

variable (counts : List Nat)

/-- Every fragment of every message, each once. -/
def allFragments : List (Nat × Nat) :=
  (List.range counts.length).flatMap fun j => (List.range (counts.getD j 0)).map fun i => (j, i)

/-- The receiver: it records the delivery, and hands message `j` out when its
last fragment arrives. -/
def receive (P : List Delivery) (d : Delivery) : List Delivery × Option Nat :=
  (P ++ [d], if arrived (P ++ [d]) d.message = counts.getD d.message 0 then some d.message
    else none)

theorem mem_allFragments {j i : Nat} :
    (j, i) ∈ allFragments counts ↔ j < counts.length ∧ i < counts.getD j 0 := by
  simp [allFragments]

theorem nodup_allFragments : (allFragments counts).Nodup := by
  refine List.nodup_flatMap.mpr ⟨fun j _ => List.nodup_range.map fun _ _ h => ?_, ?_⟩
  · exact (Prod.mk.inj h).2
  · -- the fragments of different messages differ in their first component
    refine List.nodup_range.pairwise_of_forall_ne fun j _ j' _ hne => ?_
    simp only [Function.onFun, List.disjoint_left, List.mem_map, List.mem_range]
    rintro _ ⟨i, -, rfl⟩ ⟨i', -, heq⟩
    exact hne (Prod.mk.inj heq).1.symm

theorem final_receive (P sched : List Delivery) :
    Machine.final (receive counts) P sched = P ++ sched := by
  induction sched generalizing P with
  | nil => simp
  | cons d sched ih => simp [receive, ih]

/-- How often message `j` is handed out: once if its last fragment is among
the deliveries and had not arrived before them, and never otherwise. -/
theorem count_run_receive (P sched : List Delivery) (j : Nat) :
    (Machine.run (receive counts) P sched).count (some j) =
      if arrived P j < counts.getD j 0 ∧ counts.getD j 0 ≤ arrived P j + arrived sched j then 1
      else 0 := by
  induction sched generalizing P with
  | nil =>
    rw [Machine.run_nil, List.count_nil, arrived_nil, Nat.add_zero, if_neg (by omega)]
  | cons d sched ih =>
    have hstate : (receive counts P d).1 = P ++ [d] := rfl
    rw [Machine.run_cons, List.count_cons, ih, arrived_cons, arrived_singleton]
    simp only [hstate]
    by_cases h : d.message = j
    · -- a fragment of message `j`: the message is handed out if it completes it
      subst h
      simp only [receive, arrived_append_self, if_true]
      by_cases hlast : arrived P d.message + 1 = counts.getD d.message 0
      · simp only [hlast, if_true, beq_self_eq_true]
        split_ifs <;> omega
      · simp only [hlast, if_false, reduceCtorEq, beq_iff_eq, Nat.add_zero]
        split_ifs <;> omega
    · -- another message's fragment: nothing of message `j` changes
      have hout : (receive counts P d).2 ≠ some j := by
        simp only [receive]
        split_ifs <;> simp [h]
      simp only [arrived_append_ne P h, h, if_false, Nat.zero_add, beq_iff_eq, hout, Nat.add_zero]

theorem arrived_eq_of_perm {sched : List Delivery}
    (hperm : (sched.map Delivery.key).Perm (allFragments counts)) {j : Nat}
    (hj : j < counts.length) : arrived sched j = counts.getD j 0 := by
  have hcount := hperm.countP_eq (fun p => p.1 = j)
  have hleft : (sched.map Delivery.key).countP (fun p => p.1 = j) = arrived sched j := by
    rw [List.countP_map, List.countP_eq_length_filter]
    rfl
  -- among all the fragments, those of message `j` are its `counts[j]` ones
  have hone : ∀ j', ((List.range (counts.getD j' 0)).map fun i => (j', i)).countP
      (fun p => p.1 = j) = if j' = j then counts.getD j 0 else 0 := by
    intro j'
    by_cases h : j' = j
    · subst h
      rw [if_pos rfl, List.countP_map, List.countP_eq_length.mpr (fun i _ => by simp),
        List.length_range]
    · rw [if_neg h, List.countP_map, List.countP_eq_zero.mpr (fun i _ => by simp [h])]
  have hright : (allFragments counts).countP (fun p => p.1 = j) = counts.getD j 0 := by
    simp only [allFragments, List.countP_flatMap, Function.comp_def, hone]
    exact sum_range_ite_eq hj _
  rw [← hleft, hcount, hright]

/-- Whatever the order of the fragments, each arriving once, the receiver
hands every message out exactly once. -/
theorem count_some_eq_one {sched : List Delivery}
    (hperm : (sched.map Delivery.key).Perm (allFragments counts)) {j : Nat}
    (hj : j < counts.length) (hpos : 0 < counts.getD j 0) :
    (Machine.run (receive counts) [] sched).count (some j) = 1 := by
  rw [count_run_receive, arrived_eq_of_perm counts hperm hj, arrived_nil, Nat.zero_add,
    if_pos ⟨hpos, le_refl _⟩]

/-- Only messages that exist are handed out. -/
theorem lt_length_of_some_mem {P sched : List Delivery} {j : Nat}
    (h : some j ∈ Machine.run (receive counts) P sched) : j < counts.length := by
  have hpos := List.count_pos_iff.mpr h
  rw [count_run_receive] at hpos
  split_ifs at hpos with hcond
  · by_contra hj
    rw [List.getD_eq_default counts 0 (by omega)] at hcond
    omega
  · exact absurd hpos (Nat.lt_irrefl 0)

end Receive

-- ---------------------------------------------------------------------------
-- What a receiver holds
-- ---------------------------------------------------------------------------

section Held

variable (counts : List Nat) (size : Nat → Nat → Nat)

/-- Message `j` is partly received: some, not all, of its fragments have
arrived. -/
def IsPartial (P : List Delivery) (j : Nat) : Prop :=
  0 < arrived P j ∧ arrived P j < counts.getD j 0

instance (P : List Delivery) (j : Nat) : Decidable (IsPartial counts P j) :=
  inferInstanceAs (Decidable (_ ∧ _))

/-- How many messages are partly received. -/
def partialCount (P : List Delivery) : Nat :=
  ((List.range counts.length).map fun j => if IsPartial counts P j then 1 else 0).sum

/-- The bytes of message `j` that have arrived, fragment `i` of message `j`
being `size j i` bytes. -/
def heldBytes (P : List Delivery) (j : Nat) : Nat :=
  ((indicesOf P j).map (size j)).sum

/-- The bytes of the partly received messages. -/
def bufferedBytes (P : List Delivery) : Nat :=
  ((List.range counts.length).map fun j =>
    if IsPartial counts P j then heldBytes size P j else 0).sum

variable {counts} {size}

@[simp] theorem isPartial_nil (j : Nat) : ¬ IsPartial counts [] j := by
  simp [IsPartial]

@[simp] theorem partialCount_nil : partialCount counts [] = 0 := by
  simp [partialCount]

@[simp] theorem bufferedBytes_nil : bufferedBytes counts size [] = 0 := by
  simp [bufferedBytes]

theorem isPartial_append_ne (P : List Delivery) {d : Delivery} {j : Nat} (h : d.message ≠ j) :
    IsPartial counts (P ++ [d]) j ↔ IsPartial counts P j := by
  simp only [IsPartial, arrived_append_ne P h]

theorem heldBytes_append_self (P : List Delivery) (d : Delivery) :
    heldBytes size (P ++ [d]) d.message = heldBytes size P d.message + size d.message d.index := by
  simp [heldBytes, indicesOf_append]

theorem heldBytes_append_ne (P : List Delivery) {d : Delivery} {j : Nat} (h : d.message ≠ j) :
    heldBytes size (P ++ [d]) j = heldBytes size P j := by
  simp [heldBytes, indicesOf, deliveredOf_append, deliveredOf_singleton, h]

/-- A delivery changes the count of partly received messages only through
its own message. -/
theorem partialCount_append (P : List Delivery) {d : Delivery}
    (hd : d.message < counts.length) :
    partialCount counts (P ++ [d]) + (if IsPartial counts P d.message then 1 else 0) =
      partialCount counts P + (if IsPartial counts (P ++ [d]) d.message then 1 else 0) := by
  unfold partialCount
  exact sum_range_update (fun j => if IsPartial counts P j then 1 else 0)
    (fun j => if IsPartial counts (P ++ [d]) j then 1 else 0) hd fun j _ hne => by
      simp only [isPartial_append_ne P (Ne.symm hne)]

variable (size) in
/-- A delivery changes the buffered bytes only through its own message. -/
theorem bufferedBytes_append (P : List Delivery) {d : Delivery}
    (hd : d.message < counts.length) :
    bufferedBytes counts size (P ++ [d]) +
        (if IsPartial counts P d.message then heldBytes size P d.message else 0) =
      bufferedBytes counts size P +
        (if IsPartial counts (P ++ [d]) d.message then heldBytes size (P ++ [d]) d.message
          else 0) := by
  unfold bufferedBytes
  exact sum_range_update (fun j => if IsPartial counts P j then heldBytes size P j else 0)
    (fun j => if IsPartial counts (P ++ [d]) j then heldBytes size (P ++ [d]) j else 0) hd
    fun j _ hne => by
      simp only [isPartial_append_ne P (Ne.symm hne), heldBytes_append_ne P (Ne.symm hne)]

variable (size) in
theorem heldBytes_le_bufferedBytes {P : List Delivery} {j : Nat} (hj : j < counts.length)
    (hpart : IsPartial counts P j) : heldBytes size P j ≤ bufferedBytes counts size P := by
  refine List.le_sum_of_mem (List.mem_map.mpr ⟨j, List.mem_range.mpr hj, ?_⟩)
  rw [if_pos hpart]

end Held

end Ppaass.Fragments
