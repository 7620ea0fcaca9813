import Mathlib.Data.List.Sort
import Mathlib.Data.List.Lex
import Mathlib.Data.Prod.Lex
import Mathlib.Order.Lattice.Nat
import Mathlib.Data.Finset.Range
import Verl.Lib.PriorityQueue
import Verl.Lib.Python

/-!
# Karmarkar-Karp partitioning

`karmarkar_karp` splits indexed values into `k` sets.  It starts with one state
for each value, or for each block of `k` values, and merges the two states of
the largest spread until one is left.  A merge joins the largest set of one
state with the smallest set of the other, and so on.

A state keeps its sets in decreasing order, which is a field of `State`.  Two
facts hold of every state in the queue.  Together the states hold every indexed
value once.  And a state of `m` values has `min m k` sets that are not empty
(`State.Filled`), which is why no set of the result is empty.
-/

namespace Verl

/-! ## Sets -/

/-- `Set`.  An item is an index with its value. -/
@[ext]
structure PartSet where
  sum : Nat
  items : List (Nat ×ₗ Nat)
  sum_eq : sum = (items.map fun item => item.2).sum

namespace PartSet

def empty : PartSet := ⟨0, [], rfl⟩

def add (s : PartSet) (idx val : Nat) : PartSet where
  sum := s.sum + val
  items := s.items ++ [toLex (idx, val)]
  sum_eq := by
    rw [List.map_append, List.sum_append, s.sum_eq]
    rfl

def merge (s other : PartSet) : PartSet where
  sum := s.sum + other.sum
  items := s.items ++ other.items
  sum_eq := by rw [List.map_append, List.sum_append, s.sum_eq, other.sum_eq]

/-- `__lt__` compares the sums, then the counts, then the items. -/
def key (s : PartSet) : Nat ×ₗ Nat ×ₗ List (Nat ×ₗ Nat) :=
  toLex (s.sum, toLex (s.items.length, s.items))

theorem key_injective : Function.Injective key := by
  intro s t h
  have hkey := Prod.mk.inj (toLex.injective h)
  exact PartSet.ext hkey.1 (Prod.mk.inj (toLex.injective hkey.2)).2

instance : LinearOrder PartSet := LinearOrder.lift' key key_injective

/-- Nothing but an empty set is at most an empty set. -/
theorem items_eq_nil_of_le {s t : PartSet} (h : s ≤ t) (ht : t.items = []) : s.items = [] := by
  have hsum : t.sum = 0 := by rw [t.sum_eq, ht]; rfl
  have hle : s.key ≤ t.key := h
  rw [key, key, Prod.Lex.le_iff, ht, hsum] at hle
  obtain hlt | ⟨-, hle⟩ := hle
  · exact absurd hlt (Nat.not_lt_zero _)
  · rw [Prod.Lex.le_iff] at hle
    obtain hlt | ⟨hlen, -⟩ := hle
    · exact absurd hlt (Nat.not_lt_zero _)
    · exact List.eq_nil_of_length_eq_zero hlen

def nonempty (s : PartSet) : Bool := !s.items.isEmpty

theorem nonempty_merge (s t : PartSet) : (s.merge t).nonempty = (s.nonempty || t.nonempty) := by
  cases hs : s.items with
  | nil => simp [nonempty, merge, hs]
  | cons item items => simp [nonempty, merge, hs]

end PartSet

/-! ## States -/

/-- `State`.  The sets are always in decreasing order. -/
structure State (k : Nat) where
  sets : List PartSet
  size : sets.length = k
  decreasing : sets.Pairwise (· ≥ ·)

namespace State

variable {k : Nat}

/-- The sets in decreasing order, `sorted(sets, reverse=True)`. -/
def ofSets (sets : List PartSet) (size : sets.length = k) : State k where
  sets := sets.insertionSort (· ≥ ·)
  size := by rw [List.length_insertionSort, size]
  decreasing := List.pairwise_insertionSort (· ≥ ·) sets

/-- `__init__`.  The first items go to the first sets, one each. -/
def new (items : List (Nat × Nat)) (k : Nat) : Except Py.Error (State k) := do
  Py.check (items.length = 1 ∨ items.length = k) s!"{items.length} not in [1, {k}]"
  if h : items.length ≤ k then
    return ofSets
      (items.map (fun item => PartSet.empty.add item.1 item.2) ++
        List.replicate (k - items.length) PartSet.empty)
      (by rw [List.length_append, List.length_map, List.length_replicate]; omega)
  else
    throw .index

/-- The largest set of one state joins the smallest set of the other. -/
def merge (s other : State k) : State k :=
  ofSets (List.zipWith PartSet.merge s.sets other.sets.reverse)
    (by rw [List.length_zipWith, List.length_reverse, s.size, other.size, Nat.min_self])

def getPartitions (s : State k) : List (List Nat) :=
  s.sets.map fun set => set.items.map fun item => item.1

def largest (s : State k) : PartSet := s.sets.headD PartSet.empty

def spread (s : State k) : Nat := s.largest.sum - (s.sets.getLastD PartSet.empty).sum

/-- `__lt__`.  A larger spread comes first, then a larger largest set. -/
def lt (s other : State k) : Bool :=
  if s.spread ≠ other.spread then decide (other.spread < s.spread)
  else decide (other.largest < s.largest)

end State

/-! ## The algorithm -/

/-- The loop that merges the two first states until one is left.  The fuel is
the number of states. -/
def mergeStates {k : Nat} : Nat → List (State k) → List (State k)
  | 0, states => states
  | fuel + 1, states =>
      match PriorityQueue.pop State.lt states with
      | none => states
      | some (state0, rest) =>
          match PriorityQueue.pop State.lt rest with
          | none => states
          | some (state1, rest) => mergeStates fuel (state0.merge state1 :: rest)

/-- `sorted([(seqlen, i) for i, seqlen in enumerate(seqlen_list)])`, with the
index first. -/
def sortedSeqlenList (seqlenList : List Nat) : List (Nat × Nat) :=
  ((seqlenList.zipIdx.map toLex).insertionSort (· ≤ ·)).map fun item => (item.2, item.1)

/-- The blocks `xs[offset : offset + k]` for every multiple `offset` of `k`. -/
def blocks {α : Type*} (k : Nat) (xs : List α) : List (List α) :=
  (List.range (xs.length / k)).map fun i => (xs.drop (i * k)).take k

def karmarkarKarp (seqlenList : List Nat) (kPartitions : Nat) (equalSize : Bool) :
    Except Py.Error (List (List Nat)) := do
  let sorted := sortedSeqlenList seqlenList
  let statesPq ←
    if equalSize then do
      if kPartitions = 0 then throw .zeroDivision
      Py.check (seqlenList.length % kPartitions = 0)
        s!"{seqlenList.length} % {kPartitions} != 0"
      (blocks kPartitions sorted).mapM fun items => State.new items kPartitions
    else
      sorted.mapM fun item => State.new [item] kPartitions
  let finalState ← Py.getItem (mergeStates statesPq.length statesPq) 0
  let partitions := finalState.getPartitions
  if equalSize then
    partitions.forM fun partition =>
      Py.check (partition.length * kPartitions = seqlenList.length)
        s!"{partition.length} * {kPartitions} != {seqlenList.length}"
  return partitions

/-- `_check_and_sort_partitions`. -/
def checkAndSortPartitions (seqlenList : List Nat) (kPartitions : Nat)
    (partitions : List (List Nat)) : Except Py.Error (List (List Nat)) := do
  Py.check (partitions.length = kPartitions) s!"{partitions.length} != {kPartitions}"
  partitions.zipIdx.forM fun (partition, i) =>
    Py.check (0 < partition.length) s!"the {i}-th partition is empty"
  Py.check (partitions.flatten.toFinset = Finset.range seqlenList.length) ""
  return partitions.map fun partition => partition.insertionSort (· ≤ ·)

def getSeqlenBalancedPartitions (seqlenList : List Nat) (kPartitions : Nat) (equalSize : Bool) :
    Except Py.Error (List (List Nat)) := do
  Py.check (kPartitions ≤ seqlenList.length)
    s!"number of items:[{seqlenList.length}] < k_partitions:[{kPartitions}]"
  let partitions ← karmarkarKarp seqlenList kPartitions equalSize
  checkAndSortPartitions seqlenList kPartitions partitions

/-! ## The items of a state -/

namespace State

variable {k : Nat}

def items (s : State k) : List (Nat ×ₗ Nat) := s.sets.flatMap PartSet.items

theorem items_ofSets (sets : List PartSet) (size : sets.length = k) :
    (ofSets sets size).items.Perm (sets.flatMap PartSet.items) :=
  (List.perm_insertionSort _ sets).flatMap_right _

/-- Merging pairwise keeps the items of both lists. -/
theorem flatMap_items_zipWith_merge (xs ys : List PartSet) (h : xs.length = ys.length) :
    ((List.zipWith PartSet.merge xs ys).flatMap PartSet.items).Perm
      (xs.flatMap PartSet.items ++ ys.flatMap PartSet.items) := by
  induction xs generalizing ys with
  | nil =>
      rw [List.length_nil] at h
      rw [List.eq_nil_of_length_eq_zero h.symm]
      rfl
  | cons x xs ih =>
      cases ys with
      | nil => cases h
      | cons y ys =>
          have hrest := ih ys (Nat.succ.inj h)
          simp only [List.zipWith_cons_cons, List.flatMap_cons, PartSet.merge, List.append_assoc]
          refine List.Perm.append_left _ ?_
          refine (List.Perm.append_left _ hrest).trans ?_
          rw [← List.append_assoc, ← List.append_assoc]
          exact List.Perm.append_right _ List.perm_append_comm

theorem items_merge (s t : State k) : (s.merge t).items.Perm (s.items ++ t.items) := by
  have hlength : s.sets.length = t.sets.reverse.length := by
    rw [List.length_reverse, s.size, t.size]
  refine (items_ofSets _ _).trans ?_
  refine (flatMap_items_zipWith_merge _ _ hlength).trans ?_
  exact List.Perm.append_left _ ((List.reverse_perm t.sets).flatMap_right _)

/-! ## Sets that are not empty -/

/-- As many sets as possible are not empty. -/
def Filled (s : State k) : Prop := s.sets.countP PartSet.nonempty = min s.items.length k

end State

/-- A decreasing list of truth values has the true ones in front. -/
theorem eq_replicate_of_pairwise {l : List Bool} (h : l.Pairwise fun a b => b = true → a = true) :
    l = List.replicate (l.count true) true ++ List.replicate (l.length - l.count true) false := by
  induction l with
  | nil => rfl
  | cons a l ih =>
      obtain ⟨hhead, htail⟩ := List.pairwise_cons.mp h
      cases a with
      | true =>
          rw [List.count_cons_self, List.length_cons, Nat.succ_sub_succ, List.replicate_succ,
            List.cons_append, ← ih htail]
      | false =>
          have hnone : l.count true = 0 := by
            rw [List.count_eq_zero]
            intro hmem
            cases hhead true hmem rfl
          have hl := ih htail
          rw [hnone, List.replicate_zero, List.nil_append, Nat.sub_zero] at hl
          have hcount : (false :: l).count true = 0 := by
            rw [List.count_cons_of_ne (by decide), hnone]
          rw [hcount, List.replicate_zero, List.nil_append, Nat.sub_zero, List.length_cons,
            List.replicate_succ, ← hl]

/-- Two such lists against each other overlap only when they have to. -/
theorem count_zipWith_or {xs ys : List Bool} (hlength : xs.length = ys.length)
    (hx : xs.Pairwise fun a b => b = true → a = true)
    (hy : ys.Pairwise fun a b => b = true → a = true) :
    (List.zipWith (· || ·) xs ys.reverse).count true =
      min (xs.count true + ys.count true) xs.length := by
  have hxle : xs.count true ≤ xs.length := List.count_le_length
  have hyle : ys.count true ≤ ys.length := List.count_le_length
  generalize ha : xs.count true = a at *
  generalize hb : ys.count true = b at *
  have hxs := eq_replicate_of_pairwise hx
  have hys := congrArg List.reverse (eq_replicate_of_pairwise hy)
  rw [List.reverse_append, List.reverse_replicate, List.reverse_replicate, ← hlength, hb] at hys
  rw [ha] at hxs
  generalize xs.length = k at *
  rw [hxs, hys]
  by_cases hab : a + b ≤ k
  · have hxsplit : List.replicate (k - a) false =
        List.replicate (k - a - b) false ++ List.replicate b false := by
      rw [← List.replicate_add]
      congr 1
      omega
    have hysplit : List.replicate (k - b) false =
        List.replicate a false ++ List.replicate (k - a - b) false := by
      rw [← List.replicate_add]
      congr 1
      omega
    rw [hxsplit, hysplit, List.append_assoc, List.zipWith_append (by simp),
      List.zipWith_append (by simp)]
    simp [List.count_replicate]
    omega
  · have hxsplit : List.replicate a true =
        List.replicate (k - b) true ++ List.replicate (a + b - k) true := by
      rw [← List.replicate_add]
      congr 1
      omega
    have hysplit : List.replicate b true =
        List.replicate (a + b - k) true ++ List.replicate (k - a) true := by
      rw [← List.replicate_add]
      congr 1
      omega
    rw [hxsplit, hysplit, List.append_assoc, List.zipWith_append (by simp),
      List.zipWith_append (by simp)]
    simp
    omega

namespace State

variable {k : Nat}

/-- The sets that are not empty come first. -/
theorem pairwise_nonempty (s : State k) :
    (s.sets.map PartSet.nonempty).Pairwise fun a b => b = true → a = true := by
  rw [List.pairwise_map]
  refine s.decreasing.imp fun {x y} hle hy => ?_
  by_contra hx
  have hnil : x.items = [] := by
    rw [PartSet.nonempty, Bool.not_eq_true', Bool.not_eq_false, List.isEmpty_iff] at hx
    exact hx
  rw [PartSet.nonempty, PartSet.items_eq_nil_of_le hle hnil] at hy
  cases hy

theorem countP_nonempty_merge (s t : State k) :
    (s.merge t).sets.countP PartSet.nonempty =
      min (s.sets.countP PartSet.nonempty + t.sets.countP PartSet.nonempty) k := by
  have hlength : (s.sets.map PartSet.nonempty).length = (t.sets.map PartSet.nonempty).length := by
    rw [List.length_map, List.length_map, s.size, t.size]
  have hcount := count_zipWith_or hlength s.pairwise_nonempty t.pairwise_nonempty
  rw [List.length_map, s.size] at hcount
  have hmap : ∀ l : List PartSet,
      l.countP PartSet.nonempty = (l.map PartSet.nonempty).count true := by
    intro l
    rw [List.count, List.countP_map]
    exact List.countP_congr fun x _ => by simp
  rw [hmap s.sets, hmap t.sets, ← hcount, merge, ofSets, (List.perm_insertionSort _ _).countP_eq,
    hmap, List.map_zipWith, ← List.map_reverse, List.zipWith_map]
  simp only [PartSet.nonempty_merge]

theorem Filled.merge {s t : State k} (hs : s.Filled) (ht : t.Filled) : (s.merge t).Filled := by
  have hlength := (s.items_merge t).length_eq
  rw [List.length_append] at hlength
  rw [Filled, countP_nonempty_merge, hs, ht, hlength]
  omega

/-- No set of a filled state with `k` items is empty. -/
theorem Filled.items_ne_nil {s : State k} (hs : s.Filled) (hk : k ≤ s.items.length) :
    ∀ set ∈ s.sets, set.items ≠ [] := by
  rw [Filled, Nat.min_eq_right hk] at hs
  have hall := List.countP_eq_length.mp (hs.trans s.size.symm)
  intro set hset hnil
  have := hall set hset
  rw [PartSet.nonempty, hnil] at this
  cases this

theorem items_replicate_empty (n : Nat) :
    (List.replicate n PartSet.empty).flatMap PartSet.items = [] := by
  rw [List.flatMap_eq_nil_iff]
  intro set hset
  rw [List.eq_of_mem_replicate hset]
  rfl

end State

/-! ## The loop -/

section Loop

variable {k : Nat}

/-- What two states give to their merge holds of every state in the queue. -/
theorem mergeStates_forall {P : State k → Prop} (hmerge : ∀ s t, P s → P t → P (s.merge t))
    (fuel : Nat) (states : List (State k)) (h : ∀ s ∈ states, P s) :
    ∀ s ∈ mergeStates fuel states, P s := by
  induction fuel generalizing states with
  | zero => exact h
  | succ fuel ih =>
      rw [mergeStates]
      split
      · exact h
      next state0 rest hpop0 =>
        split
        · exact h
        next state1 rest' hpop1 =>
          have hperm0 := PriorityQueue.pop_perm hpop0
          have hperm1 := PriorityQueue.pop_perm hpop1
          refine ih _ fun s hs => ?_
          rw [List.mem_cons] at hs
          obtain rfl | hs := hs
          · refine hmerge _ _ (h _ (hperm0.mem_iff.mpr List.mem_cons_self)) (h _ ?_)
            refine hperm0.mem_iff.mpr (List.mem_cons_of_mem _ ?_)
            exact hperm1.mem_iff.mpr List.mem_cons_self
          · refine h _ (hperm0.mem_iff.mpr (List.mem_cons_of_mem _ ?_))
            exact hperm1.mem_iff.mpr (List.mem_cons_of_mem _ hs)

/-- The loop keeps the items. -/
theorem mergeStates_items (fuel : Nat) (states : List (State k)) :
    ((mergeStates fuel states).flatMap State.items).Perm (states.flatMap State.items) := by
  induction fuel generalizing states with
  | zero => rfl
  | succ fuel ih =>
      rw [mergeStates]
      split
      · rfl
      next state0 rest hpop0 =>
        split
        · rfl
        next state1 rest' hpop1 =>
          refine (ih _).trans ?_
          rw [List.flatMap_cons]
          refine (List.Perm.append_right _ (State.items_merge state0 state1)).trans ?_
          have hperm0 := (PriorityQueue.pop_perm hpop0).flatMap_right State.items
          have hperm1 := (PriorityQueue.pop_perm hpop1).flatMap_right State.items
          rw [List.flatMap_cons] at hperm0 hperm1
          rw [List.append_assoc]
          exact ((List.Perm.append_left _ hperm1).symm).trans hperm0.symm

/-- The loop ends with one state. -/
theorem mergeStates_length (fuel : Nat) (states : List (State k)) (hfuel : states.length ≤ fuel)
    (hne : states ≠ []) : ∃ s, mergeStates fuel states = [s] := by
  induction fuel generalizing states with
  | zero => exact absurd (List.eq_nil_of_length_eq_zero (Nat.le_zero.mp hfuel)) hne
  | succ fuel ih =>
      rw [mergeStates]
      split
      next hpop => exact absurd (PriorityQueue.pop_eq_none hpop) hne
      next state0 rest hpop0 =>
        have hperm0 := PriorityQueue.pop_perm hpop0
        split
        next hpop1 =>
          rw [PriorityQueue.pop_eq_none hpop1] at hperm0
          exact ⟨state0, List.perm_singleton.mp hperm0⟩
        next state1 rest' hpop1 =>
          have hlength0 := hperm0.length_eq
          have hlength1 := (PriorityQueue.pop_perm hpop1).length_eq
          rw [List.length_cons] at hlength0 hlength1
          refine ih _ ?_ (List.cons_ne_nil _ _)
          rw [List.length_cons]
          omega

end Loop

/-! ## The partition -/

theorem sortedSeqlenList_perm (seqlenList : List Nat) :
    (sortedSeqlenList seqlenList).Perm
      (seqlenList.zipIdx.map fun item => (item.2, item.1)) := by
  have hperm := (List.perm_insertionSort (· ≤ ·) (seqlenList.zipIdx.map toLex)).map
    fun item : Nat ×ₗ Nat => (item.2, item.1)
  rwa [List.map_map] at hperm

/-- The indices of the sorted list are the indices of the list. -/
theorem sortedSeqlenList_indices (seqlenList : List Nat) :
    ((sortedSeqlenList seqlenList).map Prod.fst).Perm (List.range seqlenList.length) := by
  have hperm := (sortedSeqlenList_perm seqlenList).map Prod.fst
  rw [List.map_map] at hperm
  have hidx : seqlenList.zipIdx.map Prod.snd = List.range seqlenList.length := by
    rw [List.zipIdx_map_snd, List.range_eq_range']
  rw [← hidx]
  exact hperm

theorem flatten_getPartitions {k : Nat} (s : State k) :
    s.getPartitions.flatten = s.items.map fun item => item.1 := by
  rw [State.getPartitions, State.items, List.map_flatMap, List.flatMap_def]

/-- What `get_seqlen_balanced_partitions` promises: `k` strictly increasing
lists that are not empty and hold every index once. -/
structure IsPartition (n k : Nat) (partitions : List (List Nat)) : Prop where
  length_eq : partitions.length = k
  ne_nil : ∀ partition ∈ partitions, partition ≠ []
  increasing : ∀ partition ∈ partitions, partition.Pairwise (· < ·)
  flatten_perm : partitions.flatten.Perm (List.range n)

/-- The final check passes on a partition, and sorts it. -/
theorem checkAndSortPartitions_of_perm {seqlenList : List Nat} {k : Nat}
    {partitions : List (List Nat)} (hlength : partitions.length = k)
    (hne : ∀ partition ∈ partitions, partition ≠ [])
    (hperm : partitions.flatten.Perm (List.range seqlenList.length)) :
    ∃ sorted, checkAndSortPartitions seqlenList k partitions = .ok sorted ∧
      IsPartition seqlenList.length k sorted := by
  have hnonempty : ∀ x ∈ partitions.zipIdx, 0 < x.1.length := by
    intro x hx
    exact List.length_pos_of_ne_nil (hne x.1 (List.fst_mem_of_mem_zipIdx hx))
  have hseen : partitions.flatten.toFinset = Finset.range seqlenList.length := by
    rw [List.toFinset_eq_of_perm _ _ hperm, List.toFinset_range]
  have hnodup : partitions.flatten.Nodup := hperm.nodup_iff.mpr List.nodup_range
  have hsort : ∀ l : List (List Nat),
      (l.map fun partition => partition.insertionSort (· ≤ ·)).flatten.Perm l.flatten := by
    intro l
    induction l with
    | nil => rfl
    | cons partition l ih => exact (List.perm_insertionSort _ partition).append ih
  refine ⟨partitions.map fun partition => partition.insertionSort (· ≤ ·), ?_, ?_, ?_, ?_, ?_⟩
  · simp only [checkAndSortPartitions, Py.check_of_true hlength, Py.check_of_true hseen,
      Py.forM_check hnonempty, Py.ok_bind]
    rfl
  · rw [List.length_map, hlength]
  · intro partition hpartition hnil
    obtain ⟨unsorted, hmem, rfl⟩ := List.mem_map.mp hpartition
    have hperm := List.perm_insertionSort (· ≤ ·) unsorted
    rw [hnil] at hperm
    exact hne unsorted hmem hperm.nil_eq.symm
  · intro partition hpartition
    obtain ⟨unsorted, hmem, rfl⟩ := List.mem_map.mp hpartition
    have hle := List.pairwise_insertionSort (· ≤ ·) unsorted
    have hunique : (unsorted.insertionSort (· ≤ ·)).Nodup :=
      (List.perm_insertionSort _ unsorted).nodup_iff.mpr
        ((List.nodup_flatten.mp hnodup).1 unsorted hmem)
    exact (hle.and hunique).imp fun h => lt_of_le_of_ne h.1 h.2
  · exact (hsort partitions).trans hperm

/-- A state without sets has no place for an item. -/
theorem mapM_new_singleton_zero (item : Nat × Nat) (sorted : List (Nat × Nat)) :
    (item :: sorted).mapM (fun item => State.new [item] 0) = .error .index := by
  rw [List.mapM_cons]
  rfl

/-- Without a partition to make, the algorithm fails on its first state, or for
want of one. -/
theorem getSeqlenBalancedPartitions_zero (seqlenList : List Nat) :
    getSeqlenBalancedPartitions seqlenList 0 false = .error .index := by
  rw [getSeqlenBalancedPartitions, Py.check_of_true (Nat.zero_le _), Py.ok_bind, karmarkarKarp]
  cases sortedSeqlenList seqlenList with
  | nil => rfl
  | cons item sorted =>
      simp only [Bool.false_eq_true, if_false, mapM_new_singleton_zero, Py.error_bind]

end Verl
