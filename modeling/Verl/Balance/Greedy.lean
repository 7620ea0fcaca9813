import Mathlib.Algebra.BigOperators.Fin
import Verl.Balance.Spread
import Verl.Lib.LeastLoaded

/-!
# Greedy partitioning

`greedy_partition` gives every value to the partition with the least sum.  So no
sum gets further above another than the largest value.

With `equal_size` every value is raised by the bias, one more than the sum of
all.  The sums then compare as the counts do first, so the partition with the
least sum has the least count too, and no count gets more than one above
another.  Counts within one of each other are equal at the end, if they can be.
-/

namespace Verl

/-! ## The source functions -/

/-- The loop variables, the partitions and their sums. -/
structure GreedyState (k : Nat) where
  partitions : Fin k → List Nat
  partitionSums : Fin k → Nat

namespace GreedyState

variable {k : Nat}

def start (k : Nat) : GreedyState k := ⟨fun _ => [], fun _ => 0⟩

/-- The inner loop, with what it has found so far. -/
def minIdx (s : GreedyState k) (indices : List (Fin k)) (found : Option (Fin k)) :
    Option (Fin k) :=
  indices.foldl (fun found j =>
    match found with
    | none => some j
    | some least => if s.partitionSums j < s.partitionSums least then some j else some least) found

/-- The value `seqlen` of index `i` goes to partition `j`. -/
def append (s : GreedyState k) (j : Fin k) (seqlen i : Nat) : GreedyState k where
  partitions := Function.update s.partitions j (s.partitions j ++ [i])
  partitionSums := Function.update s.partitionSums j (s.partitionSums j + seqlen)

/-- The body of the outer loop.  Without a partition `min_idx` stays `None`. -/
def assign (s : GreedyState k) (item : Nat × Nat) : Except Py.Error (GreedyState k) :=
  match s.minIdx (List.finRange k) none with
  | none => .error (.type "list indices must be integers or slices, not NoneType")
  | some j => .ok (s.append j item.1 item.2)

end GreedyState

def greedyPartition (seqlenList : List Nat) (kPartitions : Nat) (equalSize : Bool) :
    Except Py.Error (List (List Nat)) := do
  let bias := if equalSize then seqlenList.sum + 1 else 0
  let sortedSeqlen := seqlenList.zipIdx.map fun item => (item.1 + bias, item.2)
  let s ← sortedSeqlen.foldlM GreedyState.assign (GreedyState.start kPartitions)
  let partitions := List.ofFn s.partitions
  if equalSize then
    partitions.forM fun partition =>
      Py.check (partition.length * kPartitions = seqlenList.length)
        s!"{partition.length} * {kPartitions} != {seqlenList.length}"
  return partitions

/-! ## One step -/

namespace GreedyState

variable {k : Nat}

@[simp] theorem append_partitions (s : GreedyState k) (j : Fin k) (seqlen i : Nat) :
    (s.append j seqlen i).partitions =
      Function.update s.partitions j (s.partitions j ++ [i]) := rfl

@[simp] theorem append_partitionSums (s : GreedyState k) (j : Fin k) (seqlen i : Nat) :
    (s.append j seqlen i).partitionSums =
      Function.update s.partitionSums j (s.partitionSums j + seqlen) := rfl

/-- The inner loop finds a partition with the least sum. -/
theorem minIdx_spec (s : GreedyState k) (indices : List (Fin k)) (least : Fin k) :
    ∃ j, s.minIdx indices (some least) = some j ∧
      s.partitionSums j ≤ s.partitionSums least ∧
      ∀ j' ∈ indices, s.partitionSums j ≤ s.partitionSums j' := by
  induction indices generalizing least with
  | nil => exact ⟨least, rfl, Nat.le_refl _, fun _ h => nomatch h⟩
  | cons j' indices ih =>
      by_cases hlt : s.partitionSums j' < s.partitionSums least
      · obtain ⟨j, hj, hle, hall⟩ := ih j'
        refine ⟨j, ?_, hle.trans (Nat.le_of_lt hlt), fun i hi => ?_⟩
        · rw [minIdx, List.foldl_cons]
          dsimp only
          rw [if_pos hlt]
          exact hj
        · obtain rfl | hi := List.mem_cons.mp hi
          · exact hle
          · exact hall i hi
      · obtain ⟨j, hj, hle, hall⟩ := ih least
        refine ⟨j, ?_, hle, fun i hi => ?_⟩
        · rw [minIdx, List.foldl_cons]
          dsimp only
          rw [if_neg hlt]
          exact hj
        · obtain rfl | hi := List.mem_cons.mp hi
          · exact hle.trans (Nat.le_of_not_lt hlt)
          · exact hall i hi

theorem exists_assign (hk : 0 < k) (s : GreedyState k) (seqlen i : Nat) :
    ∃ j, s.assign (seqlen, i) = .ok (s.append j seqlen i) ∧
      ∀ j', s.partitionSums j ≤ s.partitionSums j' := by
  cases hindices : List.finRange k with
  | nil =>
      have hlength := congrArg List.length hindices
      rw [List.length_finRange] at hlength
      exact absurd hlength hk.ne'
  | cons first rest =>
      obtain ⟨j, hj, hle, hall⟩ := s.minIdx_spec rest first
      have hfound : s.minIdx (List.finRange k) none = some j := by
        rw [hindices]
        exact hj
      refine ⟨j, by rw [assign, hfound], fun j' => ?_⟩
      have hmem := List.mem_finRange j'
      rw [hindices, List.mem_cons] at hmem
      obtain rfl | hmem := hmem
      · exact hle
      · exact hall j' hmem

/-- What a step keeps holds after the loop.  The values are put in the order of
their indices, and `done` are the indices so far. -/
theorem run (hk : 0 < k) {value : Nat → Nat} {P : List Nat → GreedyState k → Prop}
    {all : List Nat}
    (hstep : ∀ done i rest s j, done ++ i :: rest = all → P done s →
      (∀ j', s.partitionSums j ≤ s.partitionSums j') → P (done ++ [i]) (s.append j (value i) i))
    {done rest : List Nat} (hall : done ++ rest = all) {s : GreedyState k} (h : P done s) :
    ∃ t, (rest.map fun i => (value i, i)).foldlM assign s = .ok t ∧ P all t := by
  induction rest generalizing done s with
  | nil =>
      rw [List.append_nil] at hall
      exact ⟨s, rfl, hall ▸ h⟩
  | cons i rest ih =>
      obtain ⟨j, hassign, hleast⟩ := s.exists_assign hk (value i) i
      have hnext : done ++ [i] ++ rest = all := by
        rw [List.append_assoc]
        exact hall
      obtain ⟨t, ht, hP⟩ := ih hnext (hstep done i rest s j hall h hleast)
      refine ⟨t, ?_, hP⟩
      rw [List.map_cons, List.foldlM_cons, hassign]
      exact ht

/-! ## The loop -/

/-- What holds of the loop variables when the indices in `done` have their place. -/
structure Placed (value : Nat → Nat) (done : List Nat) (s : GreedyState k) : Prop where
  flatten_perm : (List.ofFn s.partitions).flatten.Perm done
  sums : ∀ j, s.partitionSums j = ((s.partitions j).map value).sum

theorem placed_start (value : Nat → Nat) : (start k).Placed value [] := by
  refine ⟨List.Perm.of_eq ?_, fun _ => rfl⟩
  rw [List.flatten_eq_nil_iff]
  intro partition hpartition
  obtain ⟨_, rfl⟩ := List.mem_ofFn.mp hpartition
  rfl

/-- An index that goes to one partition goes to all of them together. -/
theorem flatten_ofFn_update {α : Type*} (f : Fin k → List α) (j : Fin k) (x : α) :
    (List.ofFn (Function.update f j (f j ++ [x]))).flatten.Perm ((List.ofFn f).flatten ++ [x]) := by
  induction k with
  | zero => exact j.elim0
  | succ k ih =>
      rw [List.ofFn_succ, List.ofFn_succ, List.flatten_cons, List.flatten_cons]
      cases j using Fin.cases with
      | zero =>
          have hrest : (fun i : Fin k => Function.update f 0 (f 0 ++ [x]) i.succ) =
              fun i => f i.succ := by
            funext i
            rw [Function.update_of_ne (Fin.succ_ne_zero i)]
          rw [Function.update_self, hrest, List.append_assoc, List.append_assoc]
          exact List.Perm.append_left _ List.perm_append_comm
      | succ j =>
          have hrest : (fun i : Fin k => Function.update f j.succ (f j.succ ++ [x]) i.succ) =
              Function.update (fun i => f i.succ) j (f j.succ ++ [x]) :=
            Function.update_comp_eq_of_injective f (Fin.succ_injective k) j (f j.succ ++ [x])
          rw [Function.update_of_ne (Fin.succ_ne_zero j).symm, hrest, List.append_assoc]
          exact List.Perm.append_left _ (ih (fun i => f i.succ) j)

theorem Placed.append {value : Nat → Nat} {done : List Nat} {s : GreedyState k}
    (h : s.Placed value done) (j : Fin k) (i : Nat) :
    (s.append j (value i) i).Placed value (done ++ [i]) := by
  refine ⟨(flatten_ofFn_update s.partitions j i).trans (h.flatten_perm.append_right [i]),
    fun j' => ?_⟩
  rw [append_partitions, append_partitionSums]
  by_cases heq : j' = j
  · subst heq
    rw [Function.update_self, Function.update_self, h.sums j', List.map_append, List.sum_append,
      List.map_singleton, List.sum_singleton]
  · rw [Function.update_of_ne heq, Function.update_of_ne heq, h.sums j']

/-- A partition has at most the values of all. -/
theorem Placed.sum_le {value : Nat → Nat} {done : List Nat} {s : GreedyState k}
    (h : s.Placed value done) (v : Nat → Nat) (j : Fin k) :
    ((s.partitions j).map v).sum ≤ (done.map v).sum := by
  have hpart : s.partitions j ∈ List.ofFn s.partitions := List.mem_ofFn.mpr ⟨j, rfl⟩
  rw [← (h.flatten_perm.map v).sum_eq]
  exact List.Sublist.sum_le_sum ((List.sublist_flatten_of_mem hpart).map v) fun _ _ => Nat.zero_le _

/-- The counts add up to the indices that have their place. -/
theorem Placed.sum_length {value : Nat → Nat} {done : List Nat} {s : GreedyState k}
    (h : s.Placed value done) : ∑ j, (s.partitions j).length = done.length := by
  rw [← h.flatten_perm.length_eq, List.length_flatten, List.map_ofFn, List.sum_ofFn]
  rfl

end GreedyState

/-! ## Both modes -/

section Modes

variable {k : Nat} {seqlenList : List Nat}

/-- The values in the order of their indices. -/
theorem zipIdx_eq_map_range (seqlenList : List Nat) (bias : Nat) :
    (seqlenList.zipIdx.map fun item => (item.1 + bias, item.2)) =
      (List.range seqlenList.length).map fun i => (seqlenList.getD i 0 + bias, i) := by
  refine List.ext_getElem (by simp) fun i hi _ => ?_
  rw [List.length_map, List.length_zipIdx] at hi
  simp [hi]

theorem sum_map_getD (seqlenList : List Nat) :
    ((List.range seqlenList.length).map fun i => seqlenList.getD i 0).sum = seqlenList.sum := by
  rw [Py.map_getD_range]

/-- No sum gets further above another than the largest value. -/
theorem greedy_sums_within (hk : 0 < k) :
    ∃ s : GreedyState k,
      (seqlenList.zipIdx.map fun item => (item.1 + 0, item.2)).foldlM GreedyState.assign
          (GreedyState.start k) = .ok s ∧
        s.Placed (fun i => seqlenList.getD i 0) (List.range seqlenList.length) ∧
        LeastLoaded.Within (seqlenList.max?.getD 0) s.partitionSums := by
  rw [zipIdx_eq_map_range]
  refine GreedyState.run hk (P := fun done s => s.Placed (fun i => seqlenList.getD i 0) done ∧
    LeastLoaded.Within (seqlenList.max?.getD 0) s.partitionSums) ?_ (List.nil_append _)
    ⟨GreedyState.placed_start _, LeastLoaded.within_const (Nat.zero_le _) 0⟩
  intro done i rest s j hall ⟨hplaced, hwithin⟩ hleast
  have hi : i < seqlenList.length := by
    rw [← List.mem_range, ← hall]
    exact List.mem_append_right done List.mem_cons_self
  refine ⟨hplaced.append j i, hwithin.add_least hleast (Nat.zero_le _) (le_max?_getD ?_)⟩
  rw [List.getD_eq_getElem?_getD, List.getElem?_eq_getElem hi]
  exact List.getElem_mem hi

theorem sum_map_add (xs : List Nat) (v : Nat → Nat) (bias : Nat) :
    (xs.map fun i => v i + bias).sum = xs.length * bias + (xs.map v).sum := by
  induction xs with
  | nil => rw [List.map_nil, List.map_nil, List.length_nil, Nat.zero_mul, Nat.zero_add]
  | cons x xs ih =>
      rw [List.map_cons, List.map_cons, List.sum_cons, List.sum_cons, ih, List.length_cons,
        Nat.add_mul, Nat.one_mul]
      omega

/-- With the bias no count gets more than one above another. -/
theorem greedy_counts_within (hk : 0 < k) :
    ∃ s : GreedyState k,
      (seqlenList.zipIdx.map fun item => (item.1 + (seqlenList.sum + 1), item.2)).foldlM
          GreedyState.assign (GreedyState.start k) = .ok s ∧
        s.Placed (fun i => seqlenList.getD i 0 + (seqlenList.sum + 1))
          (List.range seqlenList.length) ∧
        LeastLoaded.Within 1 (List.length ∘ s.partitions) := by
  rw [zipIdx_eq_map_range]
  refine GreedyState.run hk (P := fun done s =>
    s.Placed (fun i => seqlenList.getD i 0 + (seqlenList.sum + 1)) done ∧
      LeastLoaded.Within 1 (List.length ∘ s.partitions)) ?_ (List.nil_append _)
    ⟨GreedyState.placed_start _, LeastLoaded.within_const (Nat.zero_le _) 0⟩
  intro done i rest s j hall ⟨hplaced, hwithin⟩ hleast
  refine ⟨hplaced.append j i, ?_⟩
  -- the values that have their place are not more than all values
  have hvalues (j' : Fin k) :
      ((s.partitions j').map fun i => seqlenList.getD i 0).sum < seqlenList.sum + 1 := by
    have hdone := hplaced.sum_le (fun i => seqlenList.getD i 0) j'
    have hsum := sum_map_getD seqlenList
    rw [← hall, List.map_append, List.sum_append] at hsum
    omega
  have hcounts (j' : Fin k) : (s.partitions j).length ≤ (s.partitions j').length := by
    have hle := hleast j'
    rw [hplaced.sums, hplaced.sums, sum_map_add, sum_map_add] at hle
    exact LeastLoaded.count_le_of_load_le (hvalues j') hle
  rw [GreedyState.append_partitions, Function.comp_update, List.length_append,
    List.length_singleton]
  exact hwithin.add_least hcounts (Nat.zero_le _) (Nat.le_refl _)

/-- The partitions hold every index once.  With `equal_size` they are of one size,
else their sums are no further apart than the largest value. -/
theorem greedyPartition_spec (hk : 1 ≤ k) :
    (k ∣ seqlenList.length →
      ∃ partitions, greedyPartition seqlenList k true = .ok partitions ∧
        partitions.length = k ∧
        (∀ partition ∈ partitions, partition.length = seqlenList.length / k) ∧
        partitions.flatten.Perm (List.range seqlenList.length)) ∧
    ∃ partitions, greedyPartition seqlenList k false = .ok partitions ∧
      partitions.length = k ∧
      partitions.flatten.Perm (List.range seqlenList.length) ∧
      valueSpread (partitions.map (partitionSum seqlenList)) ≤ seqlenList.max?.getD 0 := by
  constructor
  · intro hdvd
    obtain ⟨s, hs, hplaced, hwithin⟩ := @greedy_counts_within k seqlenList hk
    have hsum : ∑ j, (List.length ∘ s.partitions) j =
        Fintype.card (Fin k) * (seqlenList.length / k) := by
      rw [Fintype.card_fin, Nat.mul_div_cancel' hdvd, ← List.length_range (n := seqlenList.length),
        ← hplaced.sum_length]
      rfl
    have hequal : ∀ partition ∈ List.ofFn s.partitions,
        partition.length = seqlenList.length / k := by
      intro partition hpartition
      obtain ⟨j, rfl⟩ := List.mem_ofFn.mp hpartition
      exact hwithin.eq_of_sum hsum j
    have hsizes : ∀ partition ∈ List.ofFn s.partitions,
        partition.length * k = seqlenList.length := by
      intro partition hpartition
      rw [hequal partition hpartition, Nat.div_mul_cancel hdvd]
    refine ⟨List.ofFn s.partitions, ?_, List.length_ofFn, hequal, hplaced.flatten_perm⟩
    simp only [greedyPartition, if_true, hs, Py.ok_bind, Py.forM_check hsizes]
    rfl
  · obtain ⟨s, hs, hplaced, hwithin⟩ := @greedy_sums_within k seqlenList hk
    refine ⟨List.ofFn s.partitions, ?_, List.length_ofFn, hplaced.flatten_perm, ?_⟩
    · simp only [greedyPartition, Bool.false_eq_true, if_false, hs, Py.ok_bind]
      rfl
    · refine valueSpread_le fun x hx y hy => ?_
      rw [List.map_ofFn] at hx hy
      obtain ⟨a, rfl⟩ := List.mem_ofFn.mp hx
      obtain ⟨b, rfl⟩ := List.mem_ofFn.mp hy
      have hle := hwithin a b
      rwa [hplaced.sums, hplaced.sums] at hle

/-- Ties and a zero. -/
theorem greedyPartition_spec_four :
    (2 ∣ 4 →
      ∃ partitions, greedyPartition [5, 0, 5, 5] 2 true = .ok partitions ∧
        partitions.length = 2 ∧ (∀ partition ∈ partitions, partition.length = 4 / 2) ∧
        partitions.flatten.Perm (List.range 4)) ∧
    ∃ partitions, greedyPartition [5, 0, 5, 5] 2 false = .ok partitions ∧
      partitions.length = 2 ∧ partitions.flatten.Perm (List.range 4) ∧
      valueSpread (partitions.map (partitionSum [5, 0, 5, 5])) ≤ 5 :=
  @greedyPartition_spec 2 [5, 0, 5, 5] (by decide)

end Modes

end Verl
