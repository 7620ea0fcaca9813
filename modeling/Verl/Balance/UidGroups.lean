import Verl.Balance.MicroBatch
import Verl.Lib.Labels

/-!
# Balancing whole prompts

`get_group_balanced_partitions` cuts the samples where the uid changes, splits
the groups by Karmarkar-Karp on their workloads, and puts the samples of the
groups in place of the groups.

The scan keeps the group under way apart from the groups that are closed.  What
holds of it after every sample is `GroupScan.Inv`: the groups, with the one under
way as the last, hold the samples so far in order, and are groups by uid.  Where
equal uids are contiguous a change of the uid is a new uid, and only there is
the second part kept.
-/

namespace Verl

/-! ## The source functions -/

/-- The loop variables.  A uid is a value or `None`, which the scan starts with. -/
structure GroupScan (Uid : Type) where
  groups : List (List Nat × Nat)
  currentUid : Option Uid
  currentIndices : List Nat
  currentSeqlen : Nat

namespace GroupScan

variable {Uid : Type}

def start : GroupScan Uid := ⟨[], none, [], 0⟩

/-- `if current_indices: groups.append(...)`. -/
def close (s : GroupScan Uid) : List (List Nat × Nat) :=
  if s.currentIndices ≠ [] then s.groups ++ [(s.currentIndices, s.currentSeqlen)] else s.groups

variable [DecidableEq Uid]

/-- The body of the loop. -/
def next (s : GroupScan Uid) (i seqlen : Nat) (uid : Option Uid) : GroupScan Uid :=
  if uid ≠ s.currentUid then
    { groups := s.close
      currentUid := uid
      currentIndices := [i]
      currentSeqlen := seqlen }
  else
    { s with
      currentIndices := s.currentIndices ++ [i]
      currentSeqlen := s.currentSeqlen + seqlen }

/-- The loop over the samples from the `i`-th on. -/
def run (s : GroupScan Uid) (i : Nat) (samples : List (Nat × Option Uid)) : GroupScan Uid :=
  (samples.zipIdx i).foldl (fun s sample => s.next sample.2 sample.1.1 sample.1.2) s

end GroupScan

section Source

variable {Uid : Type} [DecidableEq Uid]

/-- The groups of samples, with the sum of their lengths. -/
def uidGroups (seqlenList : List Nat) (uidList : List (Option Uid)) : List (List Nat × Nat) :=
  (GroupScan.start.run 0 (seqlenList.zip uidList)).close

/-- The workload of a group. -/
def groupWorkload (seqlenList indices : List Nat) : Except Py.Error Nat := do
  let workloads ← indices.mapM fun i => return calculateWorkload (← Py.getItem seqlenList i)
  return workloads.sum

/-- The samples of the groups of a partition. -/
def samplePartition (groups : List (List Nat × Nat)) (groupPartition : List Nat) :
    Except Py.Error (List Nat) := do
  let sampleIndices ← groupPartition.mapM fun groupIdx => return (← Py.getItem groups groupIdx).1
  return sampleIndices.flatten.insertionSort (· ≤ ·)

def getGroupBalancedPartitions (seqlenList : List Nat) (uidList : List (Option Uid))
    (kPartitions : Nat) : Except Py.Error (List (List Nat)) := do
  Py.check (seqlenList.length = uidList.length) "seqlen_list and uid_list must have same length"
  let groups := uidGroups seqlenList uidList
  Py.check (kPartitions ≤ groups.length)
    (s!"Number of uid groups ({groups.length}) must be >= k_partitions ({kPartitions}). " ++
      "Consider reducing world_size or increasing batch_size.")
  let groupWorkloads ← groups.mapM fun group => groupWorkload seqlenList group.1
  let groupPartitions ← getSeqlenBalancedPartitions groupWorkloads kPartitions true
  groupPartitions.mapM (samplePartition groups)

end Source

/-! ## The scan -/

namespace GroupScan

variable {Uid : Type}

/-- The indices of the groups, with the one under way. -/
def indices (s : GroupScan Uid) : List (List Nat) := s.close.map Prod.fst

/-- What holds of the scan after `n` samples, where `uidAt` is the uid of a sample. -/
structure Inv (uidAt : Nat → Option Uid) (n : Nat) (s : GroupScan Uid) : Prop where
  flatten : s.indices.flatten = List.range n
  grouped : Labels.Grouped uidAt s.indices
  current : ∀ i ∈ s.currentIndices, uidAt i = s.currentUid
  last : ∀ i, n = i + 1 → i ∈ s.currentIndices

theorem inv_start (uidAt : Nat → Option Uid) : (start : GroupScan Uid).Inv uidAt 0 :=
  ⟨rfl, Labels.grouped_nil, (fun _ h => nomatch h), fun _ h => nomatch h⟩

theorem indices_of_ne_nil {s : GroupScan Uid} (h : s.currentIndices ≠ []) :
    s.indices = s.groups.map Prod.fst ++ [s.currentIndices] := by
  rw [indices, close, if_pos h, List.map_append, List.map_singleton]

theorem indices_of_eq_nil {s : GroupScan Uid} (h : s.currentIndices = []) :
    s.indices = s.groups.map Prod.fst := by
  rw [indices, close, if_neg (not_not_intro h)]

variable {uidAt : Nat → Option Uid} {n : Nat} {s : GroupScan Uid}

/-- Only before the first sample there is no group under way. -/
theorem Inv.eq_zero (h : s.Inv uidAt n) (hnil : s.currentIndices = []) : n = 0 := by
  cases n with
  | zero => rfl
  | succ n =>
      have hlast := h.last n rfl
      rw [hnil] at hlast
      cases hlast

theorem Inv.lt (h : s.Inv uidAt n) {i : Nat} (hi : i ∈ s.indices.flatten) : i < n := by
  rw [h.flatten] at hi
  exact List.mem_range.mp hi

variable [DecidableEq Uid]

/-- A sample of another uid than the last opens a group, and no group has its uid. -/
theorem Inv.next_of_ne (h : s.Inv uidAt n) (seqlen : Nat) (hne : uidAt n ≠ s.currentUid)
    (hcontiguous : ∀ i < n, uidAt i = uidAt n → uidAt (n - 1) = uidAt n) :
    (s.next n seqlen (uidAt n)).Inv uidAt (n + 1) := by
  have hnext : (s.next n seqlen (uidAt n)).indices = s.indices ++ [[n]] := by
    rw [next, if_pos hne]
    exact indices_of_ne_nil (List.cons_ne_nil n [])
  have hcurrent : (s.next n seqlen (uidAt n)).currentIndices = [n] ∧
      (s.next n seqlen (uidAt n)).currentUid = uidAt n := by
    rw [next, if_pos hne]
    exact ⟨rfl, rfl⟩
  refine ⟨?_, ?_, fun i hi => ?_, fun i hi => ?_⟩
  · rw [hnext, List.flatten_append, h.flatten, List.flatten_singleton, List.range_succ]
  · rw [hnext]
    refine h.grouped.concat (List.cons_ne_nil n []) (fun x hx y hy => ?_) fun i hi j hj heq => ?_
    · rw [List.mem_singleton.mp hx, List.mem_singleton.mp hy]
    · obtain rfl := List.mem_singleton.mp hj
      have hlt := h.lt hi
      have hprev : uidAt (j - 1) = s.currentUid := h.current _ (h.last _ (by omega))
      exact hne ((hcontiguous i hlt heq).symm.trans hprev)
  · rw [hcurrent.1] at hi
    rw [hcurrent.2, List.mem_singleton.mp hi]
  · rw [hcurrent.1, Nat.succ.inj hi]
    exact List.mem_singleton_self i

/-- A sample of the uid of the last goes to the group under way, or opens the
first if the uid is `None`. -/
theorem Inv.next_of_eq (h : s.Inv uidAt n) (seqlen : Nat) (heq : uidAt n = s.currentUid) :
    (s.next n seqlen (uidAt n)).Inv uidAt (n + 1) := by
  have hne : s.currentIndices ++ [n] ≠ [] := by simp
  have hnext : (s.next n seqlen (uidAt n)).indices =
      s.groups.map Prod.fst ++ [s.currentIndices ++ [n]] := by
    rw [next, if_neg (not_not_intro heq)]
    exact indices_of_ne_nil hne
  have hcurrent : (s.next n seqlen (uidAt n)).currentIndices = s.currentIndices ++ [n] ∧
      (s.next n seqlen (uidAt n)).currentUid = s.currentUid := by
    rw [next, if_neg (not_not_intro heq)]
    exact ⟨rfl, rfl⟩
  have hsame : ∀ i ∈ s.currentIndices ++ [n], uidAt i = s.currentUid := by
    intro i hi
    obtain hi | hi := List.mem_append.mp hi
    · exact h.current i hi
    · rw [List.mem_singleton.mp hi, heq]
  have hopen : (s.groups.map Prod.fst).flatten ++ s.currentIndices = List.range n ∧
      Labels.Grouped uidAt (s.groups.map Prod.fst) ∧
      ∀ i ∈ (s.groups.map Prod.fst).flatten, uidAt i ≠ s.currentUid := by
    by_cases hnil : s.currentIndices = []
    · have hflatten := h.flatten
      have hgrouped := h.grouped
      rw [indices_of_eq_nil hnil] at hflatten hgrouped
      refine ⟨by rw [hnil, List.append_nil, hflatten], hgrouped, fun i hi => ?_⟩
      rw [hflatten, h.eq_zero hnil] at hi
      cases hi
    · have hflatten := h.flatten
      have hgrouped := h.grouped
      rw [indices_of_ne_nil hnil] at hflatten hgrouped
      rw [List.flatten_append, List.flatten_singleton] at hflatten
      obtain ⟨j, hj⟩ := List.exists_mem_of_ne_nil _ hnil
      refine ⟨hflatten, hgrouped.of_concat, fun i hi hi' => ?_⟩
      obtain ⟨g, hg, hi⟩ := List.mem_flatten.mp hi
      exact (List.pairwise_append.mp hgrouped.apart).2.2 g hg _ (List.mem_singleton_self _) i hi
        j hj (hi'.trans (h.current j hj).symm)
  refine ⟨?_, ?_, fun i hi => ?_, fun i hi => ?_⟩
  · rw [hnext, List.flatten_append, List.flatten_singleton, ← List.append_assoc, hopen.1,
      List.range_succ]
  · rw [hnext]
    refine hopen.2.1.concat hne (fun i hi j hj => ?_) fun i hi j hj hij => ?_
    · rw [hsame i hi, hsame j hj]
    · exact hopen.2.2 i hi (hij.trans (hsame j hj))
  · rw [hcurrent.1] at hi
    rw [hcurrent.2]
    exact hsame i hi
  · rw [hcurrent.1, Nat.succ.inj hi]
    exact List.mem_append_right _ (List.mem_singleton_self i)

/-- What every sample keeps holds after the loop. -/
theorem Inv.run (h : s.Inv uidAt n) (samples : List (Nat × Option Uid))
    (huid : ∀ j sample, samples[j]? = some sample → uidAt (n + j) = sample.2)
    (hcontiguous : ∀ l < n + samples.length, ∀ i < l, uidAt i = uidAt l →
      uidAt (l - 1) = uidAt l) :
    (s.run n samples).Inv uidAt (n + samples.length) := by
  induction samples generalizing n s with
  | nil => exact h
  | cons sample samples ih =>
      have hfirst : uidAt n = sample.2 := huid 0 sample rfl
      have hnext : (s.next n sample.1 sample.2).Inv uidAt (n + 1) := by
        rw [← hfirst]
        by_cases heq : uidAt n = s.currentUid
        · exact h.next_of_eq sample.1 heq
        · refine h.next_of_ne sample.1 heq (hcontiguous n ?_)
          rw [List.length_cons]
          omega
      have hlength : n + (sample :: samples).length = n + 1 + samples.length := by
        rw [List.length_cons]
        omega
      rw [hlength] at hcontiguous ⊢
      refine ih hnext (fun j later hj => ?_) hcontiguous
      rw [Nat.add_right_comm]
      exact huid (j + 1) later hj

end GroupScan

/-! ## The groups -/

section Groups

variable {Uid : Type} [DecidableEq Uid] {seqlenList : List Nat} {uidList : List (Option Uid)}

/-- Equal uids are contiguous. -/
def Contiguous (uidList : List (Option Uid)) : Prop :=
  ∀ l < uidList.length, ∀ j < l, ∀ i < j, uidList[i]? = uidList[l]? → uidList[j]? = uidList[l]?

instance (uidList : List (Option Uid)) : Decidable (Contiguous uidList) :=
  @Nat.decidableBallLT _ _ fun l _ => inferInstanceAs (Decidable (∀ j < l, ∀ i < j,
    uidList[i]? = uidList[l]? → uidList[j]? = uidList[l]?))

/-- The uid of a sample. -/
def uidAt (uidList : List (Option Uid)) (i : Nat) : Option Uid := uidList.getD i none

omit [DecidableEq Uid] in
theorem getElem?_uidAt {i : Nat} (hi : i < uidList.length) :
    uidList[i]? = some (uidAt uidList i) := by
  rw [uidAt, List.getD_eq_getElem?_getD, List.getElem?_eq_getElem hi, Option.getD_some]

omit [DecidableEq Uid] in
theorem Contiguous.previous (h : Contiguous uidList) {l i : Nat} (hl : l < uidList.length)
    (hi : i < l) (heq : uidAt uidList i = uidAt uidList l) :
    uidAt uidList (l - 1) = uidAt uidList l := by
  obtain rfl | hlt : i = l - 1 ∨ i < l - 1 := by omega
  · exact heq
  · have hprevious := h l hl (l - 1) (by omega) i hlt
    rw [getElem?_uidAt hl, getElem?_uidAt (hi.trans hl),
      getElem?_uidAt (lt_of_le_of_lt (Nat.sub_le l 1) hl), heq] at hprevious
    exact Option.some.inj (hprevious rfl)

/-- The groups are the samples in order, cut by uid. -/
theorem uidGroups_spec (hlength : seqlenList.length = uidList.length)
    (hcontiguous : Contiguous uidList) :
    ((uidGroups seqlenList uidList).map Prod.fst).flatten = List.range uidList.length ∧
      Labels.Grouped (uidAt uidList) ((uidGroups seqlenList uidList).map Prod.fst) := by
  have hzip : (seqlenList.zip uidList).length = uidList.length := by
    rw [List.length_zip, hlength, Nat.min_self]
  have hinv := (GroupScan.inv_start (uidAt uidList)).run (seqlenList.zip uidList)
    (fun j sample hj => by
      rw [Nat.zero_add, uidAt, List.getD_eq_getElem?_getD,
        (List.getElem?_zip_eq_some.mp hj).2, Option.getD_some])
    (fun l hl i hi heq => by
      rw [Nat.zero_add, hzip] at hl
      exact hcontiguous.previous hl hi heq)
  rw [Nat.zero_add, hzip] at hinv
  exact ⟨hinv.flatten, hinv.grouped⟩

/-- There are as many groups as uids. -/
theorem length_uidGroups (hlength : seqlenList.length = uidList.length)
    (hcontiguous : Contiguous uidList) :
    (uidGroups seqlenList uidList).length = uidList.dedup.length := by
  obtain ⟨hflatten, hgrouped⟩ := uidGroups_spec hlength hcontiguous
  have hdedup := hgrouped.length_dedup
  have hall : (List.range uidList.length).map (uidAt uidList) = uidList :=
    Py.map_getD_range uidList none
  rw [hflatten, hall, List.length_map] at hdedup
  exact hdedup.symm

theorem groupWorkload_eq_ok {indices : List Nat} (h : ∀ i ∈ indices, i < seqlenList.length) :
    groupWorkload seqlenList indices =
      .ok (indices.map fun i => calculateWorkload (seqlenList.getD i 0)).sum := by
  have hall := @Py.mapM_eq_ok _ _ (fun i => do return calculateWorkload (← Py.getItem seqlenList i))
    (fun i => calculateWorkload (seqlenList.getD i 0)) indices fun i hi => by
      rw [Py.getItem_of_lt (h i hi) 0]
      rfl
  rw [groupWorkload, hall]
  rfl

theorem samplePartition_eq_ok {groups : List (List Nat × Nat)} {groupPartition : List Nat}
    (h : ∀ i ∈ groupPartition, i < groups.length) :
    samplePartition groups groupPartition =
      .ok ((Labels.deal (groups.map Prod.fst) groupPartition).insertionSort (· ≤ ·)) := by
  have hall := @Py.mapM_eq_ok _ _ (fun i => do return (← Py.getItem groups i).1)
    (fun i => (groups.map Prod.fst).getD i []) groupPartition fun i hi => by
      have hget := List.getElem?_eq_getElem (h i hi)
      rw [Py.getItem_of_some hget, List.getD_eq_getElem?_getD, List.getElem?_map, hget]
      rfl
  rw [samplePartition, hall]
  rfl

end Groups

/-! ## The partitions -/

section Partitions

variable {Uid : Type} [DecidableEq Uid] {seqlenList : List Nat} {uidList : List (Option Uid)}
  {k : Nat}

/-- What `get_group_balanced_partitions` promises: `k` strictly increasing lists
that hold every index once, no uid in two of them and as many uids in each. -/
structure KeepsGroups (uidList : List (Option Uid)) (k : Nat) (partitions : List (List Nat)) :
    Prop where
  length_eq : partitions.length = k
  increasing : ∀ partition ∈ partitions, partition.Pairwise (· < ·)
  flatten_perm : partitions.flatten.Perm (List.range uidList.length)
  together : ∀ (a b : Nat) (p q : List Nat), partitions[a]? = some p → partitions[b]? = some q →
    ∀ i ∈ p, ∀ j ∈ q, uidAt uidList i = uidAt uidList j → a = b
  uids : ∀ partition ∈ partitions,
    (partition.map (uidAt uidList)).dedup.length = uidList.dedup.length / k

/-- Groups by uid, dealt out in equal numbers and sorted. -/
theorem keepsGroups_of_grouped {groups hands : List (List Nat)}
    (hflatten : groups.flatten = List.range uidList.length)
    (hgrouped : Labels.Grouped (uidAt uidList) groups)
    (hcount : groups.length = uidList.dedup.length)
    (hhands : IsPartition groups.length k hands)
    (hequal : ∀ hand ∈ hands, hand.length = groups.length / k) :
    KeepsGroups uidList k
      (hands.map fun hand => (Labels.deal groups hand).insertionSort (· ≤ ·)) := by
  have hnodup : hands.flatten.Nodup := hhands.flatten_perm.nodup_iff.mpr List.nodup_range
  have hsorted (hand : List Nat) : ((Labels.deal groups hand).insertionSort (· ≤ ·)).Perm
      (Labels.deal groups hand) := List.perm_insertionSort _ _
  have hall := Labels.flatten_map_deal hhands.flatten_perm
  rw [hflatten] at hall
  have hdealt : (hands.map (Labels.deal groups)).flatten.Nodup :=
    hall.nodup_iff.mpr List.nodup_range
  refine ⟨?_, fun p hp => ?_, ?_, fun a b p q ha hb i hi j hj heq => ?_, fun p hp => ?_⟩
  · rw [List.length_map, hhands.length_eq]
  · obtain ⟨hand, hhand, rfl⟩ := List.mem_map.mp hp
    have hunique := (hsorted hand).nodup_iff.mpr
      ((List.nodup_flatten.mp hdealt).1 _ (List.mem_map_of_mem hhand))
    exact ((List.pairwise_insertionSort (· ≤ ·) _).and hunique).imp
      fun h => lt_of_le_of_ne h.1 h.2
  · refine List.Perm.trans ?_ hall
    rw [← List.flatMap_def, ← List.flatMap_def]
    exact List.Perm.flatMap_left hands fun hand _ => hsorted hand
  · rw [List.getElem?_map, Option.map_eq_some_iff] at ha hb
    obtain ⟨hand, hhand, rfl⟩ := ha
    obtain ⟨hand', hhand', rfl⟩ := hb
    exact hgrouped.hand_eq hnodup hhand hhand' ((hsorted hand).mem_iff.mp hi)
      ((hsorted hand').mem_iff.mp hj) heq
  · obtain ⟨hand, hhand, rfl⟩ := List.mem_map.mp hp
    rw [((hsorted hand).map _).dedup.length_eq, hgrouped.length_dedup_deal
      ((List.nodup_flatten.mp hnodup).1 hand hhand) (fun i hi => ?_), hequal hand hhand, hcount]
    exact List.mem_range.mp
      (hhands.flatten_perm.mem_iff.mp (List.mem_flatten.mpr ⟨hand, hhand, hi⟩))

/-- Whole groups go to the partitions, as many to each. -/
theorem getGroupBalancedPartitions_keepsGroups (hk : 0 < k)
    (hlength : seqlenList.length = uidList.length) (hcontiguous : Contiguous uidList)
    (hle : k ≤ uidList.dedup.length) (hdvd : k ∣ uidList.dedup.length) :
    ∃ partitions, getGroupBalancedPartitions seqlenList uidList k = .ok partitions ∧
      KeepsGroups uidList k partitions := by
  obtain ⟨hflatten, hgrouped⟩ := uidGroups_spec hlength hcontiguous
  have hcount := length_uidGroups hlength hcontiguous
  have hindices : ∀ group ∈ uidGroups seqlenList uidList, ∀ i ∈ group.1,
      i < seqlenList.length := by
    intro group hgroup i hi
    have hmem := List.mem_flatten.mpr ⟨group.1, List.mem_map_of_mem hgroup, hi⟩
    rw [hflatten] at hmem
    rw [hlength]
    exact List.mem_range.mp hmem
  have hworkloads := Py.mapM_eq_ok fun group hgroup => groupWorkload_eq_ok (hindices group hgroup)
  rw [← hcount] at hle hdvd
  obtain ⟨hands, hhands, hpartition⟩ := @getSeqlenBalancedPartitions_isPartition
    ((uidGroups seqlenList uidList).map fun group =>
      (group.1.map fun i => calculateWorkload (seqlenList.getD i 0)).sum) k true hk
    (by rwa [List.length_map]) fun _ => by rwa [List.length_map]
  have hequal := length_of_mem_getSeqlenBalancedPartitions hk (by rwa [List.length_map])
    (by rwa [List.length_map]) hhands
  rw [List.length_map] at hpartition hequal
  have hlt : ∀ hand ∈ hands, ∀ i ∈ hand, i < (uidGroups seqlenList uidList).length := by
    intro hand hhand i hi
    exact List.mem_range.mp
      (hpartition.flatten_perm.mem_iff.mp (List.mem_flatten.mpr ⟨hand, hhand, hi⟩))
  have hsamples := Py.mapM_eq_ok fun hand hhand => samplePartition_eq_ok (hlt hand hhand)
  refine ⟨_, ?_, keepsGroups_of_grouped hflatten hgrouped (by rw [List.length_map, hcount])
    (by rwa [List.length_map]) (by rwa [List.length_map])⟩
  simp only [getGroupBalancedPartitions, Py.check_of_true hlength, Py.check_of_true hle,
    Py.ok_bind, hworkloads, hhands, hsamples]

/-- The first uid is the one that the scan starts with. -/
theorem getGroupBalancedPartitions_keepsGroups_four :
    ∃ partitions, getGroupBalancedPartitions [4, 1, 3, 9, 2]
        [none, some "a", some "a", some "b", some "c"] 2 = .ok partitions ∧
      KeepsGroups [none, some "a", some "a", some "b", some "c"] 2 partitions :=
  getGroupBalancedPartitions_keepsGroups (by decide) (by decide) (by decide) (by decide) (by decide)

end Partitions

end Verl
