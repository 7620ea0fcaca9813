import Verl.Balance.Partition

/-!
# Dynamic micro-batches

`rearrange_micro_batches` splits the samples of a batch into micro-batches by
their workload.  `restore_dynamic_batch` undoes the permutation on what the
model returned for the micro-batches.

The index lists go through four stages.  The partition of the groups is a
permutation of all group indices.  Each group is replaced by the block of its
samples.  The lists are sorted by workload, which permutes the lists.  The
reversal of every second list permutes them again.  `Lossless` is what the
result is for.  It holds whenever at least one micro-batch is computed
(`rearrangeMicroBatches_iff`).
-/

namespace Verl

/-! ## The batch -/

/-- The two layouts of the sequences of a batch: a nested tensor of token rows,
or padded rows with an attention mask. -/
inductive SeqLayout where
  | nested (inputIds : List (List Nat))
  | padded (width : Nat) (attentionMask : List (List Bool))

namespace SeqLayout

/-- `seq_len_effective`. -/
def seqLenEffective : SeqLayout → List Nat
  | nested inputIds => inputIds.map List.length
  | padded _ attentionMask => attentionMask.map fun row => row.count true

/-- `max_seq_len`.  A padded batch counts its padding. -/
def maxSeqLen : SeqLayout → Except Py.Error Nat
  | nested inputIds =>
      match (inputIds.map List.length).max? with
      | some m => .ok m
      | none => .error (.value "max() iterable argument is empty")
  | padded width _ => .ok width

end SeqLayout

/-- A tensor dict.  A row holds all fields of one sample. -/
structure Batch (ρ : Type) where
  layout : SeqLayout
  rows : List ρ
  rows_length : rows.length = layout.seqLenEffective.length

/-! ## The source functions -/

/-- `24576 * seqlen + seqlen**2`, which fits into an `int64` for every length
below `2^31`. -/
def calculateWorkload (seqlen : Nat) : Nat := 24576 * seqlen + seqlen ^ 2

/-- `-(a // -b)`. -/
def ceildiv (a b : Nat) : Except Py.Error Nat := Py.floorDiv (a + (b - 1)) b

def roundupDivisible (a b : Nat) : Except Py.Error Nat := do
  return (← Py.floorDiv (a + b - 1) b) * b

/-- The arguments of `rearrange_micro_batches` besides the batch. -/
structure MicroBatchArgs where
  maxTokenLen : Nat
  /-- The counts of the other ranks, `none` without a process group. -/
  dpGroup : Option (List Nat)
  numBatchesDividedBy : Option Nat
  sameMicroNumInDp : Bool
  minNumMicroBatch : Option Nat
  useDynamicBszBalance : Bool
  forceGroupSize : Nat

namespace MicroBatchArgs

/-- At least `min_num_micro_batch`. -/
def withMinimum (args : MicroBatchArgs) (count : Nat) : Nat :=
  match args.minNumMicroBatch with
  | some least => max least count
  | none => count

/-- The maximum over the ranks of the group, by `all_reduce`. -/
def syncInDp (args : MicroBatchArgs) (count : Nat) : Nat :=
  match args.sameMicroNumInDp, args.dpGroup with
  | true, some others => others.foldl max count
  | _, _ => count

/-- A multiple of `num_batches_divided_by`. -/
def roundUp (args : MicroBatchArgs) (count : Nat) : Except Py.Error Nat :=
  match args.numBatchesDividedBy with
  | some divisor => roundupDivisible count divisor
  | none => .ok count

end MicroBatchArgs

/-- The number of micro-batches. -/
def numMicroBatches (args : MicroBatchArgs) (seqLens : List Nat) : Except Py.Error Nat := do
  let numGroups ← Py.floorDiv seqLens.length args.forceGroupSize
  let needed ← ceildiv seqLens.sum args.maxTokenLen
  args.roundUp (args.syncInDp (args.withMinimum (min numGroups needed)))

/-- The samples of the groups of a partition. -/
def expandGroups (forceGroupSize : Nat) (groupPartition : List Nat) : List Nat :=
  groupPartition.flatMap fun groupIdx =>
    List.range' (groupIdx * forceGroupSize) forceGroupSize

/-- `micro_bsz_idx` before the balancing, with the workloads it is made from. -/
def partitionSamples (seqLens : List Nat) (forceGroupSize count : Nat) :
    Except Py.Error (List (List Nat) × List Nat) := do
  let workloads := seqLens.map calculateWorkload
  if 1 < forceGroupSize then
    let groupWorkloads := (blocks forceGroupSize workloads).map List.sum
    let groupPartitions ← getSeqlenBalancedPartitions groupWorkloads count false
    return (groupPartitions.map (expandGroups forceGroupSize), groupWorkloads)
  else
    return (← getSeqlenBalancedPartitions workloads count false, workloads)

/-- The sort key of a partition: its workload, then its first index.  With a
group size of one the slice is the whole partition. -/
def partitionKey (workloads : List Nat) (forceGroupSize : Nat) (partition : List Nat) :
    Except Py.Error (Nat ×ₗ Nat) := do
  let loads ← (Py.everyNth 0 forceGroupSize partition).mapM fun idx =>
    Py.getItem workloads (idx / forceGroupSize)
  return toLex (loads.sum, partition.headD 0)

/-- The largest partition goes to the middle and the smaller ones to both
ends. -/
def balancePartitions (workloads : List Nat) (forceGroupSize : Nat)
    (partitions : List (List Nat)) : Except Py.Error (List (List Nat)) := do
  let keyed ← partitions.mapM fun partition => do
    return (← partitionKey workloads forceGroupSize partition, partition)
  let sorted := (keyed.insertionSort fun a b => b.1 ≤ a.1).map Prod.snd
  return (Py.everyNth 0 2 sorted).reverse ++ Py.everyNth 1 2 sorted

/-- `micro_bsz_idx` after the balancing, if it is on. -/
def orderPartitions (args : MicroBatchArgs) (workloads : List Nat)
    (partitions : List (List Nat)) : Except Py.Error (List (List Nat)) :=
  if args.useDynamicBszBalance then
    balancePartitions workloads args.forceGroupSize partitions
  else .ok partitions

/-- `index_select_tensor_dict`. -/
def indexSelectTensorDict {ρ : Type} (rows : List ρ) (indices : List Nat) :
    Except Py.Error (List ρ) :=
  indices.mapM (Py.getItem rows)

def rearrangeMicroBatches {ρ : Type} (batch : Batch ρ) (args : MicroBatchArgs) :
    Except Py.Error (List (List ρ) × List (List Nat)) := do
  let seqLens := batch.layout.seqLenEffective
  let maxSeqLen ← batch.layout.maxSeqLen
  Py.check (maxSeqLen ≤ args.maxTokenLen)
    (s!"max_token_len must be greater than the sequence length. Got " ++
      s!"max_token_len={args.maxTokenLen} and max_seq_len={maxSeqLen}")
  let rest ← Py.floorMod seqLens.length args.forceGroupSize
  Py.check (rest = 0)
    s!"Batch size {seqLens.length} must be divisible by force_group_size {args.forceGroupSize}"
  let count ← numMicroBatches args seqLens
  Py.check (count ≤ seqLens.length / args.forceGroupSize) ""
  let (partitions, workloads) ← partitionSamples seqLens args.forceGroupSize count
  let partitions ← orderPartitions args workloads partitions
  let microBatches ← partitions.mapM (indexSelectTensorDict batch.rows)
  return (microBatches, partitions)

/-- The inverse of an index map, written into a copy of it. -/
def getReverseIdx (idxMap : List Nat) : Except Py.Error (List Nat) :=
  idxMap.zipIdx.foldlM (fun reverseIdxMap x => Py.setItem reverseIdxMap x.1 x.2) idxMap

def restoreDynamicBatch {β : Type} (data : List β) (batchIdxList : List (List Nat)) :
    Except Py.Error (List β) := do
  let indices := batchIdxList.flatten
  Py.check (indices.length = data.length) s!"{indices.length} vs. {data.length}"
  let revertIndices ← getReverseIdx indices
  revertIndices.mapM (Py.getItem data)

/-! ## Restoring the order -/

/-- The writes of `get_reverse_idx`, from position `start` on.  Every index that
is written holds its position, and the others are unchanged. -/
theorem foldlM_setItem_zipIdx {indices : List Nat} (hnodup : indices.Nodup) (start : Nat)
    (reverse : List Nat) (hlt : ∀ idx ∈ indices, idx < reverse.length) :
    ∃ result, (indices.zipIdx start).foldlM
        (fun reverse x => Py.setItem reverse x.1 x.2) reverse = .ok result ∧
      result.length = reverse.length ∧
      (∀ i idx, indices[i]? = some idx → result[idx]? = some (start + i)) ∧
      ∀ idx, idx ∉ indices → result[idx]? = reverse[idx]? := by
  induction indices generalizing start reverse with
  | nil => exact ⟨reverse, rfl, rfl, fun i idx h => by simp at h, fun _ _ => rfl⟩
  | cons head indices ih =>
      obtain ⟨hhead, hrest⟩ := List.nodup_cons.mp hnodup
      have hheadlt := hlt head List.mem_cons_self
      have hltrest : ∀ idx ∈ indices, idx < (reverse.set head start).length := by
        intro idx hidx
        rw [List.length_set]
        exact hlt idx (List.mem_cons_of_mem head hidx)
      obtain ⟨result, hresult, hlength, hwritten, hkept⟩ :=
        ih hrest (start + 1) (reverse.set head start) hltrest
      refine ⟨result, ?_, ?_, ?_, ?_⟩
      · rw [List.zipIdx_cons, List.foldlM_cons, Py.setItem_of_lt hheadlt, Py.ok_bind]
        exact hresult
      · rw [hlength, List.length_set]
      · intro i idx hidx
        cases i with
        | zero =>
            rw [List.getElem?_cons_zero, Option.some.injEq] at hidx
            subst hidx
            rw [hkept head hhead, List.getElem?_set_self hheadlt, Nat.add_zero]
        | succ i =>
            rw [List.getElem?_cons_succ] at hidx
            rw [hwritten i idx hidx, Nat.add_right_comm, Nat.add_assoc]
      · intro idx hidx
        rw [List.mem_cons, not_or] at hidx
        rw [hkept idx hidx.2, List.getElem?_set_ne (Ne.symm hidx.1)]

/-- `get_reverse_idx` inverts a permutation. -/
theorem getReverseIdx_inverse {indices : List Nat} {n : Nat}
    (hperm : indices.Perm (List.range n)) :
    ∃ reverse : List Nat, getReverseIdx indices = .ok reverse ∧ reverse.length = n ∧
      ∀ i idx : Nat, indices[i]? = some idx → reverse[idx]? = some i := by
  have hlength : indices.length = n := by rw [hperm.length_eq, List.length_range]
  have hlt : ∀ idx ∈ indices, idx < indices.length := by
    intro idx hidx
    rw [hlength]
    exact List.mem_range.mp (hperm.mem_iff.mp hidx)
  obtain ⟨reverse, hreverse, hsame, hinverse, -⟩ :=
    foldlM_setItem_zipIdx (hperm.nodup_iff.mpr List.nodup_range) 0 indices hlt
  refine ⟨reverse, hreverse, hsame.trans hlength, fun i idx hidx => ?_⟩
  rw [hinverse i idx hidx, Nat.zero_add]

/-- Restoring brings the outputs of permuted samples into the original order. -/
theorem restoreDynamicBatch_map {β : Type} {batchIdxList : List (List Nat)} {n : Nat}
    (hperm : batchIdxList.flatten.Perm (List.range n)) (out : Nat → β) :
    restoreDynamicBatch (batchIdxList.flatMap fun partition => partition.map out) batchIdxList =
      .ok ((List.range n).map out) := by
  have hdata : (batchIdxList.flatMap fun partition => partition.map out) =
      batchIdxList.flatten.map out := by
    rw [List.map_flatten, List.flatMap_def]
  obtain ⟨reverse, hreverse, hlength, hinverse⟩ := getReverseIdx_inverse hperm
  have hsame : batchIdxList.flatten.length = (batchIdxList.flatten.map out).length := by
    rw [List.length_map]
  rw [restoreDynamicBatch, hdata, Py.check_of_true hsame, Py.ok_bind, hreverse, Py.ok_bind]
  -- Position `idx` of the inverse points to the place of sample `idx`.
  have hentry : ∀ idx < n, ∃ i, reverse[idx]? = some i ∧ batchIdxList.flatten[i]? = some idx := by
    intro idx hidx
    obtain ⟨i, hi⟩ := List.mem_iff_getElem?.mp (hperm.mem_iff.mpr (List.mem_range.mpr hidx))
    exact ⟨i, hinverse i idx hi, hi⟩
  have hread : ∀ i ∈ reverse, Py.getItem (batchIdxList.flatten.map out) i =
      .ok (out (batchIdxList.flatten.getD i 0)) := by
    intro i hi
    obtain ⟨idx, hidx⟩ := List.mem_iff_getElem?.mp hi
    have hlt : idx < n := by
      rw [← hlength]
      exact (List.getElem?_eq_some_iff.mp hidx).1
    obtain ⟨i', hi', hflat⟩ := hentry idx hlt
    rw [hidx, Option.some.injEq] at hi'
    subst hi'
    apply Py.getItem_of_some
    rw [List.getElem?_map, hflat, List.getD_eq_getElem?_getD, hflat]
    rfl
  rw [Py.mapM_eq_ok hread, Except.ok.injEq]
  refine List.ext_getElem? fun idx => ?_
  rw [List.getElem?_map, List.getElem?_map]
  by_cases hidx : idx < n
  · obtain ⟨i, hi, hflat⟩ := hentry idx hidx
    rw [hi, List.getElem?_range hidx, Option.map_some, Option.map_some,
      List.getD_eq_getElem?_getD, hflat]
    rfl
  · rw [List.getElem?_eq_none (by omega), List.getElem?_eq_none (by rw [List.length_range]; omega)]
    rfl

/-! ## The index lists -/

/-- What the index lists are for: `count` lists that are not empty and hold
every sample once, with the samples of each group together. -/
structure Lossless (n count forceGroupSize : Nat) (batchIdxList : List (List Nat)) : Prop where
  length_eq : batchIdxList.length = count
  ne_nil : ∀ partition ∈ batchIdxList, partition ≠ []
  flatten_perm : batchIdxList.flatten.Perm (List.range n)
  group : ∀ groupIdx < n / forceGroupSize, ∃ partition ∈ batchIdxList,
    List.range' (groupIdx * forceGroupSize) forceGroupSize <:+: partition

/-- The order of the lists does not matter. -/
theorem Lossless.perm {n count forceGroupSize : Nat} {xs ys : List (List Nat)}
    (h : Lossless n count forceGroupSize xs) (hperm : ys.Perm xs) :
    Lossless n count forceGroupSize ys where
  length_eq := hperm.length_eq.trans h.length_eq
  ne_nil := fun partition hpartition => h.ne_nil partition (hperm.mem_iff.mp hpartition)
  flatten_perm := hperm.flatten.trans h.flatten_perm
  group := by
    intro groupIdx hgroup
    obtain ⟨partition, hpartition, hinfix⟩ := h.group groupIdx hgroup
    exact ⟨partition, hperm.mem_iff.mpr hpartition, hinfix⟩

/-- The blocks of `size` samples, one after the other, are all samples. -/
theorem flatMap_range'_range (size m : Nat) :
    ((List.range m).flatMap fun i => List.range' (i * size) size) = List.range (m * size) := by
  induction m with
  | zero => rw [Nat.zero_mul]; rfl
  | succ m ih =>
      have hblock := @List.range'_append_1 0 (m * size) size
      rw [Nat.zero_add] at hblock
      rw [List.range_succ, List.flatMap_append, ih, List.flatMap_singleton, Nat.succ_mul,
        List.range_eq_range', List.range_eq_range', hblock]

/-- The groups of a partition expand to lists that lose no sample. -/
theorem lossless_expandGroups {m count forceGroupSize : Nat} (hsize : 0 < forceGroupSize)
    {partitions : List (List Nat)} (h : IsPartition m count partitions) :
    Lossless (m * forceGroupSize) count forceGroupSize
      (partitions.map (expandGroups forceGroupSize)) where
  length_eq := by rw [List.length_map, h.length_eq]
  ne_nil := by
    intro partition hpartition hnil
    obtain ⟨groups, hgroups, rfl⟩ := List.mem_map.mp hpartition
    cases groups with
    | nil => exact h.ne_nil [] hgroups rfl
    | cons groupIdx groups =>
        have hlength := congrArg List.length hnil
        rw [expandGroups, List.flatMap_cons, List.length_append, List.length_range',
          List.length_nil] at hlength
        omega
  flatten_perm := by
    have hexpand : ((partitions.map (expandGroups forceGroupSize)).flatten) =
        partitions.flatten.flatMap fun groupIdx =>
          List.range' (groupIdx * forceGroupSize) forceGroupSize := by
      rw [← List.flatMap_def, ← List.flatMap_id', List.flatMap_assoc]
      rfl
    rw [hexpand, ← flatMap_range'_range]
    exact h.flatten_perm.flatMap_right _
  group := by
    intro groupIdx hgroup
    rw [Nat.mul_div_cancel m hsize] at hgroup
    have hmem := h.flatten_perm.mem_iff.mpr (List.mem_range.mpr hgroup)
    obtain ⟨groups, hgroups, hin⟩ := List.mem_flatten.mp hmem
    obtain ⟨before, after, rfl⟩ := List.append_of_mem hin
    refine ⟨_, List.mem_map_of_mem hgroups, ?_⟩
    rw [expandGroups, List.flatMap_append, List.flatMap_cons]
    exact ⟨_, _, by rw [List.append_assoc]⟩

/-- A group size of one leaves the lists as they are. -/
theorem expandGroups_one (partition : List Nat) : expandGroups 1 partition = partition := by
  induction partition with
  | nil => rfl
  | cons idx partition ih =>
      rw [expandGroups, List.flatMap_cons, Nat.mul_one]
      exact congrArg (idx :: ·) ih

/-- `micro_bsz_idx` before the balancing loses no sample. -/
theorem partitionSamples_lossless {seqLens : List Nat} {forceGroupSize count : Nat}
    (hsize : 0 < forceGroupSize) (hdvd : forceGroupSize ∣ seqLens.length) (hcount : 0 < count)
    (hle : count ≤ seqLens.length / forceGroupSize) :
    ∃ partitions workloads,
      partitionSamples seqLens forceGroupSize count = .ok (partitions, workloads) ∧
        Lossless seqLens.length count forceGroupSize partitions ∧
        workloads.length = seqLens.length / forceGroupSize := by
  have hgroups : seqLens.length / forceGroupSize * forceGroupSize = seqLens.length :=
    Nat.div_mul_cancel hdvd
  by_cases hone : 1 < forceGroupSize
  · let workloads := (blocks forceGroupSize (seqLens.map calculateWorkload)).map List.sum
    have hlength : workloads.length = seqLens.length / forceGroupSize := by
      rw [List.length_map, blocks, List.length_map, List.length_range, List.length_map]
    rw [← hlength] at hle
    obtain ⟨groups, hok, hpart⟩ :=
      @getSeqlenBalancedPartitions_isPartition workloads count false hcount hle fun h =>
      (Bool.false_ne_true h).elim
    have hlossless := lossless_expandGroups hsize hpart
    rw [hlength, hgroups] at hlossless
    refine ⟨_, workloads, ?_, hlossless, hlength⟩
    rw [partitionSamples, if_pos hone]
    change getSeqlenBalancedPartitions workloads count false >>= _ = _
    rw [hok]
    rfl
  · have hsizeone : forceGroupSize = 1 := by omega
    subst hsizeone
    rw [Nat.div_one] at hle
    have hlength : (seqLens.map calculateWorkload).length = seqLens.length := List.length_map ..
    rw [← hlength] at hle
    obtain ⟨partitions, hok, hpart⟩ :=
      @getSeqlenBalancedPartitions_isPartition _ count false hcount hle
        fun h => (Bool.false_ne_true h).elim
    have hlossless := lossless_expandGroups Nat.one_pos hpart
    rw [hlength, Nat.mul_one, funext expandGroups_one, List.map_id'] at hlossless
    refine ⟨partitions, seqLens.map calculateWorkload, ?_, hlossless, ?_⟩
    · rw [partitionSamples, if_neg hone, hok]
      rfl
    · rw [hlength, Nat.div_one]

theorem partitionSamples_zero (seqLens : List Nat) (forceGroupSize : Nat) :
    partitionSamples seqLens forceGroupSize 0 = .error .index := by
  simp only [partitionSamples, getSeqlenBalancedPartitions_zero, Py.error_bind, ite_self]

/-- The balancing only permutes the lists. -/
theorem balancePartitions_perm {workloads : List Nat} {forceGroupSize : Nat}
    {partitions : List (List Nat)}
    (hlt : ∀ partition ∈ partitions, ∀ idx ∈ partition, idx / forceGroupSize < workloads.length) :
    ∃ balanced, balancePartitions workloads forceGroupSize partitions = .ok balanced ∧
      balanced.Perm partitions := by
  let key : List Nat → Nat ×ₗ Nat := fun partition =>
    toLex (((Py.everyNth 0 forceGroupSize partition).map fun idx =>
      workloads.getD (idx / forceGroupSize) 0).sum, partition.headD 0)
  have hkey : ∀ partition ∈ partitions, (do
      return (← partitionKey workloads forceGroupSize partition, partition)) =
        Except.ok (ε := Py.Error) (key partition, partition) := by
    intro partition hpartition
    have hread : ∀ idx ∈ Py.everyNth 0 forceGroupSize partition,
        Py.getItem workloads (idx / forceGroupSize) =
          .ok (workloads.getD (idx / forceGroupSize) 0) := by
      intro idx hidx
      exact Py.getItem_of_lt (hlt partition hpartition idx (Py.mem_of_mem_everyNth hidx)) 0
    rw [partitionKey, Py.mapM_eq_ok hread]
    rfl
  let keyed := partitions.map fun partition => (key partition, partition)
  let sorted := (keyed.insertionSort fun a b => b.1 ≤ a.1).map Prod.snd
  refine ⟨(Py.everyNth 0 2 sorted).reverse ++ Py.everyNth 1 2 sorted, ?_, ?_⟩
  · rw [balancePartitions, Py.mapM_eq_ok hkey]
    rfl
  · have hsorted : sorted.Perm partitions := by
      have hperm := (List.perm_insertionSort (fun a b => b.1 ≤ a.1) keyed).map Prod.snd
      have hsnd : Prod.snd ∘ (fun partition => (key partition, partition)) = id := rfl
      rwa [List.map_map, hsnd, List.map_id] at hperm
    refine List.Perm.trans ?_ ((Py.everyNth_two_perm sorted).trans hsorted)
    exact List.Perm.append_right _ (List.reverse_perm _)

/-! ## The number of micro-batches -/

/-- Some rank needs a micro-batch, or one is asked for. -/
def NeedsMicroBatch (args : MicroBatchArgs) (seqLens : List Nat) : Prop :=
  0 < seqLens.sum ∨ (∃ least, args.minNumMicroBatch = some least ∧ 0 < least) ∨
    (args.sameMicroNumInDp = true ∧ ∃ others, args.dpGroup = some others ∧ ∃ c ∈ others, 0 < c)

theorem le_foldl_max (others : List Nat) (count : Nat) : count ≤ others.foldl max count := by
  induction others generalizing count with
  | nil => exact Nat.le_refl _
  | cons c others ih => exact (le_max_left count c).trans (ih (max count c))

theorem foldl_max_pos (others : List Nat) (count : Nat) :
    0 < others.foldl max count ↔ 0 < count ∨ ∃ c ∈ others, 0 < c := by
  induction others generalizing count with
  | nil => simp
  | cons c others ih =>
      rw [List.foldl_cons, ih, lt_max_iff, List.exists_mem_cons_iff, or_assoc]

namespace MicroBatchArgs

theorem withMinimum_pos (args : MicroBatchArgs) (count : Nat) :
    0 < args.withMinimum count ↔
      0 < count ∨ ∃ least, args.minNumMicroBatch = some least ∧ 0 < least := by
  rw [withMinimum]
  cases args.minNumMicroBatch with
  | none => simp
  | some least => simp [or_comm]

theorem le_withMinimum {args : MicroBatchArgs} {least : Nat}
    (h : args.minNumMicroBatch = some least) (count : Nat) : least ≤ args.withMinimum count := by
  rw [withMinimum, h]
  exact le_max_left least count

theorem syncInDp_pos (args : MicroBatchArgs) (count : Nat) :
    0 < args.syncInDp count ↔ 0 < count ∨
      (args.sameMicroNumInDp = true ∧ ∃ others, args.dpGroup = some others ∧ ∃ c ∈ others, 0 < c)
    := by
  rw [syncInDp]
  cases args.sameMicroNumInDp with
  | false => simp
  | true =>
      cases args.dpGroup with
      | none => simp
      | some others => simp [foldl_max_pos]

theorem le_syncInDp (args : MicroBatchArgs) (count : Nat) : count ≤ args.syncInDp count := by
  rw [syncInDp]
  split
  · exact le_foldl_max _ _
  · exact Nat.le_refl _

/-- Rounding up gives a multiple that is at least the number, and zero only for
zero. -/
theorem roundUp_spec {args : MicroBatchArgs} {count rounded : Nat}
    (h : args.roundUp count = .ok rounded) :
    (∀ divisor, args.numBatchesDividedBy = some divisor → divisor ∣ rounded) ∧
      count ≤ rounded ∧ (0 < rounded → 0 < count) := by
  rw [roundUp] at h
  split at h
  next divisor hdivisor =>
    obtain ⟨q, hq, hrounded⟩ := Py.bind_eq_ok.mp h
    obtain ⟨hpos, rfl⟩ := Py.pos_of_floorDiv_eq_ok hq
    have hrounded' : (count + divisor - 1) / divisor * divisor = rounded := Except.ok.inj hrounded
    subst hrounded'
    have hmod := Nat.div_add_mod (count + divisor - 1) divisor
    have hlt := Nat.mod_lt (count + divisor - 1) hpos
    rw [Nat.mul_comm] at hmod
    refine ⟨?_, by omega, ?_⟩
    · intro d hd
      rw [hdivisor, Option.some.injEq] at hd
      exact hd ▸ Nat.dvd_mul_left divisor _
    · intro hr
      by_contra hzero
      have hcount : count = 0 := by omega
      rw [hcount, Nat.zero_add, Nat.div_eq_of_lt (by omega), Nat.zero_mul] at hr
      exact Nat.lt_irrefl 0 hr
  next hnone =>
    rw [Except.ok.injEq] at h
    subst h
    refine ⟨fun divisor hdivisor => ?_, Nat.le_refl _, id⟩
    rw [hnone] at hdivisor
    cases hdivisor

end MicroBatchArgs

/-- The computed number is a multiple of the divisor and at least the minimum.
It is positive exactly when a micro-batch is needed. -/
theorem numMicroBatches_spec {args : MicroBatchArgs} {seqLens : List Nat} {count : Nat}
    (hdvd : args.forceGroupSize ∣ seqLens.length)
    (h : numMicroBatches args seqLens = .ok count) :
    (∀ divisor, args.numBatchesDividedBy = some divisor → divisor ∣ count) ∧
      (∀ least, args.minNumMicroBatch = some least → least ≤ count) ∧
      (0 < count ↔ NeedsMicroBatch args seqLens) := by
  obtain ⟨numGroups, hgroups, h⟩ := Py.bind_eq_ok.mp h
  obtain ⟨needed, hneeded, h⟩ := Py.bind_eq_ok.mp h
  obtain ⟨hsize, rfl⟩ := Py.pos_of_floorDiv_eq_ok hgroups
  obtain ⟨hmax, rfl⟩ := Py.pos_of_floorDiv_eq_ok hneeded
  obtain ⟨hdivides, hle, hpos⟩ := MicroBatchArgs.roundUp_spec h
  have hsync := args.le_syncInDp
    (args.withMinimum (min (seqLens.length / args.forceGroupSize)
      ((seqLens.sum + (args.maxTokenLen - 1)) / args.maxTokenLen)))
  -- Tokens need a sample, so there is a group for them.
  have hbase : 0 < min (seqLens.length / args.forceGroupSize)
      ((seqLens.sum + (args.maxTokenLen - 1)) / args.maxTokenLen) ↔ 0 < seqLens.sum := by
    rw [lt_min_iff, Nat.div_pos_iff, Nat.div_pos_iff]
    constructor
    · omega
    · intro hsum
      have hlength : 0 < seqLens.length := by
        refine List.length_pos_of_ne_nil fun hnil => ?_
        rw [hnil] at hsum
        exact Nat.lt_irrefl 0 hsum
      exact ⟨⟨hsize, Nat.le_of_dvd hlength hdvd⟩, hmax, by omega⟩
  refine ⟨hdivides, ?_, ?_⟩
  · intro least hleast
    exact (MicroBatchArgs.le_withMinimum hleast _).trans (hsync.trans hle)
  · rw [NeedsMicroBatch, ← hbase, ← or_assoc, ← MicroBatchArgs.withMinimum_pos,
      ← MicroBatchArgs.syncInDp_pos]
    exact ⟨hpos, fun hcount => hcount.trans_le hle⟩

/-! ## Dynamic batching -/

/-- The longest sequence exists once there is a sample. -/
theorem maxSeqLen_eq_ok {layout : SeqLayout} (h : 0 < layout.seqLenEffective.length) :
    ∃ m, layout.maxSeqLen = .ok m := by
  cases layout with
  | padded width attentionMask => exact ⟨width, rfl⟩
  | nested inputIds =>
      have hne : inputIds.map List.length ≠ [] := List.ne_nil_of_length_pos h
      cases hmax : (inputIds.map List.length).max? with
      | none => exact absurd (List.max?_eq_none_iff.mp hmax) hne
      | some m => exact ⟨m, by rw [SeqLayout.maxSeqLen, hmax]⟩

/-- Selecting the rows of a partition. -/
theorem mapM_indexSelectTensorDict {ρ : Type} {rows : List ρ} {partitions : List (List Nat)}
    (hlt : ∀ partition ∈ partitions, ∀ idx ∈ partition, idx < rows.length) (default : ρ) :
    partitions.mapM (indexSelectTensorDict rows) =
      .ok (partitions.map fun partition => partition.map fun idx => rows.getD idx default) := by
  refine Py.mapM_eq_ok fun partition hpartition => ?_
  exact Py.mapM_eq_ok fun idx hidx => Py.getItem_of_lt (hlt partition hpartition idx hidx) default

/-- The balancing loses no sample, whether it is on or off. -/
theorem orderPartitions_lossless {args : MicroBatchArgs} {n count : Nat}
    (hdvd : args.forceGroupSize ∣ n) {partitions : List (List Nat)} {workloads : List Nat}
    (h : Lossless n count args.forceGroupSize partitions)
    (hworkloads : workloads.length = n / args.forceGroupSize) :
    ∃ ordered, orderPartitions args workloads partitions = .ok ordered ∧
      Lossless n count args.forceGroupSize ordered := by
  rw [orderPartitions]
  split
  · have hlt : ∀ partition ∈ partitions, ∀ idx ∈ partition,
        idx / args.forceGroupSize < workloads.length := by
      intro partition hpartition idx hidx
      have hmem : idx ∈ partitions.flatten := List.mem_flatten.mpr ⟨partition, hpartition, hidx⟩
      rw [hworkloads]
      refine Nat.div_lt_div_of_lt_of_dvd hdvd ?_
      exact List.mem_range.mp (h.flatten_perm.mem_iff.mp hmem)
    obtain ⟨balanced, hok, hperm⟩ := balancePartitions_perm hlt
    exact ⟨balanced, hok, h.perm hperm⟩
  · exact ⟨partitions, rfl, h⟩

/-- With a positive number of micro-batches nothing is lost. -/
theorem rearrangeMicroBatches_lossless {ρ : Type} (batch : Batch ρ) {args : MicroBatchArgs}
    {count : Nat} (hsize : 0 < args.forceGroupSize)
    (hdvd : args.forceGroupSize ∣ batch.layout.seqLenEffective.length)
    (hmax : ∀ m, batch.layout.maxSeqLen = .ok m → m ≤ args.maxTokenLen)
    (hcount : numMicroBatches args batch.layout.seqLenEffective = .ok count)
    (hle : count ≤ batch.layout.seqLenEffective.length / args.forceGroupSize)
    (hpos : 0 < count) :
    ∃ microBatches batchIdxList,
      rearrangeMicroBatches batch args = .ok (microBatches, batchIdxList) ∧
        Lossless batch.rows.length count args.forceGroupSize batchIdxList ∧
        restoreDynamicBatch microBatches.flatten batchIdxList = .ok batch.rows := by
  have hlength : 0 < batch.layout.seqLenEffective.length := by
    have := Nat.div_le_self batch.layout.seqLenEffective.length args.forceGroupSize
    omega
  obtain ⟨maxSeqLen, hmaxSeqLen⟩ := maxSeqLen_eq_ok hlength
  have hmaxle := hmax maxSeqLen hmaxSeqLen
  obtain ⟨partitions, workloads, hpartitions, hlossless, hworkloads⟩ :=
    partitionSamples_lossless hsize hdvd hpos hle
  obtain ⟨balanced, hbalanced, hlossless⟩ := orderPartitions_lossless hdvd hlossless hworkloads
  rw [← batch.rows_length] at hlossless
  obtain ⟨default, -⟩ := List.exists_mem_of_length_pos (batch.rows_length ▸ hlength)
  have hlt : ∀ partition ∈ balanced, ∀ idx ∈ partition, idx < batch.rows.length := by
    intro partition hpartition idx hidx
    have hmem : idx ∈ balanced.flatten := List.mem_flatten.mpr ⟨partition, hpartition, hidx⟩
    exact List.mem_range.mp (hlossless.flatten_perm.mem_iff.mp hmem)
  let microBatches := balanced.map fun partition => partition.map fun idx =>
    batch.rows.getD idx default
  refine ⟨microBatches, balanced, ?_, hlossless, ?_⟩
  · have hmod : batch.layout.seqLenEffective.length % args.forceGroupSize = 0 :=
      Nat.mod_eq_zero_of_dvd hdvd
    rw [rearrangeMicroBatches, hmaxSeqLen, Py.ok_bind, Py.check_of_true hmaxle, Py.ok_bind,
      Py.floorMod_of_pos hsize, Py.ok_bind, Py.check_of_true hmod, Py.ok_bind, hcount, Py.ok_bind,
      Py.check_of_true hle, Py.ok_bind, hpartitions, Py.ok_bind]
    simp only [hbalanced, Py.ok_bind, mapM_indexSelectTensorDict hlt default]
    rfl
  · rw [← List.flatMap_def, restoreDynamicBatch_map hlossless.flatten_perm, Py.map_getD_range]

/-- Without a micro-batch to make, the partition fails. -/
theorem rearrangeMicroBatches_zero {ρ : Type} (batch : Batch ρ) {args : MicroBatchArgs}
    (hcount : numMicroBatches args batch.layout.seqLenEffective = .ok 0) :
    ∀ result, rearrangeMicroBatches batch args ≠ .ok result := by
  intro result h
  rw [rearrangeMicroBatches] at h
  obtain ⟨maxSeqLen, -, h⟩ := Py.bind_eq_ok.mp h
  obtain ⟨-, -, h⟩ := Py.bind_eq_ok.mp h
  obtain ⟨rest, -, h⟩ := Py.bind_eq_ok.mp h
  obtain ⟨-, -, h⟩ := Py.bind_eq_ok.mp h
  rw [hcount, Py.ok_bind, Py.check_of_true (Nat.zero_le _), Py.ok_bind, partitionSamples_zero] at h
  cases h

/-- Dynamic micro-batching is lossless and reversible exactly when a
micro-batch is needed. -/
theorem rearrangeMicroBatches_iff {ρ : Type} (batch : Batch ρ) (args : MicroBatchArgs)
    (count : Nat) (hdvd : args.forceGroupSize ∣ batch.rows.length)
    (hmax : ∀ m, batch.layout.maxSeqLen = .ok m → m ≤ args.maxTokenLen)
    (hcount : numMicroBatches args batch.layout.seqLenEffective = .ok count)
    (hle : count ≤ batch.rows.length / args.forceGroupSize) :
    (∃ microBatches batchIdxList,
      rearrangeMicroBatches batch args = .ok (microBatches, batchIdxList) ∧
        Lossless batch.rows.length count args.forceGroupSize batchIdxList ∧
        (∀ divisor, args.numBatchesDividedBy = some divisor → divisor ∣ count) ∧
        (∀ least, args.minNumMicroBatch = some least → least ≤ count) ∧
        restoreDynamicBatch microBatches.flatten batchIdxList = .ok batch.rows ∧
        ∀ (β : Type) (out : Nat → β),
          restoreDynamicBatch (batchIdxList.flatMap fun partition => partition.map out)
              batchIdxList = .ok ((List.range batch.rows.length).map out)) ↔
      NeedsMicroBatch args batch.layout.seqLenEffective := by
  rw [batch.rows_length] at hdvd hle
  obtain ⟨hdivides, hleast, hpos⟩ := numMicroBatches_spec hdvd hcount
  rw [← hpos]
  constructor
  · rintro ⟨microBatches, batchIdxList, hok, -⟩
    refine Nat.pos_of_ne_zero fun hzero => ?_
    exact rearrangeMicroBatches_zero batch (hzero ▸ hcount) _ hok
  · intro hcountpos
    obtain ⟨numGroups, hgroups, -⟩ := Py.bind_eq_ok.mp hcount
    have hsize := (Py.pos_of_floorDiv_eq_ok hgroups).1
    obtain ⟨microBatches, batchIdxList, hok, hlossless, hrestore⟩ :=
      rearrangeMicroBatches_lossless batch hsize hdvd hmax hcount hle hcountpos
    refine ⟨microBatches, batchIdxList, hok, hlossless, hdivides, hleast, hrestore, ?_⟩
    exact fun β out => restoreDynamicBatch_map hlossless.flatten_perm out

/-- Three samples, one of them empty, in two micro-batches. -/
theorem rearrangeMicroBatches_iff_three :
    let batch : Batch Nat := ⟨.nested [[5, 6], [7], []], [0, 1, 2], rfl⟩
    let args : MicroBatchArgs := ⟨2, none, some 2, true, none, true, 1⟩
    ∃ microBatches batchIdxList,
      rearrangeMicroBatches batch args = .ok (microBatches, batchIdxList) ∧
        restoreDynamicBatch microBatches.flatten batchIdxList = .ok batch.rows := by
  intro batch args
  have hmax : ∀ m, batch.layout.maxSeqLen = .ok m → m ≤ args.maxTokenLen := by
    intro m hm
    exact (Except.ok.inj hm) ▸ Nat.le_refl 2
  obtain ⟨microBatches, batchIdxList, hok, -, -, -, hrestore, -⟩ :=
    (rearrangeMicroBatches_iff batch args 2 (by decide) hmax (by decide) (by decide)).mpr
      (Or.inl (by decide))
  exact ⟨microBatches, batchIdxList, hok, hrestore⟩

/-- A batch with one empty sample makes no micro-batch, and the partition
fails. -/
theorem rearrangeMicroBatches_not_lossless :
    ¬ ∀ (batch : Batch Nat) (args : MicroBatchArgs) (count : Nat),
        args.forceGroupSize ∣ batch.rows.length →
        (∀ m, batch.layout.maxSeqLen = .ok m → m ≤ args.maxTokenLen) →
        numMicroBatches args batch.layout.seqLenEffective = .ok count →
        count ≤ batch.rows.length / args.forceGroupSize →
        ∃ microBatches batchIdxList,
          rearrangeMicroBatches batch args = .ok (microBatches, batchIdxList) ∧
            Lossless batch.rows.length count args.forceGroupSize batchIdxList := by
  intro hall
  let batch : Batch Nat := ⟨.nested [[]], [0], rfl⟩
  let args : MicroBatchArgs := ⟨1, none, none, true, none, true, 1⟩
  have hmax : ∀ m, batch.layout.maxSeqLen = .ok m → m ≤ args.maxTokenLen := by
    intro m hm
    exact (Except.ok.inj hm) ▸ Nat.zero_le 1
  obtain ⟨microBatches, batchIdxList, hok, -⟩ :=
    hall batch args 0 (by decide) hmax (by decide) (by decide)
  have hfail : rearrangeMicroBatches batch args = .error .index := by decide
  rw [hfail] at hok
  cases hok

end Verl
