import Mathlib.Algebra.Group.Action.Defs
import Mathlib.Algebra.Order.BigOperators.Group.List
import Mathlib.Algebra.Order.Ring.Nat
import Verl.Balance.MicroBatch
import Verl.Balance.Spread

/-!
# The token budget of a micro-batch

`rearrange_micro_batches` makes as many micro-batches as the total number of
tokens needs, and gives the samples to them by workload.  Nothing keeps the tokens
of a micro-batch below `max_token_len`.  They are when there is one micro-batch, or
one for each sample.  For any other number there are batches that go over: more
samples than micro-batches, each longer than half of the limit
(`exists_over_budget`).
-/

namespace Verl

/-- The arguments with all defaults, as far as they change the micro-batches. -/
def MicroBatchArgs.ofBudget (maxTokenLen : Nat) (sameMicroNumInDp useDynamicBszBalance : Bool) :
    MicroBatchArgs where
  maxTokenLen := maxTokenLen
  dpGroup := none
  numBatchesDividedBy := none
  sameMicroNumInDp := sameMicroNumInDp
  minNumMicroBatch := none
  useDynamicBszBalance := useDynamicBszBalance
  forceGroupSize := 1

/-- No micro-batch has more than `max_token_len` tokens. -/
def WithinBudget {ρ : Type} (batch : Batch ρ) (args : MicroBatchArgs) : Prop :=
  ∀ microBatches batchIdxList,
    rearrangeMicroBatches batch args = .ok (microBatches, batchIdxList) →
      ∀ partition ∈ batchIdxList,
        partitionSum batch.layout.seqLenEffective partition ≤ args.maxTokenLen

/-! ## Sums of index lists -/

section Sums

variable {seqLens : List Nat} {partitions : List (List Nat)}

theorem partitionSum_range (seqLens : List Nat) :
    partitionSum seqLens (List.range seqLens.length) = seqLens.sum := by
  rw [partitionSum, Py.map_getD_range]

theorem partitionSum_perm {partition partition' : List Nat} (h : partition.Perm partition') :
    partitionSum seqLens partition = partitionSum seqLens partition' := (h.map _).sum_eq

/-- Lists that are not empty and have one index for each list have one index each. -/
theorem length_eq_one_of_flatten (hne : ∀ partition ∈ partitions, partition ≠ [])
    (hlength : partitions.flatten.length ≤ partitions.length) :
    ∀ partition ∈ partitions, partition.length = 1 := by
  induction partitions with
  | nil => exact nofun
  | cons head partitions ih =>
      have hhead : 0 < head.length := List.length_pos_of_ne_nil (hne head List.mem_cons_self)
      have hrest : ∀ partition ∈ partitions, partition ≠ [] := fun partition h =>
        hne partition (List.mem_cons_of_mem head h)
      have hle : partitions.length ≤ partitions.flatten.length := by
        rw [List.length_flatten]
        have hsum := List.card_nsmul_le_sum (partitions.map List.length) 1 fun len hlen => by
          obtain ⟨partition, hpartition, rfl⟩ := List.mem_map.mp hlen
          exact List.length_pos_of_ne_nil (hrest partition hpartition)
        rwa [List.length_map, smul_eq_mul, Nat.mul_one] at hsum
      rw [List.flatten_cons, List.length_append, List.length_cons] at hlength
      intro partition hpartition
      obtain rfl | hpartition := List.mem_cons.mp hpartition
      · omega
      · exact ih hrest (by omega) partition hpartition

/-- Samples longer than half of the limit. -/
def longSamples (seqLens : List Nat) (limit : Nat) (partition : List Nat) : Nat :=
  partition.countP fun idx => limit < 2 * seqLens.getD idx 0

theorem longSamples_mul_le (limit : Nat) (partition : List Nat) :
    longSamples seqLens limit partition * (limit + 1) ≤ 2 * partitionSum seqLens partition := by
  induction partition with
  | nil => exact Nat.le_of_eq (Nat.zero_mul _)
  | cons idx partition ih =>
      rw [longSamples, partitionSum] at ih ⊢
      rw [List.map_cons, List.sum_cons, Nat.mul_add 2]
      by_cases hlong : limit < 2 * seqLens.getD idx 0
      · rw [List.countP_cons_of_pos (by exact decide_eq_true hlong), Nat.succ_mul, Nat.add_comm]
        exact Nat.add_le_add hlong ih
      · rw [List.countP_cons_of_neg (by rw [decide_eq_false hlong]; exact Bool.false_ne_true)]
        exact ih.trans (Nat.le_add_left _ _)

/-- More long samples than lists put two of them into one list. -/
theorem exists_over_budget {limit n : Nat} (hperm : partitions.flatten.Perm (List.range n))
    (hlong : partitions.length < longSamples seqLens limit (List.range n)) :
    ∃ partition ∈ partitions, limit < partitionSum seqLens partition := by
  by_contra hnone
  have hone : ∀ partition ∈ partitions, longSamples seqLens limit partition ≤ 1 := by
    intro partition hpartition
    have hle : partitionSum seqLens partition ≤ limit := by
      by_contra hlt
      exact hnone ⟨partition, hpartition, Nat.lt_of_not_le hlt⟩
    by_contra htwo
    have hmul := Nat.mul_le_mul_right (limit + 1) (Nat.lt_of_not_le htwo)
    have hsum := @longSamples_mul_le seqLens limit partition
    omega
  have hcount : longSamples seqLens limit (List.range n) =
      (partitions.map (longSamples seqLens limit)).sum := by
    rw [longSamples, ← hperm.countP_eq, List.countP_flatten]
    rfl
  have hsum := List.sum_le_card_nsmul (partitions.map (longSamples seqLens limit)) 1
    fun count hmem => by
      obtain ⟨partition, hpartition, rfl⟩ := List.mem_map.mp hmem
      exact hone partition hpartition
  rw [List.length_map, smul_eq_mul, Nat.mul_one] at hsum
  omega

end Sums

/-! ## Batches within the budget -/

section Within

variable {ρ : Type} {batch : Batch ρ} {maxTokenLen count : Nat}
  {sameMicroNumInDp useDynamicBszBalance : Bool}

theorem numMicroBatches_ofBudget {seqLens : List Nat}
    (h : numMicroBatches (.ofBudget maxTokenLen sameMicroNumInDp useDynamicBszBalance) seqLens =
      .ok count) :
    0 < maxTokenLen ∧
      count = min seqLens.length ((seqLens.sum + (maxTokenLen - 1)) / maxTokenLen) := by
  obtain ⟨numGroups, hgroups, h⟩ := Py.bind_eq_ok.mp h
  obtain ⟨needed, hneeded, h⟩ := Py.bind_eq_ok.mp h
  obtain ⟨-, rfl⟩ := Py.pos_of_floorDiv_eq_ok hgroups
  obtain ⟨hpos, rfl⟩ := Py.pos_of_floorDiv_eq_ok hneeded
  refine ⟨hpos, ?_⟩
  have hcount := (Except.ok.inj h).symm
  cases sameMicroNumInDp with
  | false => rwa [MicroBatchArgs.ofBudget, Nat.div_one] at hcount
  | true => rwa [MicroBatchArgs.ofBudget, Nat.div_one] at hcount

/-- The index lists of a run are a partition of the samples. -/
theorem lossless_of_rearrangeMicroBatches {microBatches : List (List ρ)}
    {batchIdxList : List (List Nat)}
    (hcount : numMicroBatches (.ofBudget maxTokenLen sameMicroNumInDp useDynamicBszBalance)
      batch.layout.seqLenEffective = .ok count)
    (h : rearrangeMicroBatches batch
      (.ofBudget maxTokenLen sameMicroNumInDp useDynamicBszBalance) =
        .ok (microBatches, batchIdxList)) :
    Lossless batch.rows.length count 1 batchIdxList := by
  have hmax : ∀ m, batch.layout.maxSeqLen = .ok m → m ≤ maxTokenLen := by
    intro m hm
    rw [rearrangeMicroBatches, hm, Py.ok_bind] at h
    obtain ⟨_, hcheck, -⟩ := Py.bind_eq_ok.mp h
    exact Py.of_check_eq_ok hcheck
  have hle : count ≤ batch.layout.seqLenEffective.length := by
    rw [(numMicroBatches_ofBudget hcount).2]
    exact Nat.min_le_left _ _
  have hpos : 0 < count := by
    refine Nat.pos_of_ne_zero fun hzero => ?_
    exact rearrangeMicroBatches_zero batch (hzero ▸ hcount) _ h
  obtain ⟨_, _, hok, hlossless, -⟩ := rearrangeMicroBatches_lossless batch Nat.one_pos
    (Nat.one_dvd _) hmax hcount ((Nat.div_one _).symm ▸ hle) hpos
  rw [h, Except.ok.injEq, Prod.mk.injEq] at hok
  exact hok.2 ▸ hlossless

/-- One micro-batch has room for all samples, and one for each sample for that. -/
theorem withinBudget_of_count
    (hlens : ∀ len ∈ batch.layout.seqLenEffective, len ≤ maxTokenLen)
    (hcount : numMicroBatches (.ofBudget maxTokenLen sameMicroNumInDp useDynamicBszBalance)
      batch.layout.seqLenEffective = .ok count)
    (h : count ≤ 1 ∨ batch.rows.length ≤ count) :
    WithinBudget batch (.ofBudget maxTokenLen sameMicroNumInDp useDynamicBszBalance) := by
  intro microBatches batchIdxList hok partition hpartition
  have hlossless := lossless_of_rearrangeMicroBatches hcount hok
  obtain ⟨hpos, hmin⟩ := numMicroBatches_ofBudget hcount
  rw [batch.rows_length] at h hlossless
  change partitionSum batch.layout.seqLenEffective partition ≤ maxTokenLen
  by_cases heach : batch.layout.seqLenEffective.length ≤ count
  · have hflatten := hlossless.flatten_perm.length_eq
    rw [List.length_range] at hflatten
    have hlength : batchIdxList.flatten.length ≤ batchIdxList.length := by
      rw [hflatten, hlossless.length_eq]
      exact heach
    obtain ⟨idx, rfl⟩ := List.length_eq_one_iff.mp
      (length_eq_one_of_flatten hlossless.ne_nil hlength partition hpartition)
    rw [partitionSum, List.map_singleton, List.sum_singleton]
    have hidx : idx < batch.layout.seqLenEffective.length :=
      List.mem_range.mp (hlossless.flatten_perm.mem_iff.mp
        (List.mem_flatten.mpr ⟨[idx], hpartition, List.mem_singleton.mpr rfl⟩))
    rw [List.getD_eq_getElem?_getD, List.getElem?_eq_getElem hidx, Option.getD_some]
    exact hlens _ (List.getElem_mem hidx)
  · have hone : count = batchIdxList.length := hlossless.length_eq.symm
    have hpositive : 0 < batchIdxList.length := List.length_pos_of_mem hpartition
    obtain ⟨whole, rfl⟩ := List.length_eq_one_iff.mp (show batchIdxList.length = 1 by omega)
    obtain rfl := List.mem_singleton.mp hpartition
    have hperm := hlossless.flatten_perm
    rw [List.flatten_singleton] at hperm
    rw [partitionSum_perm hperm, partitionSum_range]
    have hneeded : (batch.layout.seqLenEffective.sum + (maxTokenLen - 1)) / maxTokenLen < 2 := by
      omega
    rw [Nat.div_lt_iff_lt_mul hpos] at hneeded
    omega

end Within

/-! ## Batches over the budget -/

theorem mem_of_maxSeqLen_nested {inputIds : List (List Nat)} {m : Nat}
    (h : (SeqLayout.nested inputIds).maxSeqLen = .ok m) :
    m ∈ (SeqLayout.nested inputIds).seqLenEffective := by
  rw [SeqLayout.maxSeqLen] at h
  split at h
  next longest hlongest =>
    obtain rfl := Except.ok.inj h
    exact List.max?_mem hlongest
  next => cases h

/-- All micro-batches but two are full, and three samples that are each longer than
half of the limit are left for these.  The other samples have one token. -/
def overfullLens (n count : Nat) : List Nat :=
  List.replicate (count - 2) (2 * (n + 3)) ++
    (List.replicate 3 (n + 4) ++ List.replicate (n - count - 1) 1)

section Overfull

variable {n count : Nat}

theorem length_overfullLens (hcount : 1 < count) (hlt : count < n) :
    (overfullLens n count).length = n := by
  simp only [overfullLens, List.length_append, List.length_replicate]
  omega

theorem overfullLens_le : ∀ len ∈ overfullLens n count, len ≤ 2 * (n + 3) := by
  intro len hlen
  simp only [overfullLens, List.mem_append, List.mem_replicate] at hlen
  omega

/-- The batch, with its indices for rows. -/
def overfullBatch (n count : Nat) : Batch Nat where
  layout := .nested ((overfullLens n count).map fun len => List.replicate len 0)
  rows := List.range (overfullLens n count).length
  rows_length := by
    rw [List.length_range, SeqLayout.seqLenEffective, List.length_map, List.length_map]

theorem seqLenEffective_overfullBatch :
    (overfullBatch n count).layout.seqLenEffective = overfullLens n count := by
  rw [overfullBatch, SeqLayout.seqLenEffective, List.map_map]
  exact List.map_id'' (fun len => List.length_replicate) _

theorem numMicroBatches_overfullLens (hcount : 1 < count) (hlt : count < n) :
    numMicroBatches (.ofBudget (2 * (n + 3)) true true) (overfullLens n count) = .ok count := by
  have hsum : (overfullLens n count).sum =
      (count - 2) * (2 * (n + 3)) + (3 * (n + 4) + (n - count - 1)) := by
    simp only [overfullLens, List.sum_append, List.sum_replicate_nat, Nat.mul_one]
  have hneeded : ((overfullLens n count).sum + (2 * (n + 3) - 1)) / (2 * (n + 3)) = count := by
    obtain ⟨more, rfl⟩ := Nat.exists_eq_add_of_le hcount
    rw [hsum, show 1 + 1 + more - 2 = more by omega]
    refine Nat.div_eq_of_lt_le ?_ ?_
    · rw [Nat.add_mul]
      omega
    · rw [Nat.add_mul, Nat.add_mul]
      omega
  have hlength : (overfullLens n count).length / 1 = n := by
    rw [Nat.div_one, length_overfullLens hcount hlt]
  have hpos : 0 < 2 * (n + 3) := by omega
  change (Py.floorDiv (overfullLens n count).length 1 >>= fun numGroups =>
    ceildiv (overfullLens n count).sum (2 * (n + 3)) >>= fun needed =>
      Except.ok (min numGroups needed)) = .ok count
  rw [Py.floorDiv_of_pos Nat.one_pos, Py.ok_bind, ceildiv, Py.floorDiv_of_pos hpos, Py.ok_bind,
    hneeded, hlength, Nat.min_eq_right hlt.le]

theorem longSamples_overfullLens (hcount : 1 < count) (hlt : count < n) :
    longSamples (overfullLens n count) (2 * (n + 3)) (List.range n) = count + 1 := by
  have hmap : longSamples (overfullLens n count) (2 * (n + 3)) (List.range n) =
      (overfullLens n count).countP fun len => 2 * (n + 3) < 2 * len := by
    conv_rhs => rw [← Py.map_getD_range (overfullLens n count) 0, List.countP_map]
    rw [length_overfullLens hcount hlt, longSamples]
    rfl
  have hfull : decide (2 * (n + 3) < 2 * (2 * (n + 3))) = true := decide_eq_true (by omega)
  have hhalf : decide (2 * (n + 3) < 2 * (n + 4)) = true := decide_eq_true (by omega)
  have hshort : decide (2 * (n + 3) < 2 * 1) = false := decide_eq_false (by omega)
  rw [hmap, overfullLens, List.countP_append, List.countP_append, List.countP_replicate,
    List.countP_replicate, List.countP_replicate, hfull, hhalf, hshort, if_pos rfl, if_pos rfl,
    if_neg Bool.false_ne_true]
  omega

theorem not_withinBudget_overfullBatch (hcount : 1 < count) (hlt : count < n) :
    ¬WithinBudget (overfullBatch n count) (.ofBudget (2 * (n + 3)) true true) := by
  have hlength : (overfullBatch n count).layout.seqLenEffective.length = n := by
    rw [seqLenEffective_overfullBatch, length_overfullLens hcount hlt]
  have hnum := numMicroBatches_overfullLens hcount hlt
  rw [← seqLenEffective_overfullBatch] at hnum
  have hmax : ∀ m, (overfullBatch n count).layout.maxSeqLen = .ok m → m ≤ 2 * (n + 3) := by
    intro m hm
    have hmem : m ∈ (overfullBatch n count).layout.seqLenEffective := mem_of_maxSeqLen_nested hm
    rw [seqLenEffective_overfullBatch] at hmem
    exact overfullLens_le m hmem
  obtain ⟨microBatches, batchIdxList, hok, hlossless, -⟩ :=
    rearrangeMicroBatches_lossless (overfullBatch n count) Nat.one_pos (Nat.one_dvd _) hmax hnum
      (by rw [hlength]; exact (Nat.div_one n).symm ▸ hlt.le) (by omega)
  rw [(overfullBatch n count).rows_length, hlength] at hlossless
  intro hwithin
  obtain ⟨partition, hpartition, hover⟩ := exists_over_budget hlossless.flatten_perm
    (show batchIdxList.length <
      longSamples (overfullLens n count) (2 * (n + 3)) (List.range n) by
        rw [hlossless.length_eq, longSamples_overfullLens hcount hlt]
        exact Nat.lt_succ_self count)
  have hle := hwithin microBatches batchIdxList hok partition hpartition
  rw [seqLenEffective_overfullBatch] at hle
  exact absurd hover (Nat.not_lt_of_le hle)

end Overfull

/-! ## The numbers that keep the budget -/

/-- All batches of `n` samples that make `count` micro-batches keep the budget when there
is at most one micro-batch or one for each sample, and only then. -/
theorem withinBudget_iff (n count : Nat) :
    (∀ (ρ : Type) (batch : Batch ρ) (maxTokenLen : Nat)
        (sameMicroNumInDp useDynamicBszBalance : Bool),
      batch.rows.length = n →
      (∀ len ∈ batch.layout.seqLenEffective, len ≤ maxTokenLen) →
      numMicroBatches (.ofBudget maxTokenLen sameMicroNumInDp useDynamicBszBalance)
        batch.layout.seqLenEffective = .ok count →
      WithinBudget batch (.ofBudget maxTokenLen sameMicroNumInDp useDynamicBszBalance)) ↔
    count ≤ 1 ∨ n ≤ count := by
  constructor
  · intro hall
    by_contra hnot
    have hcount : 1 < count ∧ count < n := by omega
    refine not_withinBudget_overfullBatch hcount.1 hcount.2 (hall Nat _ _ true true ?_ ?_ ?_)
    · rw [overfullBatch, List.length_range, length_overfullLens hcount.1 hcount.2]
    · rw [seqLenEffective_overfullBatch]
      exact overfullLens_le
    · rw [seqLenEffective_overfullBatch]
      exact numMicroBatches_overfullLens hcount.1 hcount.2
  · intro hcount ρ batch maxTokenLen same balance hn hlens hnum
    exact withinBudget_of_count hlens hnum (hn.symm ▸ hcount)

/-- Three samples of seven tokens for two micro-batches of twelve: two share one. -/
theorem not_withinBudget_three :
    let batch : Batch Nat :=
      ⟨.nested [[0, 0, 0, 0, 0, 0, 0], [0, 0, 0, 0, 0, 0, 0], [0, 0, 0, 0, 0, 0, 0]],
        [0, 1, 2], rfl⟩
    ¬WithinBudget batch (.ofBudget 12 true true) :=
  @not_withinBudget_overfullBatch 3 2 (by decide) (by decide)

end Verl
