import Mathlib.Algebra.BigOperators.Group.List.Basic
import Mathlib.Algebra.Order.Group.Abs
import Mathlib.Data.List.Sort
import Mathlib.Tactic.Ring
import Verl.Lib.Python

/-!
# Dynamic pipeline shards

`get_dynamic_pipeline_shards` of `verl/model_merger/megatron_model_merger.py`.  With
more than two stages it goes through the sizes of the middle stages, leaves out those
for which the first or the last stage would be empty or larger than a middle one, and
takes the most uniform of the rest.

A size `m` of the middle stages is left when `m * (pp_size - 2) + 2 ≤ layer_num` and
`layer_num ≤ m * pp_size`.  The smallest size with the second property is the only one
that has to be tried, and it can be too large (`shardsSucceed_iff`).
-/

namespace Verl

/-! ## The source function -/

/-- One round of the loop: the shards and how far the first stage is from a middle one. -/
def shardsStrategy (layerNum middleSize middleLayerNum : Int) : Option (List Int × Int) :=
  let firstLastLayerNum := layerNum - middleLayerNum * middleSize
  let firstLayerNum := firstLastLayerNum.fdiv 2
  let lastLayerNum := firstLastLayerNum - firstLastLayerNum.fdiv 2
  if (0 < firstLayerNum ∧ firstLayerNum ≤ middleLayerNum) ∧
      (0 < lastLayerNum ∧ lastLayerNum ≤ middleLayerNum) then
    some (firstLayerNum :: List.replicate middleSize.toNat middleLayerNum ++ [lastLayerNum],
      |firstLayerNum - middleLayerNum|)
  else none

/-- `get_dynamic_pipeline_shards` -/
def getDynamicPipelineShards (layerNum ppSize : Int) : Except Py.Error (List Int) :=
  if layerNum < ppSize then
    .error (.value s!"layer_num {layerNum} must be greater than pp_size {ppSize}.")
  else if ppSize < 1 then .error (.value s!"pp_size must be at least 1, got {ppSize}.")
  else if ppSize = 1 then .ok [layerNum]
  else if ppSize = 2 then .ok [layerNum.fdiv 2, layerNum - layerNum.fdiv 2]
  else do
    let middleSize := ppSize - 2
    let strategies := (List.range layerNum.toNat).filterMap fun middleLayerNum : Nat =>
      shardsStrategy layerNum middleSize middleLayerNum
    let best ← Py.getItem (strategies.mergeSort fun x y => x.2 ≤ y.2) 0
    Py.check (best.1.sum = layerNum)
      s!"sum(res)={best.1.sum} != layer_num={layerNum}, pp_size={ppSize}"
    return best.1

/-! ## Uniform shards -/

/-- Positive counts, one for each stage, that have all the layers.  The middle stages are
equal, and the first and the last one differ by at most one layer. -/
structure UniformShards (layerNum ppSize : Int) (shards : List Int) : Prop where
  length : (shards.length : Int) = ppSize
  positive : ∀ count ∈ shards, 0 < count
  sum : shards.sum = layerNum
  ends : ∃ first last middle, shards.head? = some first ∧ shards.getLast? = some last ∧
    |first - last| ≤ 1 ∧
      (2 < ppSize → ∀ i : Nat, 0 < i → (i : Int) < ppSize - 1 → shards[i]? = some middle)

/-- The call returns uniform shards. -/
def ShardsSucceed (layerNum ppSize : Int) : Prop :=
  ∃ shards, getDynamicPipelineShards layerNum ppSize = .ok shards ∧
    UniformShards layerNum ppSize shards

theorem uniformShards_middle {first last middle ppSize : Int} {middleSize : Nat}
    (hpp : (middleSize : Int) + 2 = ppSize) (hfirst : 0 < first) (hmiddle : 0 < middle)
    (hlast : 0 < last) (hends : |first - last| ≤ 1) :
    UniformShards (first + middleSize * middle + last) ppSize
      (first :: List.replicate middleSize middle ++ [last]) where
  length := by
    rw [List.length_append, List.length_cons, List.length_replicate, List.length_singleton]
    omega
  positive := by
    intro count hcount
    rcases List.mem_append.mp hcount with hcount | hcount
    · rcases List.mem_cons.mp hcount with rfl | hcount
      · exact hfirst
      · obtain rfl := List.eq_of_mem_replicate hcount
        exact hmiddle
    · obtain rfl := List.mem_singleton.mp hcount
      exact hlast
  sum := by
    rw [List.sum_append, List.sum_cons, List.sum_replicate, List.sum_singleton, nsmul_eq_mul]
  ends := by
    refine ⟨first, last, middle, rfl, List.getLast?_concat, hends, fun _ i hi hlt => ?_⟩
    obtain ⟨j, rfl⟩ := Nat.exists_eq_succ_of_ne_zero (Nat.ne_of_gt hi)
    have hj : j < middleSize := by omega
    have hlen : j < (List.replicate middleSize middle).length := by
      rw [List.length_replicate]
      exact hj
    rw [List.cons_append, List.getElem?_cons_succ, List.getElem?_append_left hlen,
      List.getElem?_replicate_of_lt hj]

/-! ## The loop -/

/-- The rounds of the loop that leave a candidate. -/
theorem shardsStrategy_isSome_iff {layerNum middleSize middleLayerNum : Int} :
    (shardsStrategy layerNum middleSize middleLayerNum).isSome ↔
      middleLayerNum * middleSize + 2 ≤ layerNum ∧
        layerNum ≤ middleLayerNum * middleSize + 2 * middleLayerNum := by
  rw [shardsStrategy]
  generalize middleLayerNum * middleSize = product
  simp only [Int.fdiv_eq_ediv_of_nonneg _ (show (0 : Int) ≤ 2 by decide)]
  split
  next h => exact iff_of_true rfl (by omega)
  next h => exact iff_of_false (by simp) (by omega)

/-- Every candidate has uniform shards. -/
theorem shardsStrategy_uniform {layerNum ppSize middleLayerNum : Int} {found : List Int × Int}
    (hpp : 2 < ppSize)
    (h : shardsStrategy layerNum (ppSize - 2) middleLayerNum = some found) :
    UniformShards layerNum ppSize found.1 := by
  rw [shardsStrategy] at h
  simp only [Int.fdiv_eq_ediv_of_nonneg _ (show (0 : Int) ≤ 2 by decide)] at h
  split at h
  next hsizes =>
    obtain rfl := Option.some.inj h
    have hmiddleSize : (((ppSize - 2).toNat : Nat) : Int) = ppSize - 2 :=
      Int.toNat_of_nonneg (by omega)
    have huniform := @uniformShards_middle
      ((layerNum - middleLayerNum * (ppSize - 2)) / 2)
      (layerNum - middleLayerNum * (ppSize - 2) - (layerNum - middleLayerNum * (ppSize - 2)) / 2)
      middleLayerNum ppSize (ppSize - 2).toNat (by omega) hsizes.1.1 (by omega) hsizes.2.1
      (by rw [abs_le]; omega)
    rw [hmiddleSize, Int.mul_comm (ppSize - 2)] at huniform
    convert huniform using 1
    omega
  next => cases h

/-- The smallest size of a middle stage with which there are places for all layers. -/
theorem exists_middle_iff {layerNum ppSize : Int} (hpp : 2 < ppSize)
    (hlayers : ppSize ≤ layerNum) :
    (∃ middleLayerNum < layerNum.toNat,
        (shardsStrategy layerNum (ppSize - 2) middleLayerNum).isSome) ↔
      (layerNum + ppSize - 1) / ppSize * (ppSize - 2) + 2 ≤ layerNum := by
  obtain ⟨least, hleast⟩ : ∃ least, least = (layerNum + ppSize - 1) / ppSize := ⟨_, rfl⟩
  have hdiv := Int.mul_ediv_add_emod (layerNum + ppSize - 1) ppSize
  have hmod := Int.emod_nonneg (layerNum + ppSize - 1) (show ppSize ≠ 0 by omega)
  have hmod' := Int.emod_lt_of_pos (layerNum + ppSize - 1) (show 0 < ppSize by omega)
  rw [← hleast] at hdiv ⊢
  have hplaces : layerNum ≤ least * ppSize := by
    rw [Int.mul_comm least]
    omega
  have hroom : least * ppSize < layerNum + ppSize := by
    rw [Int.mul_comm least]
    omega
  have hsplit : ∀ m : Int, m * ppSize = m * (ppSize - 2) + 2 * m := fun m => by ring
  constructor
  · rintro ⟨m, -, hsome⟩
    obtain ⟨hroom', hplaces'⟩ := shardsStrategy_isSome_iff.mp hsome
    rw [← hsplit] at hplaces'
    -- A smaller size than `least` has no places for all layers.
    have hle : least ≤ m := by
      by_contra hlt
      have hmul : ((m : Int) + 1) * ppSize ≤ least * ppSize :=
        Int.mul_le_mul_of_nonneg_right (by omega) (by omega)
      rw [Int.add_mul, Int.one_mul] at hmul
      omega
    have hmono : least * (ppSize - 2) ≤ m * (ppSize - 2) :=
      Int.mul_le_mul_of_nonneg_right hle (by omega)
    omega
  · intro h
    have hpos : 0 < least := by
      by_contra hneg
      have hmul : least * ppSize ≤ 0 := Int.mul_nonpos_of_nonpos_of_nonneg (by omega) (by omega)
      omega
    have hmono : least * 1 ≤ least * (ppSize - 2) :=
      Int.mul_le_mul_of_nonneg_left (by omega) (by omega)
    have hcast : ((least.toNat : Nat) : Int) = least := Int.toNat_of_nonneg (by omega)
    refine ⟨least.toNat, by omega, ?_⟩
    rw [hcast, shardsStrategy_isSome_iff, ← hsplit]
    exact ⟨h, hplaces⟩

/-! ## The call -/

/-- The head of the sorted candidates is a candidate. -/
theorem mem_of_getItem_mergeSort {α : Type*} {xs : List α} {le : α → α → Bool} {best : α}
    (h : Py.getItem (xs.mergeSort le) 0 = .ok best) : best ∈ xs := by
  have hhead : (xs.mergeSort le)[0]? = some best := by
    rw [Py.getItem] at h
    split at h
    next hsome => rw [hsome, Except.ok.inj h]
    next => cases h
  exact List.mem_mergeSort.mp (List.mem_of_getElem? hhead)

/-- The sorted candidates have a head if there is a candidate. -/
theorem exists_getItem_mergeSort {α : Type*} {xs : List α} {le : α → α → Bool} {x : α}
    (hx : x ∈ xs) : ∃ best, Py.getItem (xs.mergeSort le) 0 = .ok best := by
  have hlen : 0 < (xs.mergeSort le).length := by
    rw [List.length_mergeSort]
    exact List.length_pos_of_mem hx
  exact ⟨_, Py.getItem_of_some (List.getElem?_eq_getElem hlen)⟩

theorem shardsSucceed_one {layerNum : Int} (hlayers : 1 ≤ layerNum) :
    ShardsSucceed layerNum 1 := by
  have hnot : ¬ layerNum < 1 := by omega
  refine ⟨[layerNum], ?_, rfl, ?_, List.sum_singleton, ?_⟩
  · rw [getDynamicPipelineShards, if_neg hnot]
    rfl
  · intro count hcount
    obtain rfl := List.mem_singleton.mp hcount
    omega
  · exact ⟨layerNum, layerNum, 0, rfl, rfl, by simp, fun h => absurd h (by omega)⟩

theorem shardsSucceed_two {layerNum : Int} (hlayers : 2 ≤ layerNum) :
    ShardsSucceed layerNum 2 := by
  have hnot : ¬ layerNum < 2 := by omega
  refine ⟨[layerNum / 2, layerNum - layerNum / 2], ?_, rfl, ?_, ?_, ?_⟩
  · rw [getDynamicPipelineShards, if_neg hnot,
      Int.fdiv_eq_ediv_of_nonneg _ (show (0 : Int) ≤ 2 by decide)]
    rfl
  · intro count hcount
    rcases List.mem_pair.mp hcount with rfl | rfl
    · omega
    · omega
  · rw [List.sum_pair]
    omega
  · have hends : |layerNum / 2 - (layerNum - layerNum / 2)| ≤ 1 := by
      rw [abs_le]
      omega
    exact ⟨_, _, 0, rfl, rfl, hends, fun h => absurd h (by omega)⟩

/-- With a middle stage the call succeeds exactly if a round of the loop leaves a candidate. -/
theorem shardsSucceed_iff_exists {layerNum ppSize : Int} (hpp : 2 < ppSize)
    (hlayers : ppSize ≤ layerNum) :
    ShardsSucceed layerNum ppSize ↔ ∃ middleLayerNum < layerNum.toNat,
      (shardsStrategy layerNum (ppSize - 2) middleLayerNum).isSome := by
  have hnot : ¬ layerNum < ppSize := by omega
  have hnot' : ¬ ppSize < 1 := by omega
  have hone : ¬ ppSize = 1 := by omega
  have htwo : ¬ ppSize = 2 := by omega
  rw [ShardsSucceed, getDynamicPipelineShards, if_neg hnot, if_neg hnot', if_neg hone,
    if_neg htwo]
  obtain ⟨strategies, hstrategies⟩ : ∃ strategies, strategies =
    (List.range layerNum.toNat).filterMap fun middleLayerNum : Nat =>
      shardsStrategy layerNum (ppSize - 2) middleLayerNum := ⟨_, rfl⟩
  simp only [← hstrategies]
  have hmem : ∀ found, found ∈ strategies ↔ ∃ middleLayerNum < layerNum.toNat,
      shardsStrategy layerNum (ppSize - 2) middleLayerNum = some found := by
    intro found
    rw [hstrategies, List.mem_filterMap]
    simp only [List.mem_range]
  constructor
  · rintro ⟨shards, hcall, -⟩
    obtain ⟨best, hbest, -⟩ := Py.bind_eq_ok.mp hcall
    obtain ⟨middleLayerNum, hlt, hfound⟩ := (hmem best).mp (mem_of_getItem_mergeSort hbest)
    exact ⟨middleLayerNum, hlt, by rw [hfound]; rfl⟩
  · rintro ⟨middleLayerNum, hlt, hsome⟩
    obtain ⟨found, hfound⟩ := Option.isSome_iff_exists.mp hsome
    obtain ⟨best, hbest⟩ := @exists_getItem_mergeSort _ strategies
      (fun x y => decide (x.2 ≤ y.2)) found ((hmem found).mpr ⟨middleLayerNum, hlt, hfound⟩)
    obtain ⟨_, -, hbest'⟩ := (hmem best).mp (mem_of_getItem_mergeSort hbest)
    have huniform := shardsStrategy_uniform hpp hbest'
    refine ⟨best.1, ?_, huniform⟩
    rw [hbest, Py.ok_bind, Py.check_of_true huniform.sum]
    rfl

/-- The call returns uniform shards exactly if the smallest size of a middle stage with
places for all layers leaves a layer for the first and for the last stage. -/
theorem shardsSucceed_iff {layerNum ppSize : Int} (hpp : 1 ≤ ppSize)
    (hlayers : ppSize ≤ layerNum) :
    ShardsSucceed layerNum ppSize ↔
      ppSize ≤ 2 ∨ (layerNum + ppSize - 1) / ppSize * (ppSize - 2) + 2 ≤ layerNum := by
  by_cases hone : ppSize = 1
  · subst hone
    exact iff_of_true (shardsSucceed_one hlayers) (.inl (by omega))
  by_cases htwo : ppSize = 2
  · subst htwo
    exact iff_of_true (shardsSucceed_two hlayers) (.inl (by omega))
  have hthree : 2 < ppSize := by omega
  rw [or_iff_right (by omega), shardsSucceed_iff_exists hthree hlayers,
    exists_middle_iff hthree hlayers]

theorem shardsSucceed_iff_sixtyOne :
    (1 : Int) ≤ 8 ∧ (8 : Int) ≤ 61 ∧
      (ShardsSucceed 61 8 ↔ (8 : Int) ≤ 2 ∨ (61 + 8 - 1) / 8 * (8 - 2) + 2 ≤ (61 : Int)) :=
  ⟨by decide, by decide, shardsSucceed_iff (by decide) (by decide)⟩

/-- Five layers have no place on four stages: with one layer on each middle stage the last
stage gets two, and with two of them the first stage gets none. -/
theorem not_shardsSucceed_five : ¬ ShardsSucceed 5 4 := by
  rintro ⟨shards, hcall, -⟩
  have herror : getDynamicPipelineShards 5 4 = .error .index := by decide +kernel
  rw [herror] at hcall
  cases hcall

end Verl
