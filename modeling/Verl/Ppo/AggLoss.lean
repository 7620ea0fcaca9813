import Mathlib.Algebra.BigOperators.Fin
import Mathlib.Algebra.BigOperators.Ring.List
import Mathlib.Algebra.Order.Field.Rat
import Mathlib.Tactic.FieldSimp
import Mathlib.Tactic.Ring

/-!
# Aggregation of the policy loss

`aggLoss` turns the loss matrix of one micro-batch into a scalar.  Gradients
are summed over micro-batches and averaged over data-parallel ranks, so the
scalar must be additive up to the global normaliser.

A tensor of shape `(bs, response_length)` is a list of rows of one width.  The
mask of a row is 0 or 1 in every column.  Arithmetic is exact.

Each mode is a sum over the rows of the micro-batch, `rowTerm`, divided by a
normaliser that the caller gives for the global batch.  `aggLoss_given` and
`aggLoss_whole` say so for the two ways of calling the function.  Everything
about parallelism follows from the sum.
-/

namespace Verl

open Finset

/-! ## The loss matrix -/

/-- One row of the loss matrix with its row of the mask. -/
structure LossRow (w : Nat) where
  loss : Fin w → ℚ
  mask : Fin w → ℚ
  mask_zero_or_one : ∀ j, mask j = 0 ∨ mask j = 1

namespace LossRow

variable {w : Nat}

/-- `torch.sum(loss_mask, dim=-1)`. -/
def maskSum (r : LossRow w) : ℚ := ∑ j, r.mask j

/-- `torch.sum(loss_mat * loss_mask, dim=-1)`. -/
def maskedLoss (r : LossRow w) : ℚ := ∑ j, r.loss j * r.mask j

/-- `(torch.sum(loss_mask, dim=-1) > 0).float()`. -/
def seqMask (r : LossRow w) : ℚ := if r.maskSum > 0 then 1 else 0

/-- The number of unmasked tokens of a row. -/
def numTokens (r : LossRow w) : Nat := #{j | r.mask j = 1}

theorem maskSum_eq (r : LossRow w) : r.maskSum = r.numTokens := by
  rw [maskSum, numTokens, card_filter, Nat.cast_sum]
  refine sum_congr rfl fun j _ => ?_
  rcases r.mask_zero_or_one j with h | h <;> simp [h]

/-- The mask of a sequence is 1 when one of its tokens is unmasked. -/
theorem seqMask_eq (r : LossRow w) : r.seqMask = if 0 < r.numTokens then 1 else 0 := by
  rw [seqMask, maskSum_eq]
  simp only [gt_iff_lt, Nat.cast_pos]

end LossRow

/-! ## The reductions of `torch_functional` -/

/-- `masked_sum` of the listed values, each with its mask entry. -/
def maskedSum (entries : List (ℚ × ℚ)) : ℚ :=
  (entries.map fun p => (if p.2 ≠ 0 then p.1 else 0) * p.2).sum

theorem maskedSum_eq (entries : List (ℚ × ℚ)) :
    maskedSum entries = (entries.map fun p => p.1 * p.2).sum := by
  rw [maskedSum]
  refine congrArg List.sum (List.map_congr_left fun p _ => ?_)
  by_cases h : p.2 = 0 <;> simp [h]

/-! ## `agg_loss` -/

/-- The values of `loss_agg_mode`. -/
inductive LossAggMode where
  | tokenMean
  | seqMeanTokenSum
  | seqMeanTokenSumNorm
  | seqMeanTokenMean
deriving DecidableEq

/-- The mode a configuration string names. -/
def LossAggMode.ofString (s : String) : Except String LossAggMode :=
  match s with
  | "token-mean" => .ok .tokenMean
  | "seq-mean-token-sum" => .ok .seqMeanTokenSum
  | "seq-mean-token-sum-norm" => .ok .seqMeanTokenSumNorm
  | "seq-mean-token-mean" => .ok .seqMeanTokenMean
  | s => .error ("Invalid loss_agg_mode: " ++ s)

variable {w : Nat}

/-- The entries of the loss matrix with their mask entries, row by row. -/
def tokenEntries (batch : List (LossRow w)) : List (ℚ × ℚ) :=
  batch.flatMap fun r => List.ofFn fun j => (r.loss j, r.mask j)

/-- A global count: the one given, or the local one, which is only right
without data parallelism. -/
def globalCount (given : Option Int) (dpSize : Nat) (localCount : ℚ) (message : String) :
    Except String ℚ :=
  match given with
  | some n => .ok n
  | none => if dpSize > 1 then .error message else .ok localCount

/-- The divisor of the `seq-mean-token-sum-norm` mode: the width when none is
given. -/
def scaleFactor (horizon : Nat) (lossScaleFactor : Option Int) : ℚ :=
  match lossScaleFactor with
  | some k => k
  | none => horizon

/-- `agg_loss`. -/
def aggLoss (batch : List (LossRow w)) (mode : LossAggMode) (dpSize : Nat)
    (batchNumTokens globalBatchSize lossScaleFactor : Option Int) : Except String ℚ :=
  let seqCount := globalCount globalBatchSize dpSize (batch.map LossRow.seqMask).sum
    "global_batch_size is required when dp_size > 1"
  let tokenSums := batch.map fun r => (r.maskedLoss, r.seqMask)
  match mode with
  | .tokenMean => do
      let n ← globalCount batchNumTokens dpSize (batch.map LossRow.maskSum).sum
        "(global) batch_num_tokens is required when dp_size > 1"
      return maskedSum (tokenEntries batch) / n * dpSize
  | .seqMeanTokenSum => do
      let n ← seqCount
      return maskedSum tokenSums / n * dpSize
  | .seqMeanTokenSumNorm => do
      let n ← seqCount
      return maskedSum tokenSums / n * dpSize / scaleFactor w lossScaleFactor
  | .seqMeanTokenMean => do
      let n ← seqCount
      let tokenMeans := batch.map fun r => (r.maskedLoss / (r.maskSum + 1 / 10 ^ 8), r.seqMask)
      return maskedSum tokenMeans / n * dpSize

/-! ## The loss as a sum over rows -/

/-- What one row adds to the sum before the division by the global count. -/
def rowTerm (mode : LossAggMode) (lossScaleFactor : Option Int) (r : LossRow w) : ℚ :=
  match mode with
  | .tokenMean => r.maskedLoss
  | .seqMeanTokenSum => r.maskedLoss * r.seqMask
  | .seqMeanTokenSumNorm => r.maskedLoss * r.seqMask / scaleFactor w lossScaleFactor
  | .seqMeanTokenMean => r.maskedLoss / (r.maskSum + 1 / 10 ^ 8) * r.seqMask

/-- The number of unmasked tokens of a batch. -/
def batchTokens (batch : List (LossRow w)) : Nat := (batch.map LossRow.numTokens).sum

/-- The number of rows of a batch that are not fully masked. -/
def batchSequences (batch : List (LossRow w)) : Nat := batch.countP fun r => 0 < r.numTokens

/-- The global count a mode divides by. -/
def modeCount (mode : LossAggMode) (batch : List (LossRow w)) : Nat :=
  match mode with
  | .tokenMean => batchTokens batch
  | _ => batchSequences batch

theorem sum_maskSum (batch : List (LossRow w)) :
    (batch.map LossRow.maskSum).sum = batchTokens batch := by
  rw [batchTokens, Nat.cast_list_sum, List.map_map]
  exact congrArg List.sum (List.map_congr_left fun r _ => r.maskSum_eq)

theorem sum_seqMask (batch : List (LossRow w)) :
    (batch.map LossRow.seqMask).sum = batchSequences batch := by
  induction batch with
  | nil => rfl
  | cons r batch ih =>
      rw [List.map_cons, List.sum_cons, ih, r.seqMask_eq, batchSequences, batchSequences,
        List.countP_cons]
      by_cases h : 0 < r.numTokens
      · simp [h, add_comm]
      · simp [h]

theorem maskedSum_tokenEntries (batch : List (LossRow w)) :
    maskedSum (tokenEntries batch) = (batch.map LossRow.maskedLoss).sum := by
  rw [maskedSum_eq, tokenEntries]
  induction batch with
  | nil => rfl
  | cons r batch ih =>
      rw [List.flatMap_cons, List.map_append, List.sum_append, ih, List.map_cons, List.sum_cons,
        List.map_ofFn, List.sum_ofFn, LossRow.maskedLoss]
      rfl

theorem maskedSum_rows (batch : List (LossRow w)) (f g : LossRow w → ℚ) :
    maskedSum (batch.map fun r => (f r, g r)) = (batch.map fun r => f r * g r).sum := by
  rw [maskedSum_eq, List.map_map]
  rfl

theorem sum_map_div (batch : List (LossRow w)) (f : LossRow w → ℚ) (c : ℚ) :
    (batch.map fun r => f r / c).sum = (batch.map f).sum / c := by
  simp only [div_eq_mul_inv, List.sum_map_mul_right]

/-- The count a mode divides by, of two given ones. -/
def givenCount (mode : LossAggMode) (batchNumTokens globalBatchSize : Int) : ℚ :=
  match mode with
  | .tokenMean => batchNumTokens
  | _ => globalBatchSize

/-- The loss of a micro-batch with the global counts given. -/
theorem aggLoss_counts (batch : List (LossRow w)) (mode : LossAggMode) (dpSize : Nat)
    (batchNumTokens globalBatchSize : Int) (lossScaleFactor : Option Int) :
    aggLoss batch mode dpSize (some batchNumTokens) (some globalBatchSize) lossScaleFactor =
      .ok ((batch.map (rowTerm mode lossScaleFactor)).sum /
        givenCount mode batchNumTokens globalBatchSize * dpSize) := by
  cases mode with
  | tokenMean =>
      simp only [aggLoss, globalCount, maskedSum_tokenEntries]
      rfl
  | seqMeanTokenSum =>
      simp only [aggLoss, globalCount, maskedSum_rows]
      rfl
  | seqMeanTokenSumNorm =>
      simp only [aggLoss, globalCount, maskedSum_rows]
      have hterm : rowTerm .seqMeanTokenSumNorm lossScaleFactor =
          fun r : LossRow w => r.maskedLoss * r.seqMask / scaleFactor w lossScaleFactor := rfl
      have hcount : givenCount .seqMeanTokenSumNorm batchNumTokens globalBatchSize =
          globalBatchSize := rfl
      refine congrArg Except.ok ?_
      rw [hterm, sum_map_div, hcount]
      ring
  | seqMeanTokenMean =>
      simp only [aggLoss, globalCount, maskedSum_rows]
      rfl

theorem givenCount_eq_modeCount (mode : LossAggMode) (whole : List (LossRow w)) :
    givenCount mode (batchTokens whole) (batchSequences whole) = modeCount mode whole := by
  cases mode <;> exact Int.cast_natCast _

/-- The same with the counts of a batch. -/
theorem aggLoss_given (batch : List (LossRow w)) (mode : LossAggMode) (dpSize : Nat)
    (whole : List (LossRow w)) (lossScaleFactor : Option Int) :
    aggLoss batch mode dpSize (some (batchTokens whole)) (some (batchSequences whole))
        lossScaleFactor =
      .ok ((batch.map (rowTerm mode lossScaleFactor)).sum / modeCount mode whole * dpSize) := by
  rw [aggLoss_counts, givenCount_eq_modeCount]

/-- The loss of a batch on its own: the counts are its own. -/
theorem aggLoss_whole (batch : List (LossRow w)) (mode : LossAggMode)
    (lossScaleFactor : Option Int) :
    aggLoss batch mode 1 none none lossScaleFactor =
      .ok ((batch.map (rowTerm mode lossScaleFactor)).sum / modeCount mode batch) := by
  have hown : aggLoss batch mode 1 none none lossScaleFactor =
      aggLoss batch mode 1 (some (batchTokens batch)) (some (batchSequences batch))
        lossScaleFactor := by
    simp only [aggLoss, globalCount, sum_maskSum, sum_seqMask, Int.cast_natCast]
    rfl
  rw [hown, aggLoss_given, Nat.cast_one, mul_one]

/-! ## Parallelism -/

/-- Summing over a nested list is summing over its rows. -/
theorem sum_map_flatten {β : Type*} (f : β → ℚ) (parts : List (List β)) :
    (parts.flatten.map f).sum = (parts.map fun part => (part.map f).sum).sum := by
  rw [List.map_flatten, List.sum_flatten, List.map_map]
  rfl

/-- The aggregated loss does not depend on the parallel layout.

The rows of the global batch are divided among the ranks, and the rows of each
rank among its micro-batches, in any way and in any order.  Every micro-batch
is aggregated with the counts of the global batch.  The sum of the results,
averaged over the ranks, is the loss of the global batch aggregated at once.
With an unmasked token there is a sequence that is not fully masked, so no
count is zero. -/
theorem aggLoss_parallel (mode : LossAggMode) (lossScaleFactor : Option Int)
    (ranks : List (List (List (LossRow w)))) (whole : List (LossRow w))
    (hsplit : ranks.flatten.flatten.Perm whole)
    (htokens : batchTokens whole ≠ 0) :
    ∃ losses : List (List ℚ),
      (ranks.mapM fun rank => rank.mapM fun microBatch =>
        aggLoss microBatch mode ranks.length (some (batchTokens whole))
          (some (batchSequences whole)) lossScaleFactor) = .ok losses ∧
      aggLoss whole mode 1 none none lossScaleFactor =
        .ok ((losses.map List.sum).sum / ranks.length) := by
  have hranks : (ranks.length : ℚ) ≠ 0 := by
    rw [Nat.cast_ne_zero, Ne, List.length_eq_zero_iff]
    intro hnil
    subst hnil
    have hwhole : whole = [] := hsplit.nil_eq.symm
    exact htokens (hwhole ▸ rfl)
  let loss : List (LossRow w) → ℚ := fun microBatch =>
    (microBatch.map (rowTerm mode lossScaleFactor)).sum / modeCount mode whole * ranks.length
  refine ⟨ranks.map fun rank => rank.map loss, ?_, ?_⟩
  · simp only [aggLoss_given]
    have hrank : ∀ rank : List (List (LossRow w)),
        (rank.mapM fun microBatch => (.ok (loss microBatch) : Except String ℚ)) =
          .ok (rank.map loss) := fun _ => List.mapM_pure
    exact (congrArg (List.mapM · ranks) (funext hrank)).trans List.mapM_pure
  · have hsum : (whole.map (rowTerm mode lossScaleFactor)).sum =
        (ranks.map fun rank => (rank.map fun microBatch =>
          (microBatch.map (rowTerm mode lossScaleFactor)).sum).sum).sum := by
      rw [← (hsplit.map _).sum_eq, sum_map_flatten, sum_map_flatten]
    have hloss : ∀ rank : List (List (LossRow w)), (rank.map loss).sum =
        (rank.map fun microBatch => (microBatch.map (rowTerm mode lossScaleFactor)).sum).sum *
          (ranks.length / modeCount mode whole) := by
      intro rank
      rw [← List.sum_map_mul_right]
      refine congrArg List.sum (List.map_congr_left fun microBatch _ => ?_)
      simp only [loss]
      ring
    rw [aggLoss_whole, hsum]
    refine congrArg Except.ok ?_
    rw [List.map_map]
    simp only [Function.comp_def, hloss, List.sum_map_mul_right]
    field_simp

/-- Two ranks, one with an empty micro-batch, and a fully masked row. -/
theorem aggLoss_parallel_two_ranks :
    let r₁ : LossRow 2 := ⟨![3, 5], ![1, 0], by decide⟩
    let r₂ : LossRow 2 := ⟨![2, 4], ![1, 1], by decide⟩
    let r₃ : LossRow 2 := ⟨![7, 7], ![0, 0], by decide⟩
    ∃ losses : List (List ℚ),
      ([[[r₁], []], [[r₂, r₃]]].mapM fun rank => rank.mapM fun microBatch =>
        aggLoss microBatch .seqMeanTokenMean 2 (some (batchTokens [r₁, r₂, r₃]))
          (some (batchSequences [r₁, r₂, r₃])) none) = .ok losses ∧
      aggLoss [r₁, r₂, r₃] .seqMeanTokenMean 1 none none none =
        .ok ((losses.map List.sum).sum / (2 : Nat)) := by
  intro r₁ r₂ r₃
  exact aggLoss_parallel .seqMeanTokenMean none [[[r₁], []], [[r₂, r₃]]] [r₁, r₂, r₃]
    (List.Perm.refl _) (by decide)

end Verl
