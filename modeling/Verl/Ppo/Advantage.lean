import Mathlib.Data.Nat.Sqrt
import Verl.Lib.GroupBy
import Verl.Lib.Python
import Verl.Ppo.AggLoss
import Verl.Workers.Padding

/-!
# Outcome advantages

The registered estimators that turn the rewards of a batch into advantages.  All
but one compare a row with the rows of its uid.  Arithmetic is exact, and a
division by zero leaves no number.  The square root is a parameter.
-/

namespace Verl

open Py (groupBy)

/-! ## Numbers -/

/-- A number, or `none` where a division by zero has left `nan` or an infinity. -/
abbrev Num := Option ℚ

/-- `x / y`. -/
def numDiv (x y : ℚ) : Num := if y = 0 then none else some (x / y)

/-- The square root, by its sign. -/
structure SquareRoot where
  sqrt : ℚ → ℚ
  sqrt_nonneg : ∀ x, 0 ≤ sqrt x
  sqrt_pos : ∀ x, 0 < x → 0 < sqrt x

/-- The root of a square, rounded down for other numbers. -/
def floorSqrt : SquareRoot where
  sqrt x := Nat.sqrt x.num.toNat / Nat.sqrt x.den
  sqrt_nonneg := fun _ => div_nonneg (Nat.cast_nonneg _) (Nat.cast_nonneg _)
  sqrt_pos := by
    intro x hx
    have hnum : 0 < x.num.toNat := by
      have := Rat.num_pos.mpr hx
      omega
    exact div_pos (Nat.cast_pos.mpr (Nat.sqrt_pos.mpr hnum))
      (Nat.cast_pos.mpr (Nat.sqrt_pos.mpr x.den_pos))

/-! ## Rows -/

/-- A row of the batch: the uid, `token_level_rewards` and `response_mask`. -/
structure AdvRow where
  uid : String
  rewards : List ℚ
  mask : List ℚ
  mask_zero_or_one : ∀ m ∈ mask, m = 0 ∨ m = 1
  length_eq : rewards.length = mask.length

namespace AdvRow

/-- `token_level_rewards.sum(dim=-1)`. -/
def score (row : AdvRow) : ℚ := row.rewards.sum

/-- `response_mask.sum(dim=-1)`. -/
def responseLength (row : AdvRow) : ℚ := row.mask.sum

/-- The row of `to_padded_tensor` of a width. -/
def padTo (width : Nat) (row : AdvRow) : AdvRow where
  uid := row.uid
  rewards := Verl.padTo width row.rewards
  mask := Verl.padTo width row.mask
  mask_zero_or_one := by
    intro m hm
    rcases List.mem_append.mp (List.mem_of_mem_take hm) with hm | hm
    · exact row.mask_zero_or_one m hm
    · exact .inl (List.eq_of_mem_replicate hm)
  length_eq := by rw [length_padTo, length_padTo]

end AdvRow

/-- The score and the number of unmasked tokens of a row. -/
structure RowStat where
  score : ℚ
  length : ℚ

def AdvRow.stat (row : AdvRow) : RowStat := ⟨row.score, row.responseLength⟩

/-- The advantages and the returns of a batch, row by row. -/
structure AdvOutput where
  advantages : List (List Num)
  returns : List (List Num)

/-- `scores.unsqueeze(-1) * response_mask`, one row. -/
def broadcast (scalar : Num) (mask : List ℚ) : List Num := mask.map fun m => scalar.map (· * m)

/-- The configuration of the algorithm. -/
structure AlgoConfig where
  normAdvByStdInGrpo : Bool
  gamma : ℚ

/-! ## Groups -/

/-- Every row gets a number from the statistics of the rows with its label. -/
def groupAdvantage {K : Type} [DecidableEq K] (labels : List K)
    (scalar : List RowStat → RowStat → Num) (rows : List AdvRow) : List (List Num) :=
  let id2stat := groupBy (labels.zip (rows.map AdvRow.stat))
  List.zipWith (fun label row => broadcast (scalar ((id2stat.get? label).getD []) row.stat)
    row.mask)
    labels rows

/-- `id2mean`: 0 for a group of one row. -/
def id2mean (group : List RowStat) : ℚ :=
  if group.length = 1 then 0 else (group.map RowStat.score).sum / group.length

/-- `torch.std` of at least two scores. -/
def torchStd (S : SquareRoot) (scores : List ℚ) : ℚ :=
  let mean := scores.sum / scores.length
  S.sqrt ((scores.map fun s => (s - mean) ^ 2).sum / (scores.length - 1))

/-- `id2std`: 1 for a group of one row. -/
def id2std (S : SquareRoot) (group : List RowStat) : ℚ :=
  if group.length = 1 then 1 else torchStd S (group.map RowStat.score)

/-- The default `epsilon`. -/
def epsilon : ℚ := 1 / 10 ^ 6

def grpoScore (S : SquareRoot) (normAdvByStdInGrpo : Bool) (group : List RowStat) (row : RowStat) :
    Num :=
  if normAdvByStdInGrpo then numDiv (row.score - id2mean group) (id2std S group + epsilon)
  else some (row.score - id2mean group)

/-- `compute_grpo_outcome_advantage`. -/
def computeGrpoOutcomeAdvantage (S : SquareRoot) (normAdvByStdInGrpo : Bool) (rows : List AdvRow) :
    Except Py.Error AdvOutput :=
  let scores := groupAdvantage (rows.map AdvRow.uid) (grpoScore S normAdvByStdInGrpo) rows
  .ok ⟨scores, scores⟩

/-- A group of one row keeps its score. -/
def rlooScore (group : List RowStat) (row : RowStat) : Num :=
  let responseNum : ℚ := group.length
  if group.length > 1 then
    some (row.score * responseNum / (responseNum - 1) -
      id2mean group * responseNum / (responseNum - 1))
  else some row.score

/-- `compute_rloo_outcome_advantage`. -/
def computeRlooOutcomeAdvantage (rows : List AdvRow) : Except Py.Error AdvOutput :=
  let scores := groupAdvantage (rows.map AdvRow.uid) rlooScore rows
  .ok ⟨scores, scores⟩

/-- `id2bsl`: the mean of the scores weighted with the lengths. -/
def id2bsl (group : List RowStat) : Num :=
  if group.length = 1 then some 0
  else numDiv (group.map fun row => row.length * row.score).sum (group.map RowStat.length).sum

def opoScore (group : List RowStat) (row : RowStat) : Num := (id2bsl group).map (row.score - ·)

/-- `compute_opo_outcome_advantage`. -/
def computeOpoOutcomeAdvantage (rows : List AdvRow) : Except Py.Error AdvOutput :=
  let scores := groupAdvantage (rows.map AdvRow.uid) opoScore rows
  .ok ⟨scores, scores⟩

/-- `alpha` of `compute_gpg_outcome_advantage`: the rows for each row with a score. -/
def gpgAlpha (rows : List AdvRow) : ℚ :=
  let m := rows.countP fun row => row.score ≠ 0
  rows.length / max (m : ℚ) 1

/-- The default `f_norm` is 1. -/
def gpgScore (alpha : ℚ) (group : List RowStat) (row : RowStat) : Num :=
  some (alpha * (row.score - id2mean group) / 1)

/-- `compute_gpg_outcome_advantage`. -/
def computeGpgOutcomeAdvantage (rows : List AdvRow) : Except Py.Error AdvOutput :=
  let alpha := gpgAlpha rows
  let scores := groupAdvantage (rows.map AdvRow.uid) (gpgScore alpha) rows
  .ok ⟨scores, scores⟩

/-! ## Vectorized estimators -/

/-- The second result of `np.unique(index, return_inverse=True)`. -/
def uniqueInverse (index : List String) : List Nat :=
  let values := index.dedup.mergeSort fun a b => decide (a ≤ b)
  index.map fun uid => values.idxOf uid

/-- `as_torch_index`.  Labels that are all integers are taken as they are. -/
def asTorchIndex (parseInt : String → Option Int) (index : List String) : List Int :=
  match index.mapM parseInt with
  | some coerced => coerced
  | none => (uniqueInverse index).map fun i : Nat => (i : Int)

/-- `mean_g` of `group_mean_std`. -/
def groupMean (group : List RowStat) : ℚ :=
  let count : ℚ := group.length
  if count ≤ 1 then 0 else (group.map RowStat.score).sum / max count 1

/-- `std_g` of `group_mean_std` with the floor 0. -/
def groupStd (S : SquareRoot) (group : List RowStat) : ℚ :=
  let count : ℚ := group.length
  let mean := (group.map RowStat.score).sum / max count 1
  let var := (group.map fun row => (row.score - mean) ^ 2).sum / max (count - 1) 1
  if count ≤ 1 then 1 else S.sqrt (max var 0)

def grpoVectorizedScore (S : SquareRoot) (normAdvByStdInGrpo : Bool) (group : List RowStat)
    (row : RowStat) : Num :=
  if normAdvByStdInGrpo then numDiv (row.score - groupMean group) (groupStd S group + epsilon)
  else some (row.score - groupMean group)

/-- `compute_grpo_vectorized_outcome_advantage`.  A negative label is no index. -/
def computeGrpoVectorizedOutcomeAdvantage (S : SquareRoot) (parseInt : String → Option Int)
    (normAdvByStdInGrpo : Bool) (rows : List AdvRow) : Except Py.Error AdvOutput :=
  let g := asTorchIndex parseInt (rows.map AdvRow.uid)
  if g.any (· < 0) then .error .index
  else
    let advantages := groupAdvantage g (grpoVectorizedScore S normAdvByStdInGrpo) rows
    .ok ⟨advantages, advantages⟩

def rlooVectorizedScore (group : List RowStat) (row : RowStat) : Num :=
  let c : ℚ := group.length
  some ((c * row.score - (group.map RowStat.score).sum) / max (c - 1) 1 * if c > 1 then 1 else 0)

/-- `compute_rloo_vectorized_outcome_advantage`. -/
def computeRlooVectorizedOutcomeAdvantage (rows : List AdvRow) : Except Py.Error AdvOutput :=
  let inv := uniqueInverse (rows.map AdvRow.uid)
  let adv := groupAdvantage inv rlooVectorizedScore rows
  .ok ⟨adv, adv⟩

/-! ## Pass@k -/

/-- The largest of the rewards. -/
def maxReward (rewards : List ℚ) : ℚ := rewards.foldl max (rewards.headD 0)

/-- `torch.topk(rewards, 2)`: the two largest rewards and the index of the first. -/
def topk2 (rewards : List ℚ) : (ℚ × ℚ) × Nat :=
  let rMax := maxReward rewards
  let iMax := rewards.idxOf rMax
  ((rMax, maxReward (rewards.eraseIdx iMax)), iMax)

/-- The loop of `compute_grpo_passk_outcome_advantage` for one group. -/
def passkGroup (S : SquareRoot) (normAdvByStdInGrpo : Bool) (id2indices : Py.Dict String (List Nat))
    (advantages : List Num) (group : String × List ℚ) : Except Py.Error (List Num) :=
  let rewards := group.2
  if rewards.length < 2 then
    .error (.value ("Pass@k requires at least 2 samples per group. " ++
      s!"Got {rewards.length} for group {group.1}."))
  else
    let ((rMax, rSecondMax), top) := topk2 rewards
    let iMax := ((id2indices.get? group.1).getD []).getD top 0
    let advantage :=
      if normAdvByStdInGrpo then numDiv (rMax - rSecondMax) (torchStd S rewards + epsilon)
      else some (rMax - rSecondMax)
    .ok (advantages.set iMax advantage)

/-- `compute_grpo_passk_outcome_advantage`. -/
def computeGrpoPasskOutcomeAdvantage (S : SquareRoot) (normAdvByStdInGrpo : Bool)
    (rows : List AdvRow) : Except Py.Error AdvOutput := do
  let index := rows.map AdvRow.uid
  let id2scores := groupBy (index.zip (rows.map AdvRow.score))
  let id2indices := groupBy (index.zip (List.range rows.length))
  let advantages ← id2scores.entries.foldlM (passkGroup S normAdvByStdInGrpo id2indices)
    (List.replicate rows.length (some 0))
  let advantages := List.zipWith (fun advantage row => broadcast advantage row.mask) advantages rows
  return ⟨advantages, advantages⟩

/-! ## Whitening -/

/-- `masked_mean`. -/
def maskedMean (entries : List (ℚ × ℚ)) : ℚ :=
  maskedSum entries / ((entries.map Prod.snd).sum + 1 / 10 ^ 8)

/-- `masked_var`. -/
def maskedVar (entries : List (ℚ × ℚ)) : Except Py.Error ℚ :=
  let mean := maskedMean entries
  let variance := maskedMean (entries.map fun e => ((e.1 - mean) ^ 2, e.2))
  let maskSum := (entries.map Prod.snd).sum
  if maskSum = 0 then .error (.value "At least one element in the mask has to be 1.")
  else if maskSum = 1 then
    .error (.value "The sum of the mask is one, which can cause a division by zero.")
  else .ok (variance * (maskSum / (maskSum - 1)))

/-- `masked_whiten`. -/
def maskedWhiten (S : SquareRoot) (values mask : List (List ℚ)) :
    Except Py.Error (List (List Num)) :=
  do
  let entries := (List.zipWith List.zip values mask).flatten
  let var ← maskedVar entries
  let mean := maskedMean entries
  return values.map fun row => row.map fun v =>
    (numDiv 1 (S.sqrt (var + 1 / 10 ^ 8))).map ((v - mean) * ·)

/-- `values * response_mask`. -/
def mulMask (values : List (List Num)) (mask : List (List ℚ)) : List (List Num) :=
  List.zipWith (List.zipWith fun v m => v.map (· * m)) values mask

/-- The centred scores of `reinforce_plus_plus_baseline`, tiled and masked. -/
def centredScores (rows : List AdvRow) : List (List ℚ) :=
  let id2stat := groupBy ((rows.map AdvRow.uid).zip (rows.map AdvRow.stat))
  rows.map fun row => row.mask.map fun m =>
    (row.score - id2mean ((id2stat.get? row.uid).getD [])) * m

/-- `compute_reinforce_plus_plus_baseline_outcome_advantage`. -/
def computeReinforcePlusPlusBaselineOutcomeAdvantage (S : SquareRoot) (rows : List AdvRow) :
    Except Py.Error AdvOutput := do
  let mask := rows.map AdvRow.mask
  let whitened ← maskedWhiten S (centredScores rows) mask
  let scores := mulMask whitened mask
  return ⟨scores, scores⟩

/-- The returns of a row from its last token back, with the running return, which
a masked token resets. -/
def discountedReturns (gamma : ℚ) : List (ℚ × ℚ) → List ℚ × ℚ
  | [] => ([], 0)
  | (reward, m) :: rest =>
      let later : List ℚ × ℚ := discountedReturns gamma rest
      let runningReturn := reward + gamma * later.2
      (runningReturn :: later.1, runningReturn * m)

/-- `compute_reinforce_plus_plus_outcome_advantage`. -/
def computeReinforcePlusPlusOutcomeAdvantage (S : SquareRoot) (gamma : ℚ) (rows : List AdvRow) :
    Except Py.Error AdvOutput := do
  let mask := rows.map AdvRow.mask
  let returns := rows.map fun row => (discountedReturns gamma (row.rewards.zip row.mask)).1
  let advantages ← maskedWhiten S returns mask
  return ⟨mulMask advantages mask, returns.map (List.map some)⟩

/-! ## The dispatch -/

/-- The outcome estimators of the registry that read no baseline and no
log-probabilities. -/
inductive AdvantageEstimator where
  | grpo
  | grpoVectorized
  | grpoPassk
  | reinforcePlusPlus
  | reinforcePlusPlusBaseline
  | rloo
  | rlooVectorized
  | opo
  | gpg
deriving DecidableEq

/-- `compute_advantage` of padded rows.  Only `grpo` is given
`norm_adv_by_std_in_grpo`; `grpo_passk` reads it from the configuration and
`grpo_vectorized` has its default. -/
def AdvantageEstimator.compute (S : SquareRoot) (parseInt : String → Option Int)
    (config : AlgoConfig) (est : AdvantageEstimator) (rows : List AdvRow) :
    Except Py.Error AdvOutput :=
  match est with
  | .grpo => computeGrpoOutcomeAdvantage S config.normAdvByStdInGrpo rows
  | .grpoVectorized => computeGrpoVectorizedOutcomeAdvantage S parseInt true rows
  | .grpoPassk => computeGrpoPasskOutcomeAdvantage S config.normAdvByStdInGrpo rows
  | .reinforcePlusPlus => computeReinforcePlusPlusOutcomeAdvantage S config.gamma rows
  | .reinforcePlusPlusBaseline => computeReinforcePlusPlusBaselineOutcomeAdvantage S rows
  | .rloo => computeRlooOutcomeAdvantage rows
  | .rlooVectorized => computeRlooVectorizedOutcomeAdvantage rows
  | .opo => computeOpoOutcomeAdvantage rows
  | .gpg => computeGpgOutcomeAdvantage rows

/-- The width of a padded batch. -/
def batchWidth (rows : List AdvRow) : Nat := (rows.map fun row => row.mask.length).foldr max 0

/-- `response_to_nested`: each row without its padding. -/
def responseToNested (rows : List AdvRow) (tensor : List (List Num)) : List (List Num) :=
  List.zipWith (fun row values => values.take row.mask.length) rows tensor

/-- `_compute_advantage`: the rows are padded, and the result is nested again. -/
def computeAdvantage (S : SquareRoot) (parseInt : String → Option Int) (config : AlgoConfig)
    (est : AdvantageEstimator) (rows : List AdvRow) : Except Py.Error AdvOutput := do
  let out ← est.compute S parseInt config (rows.map (AdvRow.padTo (batchWidth rows)))
  return ⟨responseToNested rows out.advantages, responseToNested rows out.returns⟩

end Verl
