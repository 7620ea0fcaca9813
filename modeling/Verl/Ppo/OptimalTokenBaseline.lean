import Mathlib.Algebra.Order.Floor.Ring
import Mathlib.Data.Rat.Floor
import Verl.Lib.ExtendedRat
import Verl.Ppo.ReturnResets

/-!
# The optimal token baseline

`compute_optimal_token_baseline_advantage` and
`compute_multi_turn_optimal_token_baseline_advantage` of `verl/trainer/ppo/core_algos.py`.
Both subtract from the return of a token a baseline that the rows of its group have in
common.  The first counts the steps by columns.  The second gathers the unmasked tokens of
every row to its left and counts by these.

The probabilities of the tokens are given, and arithmetic is exact.  A denominator can be
zero, so the baselines have infinities and NaN.
-/

namespace Verl.Otb

open XRat

variable {K : Type} [DecidableEq K] {width : Nat}

/-! ## Rows -/

/-- A token of a row.  `rolloutIsWeight` is read only when there are such weights. -/
structure Token where
  reward : ℚ
  mask : ℚ
  pi : ℚ
  sumPiSquared : ℚ
  rolloutIsWeight : ℚ
  mask_zero_or_one : mask = 0 ∨ mask = 1

/-- A row of a batch and its prompt. -/
structure Row (K : Type) (width : Nat) where
  index : K
  tokens : List Token
  length_eq : tokens.length = width

/-- `response_mask`, one row. -/
def responseMask (tokens : List Token) : List ℚ := tokens.map Token.mask

/-- `response_mask.sum(dim=-1)` as an integer. -/
def responseLength (tokens : List Token) : Nat := ⌊(responseMask tokens).sum⌋.toNat

/-- `torch.cumsum`, from a number on. -/
def cumsum (total : ℚ) : List ℚ → List ℚ
  | [] => []
  | x :: xs => (total + x) :: cumsum (total + x) xs

/-- `(token_level_rewards * response_mask).flip(dims=[-1]).cumsum(dim=-1).flip(dims=[-1])` -/
def tokenReturns (tokens : List Token) : List ℚ :=
  (cumsum 0 (tokens.map fun t => t.reward * t.mask).reverse).reverse

/-- `w_per_timestep`, with and without `rollout_is_weights`. -/
def wPerTimestep (weighted : Bool) (t : Token) : ℚ :=
  if weighted then (1 - 2 * t.pi + t.sumPiSquared) * t.rolloutIsWeight ^ 2
  else 1 - 2 * t.pi + t.sumPiSquared

/-- `w_cumulative`, one row. -/
def wCumulative (weighted : Bool) (tokens : List Token) : List ℚ :=
  cumsum 0 (tokens.map fun t => wPerTimestep weighted t * t.mask)

/-! ## Baselines -/

/-- `tensor[i, j]`. -/
def entry (tensor : List (List ℚ)) (i j : Nat) : ℚ := (tensor.getD i []).getD j 0

/-- `baselines[traj_idx] = row`.  The baselines are a row for every row number. -/
def assignRows (baselines : Nat → List XRat) (trajIdx : List Nat) (row : List XRat) :
    Nat → List XRat :=
  fun i => if i ∈ trajIdx then row else baselines i

/-- `baselines[i, start:] = 0.0`. -/
def zeroFrom (baselines : Nat → List XRat) (i start : Nat) : Nat → List XRat :=
  fun k => if k = i then (baselines k).take start ++ List.replicate ((baselines k).length - start) 0
    else baselines k

/-- `sorted_lengths[-1 - k]`. -/
def sortedLength (lengths : List Nat) (k : Nat) : Nat :=
  (lengths.mergeSort (· ≤ ·)).getD (lengths.length - 1 - k) 0

/-- `(response_lengths == max_length).nonzero()`. -/
def maxLengthIdx (lengths : List Nat) : List Nat :=
  (List.range lengths.length).filter fun p => lengths.getD p 0 = sortedLength lengths 0

/-- The rows of a group, of which these are the lengths, with `handle_zero_tail`. -/
def zeroTail (lengths trajectoryIndices : List Nat) (baselines : Nat → List XRat) :
    Nat → List XRat :=
  if (maxLengthIdx lengths).length = 1 ∧ sortedLength lengths 1 < sortedLength lengths 0 then
    zeroFrom baselines (trajectoryIndices.getD ((maxLengthIdx lengths).headD 0) 0)
      (sortedLength lengths 1)
  else baselines

/-! ## One turn -/

/-- `baseline_per_step` -/
def baselinePerStep (epsilon : ℚ) (width : Nat) (returns wCumulative mask : List (List ℚ))
    (trajectoryIndices : List Nat) : List XRat :=
  (List.range width).map fun j =>
    fin (trajectoryIndices.map fun i =>
        entry returns i j * entry wCumulative i j * entry mask i j).sum /
      fin ((trajectoryIndices.map fun i => entry wCumulative i j * entry mask i j).sum + epsilon)

/-- The body of the loop over the groups. -/
def groupStep (weighted handleZeroTail : Bool) (epsilon : ℚ) (rows : List (Row K width))
    (baselines : Nat → List XRat) (trajectoryIndices : List Nat) : Nat → List XRat :=
  if trajectoryIndices.length = 1 then baselines
  else
    let returns := rows.map fun row => tokenReturns row.tokens
    let wCumulative := rows.map fun row => wCumulative weighted row.tokens
    let mask := rows.map fun row => responseMask row.tokens
    let baselines := assignRows baselines trajectoryIndices
      (baselinePerStep epsilon width returns wCumulative mask trajectoryIndices)
    let lengths := rows.map fun row => responseLength row.tokens
    if handleZeroTail then
      zeroTail (trajectoryIndices.map fun i => lengths.getD i 0) trajectoryIndices baselines
    else baselines

/-- `prompt_groups` -/
def promptGroups (rows : List (Row K width)) : Py.Dict K (List Nat) :=
  Py.groupBy (rows.zipIdx.map fun p => (p.1.index, p.2))

/-- `compute_optimal_token_baseline_advantage`: the advantages and the returns. -/
def computeOptimalTokenBaselineAdvantage (weighted handleZeroTail : Bool) (epsilon : ℚ)
    (rows : List (Row K width)) : List (List XRat) × List (List ℚ) :=
  let baselines := (promptGroups rows).entries.foldl
    (fun baselines group => groupStep weighted handleZeroTail epsilon rows baselines group.2)
    fun _ => List.replicate width 0
  (rows.zipIdx.map fun p =>
    (List.range width).map fun j =>
      (fin ((tokenReturns p.1.tokens).getD j 0) - (baselines p.2).getD j 0) *
        fin ((responseMask p.1.tokens).getD j 0),
    rows.map fun row => tokenReturns row.tokens)

/-! ## Several turns -/

/-- A row of `all_w_values` or `all_returns`: the values at the unmasked tokens, then
zeros. -/
def gather (maxResponseLength : Nat) (tokens : List Token) (values : List ℚ) : List ℚ :=
  atLive (responseMask tokens) values ++
    List.replicate (maxResponseLength - responseLength tokens) 0

/-- `advantages[i, response_mask[i].bool()] = values` on a row of zeros. -/
def scatter : List ℚ → List XRat → List XRat
  | [], _ => []
  | m :: mask, values =>
      if m = 0 then 0 :: scatter mask values
      else values.headD 0 :: scatter mask values.tail

/-- `max_response_length` -/
def maxResponseLength (rows : List (Row K width)) : Nat :=
  (rows.map fun row => responseLength row.tokens).max?.getD 0

/-- `b_star` -/
def bStar (epsilon : ℚ) (maxResponseLength : Nat) (allReturns allWValues : List (List ℚ))
    (trajectoryIndices : List Nat) : List XRat :=
  (List.range maxResponseLength).map fun j =>
    fin (trajectoryIndices.map fun i => entry allReturns i j * entry allWValues i j).sum /
      fin ((trajectoryIndices.map fun i => entry allWValues i j).sum + epsilon)

/-- `all_returns` -/
def allReturns (rows : List (Row K width)) : List (List ℚ) :=
  rows.map fun row => gather (maxResponseLength rows) row.tokens (tokenReturns row.tokens)

/-- `all_w_values` -/
def allWValues (weighted : Bool) (rows : List (Row K width)) : List (List ℚ) :=
  rows.map fun row =>
    gather (maxResponseLength rows) row.tokens (wCumulative weighted row.tokens)

/-- The body of the loop over the groups. -/
def multiTurnGroupStep (weighted handleZeroTail : Bool) (epsilon : ℚ) (rows : List (Row K width))
    (baselines : Nat → List XRat) (trajectoryIndices : List Nat) : Nat → List XRat :=
  if trajectoryIndices.length = 1 then
    assignRows baselines (trajectoryIndices.take 1) (List.replicate (maxResponseLength rows) 0)
  else
    let baselines := assignRows baselines trajectoryIndices
      (bStar epsilon (maxResponseLength rows) (allReturns rows) (allWValues weighted rows)
        trajectoryIndices)
    let lengths := rows.map fun row => responseLength row.tokens
    if handleZeroTail then
      zeroTail (trajectoryIndices.map fun i => lengths.getD i 0) trajectoryIndices baselines
    else baselines

/-- `prompt_groups`: rows without unmasked tokens are in no group. -/
def multiTurnPromptGroups (rows : List (Row K width)) : Py.Dict K (List Nat) :=
  Py.groupBy ((rows.zipIdx.filter fun p => responseLength p.1.tokens ≠ 0).map fun p =>
    (p.1.index, p.2))

/-- `compute_multi_turn_optimal_token_baseline_advantage`: the advantages and the returns. -/
def computeMultiTurnOptimalTokenBaselineAdvantage (weighted handleZeroTail : Bool) (epsilon : ℚ)
    (rows : List (Row K width)) : List (List XRat) × List (List ℚ) :=
  let baselines := (multiTurnPromptGroups rows).entries.foldl
    (fun baselines group =>
      multiTurnGroupStep weighted handleZeroTail epsilon rows baselines group.2)
    fun _ => List.replicate (maxResponseLength rows) 0
  let allAdvantages : Nat → List XRat := fun i =>
    (List.range (maxResponseLength rows)).map fun j =>
      fin (entry (allReturns rows) i j) - (baselines i).getD j 0
  (rows.zipIdx.map fun p =>
    let advantages :=
      if responseLength p.1.tokens = 0 then List.replicate width 0
      else scatter (responseMask p.1.tokens)
        ((allAdvantages p.2).take (responseLength p.1.tokens))
    List.zipWith (fun advantage m => advantage * fin m) advantages (responseMask p.1.tokens),
    rows.map fun row => tokenReturns row.tokens)

end Verl.Otb
