import Mathlib.Algebra.Order.Field.Rat
import Verl.Lib.ExpLog

/-!
# Router-shift weights

`compute_router_shift_weight` compares the router scores of two policies at the
same experts.  The deviations of the logarithms are averaged over the experts of
a layer and over the layers, and the weight of a token falls with its deviation,
down to a floor.  Stopping the gradient does not change a value.
-/

namespace Verl

open Means (mean mean_eq_zero mean_nonneg)

variable {n w : Nat}

/-- A tensor of shape `(batch, seq_len)`. -/
abbrev Rows (n w : Nat) := Fin n → Fin w → ℚ

/-- Router scores of shape `(batch, seq_len, num_layers, top_k)`.  A mean over no
layers or no experts is not a number. -/
structure RouterScores (n w : Nat) where
  numLayers : Nat
  topK : Nat
  numLayers_pos : 0 < numLayers
  topK_pos : 0 < topK
  score : Fin n → Fin w → Nat → Nat → ℚ

namespace RouterShift

/-- `_EPS`. -/
def eps : ℚ := 1 / 10 ^ 8

/-- `compute_layer_router_deviation` at one token and layer. -/
def computeLayerRouterDeviation (E : ExpLog ℚ) (topK : Nat) (oldScores currentScores : Nat → ℚ) :
    ℚ :=
  mean topK fun k => |E.log (max (currentScores k) eps) - E.log (max (oldScores k) eps)|

/-- `compute_router_shift_ratio` at one token. -/
def computeRouterShiftRatio (E : ExpLog ℚ) (numLayers : Nat) (layerDeviations : Nat → ℚ) : ℚ :=
  E.exp (-mean numLayers layerDeviations)

/-- `process_router_shift_weight`. -/
def processRouterShiftWeight (gamma gammaMin : ℚ) : ℚ := max gamma gammaMin

/-- `compute_router_shift_weight`, the weights and the deviations. -/
def computeRouterShiftWeight (E : ExpLog ℚ) (oldRouterScores currentRouterScores : RouterScores n w)
    (gammaMin : ℚ) : Rows n w × Rows n w :=
  let layerDev i j l := computeLayerRouterDeviation E oldRouterScores.topK
    (oldRouterScores.score i j l) (currentRouterScores.score i j l)
  (fun i j => processRouterShiftWeight
      (computeRouterShiftRatio E oldRouterScores.numLayers (layerDev i j)) gammaMin,
    fun i j => mean oldRouterScores.numLayers (layerDev i j))

/-- `apply_router_shift_to_log_ratio`. -/
def applyRouterShiftToLogRatio (E : ExpLog ℚ) (logImportanceRatio routerShiftWeight : Rows n w) :
    Rows n w :=
  fun i j => logImportanceRatio i j + E.log (max (routerShiftWeight i j) eps)

/-! ## The range of the weights -/

variable {E : ExpLog ℚ} {old current : RouterScores n w} {gammaMin : ℚ}

theorem eps_pos : 0 < eps := one_div_pos.mpr (pow_pos (by decide) 8)

theorem eps_le_one : eps ≤ 1 :=
  div_le_one_of_le₀ (one_le_pow₀ (by decide)) (pow_nonneg (by decide) 8)

theorem computeLayerRouterDeviation_nonneg (topK : Nat) (oldScores currentScores : Nat → ℚ) :
    0 ≤ computeLayerRouterDeviation E topK oldScores currentScores :=
  mean_nonneg fun _ _ => abs_nonneg _

theorem le_weight (i : Fin n) (j : Fin w) :
    gammaMin ≤ (computeRouterShiftWeight E old current gammaMin).1 i j := le_max_right _ _

theorem weight_pos (i : Fin n) (j : Fin w) :
    0 < (computeRouterShiftWeight E old current gammaMin).1 i j :=
  lt_of_lt_of_le (E.exp_pos _) (le_max_left _ _)

theorem weight_le_one (h : gammaMin ≤ 1) (i : Fin n) (j : Fin w) :
    (computeRouterShiftWeight E old current gammaMin).1 i j ≤ 1 :=
  max_le (E.exp_neg_le_one (mean_nonneg fun _ _ => computeLayerRouterDeviation_nonneg _ _ _)) h

/-- Equal scores have weight 1. -/
theorem weight_eq_one (h : gammaMin ≤ 1) {i : Fin n} {j : Fin w}
    (hscores : ∀ l < old.numLayers, ∀ k < old.topK, old.score i j l k = current.score i j l k) :
    (computeRouterShiftWeight E old current gammaMin).1 i j = 1 := by
  have hzero : mean old.numLayers (fun l => computeLayerRouterDeviation E old.topK
      (old.score i j l) (current.score i j l)) = 0 := by
    refine mean_eq_zero fun l hl => mean_eq_zero fun k hk => ?_
    rw [hscores l hl k hk, sub_self, abs_zero]
  have hweight : (computeRouterShiftWeight E old current gammaMin).1 i j =
      max (E.exp (-mean old.numLayers (fun l => computeLayerRouterDeviation E old.topK
        (old.score i j l) (current.score i j l)))) gammaMin := rfl
  rw [hweight, hzero, neg_zero, E.exp_zero, max_eq_left h]

end RouterShift

end Verl
