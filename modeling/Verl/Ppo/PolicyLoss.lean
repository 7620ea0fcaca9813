import Mathlib.Data.Sign.Basic
import Verl.Lib.Python
import Verl.Ppo.AggLoss
import Verl.Ppo.RouterShift

/-!
# The policy losses

The functions in the registry of policy losses.  Each takes the old and the
current log-probabilities of the response tokens, the advantages and the mask,
and returns one number.  Only the loss of `gspo` has a parameter for the
router-shift weight.  `exp` and `log` are a parameter, arithmetic is exact, and
the metrics are left out.  So are the bodies of the losses that draw random
tokens, take the largest covariances or correct the rollout.
-/

namespace Verl

variable {n w : Nat}

/-! ## The configuration -/

/-- `RouterShiftConfig`, with its check.  The gradient and the diagnostics are
left out. -/
structure RouterShiftConfig where
  enabled : Bool
  gammaMin : ℚ
  gammaMin_pos : 0 < gammaMin
  gammaMin_le_one : gammaMin ≤ 1

/-- `global_batch_info`. -/
structure GlobalBatchInfo where
  dpSize : Nat
  batchNumTokens : Option Int
  globalBatchSize : Option Int
  lossScaleFactor : Option Int

/-- The estimators of the KL divergence. -/
inductive KlEstimator where
  | k1
  | abs
  | k2
  | k3
  | full
deriving DecidableEq

/-- `kl_loss_type`: an estimator, and whether its name ends in `+`. -/
structure KlLossType where
  estimator : KlEstimator
  plus : Bool
deriving DecidableEq

/-- What the losses read of `ActorConfig`. -/
structure ActorConfig where
  clipRatio : ℚ
  clipRatioLow : Option ℚ
  clipRatioHigh : Option ℚ
  clipRatioC : ℚ
  tauPos : ℚ
  tauNeg : ℚ
  lossMode : String
  lossAggMode : LossAggMode
  lossScaleFactor : Option Int
  entropyCoeff : ℚ
  useKlLoss : Bool
  klLossCoef : ℚ
  klLossType : KlLossType
  routerShift : Option RouterShiftConfig
  globalBatchInfo : GlobalBatchInfo

namespace ActorConfig

/-- `clip_ratio_low`, or else `clip_ratio`. -/
def low (config : ActorConfig) : ℚ := config.clipRatioLow.getD config.clipRatio

/-- `clip_ratio_high`, or else `clip_ratio`. -/
def high (config : ActorConfig) : ℚ := config.clipRatioHigh.getD config.clipRatio

end ActorConfig

/-! ## Tensors -/

/-- `torch.clamp(x, lo, hi)`. -/
def clamp (x lo hi : ℚ) : ℚ := min (max x lo) hi

/-- A boolean mask as numbers. -/
def maskValue (b : Bool) : ℚ := if b then 1 else 0

/-- A row of a loss matrix with a boolean mask. -/
def LossRow.ofMask (loss : Fin w → ℚ) (mask : Fin w → Bool) : LossRow w where
  loss := loss
  mask j := maskValue (mask j)
  mask_zero_or_one j := by cases mask j <;> simp [maskValue]

/-- `agg_loss` of tensors. -/
def aggLossMat (lossMat : Rows n w) (lossMask : Fin n → Fin w → Bool) (mode : LossAggMode)
    (info : GlobalBatchInfo) : Except Py.Error ℚ :=
  (aggLoss (List.ofFn fun i => LossRow.ofMask (lossMat i) (lossMask i)) mode info.dpSize
    info.batchNumTokens info.globalBatchSize info.lossScaleFactor).mapError Py.Error.value

/-- What a policy loss is called with. -/
structure PolicyLossInput (n w : Nat) where
  oldLogProb : Rows n w
  logProb : Rows n w
  advantages : Rows n w
  responseMask : Fin n → Fin w → Bool
  lossAggMode : LossAggMode
  rolloutIsWeights : Option (Rows n w)

namespace PolicyLossInput

/-- `log_prob - old_log_prob`. -/
def negativeApproxKl (input : PolicyLossInput n w) : Rows n w :=
  fun i j => input.logProb i j - input.oldLogProb i j

/-- The same, clamped for stability. -/
def clampedKl (input : PolicyLossInput n w) : Rows n w :=
  fun i j => clamp (input.negativeApproxKl i j) (-20) 20

/-- `pg_losses * rollout_is_weights`, if they are there. -/
def applyIsWeights (input : PolicyLossInput n w) (pgLosses : Rows n w) : Rows n w :=
  match input.rolloutIsWeights with
  | none => pgLosses
  | some weights => fun i j => pgLosses i j * weights i j

/-- `torch.sum(xs * response_mask, dim=-1)`. -/
def maskedSum (input : PolicyLossInput n w) (xs : Rows n w) (i : Fin n) : ℚ :=
  ∑ j, xs i j * maskValue (input.responseMask i j)

/-- `torch.sum(response_mask, dim=-1)`. -/
def numTokens (input : PolicyLossInput n w) (i : Fin n) : ℚ :=
  ∑ j, maskValue (input.responseMask i j)

end PolicyLossInput

/-! ## The losses -/

section Losses

variable (E : ExpLog ℚ) (config : ActorConfig) (input : PolicyLossInput n w)

/-- `compute_policy_loss_vanilla`. -/
def computePolicyLossVanilla : Except Py.Error ℚ := do
  Py.check (1 < config.clipRatioC)
    ("The lower bound of the clip_ratio_c for dual-clip PPO should be greater than 1.0," ++
      s!" but get the value: {config.clipRatioC}.")
  let ratio i j := E.exp (input.clampedKl i j)
  let pgLosses1 i j := -input.advantages i j * ratio i j
  let pgLosses2 i j :=
    -input.advantages i j * clamp (ratio i j) (1 - config.low) (1 + config.high)
  let clipPgLosses1 i j := max (pgLosses1 i j) (pgLosses2 i j)
  let pgLosses3 i j := -input.advantages i j * config.clipRatioC
  let clipPgLosses2 i j := min (pgLosses3 i j) (clipPgLosses1 i j)
  let pgLosses i j := if input.advantages i j < 0 then clipPgLosses2 i j else clipPgLosses1 i j
  aggLossMat (input.applyIsWeights pgLosses) input.responseMask input.lossAggMode
    config.globalBatchInfo

/-- The loss of `dppo_tv` and `dppo_kl`, which keep the tokens of a mask. -/
def computePolicyLossDppo (validMask : Fin n → Fin w → Bool) : Except Py.Error ℚ :=
  let ratio i j := E.exp (input.clampedKl i j)
  let truncatedRatio i j := min (ratio i j) config.clipRatioC
  let pgLosses i j := -input.advantages i j * truncatedRatio i j * input.logProb i j *
    maskValue (validMask i j)
  aggLossMat (input.applyIsWeights pgLosses) input.responseMask input.lossAggMode
    config.globalBatchInfo

/-- `compute_policy_loss_dppo_tv`. -/
def computePolicyLossDppoTv : Except Py.Error ℚ :=
  computePolicyLossDppo E config input fun i j =>
    let prob := E.exp (input.logProb i j)
    let oldProb := E.exp (input.oldLogProb i j)
    if 0 < input.advantages i j then prob - oldProb ≤ config.high
    else -config.low ≤ prob - oldProb

/-- `compute_policy_loss_dppo_kl`. -/
def computePolicyLossDppoKl : Except Py.Error ℚ :=
  computePolicyLossDppo E config input fun i j =>
    let prob := E.exp (input.logProb i j)
    let oldProb := E.exp (input.oldLogProb i j)
    let binaryKl := oldProb * (input.oldLogProb i j - input.logProb i j) + (1 - oldProb) *
      E.log ((1 - oldProb + 1 / 10 ^ 8) / (1 - prob + 1 / 10 ^ 8))
    if 0 < input.advantages i j then binaryKl ≤ config.high ∨ prob ≤ oldProb
    else binaryKl ≤ config.low ∨ oldProb ≤ prob

/-- The sequence log-ratios of `gspo`: the mean over the tokens of the
log-ratios, shifted if there are router-shift weights. -/
def negativeApproxKlSeq (routerShiftWeight : Option (Rows n w)) (i : Fin n) : ℚ :=
  let negativeApproxKl :=
    match routerShiftWeight with
    | none => input.negativeApproxKl
    | some weight => RouterShift.applyRouterShiftToLogRatio E input.negativeApproxKl weight
  input.maskedSum negativeApproxKl i / max (input.numTokens i) 1

/-- `compute_policy_loss_gspo`. -/
def computePolicyLossGspo (routerShiftWeight : Option (Rows n w)) : Except Py.Error ℚ :=
  let logSeqImportanceRatio i j := min (input.logProb i j - input.logProb i j +
    negativeApproxKlSeq E input routerShiftWeight i) 10
  let seqImportanceRatio i j := E.exp (logSeqImportanceRatio i j)
  let pgLosses1 i j := -input.advantages i j * seqImportanceRatio i j
  let pgLosses2 i j :=
    -input.advantages i j * clamp (seqImportanceRatio i j) (1 - config.low) (1 + config.high)
  let pgLosses i j := max (pgLosses1 i j) (pgLosses2 i j)
  aggLossMat (input.applyIsWeights pgLosses) input.responseMask .seqMeanTokenMean
    config.globalBatchInfo

/-- `compute_policy_loss_sapo`. -/
def computePolicyLossSapo : Except Py.Error ℚ :=
  let sigmoid x := 1 / (1 + E.exp (-x))
  let gateFunction x tau := sigmoid (tau * (x - 1)) * (4 / tau)
  let ratio i j := E.exp (input.clampedKl i j)
  let taus i j := if 0 < input.advantages i j then config.tauPos else config.tauNeg
  let pgLosses i j := -gateFunction (ratio i j) (taus i j) * input.advantages i j
  aggLossMat (input.applyIsWeights pgLosses) input.responseMask .seqMeanTokenMean
    config.globalBatchInfo

/-- `compute_policy_loss_gpg`. -/
def computePolicyLossGpg : Except Py.Error ℚ :=
  let pgLosses i j := -input.logProb i j * input.advantages i j
  aggLossMat (input.applyIsWeights pgLosses) input.responseMask input.lossAggMode
    config.globalBatchInfo

/-- `compute_policy_loss_geo_mean`. -/
def computePolicyLossGeoMean : Except Py.Error ℚ :=
  let sgnAdvantage i j := (SignType.sign (input.advantages i j) : ℚ)
  let negativeApproxKlClamp i j := clamp (input.negativeApproxKl i j) (-config.low) config.high
  let negativeApproxKlMin i j := sgnAdvantage i j *
    min (sgnAdvantage i j * input.negativeApproxKl i j)
      (sgnAdvantage i j * negativeApproxKlClamp i j)
  let seqMean xs i := input.maskedSum xs i / (input.numTokens i + 1 / 10 ^ 8)
  let pgLosses i := -seqMean input.advantages i * E.exp (seqMean negativeApproxKlMin i)
  let weighted i :=
    match input.rolloutIsWeights with
    | none => pgLosses i
    | some weights =>
        pgLosses i * E.exp (seqMean (fun i j => E.log (weights i j + 1 / 10 ^ 10)) i)
  .ok ((∑ i, weighted i) / n)

/-- `compute_policy_loss_cispo`. -/
def computePolicyLossCispo : Except Py.Error ℚ :=
  let ratio i j := E.exp (input.clampedKl i j)
  let clippedRatio i j := clamp (ratio i j) (1 - config.low) (1 + config.high)
  let pgLosses i j := -clippedRatio i j * input.advantages i j * input.logProb i j
  aggLossMat (input.applyIsWeights pgLosses) input.responseMask input.lossAggMode
    config.globalBatchInfo

end Losses

/-! ## The registry -/

/-- The bodies of the losses that are not written out. -/
structure OtherPolicyLosses (n w : Nat) where
  clipCov : ActorConfig → PolicyLossInput n w → Except Py.Error ℚ
  klCov : ActorConfig → PolicyLossInput n w → Except Py.Error ℚ
  bypassMode : ActorConfig → PolicyLossInput n w → Except Py.Error ℚ

/-- A function of the registry, with or without a parameter
`router_shift_weight`. -/
inductive PolicyLossFn (n w : Nat) where
  | plain (name : String) (compute : ActorConfig → PolicyLossInput n w → Except Py.Error ℚ)
  | routerShift (name : String)
      (compute : ActorConfig → PolicyLossInput n w → Option (Rows n w) → Except Py.Error ℚ)

namespace PolicyLossFn

/-- The call with the keyword argument `router_shift_weight`. -/
def call (fn : PolicyLossFn n w) (config : ActorConfig) (input : PolicyLossInput n w)
    (routerShiftWeight : Option (Rows n w)) : Except Py.Error ℚ :=
  match fn with
  | plain name _ =>
      .error (.type (name ++ "() got an unexpected keyword argument 'router_shift_weight'"))
  | routerShift _ compute => compute config input routerShiftWeight

/-- The loss that the function computes. -/
def loss (fn : PolicyLossFn n w) (config : ActorConfig) (input : PolicyLossInput n w)
    (routerShiftWeight : Option (Rows n w)) : Except Py.Error ℚ :=
  match fn with
  | plain _ compute => compute config input
  | routerShift _ compute => compute config input routerShiftWeight

end PolicyLossFn

/-- `POLICY_LOSS_REGISTRY`. -/
def policyLossRegistry (E : ExpLog ℚ) (others : OtherPolicyLosses n w) :
    List (String × PolicyLossFn n w) :=
  [("vanilla", .plain "compute_policy_loss_vanilla" (computePolicyLossVanilla E)),
    ("dppo_tv", .plain "compute_policy_loss_dppo_tv" (computePolicyLossDppoTv E)),
    ("dppo_kl", .plain "compute_policy_loss_dppo_kl" (computePolicyLossDppoKl E)),
    ("gspo", .routerShift "compute_policy_loss_gspo" (computePolicyLossGspo E)),
    ("sapo", .plain "compute_policy_loss_sapo" (computePolicyLossSapo E)),
    ("gpg", .plain "compute_policy_loss_gpg" computePolicyLossGpg),
    ("clip_cov", .plain "compute_policy_loss_clip_cov" others.clipCov),
    ("kl_cov", .plain "compute_policy_loss_kl_cov" others.klCov),
    ("geo_mean", .plain "compute_policy_loss_geo_mean" (computePolicyLossGeoMean E)),
    ("cispo", .plain "compute_policy_loss_cispo" (computePolicyLossCispo E)),
    ("bypass_mode", .plain "compute_policy_loss_bypass_mode" others.bypassMode)]

/-- `get_policy_loss_fn`. -/
def getPolicyLossFn (registry : List (String × PolicyLossFn n w)) (name : String) :
    Except Py.Error (PolicyLossFn n w) :=
  match registry.lookup name with
  | some fn => .ok fn
  | none => .error (.value
      s!"Unsupported loss mode: {name}. Supported modes are: {registry.map Prod.fst}")

/-- Only `gspo` has the parameter. -/
theorem policyLossRegistry_cases {E : ExpLog ℚ} {others : OtherPolicyLosses n w} {name : String}
    {fn : PolicyLossFn n w} (h : getPolicyLossFn (policyLossRegistry E others) name = .ok fn) :
    (name = "gspo" ∧ fn = .routerShift "compute_policy_loss_gspo" (computePolicyLossGspo E)) ∨
      name ≠ "gspo" ∧ ∃ fnName compute, fn = .plain fnName compute := by
  rw [getPolicyLossFn] at h
  split at h
  next hfound =>
    rw [Except.ok.injEq] at h
    subst h
    obtain ⟨l₁, l₂, hsplit, _⟩ := List.lookup_eq_some_iff.mp hfound
    have hmem : (name, _) ∈ policyLossRegistry E others := hsplit ▸ List.mem_append_cons_self
    simp only [policyLossRegistry, List.mem_cons, Prod.mk.injEq, List.not_mem_nil, or_false] at hmem
    rcases hmem with h | h | h | h | h | h | h | h | h | h | h
    case inr.inr.inr.inl => exact .inl h
    all_goals exact .inr ⟨by rw [h.1]; decide, _, _, h.2⟩
  · cases h

end Verl
