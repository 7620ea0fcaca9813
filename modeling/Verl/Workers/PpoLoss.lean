import Verl.Ppo.PolicyLoss
import Verl.Workers.Padding

/-!
# The loss of the actor

`ppo_loss` cuts the responses out of the packed outputs of the model, calls the
policy loss of the configured mode, and adds the entropy and the KL terms.  The
fields of the data are the padded ones, and the metrics are left out.
-/

namespace Verl

variable {n w : Nat}

/-! ## Data and model output -/

/-- The output of the model.  Its log-probabilities and entropies are nested
tensors, one row for each sample. -/
structure ModelOutput (n w : Nat) where
  logProbs : List (List ℚ)
  entropy : Option (List (List ℚ))
  currentRouterScores : Option (RouterScores n w)

/-- The fields of a micro-batch that `ppo_loss` selects. -/
structure PpoData (n w : Nat) where
  layout : ResponseLayout
  dpSize : Nat
  batchNumTokens : Option Int
  globalBatchSize : Option Int
  responseMask : Fin n → Fin w → Bool
  oldLogProbs : Rows n w
  advantages : Rows n w
  rolloutIsWeights : Option (Rows n w)
  refLogProb : Option (Rows n w)
  oldRouterScores : Option (RouterScores n w)

/-- The rows of a tensor of shape `(n, w)`. -/
def tensorOf (rows : List (List ℚ)) : Rows n w := fun i j => (rows.getD i []).getD j 0

/-! ## The KL estimate -/

/-- `kl_penalty_forward`. -/
def klPenaltyForward (E : ExpLog ℚ) (logprob refLogprob : Rows n w) (estimator : KlEstimator) :
    Except Py.Error (Rows n w) :=
  match estimator with
  | .k1 => .ok fun i j => logprob i j - refLogprob i j
  | .abs => .ok fun i j => |logprob i j - refLogprob i j|
  | .k2 => .ok fun i j => 1 / 2 * (logprob i j - refLogprob i j) ^ 2
  | .k3 => .ok fun i j =>
      let kl := clamp (refLogprob i j - logprob i j) (-20) 20
      clamp (E.exp kl - kl - 1) (-10) 10
  | .full => .error .notImplemented

/-- `kl_penalty`. -/
def klPenalty (E : ExpLog ℚ) (logprob refLogprob : Rows n w) (klLossType : KlLossType) :
    Except Py.Error (Rows n w) := do
  let forwardScore ← klPenaltyForward E logprob refLogprob klLossType.estimator
  if ¬ klLossType.plus then return forwardScore
  let backwardScore i j := 1 / 2 * (logprob i j - refLogprob i j) ^ 2
  return fun i j => backwardScore i j - backwardScore i j + forwardScore i j

/-! ## The loss -/

/-- `router_shift_enabled`: the configuration is there and enabled. -/
def ActorConfig.routerShiftEnabled (config : ActorConfig) : Bool :=
  match config.routerShift with
  | some rsCfg => rsCfg.enabled
  | none => false

/-- The router-shift weights, if they are enabled. -/
def routerShiftWeight (E : ExpLog ℚ) (config : ActorConfig)
    (oldRouterScores currentRouterScores : Option (RouterScores n w)) :
    Except Py.Error (Option (Rows n w)) :=
  match config.routerShift with
  | none => .ok none
  | some rsCfg =>
      if rsCfg.enabled then
        match oldRouterScores, currentRouterScores with
        | some oldScores, some currentScores =>
            if oldScores.numLayers = currentScores.numLayers ∧
                oldScores.topK = currentScores.topK then
              .ok (some (RouterShift.computeRouterShiftWeight E oldScores currentScores
                rsCfg.gammaMin).1)
            else
              .error (.runtime ("RSPO old/current router trace shape mismatch: " ++
                s!"old={(n, w, oldScores.numLayers, oldScores.topK)}, " ++
                s!"current={(n, w, currentScores.numLayers, currentScores.topK)}"))
        | oldScores, currentScores =>
            let missing := (if oldScores.isNone then ["old_router_scores"] else []) ++
              (if currentScores.isNone then ["current_router_scores"] else [])
            .error (.runtime ("RSPO router_shift is enabled but required router traces are missing: "
              ++ ", ".intercalate missing))
      else .ok none

/-- The entropy term, `entropy_coeff * entropy_loss`, or 0 without an entropy. -/
def entropyTerm (config : ActorConfig) (entropy : Option (Rows n w))
    (responseMask : Fin n → Fin w → Bool) : Except Py.Error ℚ :=
  match entropy with
  | none => .ok 0
  | some entropy => do
      let entropyLoss ← aggLossMat entropy responseMask config.lossAggMode config.globalBatchInfo
      return config.entropyCoeff * entropyLoss

/-- The KL term, `kl_loss * kl_loss_coef`, or 0 if it is not used. -/
def klTerm (E : ExpLog ℚ) (config : ActorConfig) (logProb : Rows n w)
    (refLogProb : Option (Rows n w)) (responseMask : Fin n → Fin w → Bool) : Except Py.Error ℚ :=
  if config.useKlLoss then
    match refLogProb with
    | none => .error .key
    | some refLogProb => do
        let kld ← klPenalty E logProb refLogProb config.klLossType
        let klLoss ← aggLossMat kld responseMask config.lossAggMode config.globalBatchInfo
        return klLoss * config.klLossCoef
  else .ok 0

/-- The configuration with the counts of the global batch. -/
def ActorConfig.withBatchInfo (config : ActorConfig) (data : PpoData n w) : ActorConfig :=
  { config with
    globalBatchInfo :=
      ⟨data.dpSize, data.batchNumTokens, data.globalBatchSize, config.lossScaleFactor⟩ }

/-- What the policy loss is called with. -/
def PpoData.policyLossInput (data : PpoData n w) (config : ActorConfig) (logProb : Rows n w) :
    PolicyLossInput n w where
  oldLogProb := data.oldLogProbs
  logProb := logProb
  advantages := data.advantages
  responseMask := data.responseMask
  lossAggMode := config.lossAggMode
  rolloutIsWeights := data.rolloutIsWeights

/-- `ppo_loss`. -/
def ppoLoss (E : ExpLog ℚ) (others : OtherPolicyLosses n w) (config : ActorConfig)
    (modelOutput : ModelOutput n w) (data : PpoData n w) : Except Py.Error ℚ := do
  let logProb ← data.layout.noPadding2Padding modelOutput.logProbs.flatten
  let entropy ← modelOutput.entropy.mapM fun entropy =>
    data.layout.noPadding2Padding entropy.flatten
  let config := config.withBatchInfo data
  let weight ← routerShiftWeight E config data.oldRouterScores modelOutput.currentRouterScores
  let policyLossFn ← getPolicyLossFn (policyLossRegistry E others) config.lossMode
  let pgLoss ← policyLossFn.call config (data.policyLossInput config (tensorOf logProb)) weight
  let entropyLoss ← entropyTerm config (entropy.map tensorOf) data.responseMask
  let klLoss ← klTerm E config (tensorOf logProb) data.refLogProb data.responseMask
  return pgLoss - entropyLoss + klLoss

end Verl
