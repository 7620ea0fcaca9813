import Mathlib.Data.List.GetD
import Verl.Workers.PpoLoss

/-!
# Router shift and the loss of the actor

Every policy loss is called with the router-shift weight as a keyword argument,
which only `gspo` has.  For `gspo` the weights move each sequence log-ratio down
by the mean of their logarithms, and do nothing where the router scores agree.
-/

namespace Verl

open Finset RouterShift

variable {n w : Nat} {E : ExpLog ℚ} {others : OtherPolicyLosses n w} {config : ActorConfig}
  {modelOutput : ModelOutput n w} {data : PpoData n w}

/-! ## The response slices -/

/-- The outputs of a packed row that are about the response, then zeros. -/
def responseSlices (layout : ResponseLayout) (rows : List (List ℚ)) : Rows n w := fun i j =>
  if (j : Nat) < layout.responseLens.getD i 0 then
    (rows.getD i []).getD (layout.promptLens.getD i 0 + j - 1) 0
  else 0

/-- Each row of a packed tensor has the tokens of its prompt and its response. -/
def FitsLayout (layout : ResponseLayout) (rows : List (List ℚ)) : Prop :=
  rows.map List.length = List.zipWith (· + ·) layout.promptLens layout.responseLens

/-- A micro-batch with at least one sample, of `n` samples and width `w`. -/
structure ResponseLayout.Ok (layout : ResponseLayout) (n w : Nat) : Prop where
  nonempty : 0 < n
  width : layout.maxResponseLen = w
  promptLens : layout.promptLens.length = n
  responseLens : layout.responseLens.length = n
  prompt_pos : 0 ∉ layout.promptLens

theorem ResponseLayout.Ok.noPadding2Padding {layout : ResponseLayout} (h : layout.Ok n w)
    {rows : List (List ℚ)} (hfits : FitsLayout layout rows) :
    ∃ out, layout.noPadding2Padding rows.flatten = .ok out ∧
      (tensorOf out : Rows n w) = responseSlices layout rows := by
  have hlength : rows.length = n := by
    have := congrArg List.length hfits
    rw [List.length_map, List.length_zipWith, h.promptLens, h.responseLens, Nat.min_self] at this
    exact this
  have hrow (i : Nat) (hi : i ∈ List.range n) : (rows.getD i []).length =
      layout.promptLens.getD i 0 + layout.responseLens.getD i 0 := by
    have hi := List.mem_range.mp hi
    have hget := congrArg (fun xs : List Nat => xs[i]?) hfits
    have hp : i < layout.promptLens.length := h.promptLens ▸ hi
    have hr : i < layout.responseLens.length := h.responseLens ▸ hi
    have hx : i < rows.length := hlength ▸ hi
    simp only [List.getElem?_map, List.getElem?_zipWith, List.getElem?_eq_getElem hp,
      List.getElem?_eq_getElem hr, List.getElem?_eq_getElem hx, Option.map_some,
      Option.some.injEq] at hget
    rw [List.getD_eq_getElem _ _ hx, List.getD_eq_getElem _ _ hp, List.getD_eq_getElem _ _ hr]
    exact hget
  have hpos (i : Nat) (hi : i ∈ List.range n) : layout.promptLens.getD i 0 ≠ 0 := by
    have hp : i < layout.promptLens.length := h.promptLens ▸ List.mem_range.mp hi
    rw [List.getD_eq_getElem _ _ hp]
    exact fun hzero => h.prompt_pos (hzero ▸ List.getElem_mem hp)
  have hne : List.range n ≠ [] := by
    rw [Ne, List.range_eq_nil]
    exact h.nonempty.ne'
  have hall {α : Type} {xs : List α} (hxs : xs.length = n) (d : α) :
      ((List.range n).map fun i => xs.getD i d) = xs := hxs ▸ Py.map_getD_range xs d
  have hslices := sliceResponses_map hne hrow hpos w
  rw [hall h.promptLens, hall h.responseLens, hall hlength] at hslices
  refine ⟨_, (layout.noPadding2Padding_eq _).trans (h.width ▸ hslices), ?_⟩
  funext i j
  have hi : (i : Nat) ∈ List.range n := List.mem_range.mpr i.isLt
  have helem := getElem?_padTo j.isLt (responseOf (layout.promptLens.getD i 0)
    (layout.responseLens.getD i 0) (rows.getD i []))
  have hout (f : Nat → List ℚ) : ((List.range n).map f).getD i [] = f i := by
    rw [List.getD_eq_getElem?_getD, List.getElem?_map, List.getElem?_range i.isLt, Option.map_some,
      Option.getD_some]
  rw [responseSlices, ← getD_responseOf (Nat.one_le_iff_ne_zero.mpr (hpos i hi)) (hrow i hi),
    tensorOf, hout, h.width, List.getD_eq_getElem?_getD, helem, Option.getD_some]

/-! ## Micro-batches -/

/-- A micro-batch as the engine passes it, with what the configuration needs. -/
structure PpoOk (config : ActorConfig) (modelOutput : ModelOutput n w) (data : PpoData n w) :
    Prop where
  layout : data.layout.Ok n w
  logProbs : FitsLayout data.layout modelOutput.logProbs
  entropy : ∀ entropy, modelOutput.entropy = some entropy → FitsLayout data.layout entropy
  counts : 1 < data.dpSize → data.batchNumTokens ≠ none ∧ data.globalBatchSize ≠ none
  kl : config.useKlLoss = true → data.refLogProb ≠ none ∧ config.klLossType.estimator ≠ .full
  traces : config.routerShiftEnabled = true → ∃ old current, data.oldRouterScores = some old ∧
    modelOutput.currentRouterScores = some current ∧ old.numLayers = current.numLayers ∧
      old.topK = current.topK

theorem aggLossMat_ok (h : PpoOk config modelOutput data) (lossMat : Rows n w)
    (mode : LossAggMode) :
    ∃ loss, aggLossMat lossMat data.responseMask mode
      (config.withBatchInfo data).globalBatchInfo = .ok loss := by
  have hcount (given : Option Int) (hgiven : 1 < data.dpSize → given ≠ none) (localCount : ℚ)
      (message : String) : ∃ c, globalCount given data.dpSize localCount message = .ok c := by
    cases given with
    | some c => exact ⟨c, rfl⟩
    | none =>
        refine ⟨localCount, if_neg fun hsize => ?_⟩
        exact hgiven hsize rfl
  have hinfo : (config.withBatchInfo data).globalBatchInfo =
      ⟨data.dpSize, data.batchNumTokens, data.globalBatchSize, config.lossScaleFactor⟩ := rfl
  obtain ⟨tokens, htokens⟩ := hcount data.batchNumTokens (fun hs => (h.counts hs).1)
    ((List.ofFn fun i => LossRow.ofMask (lossMat i) (data.responseMask i)).map LossRow.maskSum).sum
    "(global) batch_num_tokens is required when dp_size > 1"
  obtain ⟨rows, hrows⟩ := hcount data.globalBatchSize (fun hs => (h.counts hs).2)
    ((List.ofFn fun i => LossRow.ofMask (lossMat i) (data.responseMask i)).map LossRow.seqMask).sum
    "global_batch_size is required when dp_size > 1"
  rw [aggLossMat, hinfo]
  cases mode with
  | tokenMean => exact ⟨_, by rw [aggLoss, htokens]; rfl⟩
  | seqMeanTokenSum => exact ⟨_, by rw [aggLoss, hrows]; rfl⟩
  | seqMeanTokenSumNorm => exact ⟨_, by rw [aggLoss, hrows]; rfl⟩
  | seqMeanTokenMean => exact ⟨_, by rw [aggLoss, hrows]; rfl⟩

theorem klPenalty_ok (logProb refLogProb : Rows n w) {klLossType : KlLossType}
    (h : klLossType.estimator ≠ .full) :
    ∃ kld, klPenalty E logProb refLogProb klLossType = .ok kld := by
  have hforward : ∃ score, klPenaltyForward E logProb refLogProb klLossType.estimator =
      .ok score := by
    cases hest : klLossType.estimator with
    | full => exact (h hest).elim
    | k1 => exact ⟨_, rfl⟩
    | abs => exact ⟨_, rfl⟩
    | k2 => exact ⟨_, rfl⟩
    | k3 => exact ⟨_, rfl⟩
  obtain ⟨score, hscore⟩ := hforward
  rw [klPenalty, hscore, Py.ok_bind]
  split <;> exact ⟨_, rfl⟩

theorem entropyTerm_ok (h : PpoOk config modelOutput data) (entropy : Option (Rows n w)) :
    ∃ loss, entropyTerm (config.withBatchInfo data) entropy data.responseMask = .ok loss := by
  cases entropy with
  | none => exact ⟨0, rfl⟩
  | some entropy =>
      obtain ⟨loss, hloss⟩ := aggLossMat_ok h entropy (config.withBatchInfo data).lossAggMode
      rw [entropyTerm, hloss]
      exact ⟨_, rfl⟩

theorem klTerm_ok (h : PpoOk config modelOutput data) (logProb : Rows n w) :
    ∃ loss, klTerm E (config.withBatchInfo data) logProb data.refLogProb data.responseMask =
      .ok loss := by
  unfold klTerm
  split
  next huse =>
    obtain ⟨href, hfull⟩ := h.kl huse
    obtain ⟨ref, href⟩ := Option.ne_none_iff_exists'.mp href
    obtain ⟨kld, hkld⟩ :=
      @klPenalty_ok _ _ E logProb ref (config.withBatchInfo data).klLossType hfull
    obtain ⟨loss, hloss⟩ := aggLossMat_ok h kld (config.withBatchInfo data).lossAggMode
    rw [href]
    dsimp only
    rw [hkld, Py.ok_bind, hloss]
    exact ⟨_, rfl⟩
  · exact ⟨0, rfl⟩

/-! ## The loss on the response slices -/

/-- The policy loss of the mode on the response slices, minus the entropy term,
plus the KL term. -/
def lossOnSlices (E : ExpLog ℚ) (others : OtherPolicyLosses n w) (config : ActorConfig)
    (modelOutput : ModelOutput n w) (data : PpoData n w) (weight : Option (Rows n w)) :
    Except Py.Error ℚ := do
  let config := config.withBatchInfo data
  let logProb := responseSlices data.layout modelOutput.logProbs
  let policyLossFn ← getPolicyLossFn (policyLossRegistry E others) config.lossMode
  let pgLoss ← policyLossFn.loss config (data.policyLossInput config logProb) weight
  let entropyLoss ← entropyTerm config (modelOutput.entropy.map (responseSlices data.layout))
    data.responseMask
  let klLoss ← klTerm E config logProb data.refLogProb data.responseMask
  return pgLoss - entropyLoss + klLoss

/-- `ppo_loss` up to the call of the policy loss. -/
theorem ppoLoss_eq (h : PpoOk config modelOutput data) :
    ppoLoss E others config modelOutput data = (do
      let logProb := responseSlices data.layout modelOutput.logProbs
      let weight ← routerShiftWeight E config data.oldRouterScores modelOutput.currentRouterScores
      let policyLossFn ← getPolicyLossFn (policyLossRegistry E others) config.lossMode
      let pgLoss ← policyLossFn.call (config.withBatchInfo data)
        (data.policyLossInput (config.withBatchInfo data) logProb) weight
      let entropyLoss ← entropyTerm (config.withBatchInfo data)
        (modelOutput.entropy.map (responseSlices data.layout)) data.responseMask
      let klLoss ← klTerm E (config.withBatchInfo data) logProb data.refLogProb data.responseMask
      return pgLoss - entropyLoss + klLoss) := by
  obtain ⟨logProb, hlogProb, htensor⟩ := h.layout.noPadding2Padding h.logProbs
  rw [ppoLoss, hlogProb, Py.ok_bind, htensor]
  cases hentropy : modelOutput.entropy with
  | none => rfl
  | some entropy =>
      obtain ⟨out, hout, htensor⟩ := h.layout.noPadding2Padding (h.entropy entropy hentropy)
      rw [Option.mapM_some, hout, Option.map_some, ← htensor]
      rfl

theorem routerShiftWeight_disabled (h : config.routerShiftEnabled = false)
    (old current : Option (RouterScores n w)) :
    routerShiftWeight E config old current = .ok none := by
  rw [ActorConfig.routerShiftEnabled] at h
  rw [routerShiftWeight]
  split at h
  next rsCfg hcfg =>
    rw [hcfg]
    dsimp only
    rw [if_neg (by rw [h]; exact Bool.false_ne_true)]
  next hcfg => rw [hcfg]

/-! ## The sequence log-ratios -/

section Sequences

variable (input : PolicyLossInput n w)

/-- The mean over the unmasked tokens of a row. -/
def tokenMean (xs : Rows n w) (i : Fin n) : ℚ :=
  (∑ j with input.responseMask i j = true, xs i j) / #{j | input.responseMask i j = true}

theorem maskedSum_eq_sum (xs : Rows n w) (i : Fin n) :
    input.maskedSum xs i = ∑ j with input.responseMask i j = true, xs i j := by
  rw [PolicyLossInput.maskedSum, sum_filter]
  refine sum_congr rfl fun j _ => ?_
  cases input.responseMask i j <;> simp [maskValue]

theorem numTokens_eq_card (i : Fin n) :
    input.numTokens i = #{j | input.responseMask i j = true} := by
  rw [PolicyLossInput.numTokens, card_filter, Nat.cast_sum]
  refine sum_congr rfl fun j _ => ?_
  cases input.responseMask i j <;> simp [maskValue]

/-- Without an unmasked token both the sum and the mean are 0. -/
theorem maskedSum_div_eq_tokenMean (xs : Rows n w) (i : Fin n) :
    input.maskedSum xs i / max (input.numTokens i) 1 = tokenMean input xs i := by
  rw [tokenMean, maskedSum_eq_sum, numTokens_eq_card]
  rcases Nat.eq_zero_or_pos #{j | input.responseMask i j = true} with hzero | hpos
  · rw [card_eq_zero.mp hzero, sum_empty, zero_div, zero_div]
  · rw [max_eq_left]
    exact_mod_cast hpos

theorem tokenMean_add (xs ys : Rows n w) (i : Fin n) :
    tokenMean input (fun i j => xs i j + ys i j) i =
    tokenMean input xs i + tokenMean input ys i := by
  rw [tokenMean, tokenMean, tokenMean, sum_add_distrib, add_div]

theorem tokenMean_nonpos {xs : Rows n w} {i : Fin n}
    (h : ∀ j, input.responseMask i j = true → xs i j ≤ 0) : tokenMean input xs i ≤ 0 :=
  div_nonpos_of_nonpos_of_nonneg (sum_nonpos fun j hj => h j (mem_filter.mp hj).2)
    (Nat.cast_nonneg _)

theorem tokenMean_congr {xs ys : Rows n w} {i : Fin n}
    (h : ∀ j, input.responseMask i j = true → xs i j = ys i j) :
    tokenMean input xs i = tokenMean input ys i := by
  rw [tokenMean, tokenMean, sum_congr rfl fun j hj => h j (mem_filter.mp hj).2]

/-- Means of values in order are equal only if the values are. -/
theorem eq_of_tokenMean_eq {xs ys : Rows n w} {i : Fin n}
    (hle : ∀ j, input.responseMask i j = true → xs i j ≤ ys i j)
    (h : tokenMean input xs i = tokenMean input ys i) :
    ∀ j, input.responseMask i j = true → xs i j = ys i j := by
  intro j hj
  have hmem : j ∈ ({j | input.responseMask i j = true} : Finset (Fin w)) :=
    mem_filter.mpr ⟨mem_univ j, hj⟩
  have hcard : (#{j | input.responseMask i j = true} : ℚ) ≠ 0 :=
    Nat.cast_ne_zero.mpr (card_ne_zero_of_mem hmem)
  have hsum := (div_left_inj' hcard).mp h
  exact (sum_eq_sum_iff_of_le fun j hj => hle j (mem_filter.mp hj).2).mp hsum j hmem

/-- The shift of a sequence log-ratio. -/
theorem negativeApproxKlSeq_shift (weight : Rows n w) (i : Fin n) :
    negativeApproxKlSeq E input (some weight) i = negativeApproxKlSeq E input none i +
      tokenMean input (fun i j => E.log (max (weight i j) eps)) i := by
  rw [negativeApproxKlSeq, negativeApproxKlSeq, maskedSum_div_eq_tokenMean,
    maskedSum_div_eq_tokenMean, ← tokenMean_add]
  rfl

theorem negativeApproxKlSeq_le {weight : Rows n w} (hpos : ∀ i j, 0 < weight i j)
    (hle : ∀ i j, weight i j ≤ 1) (i : Fin n) :
    negativeApproxKlSeq E input (some weight) i ≤ negativeApproxKlSeq E input none i := by
  rw [negativeApproxKlSeq_shift]
  refine add_le_of_nonpos_right (tokenMean_nonpos input fun j _ => ?_)
  exact E.log_nonpos (lt_of_lt_of_le (hpos i j) (le_max_left _ _)) (max_le (hle i j) eps_le_one)

/-- The shift is by the mean of the logarithms exactly if no weight of an
unmasked token is below the clamp. -/
theorem negativeApproxKlSeq_iff {weight : Rows n w} (hpos : ∀ i j, 0 < weight i j) :
    (∀ i, negativeApproxKlSeq E input (some weight) i = negativeApproxKlSeq E input none i +
        tokenMean input (fun i j => E.log (weight i j)) i) ↔
      ∀ i j, input.responseMask i j = true → eps ≤ weight i j := by
  constructor
  · intro h i j hj
    have hmean := h i
    rw [negativeApproxKlSeq_shift, add_right_inj] at hmean
    have hlog := @eq_of_tokenMean_eq n w input (fun i j => E.log (weight i j))
      (fun i j => E.log (max (weight i j) eps)) i (fun j _ => E.log_max_of_le (hpos i j))
      hmean.symm j hj
    by_contra hlt
    exact (E.log_lt_log_max (hpos i j) (not_le.mp hlt)).ne hlog
  · intro h i
    rw [negativeApproxKlSeq_shift, add_right_inj]
    refine tokenMean_congr input fun j hj => ?_
    rw [max_eq_left (h i j hj)]

/-- Weights of 1 do not shift. -/
theorem negativeApproxKlSeq_one {weight : Rows n w}
    (h : ∀ i j, input.responseMask i j = true → weight i j = 1) :
    negativeApproxKlSeq E input (some weight) = negativeApproxKlSeq E input none := by
  funext i
  have hzero : tokenMean input (fun i j => E.log (max (weight i j) eps)) i =
      tokenMean input (fun _ _ => 0) i := by
    refine tokenMean_congr input fun j hj => ?_
    rw [h i j hj, max_eq_left eps_le_one, E.log_one]
  rw [negativeApproxKlSeq_shift, hzero, tokenMean, sum_const_zero, zero_div, add_zero]

end Sequences

/-! ## The loss of `gspo` -/

theorem getPolicyLossFn_gspo (E : ExpLog ℚ) (others : OtherPolicyLosses n w) :
    getPolicyLossFn (policyLossRegistry E others) "gspo" =
      .ok (.routerShift "compute_policy_loss_gspo" (computePolicyLossGspo E)) := rfl

/-- With the mode `gspo` the call of the policy loss succeeds. -/
theorem ppoLoss_gspo (h : PpoOk config modelOutput data) (hmode : config.lossMode = "gspo")
    {weight : Option (Rows n w)} (hweight : routerShiftWeight E config data.oldRouterScores
      modelOutput.currentRouterScores = .ok weight) :
    ppoLoss E others config modelOutput data =
      lossOnSlices E others config modelOutput data weight := by
  have hmode' : (config.withBatchInfo data).lossMode = "gspo" := hmode
  rw [ppoLoss_eq h, lossOnSlices]
  dsimp only
  rw [hweight, Py.ok_bind, hmode, hmode', getPolicyLossFn_gspo, Py.ok_bind, Py.ok_bind]
  rfl

theorem lossOnSlices_gspo_ok (h : PpoOk config modelOutput data) (hmode : config.lossMode = "gspo")
    (weight : Option (Rows n w)) :
    ∃ loss, lossOnSlices E others config modelOutput data weight = .ok loss := by
  have hmode' : (config.withBatchInfo data).lossMode = "gspo" := hmode
  have hpg : ∃ pgLoss, computePolicyLossGspo E (config.withBatchInfo data)
      (data.policyLossInput (config.withBatchInfo data)
        (responseSlices data.layout modelOutput.logProbs)) weight = .ok pgLoss :=
    aggLossMat_ok h _ .seqMeanTokenMean
  obtain ⟨pgLoss, hpg⟩ := hpg
  obtain ⟨entropyLoss, hentropy⟩ :=
    entropyTerm_ok h (modelOutput.entropy.map (responseSlices data.layout))
  obtain ⟨klLoss, hkl⟩ :=
    @klTerm_ok _ _ E _ _ _ h (responseSlices data.layout modelOutput.logProbs)
  refine ⟨pgLoss - entropyLoss + klLoss, ?_⟩
  rw [lossOnSlices, hmode', getPolicyLossFn_gspo, Py.ok_bind, PolicyLossFn.loss, hpg, Py.ok_bind,
    hentropy,
    Py.ok_bind, hkl, Py.ok_bind, Py.pure_eq_ok]

/-- The weights enter by the sequence log-ratios only. -/
theorem lossOnSlices_gspo_congr (hmode : config.lossMode = "gspo") {weight : Rows n w}
    (h : negativeApproxKlSeq E (data.policyLossInput (config.withBatchInfo data)
        (responseSlices data.layout modelOutput.logProbs)) (some weight) =
      negativeApproxKlSeq E (data.policyLossInput (config.withBatchInfo data)
        (responseSlices data.layout modelOutput.logProbs)) none) :
    lossOnSlices E others config modelOutput data (some weight) =
      lossOnSlices E others config modelOutput data none := by
  have hmode' : (config.withBatchInfo data).lossMode = "gspo" := hmode
  rw [lossOnSlices, lossOnSlices, hmode', getPolicyLossFn_gspo, Py.ok_bind, Py.ok_bind,
    PolicyLossFn.loss, PolicyLossFn.loss,
    computePolicyLossGspo, computePolicyLossGspo, h]

/-- The configuration with the router shift switched off. -/
def ActorConfig.withoutRouterShift (config : ActorConfig) : ActorConfig :=
  { config with routerShift := config.routerShift.map fun rsCfg => { rsCfg with enabled := false } }

/-- The loss of `gspo` does not read the configuration of the shift. -/
theorem lossOnSlices_withoutRouterShift (hmode : config.lossMode = "gspo")
    (weight : Option (Rows n w)) :
    lossOnSlices E others config.withoutRouterShift modelOutput data weight =
      lossOnSlices E others config modelOutput data weight := by
  have hmode' : (config.withBatchInfo data).lossMode = "gspo" := hmode
  have hmode'' : (config.withoutRouterShift.withBatchInfo data).lossMode = "gspo" := hmode
  rw [lossOnSlices, lossOnSlices, hmode', hmode'', getPolicyLossFn_gspo]
  rfl

theorem routerShiftWeight_enabled {rsCfg : RouterShiftConfig}
    (hcfg : config.routerShift = some rsCfg)
    (henabled : rsCfg.enabled = true) {old current : RouterScores n w}
    (hlayers : old.numLayers = current.numLayers) (htopK : old.topK = current.topK) :
    routerShiftWeight E config (some old) (some current) =
      .ok (some (computeRouterShiftWeight E old current rsCfg.gammaMin).1) := by
  rw [routerShiftWeight, hcfg]
  dsimp only
  rw [if_pos henabled, if_pos ⟨hlayers, htopK⟩]

/-! ## A conservative extension -/

/-- What the router shift does to the loss of `gspo`. -/
structure ShiftOk (E : ExpLog ℚ) (others : OtherPolicyLosses n w) (config : ActorConfig)
    (modelOutput : ModelOutput n w) (data : PpoData n w) (input : PolicyLossInput n w)
    (old current : RouterScores n w) (gammaMin : ℚ) (weight : Rows n w) : Prop where
  range : ∀ i j, gammaMin ≤ weight i j ∧ weight i j ≤ 1
  logRatio : ∀ i, negativeApproxKlSeq E input (some weight) i =
    negativeApproxKlSeq E input none i + tokenMean input (fun i j => E.log (weight i j)) i
  le : ∀ i, negativeApproxKlSeq E input (some weight) i ≤ negativeApproxKlSeq E input none i
  loss : ∃ loss, ppoLoss E others config modelOutput data = .ok loss ∧
    lossOnSlices E others config modelOutput data (some weight) = .ok loss
  agree : (∀ i j, data.responseMask i j = true → ∀ l < old.numLayers, ∀ k < old.topK,
      old.score i j l k = current.score i j l k) →
    ppoLoss E others config modelOutput data =
      ppoLoss E others config.withoutRouterShift modelOutput data

/-- The router shift is a conservative extension of the loss. -/
structure RouterShiftConservative (E : ExpLog ℚ) (others : OtherPolicyLosses n w)
    (config : ActorConfig) (modelOutput : ModelOutput n w) (data : PpoData n w) : Prop where
  disabled : config.routerShiftEnabled = false →
    ∃ loss, ppoLoss E others config modelOutput data = .ok loss ∧
      lossOnSlices E others config modelOutput data none = .ok loss
  enabled : ∀ rsCfg old current, config.routerShift = some rsCfg → rsCfg.enabled = true →
    config.lossMode = "gspo" → data.oldRouterScores = some old →
    modelOutput.currentRouterScores = some current →
    ShiftOk E others config modelOutput data
      (data.policyLossInput (config.withBatchInfo data)
        (responseSlices data.layout modelOutput.logProbs))
      old current rsCfg.gammaMin (computeRouterShiftWeight E old current rsCfg.gammaMin).1

/-- Without the router shift only `gspo` can be called. -/
theorem gspo_of_disabled (h : PpoOk config modelOutput data)
    (hdisabled : config.routerShiftEnabled = false) {loss : ℚ}
    (hloss : ppoLoss E others config modelOutput data = .ok loss) : config.lossMode = "gspo" := by
  rw [ppoLoss_eq h, routerShiftWeight_disabled hdisabled] at hloss
  dsimp only at hloss
  rw [Py.ok_bind] at hloss
  obtain ⟨fn, hfn, hloss⟩ := Py.bind_eq_ok.mp hloss
  obtain ⟨pgLoss, hpg, _⟩ := Py.bind_eq_ok.mp hloss
  rcases policyLossRegistry_cases hfn with ⟨hmode, _⟩ | ⟨_, fnName, compute, rfl⟩
  · exact hmode
  · cases hpg

theorem disabled_of_gspo (h : PpoOk config modelOutput data)
    (hdisabled : config.routerShiftEnabled = false) (hmode : config.lossMode = "gspo") :
    ∃ loss, ppoLoss E others config modelOutput data = .ok loss ∧
      lossOnSlices E others config modelOutput data none = .ok loss := by
  obtain ⟨loss, hloss⟩ := @lossOnSlices_gspo_ok _ _ E others _ _ _ h hmode none
  exact ⟨loss, (ppoLoss_gspo h hmode (routerShiftWeight_disabled hdisabled _ _)).trans hloss, hloss⟩

theorem PpoOk.withoutRouterShift (h : PpoOk config modelOutput data) :
    PpoOk config.withoutRouterShift modelOutput data where
  layout := h.layout
  logProbs := h.logProbs
  entropy := h.entropy
  counts := h.counts
  kl := h.kl
  traces henabled := by
    rw [ActorConfig.routerShiftEnabled, ActorConfig.withoutRouterShift] at henabled
    cases hcfg : config.routerShift with
    | none => rw [hcfg] at henabled; cases henabled
    | some rsCfg => rw [hcfg] at henabled; cases henabled

theorem withoutRouterShift_disabled (config : ActorConfig) :
    config.withoutRouterShift.routerShiftEnabled = false := by
  rw [ActorConfig.routerShiftEnabled, ActorConfig.withoutRouterShift]
  cases config.routerShift <;> rfl

/-- Where the scores agree at the unmasked tokens, the loss is the one without
the shift. -/
theorem ppoLoss_of_agree (h : PpoOk config modelOutput data) {rsCfg : RouterShiftConfig}
    {old current : RouterScores n w} (hcfg : config.routerShift = some rsCfg)
    (henabled : rsCfg.enabled = true) (hmode : config.lossMode = "gspo")
    (hold : data.oldRouterScores = some old)
    (hcurrent : modelOutput.currentRouterScores = some current)
    (hshape : old.numLayers = current.numLayers ∧ old.topK = current.topK)
    (hagree : ∀ i j, data.responseMask i j = true → ∀ l < old.numLayers, ∀ k < old.topK,
      old.score i j l k = current.score i j l k) :
    ppoLoss E others config modelOutput data =
      ppoLoss E others config.withoutRouterShift modelOutput data := by
  have hweight := @routerShiftWeight_enabled _ _ E _ _ hcfg henabled old current hshape.1 hshape.2
  rw [← hold, ← hcurrent] at hweight
  rw [ppoLoss_gspo h hmode hweight, ppoLoss_gspo h.withoutRouterShift hmode
    (routerShiftWeight_disabled (withoutRouterShift_disabled config) _ _)]
  rw [lossOnSlices_withoutRouterShift hmode]
  refine lossOnSlices_gspo_congr hmode (negativeApproxKlSeq_one _ fun i j hj => ?_)
  exact weight_eq_one rsCfg.gammaMin_le_one fun l hl k hk => hagree i j hj l hl k hk

/-- The loss is a conservative extension exactly if, with the shift disabled, the
mode is `gspo`, and, with the shift, no weight of an unmasked token is below the
clamp before its logarithm. -/
theorem router_shift_conservative_iff (h : PpoOk config modelOutput data) :
    RouterShiftConservative E others config modelOutput data ↔
      (config.routerShiftEnabled = false → config.lossMode = "gspo") ∧
        ∀ rsCfg old current, config.routerShift = some rsCfg → rsCfg.enabled = true →
          config.lossMode = "gspo" → data.oldRouterScores = some old →
          modelOutput.currentRouterScores = some current →
          ∀ i j, data.responseMask i j = true →
            eps ≤ (computeRouterShiftWeight E old current rsCfg.gammaMin).1 i j := by
  constructor
  · intro hconservative
    refine ⟨fun hdisabled => ?_, ?_⟩
    · obtain ⟨loss, hloss, _⟩ := hconservative.disabled hdisabled
      exact gspo_of_disabled h hdisabled hloss
    · intro rsCfg old current hcfg henabled hmode hold hcurrent
      have hshift := hconservative.enabled rsCfg old current hcfg henabled hmode hold hcurrent
      exact (negativeApproxKlSeq_iff _ fun i j => weight_pos i j).mp hshift.logRatio
  · rintro ⟨hdisabled, hclamp⟩
    refine ⟨fun h' => disabled_of_gspo h h' (hdisabled h'), ?_⟩
    intro rsCfg old current hcfg henabled hmode hold hcurrent
    have hshape : old.numLayers = current.numLayers ∧ old.topK = current.topK := by
      obtain ⟨old', current', hold', hcurrent', hshape⟩ := h.traces (by
        rw [ActorConfig.routerShiftEnabled, hcfg]
        exact henabled)
      rw [hold, Option.some.injEq] at hold'
      rw [hcurrent, Option.some.injEq] at hcurrent'
      rwa [hold', hcurrent']
    have hweight := @routerShiftWeight_enabled _ _ E _ _ hcfg henabled old current hshape.1 hshape.2
    rw [← hold, ← hcurrent] at hweight
    obtain ⟨loss, hloss⟩ := @lossOnSlices_gspo_ok _ _ E others _ _ _ h hmode
      (some (computeRouterShiftWeight E old current rsCfg.gammaMin).1)
    exact {
      range := fun i j => ⟨le_weight i j, weight_le_one rsCfg.gammaMin_le_one i j⟩
      logRatio := (negativeApproxKlSeq_iff _ fun i j => weight_pos i j).mpr
        (hclamp rsCfg old current hcfg henabled hmode hold hcurrent)
      le := negativeApproxKlSeq_le _ (fun i j => weight_pos i j)
        (fun i j => weight_le_one rsCfg.gammaMin_le_one i j)
      loss := ⟨loss, (ppoLoss_gspo h hmode hweight).trans hloss, hloss⟩
      agree := ppoLoss_of_agree h hcfg henabled hmode hold hcurrent hshape }

/-- The other losses, which are not called. -/
def uncalledLosses : OtherPolicyLosses 1 1 :=
  ⟨fun _ _ => .error .notImplemented, fun _ _ => .error .notImplemented,
    fun _ _ => .error .notImplemented⟩

/-- One sample with a prompt of one token and a response of one token. -/
def oneTokenData : PpoData 1 1 where
  layout := .nested [[7]] [[3]] none
  dpSize := 1
  batchNumTokens := some 1
  globalBatchSize := some 1
  responseMask _ _ := true
  oldLogProbs _ _ := 0
  advantages _ _ := 1
  rolloutIsWeights := none
  refLogProb := none
  oldRouterScores := some ⟨1, 1, by decide, by decide, fun _ _ _ _ => 1⟩

def oneTokenOutput : ModelOutput 1 1 where
  logProbs := [[0, 0]]
  entropy := none
  currentRouterScores := some ⟨1, 1, by decide, by decide, fun _ _ _ _ => 1⟩

def oneTokenConfig (lossMode : String) (enabled : Bool) : ActorConfig where
  clipRatio := 1 / 5
  clipRatioLow := none
  clipRatioHigh := none
  clipRatioC := 3
  tauPos := 1
  tauNeg := 1
  lossMode := lossMode
  lossAggMode := .tokenMean
  lossScaleFactor := none
  entropyCoeff := 0
  useKlLoss := false
  klLossCoef := 0
  klLossType := ⟨.k3, false⟩
  routerShift := some ⟨enabled, 4 / 5, by decide +kernel, by decide +kernel⟩
  globalBatchInfo := ⟨1, none, none, none⟩

theorem oneToken_ok (lossMode : String) (enabled : Bool) :
    PpoOk (oneTokenConfig lossMode enabled) oneTokenOutput oneTokenData where
  layout := ⟨by decide, rfl, rfl, rfl, by decide⟩
  logProbs := rfl
  entropy := nofun
  counts := by decide
  kl := nofun
  traces _ := ⟨_, _, rfl, rfl, rfl, rfl⟩

theorem router_shift_conservative_one :
    RouterShiftConservative linearExpLog uncalledLosses (oneTokenConfig "gspo" true) oneTokenOutput
      oneTokenData := by
  refine (router_shift_conservative_iff (oneToken_ok "gspo" true)).mpr ⟨fun _ => rfl, ?_⟩
  intro rsCfg old current hcfg _ _ _ _ i j _
  obtain rfl := Option.some.inj hcfg
  exact (by decide +kernel : eps ≤ (4 / 5 : ℚ)).trans (le_weight i j)

/-- The default mode fails with the router shift disabled. -/
theorem not_router_shift_conservative :
    "vanilla" ∈ (policyLossRegistry linearExpLog uncalledLosses).map Prod.fst ∧
      PpoOk (oneTokenConfig "vanilla" false) oneTokenOutput oneTokenData ∧
      ppoLoss linearExpLog uncalledLosses (oneTokenConfig "vanilla" false) oneTokenOutput oneTokenData =
        .error (.type ("compute_policy_loss_vanilla() got an unexpected keyword argument " ++
          "'router_shift_weight'")) ∧
      ¬ RouterShiftConservative linearExpLog uncalledLosses (oneTokenConfig "vanilla" false) oneTokenOutput
        oneTokenData := by
  refine ⟨List.mem_cons_self, oneToken_ok "vanilla" false, rfl, fun h => ?_⟩
  obtain ⟨loss, hloss, _⟩ := h.disabled rfl
  exact absurd (gspo_of_disabled (oneToken_ok "vanilla" false) rfl hloss) (by decide)

end Verl
