import Verl.Ppo.PolicyLoss

/-!
# Policy losses and the parallel layout

The rows of a global batch are divided over the ranks, and the rows of each rank
into micro-batches.  All losses but that of `geo_mean` compute a loss matrix row by
row and aggregate it with the global counts (`exists_lossMat`), so their sum over
the micro-batches, averaged over the ranks, is the loss of the undivided batch.  The
loss of `geo_mean` is a mean over the rows of the micro-batch.  It is right only for
micro-batches that are all of the size `n / D`.
-/

namespace Verl

variable {n w m : Nat}

/-! ## The losses -/

/-- The policy losses that are written out. -/
inductive PolicyLossMode where
  | vanilla
  | dppoTv
  | dppoKl
  | gspo
  | sapo
  | gpg
  | geoMean
  | cispo
deriving DecidableEq

/-- The loss of a mode.  Only `gspo` reads the router-shift weights. -/
def PolicyLossMode.compute (E : ExpLog ℚ) (mode : PolicyLossMode) (config : ActorConfig)
    (input : PolicyLossInput n w) (routerShiftWeight : Option (Rows n w)) : Except Py.Error ℚ :=
  match mode with
  | .vanilla => computePolicyLossVanilla E config input
  | .dppoTv => computePolicyLossDppoTv E config input
  | .dppoKl => computePolicyLossDppoKl E config input
  | .gspo => computePolicyLossGspo E config input routerShiftWeight
  | .sapo => computePolicyLossSapo E config input
  | .gpg => computePolicyLossGpg config input
  | .geoMean => computePolicyLossGeoMean E config input
  | .cispo => computePolicyLossCispo E config input

/-! ## Divisions -/

/-- The rows of an index list. -/
def takeRows {α : Type} (rows : Fin n → α) (idx : Fin m → Fin n) : Fin m → α :=
    fun i => rows (idx i)

/-- A micro-batch of the rows of a global batch. -/
def PolicyLossInput.takeRows (input : PolicyLossInput n w) (idx : Fin m → Fin n) :
    PolicyLossInput m w where
  oldLogProb := Verl.takeRows input.oldLogProb idx
  logProb := Verl.takeRows input.logProb idx
  advantages := Verl.takeRows input.advantages idx
  responseMask := Verl.takeRows input.responseMask idx
  lossAggMode := input.lossAggMode
  rolloutIsWeights := input.rolloutIsWeights.map fun weights => Verl.takeRows weights idx

/-- A division of `n` rows over ranks, and of the rows of each rank into
micro-batches. -/
structure Division (n : Nat) where
  ranks : List (List (List (Fin n)))
  ranks_ne_nil : ranks ≠ []
  microBatch_ne_nil : ∀ microBatch ∈ ranks.flatten, microBatch ≠ []
  perm : ranks.flatten.flatten.Perm (List.finRange n)

/-- The counts of the global batch. -/
structure GlobalCounts where
  batchNumTokens : Int
  globalBatchSize : Int
  lossScaleFactor : Option Int
  batchNumTokens_ne_zero : batchNumTokens ≠ 0
  globalBatchSize_ne_zero : globalBatchSize ≠ 0
  lossScaleFactor_ne_zero : lossScaleFactor ≠ some 0

/-- `global_batch_info` for a number of ranks. -/
def GlobalCounts.info (counts : GlobalCounts) (dpSize : Nat) : GlobalBatchInfo where
  dpSize := dpSize
  batchNumTokens := some counts.batchNumTokens
  globalBatchSize := some counts.globalBatchSize
  lossScaleFactor := counts.lossScaleFactor

/-- The loss of a micro-batch of a division over `dpSize` ranks. -/
def microBatchLoss (E : ExpLog ℚ) (mode : PolicyLossMode) (config : ActorConfig)
    (counts : GlobalCounts) (input : PolicyLossInput n w) (routerShiftWeight : Option (Rows n w))
    (dpSize : Nat) (microBatch : List (Fin n)) : Except Py.Error ℚ :=
  mode.compute E { config with globalBatchInfo := counts.info dpSize }
    (input.takeRows microBatch.get) (routerShiftWeight.map fun rows => takeRows rows microBatch.get)

/-- The loss of the undivided batch. -/
def wholeLoss (E : ExpLog ℚ) (mode : PolicyLossMode) (config : ActorConfig)
    (counts : GlobalCounts) (input : PolicyLossInput n w) (routerShiftWeight : Option (Rows n w)) :
    Except Py.Error ℚ :=
  mode.compute E { config with globalBatchInfo := counts.info 1 } input routerShiftWeight

/-- The sum of the losses of the micro-batches, divided by the number of ranks, is the
loss of the undivided batch; and where that has none, no micro-batch has one. -/
structure LayoutInvariant (E : ExpLog ℚ) (mode : PolicyLossMode) (config : ActorConfig)
    (counts : GlobalCounts) (input : PolicyLossInput n w) (routerShiftWeight : Option (Rows n w))
    (d : Division n) : Prop where
  loss_eq : ∀ whole, wholeLoss E mode config counts input routerShiftWeight = .ok whole →
    ∃ losses : List (List ℚ),
      (d.ranks.mapM fun rank => rank.mapM
        (microBatchLoss E mode config counts input routerShiftWeight d.ranks.length)) = .ok losses ∧
      (losses.map List.sum).sum / d.ranks.length = whole
  error_eq : ∀ e, wholeLoss E mode config counts input routerShiftWeight = .error e →
    ∀ microBatch, microBatchLoss E mode config counts input routerShiftWeight d.ranks.length
      microBatch = .error e

/-! ## Row by row -/

/-- The assertion of the loss on the configuration. -/
def PolicyLossMode.checkConfig (mode : PolicyLossMode) (config : ActorConfig) :
    Except Py.Error Unit :=
  match mode with
  | .vanilla => Py.check (1 < config.clipRatioC)
      ("The lower bound of the clip_ratio_c for dual-clip PPO should be greater than 1.0," ++
        s!" but get the value: {config.clipRatioC}.")
  | _ => .ok ()

/-- The aggregation of the loss. -/
def PolicyLossMode.aggMode (mode : PolicyLossMode) (input : PolicyLossInput n w) : LossAggMode :=
  match mode with
  | .gspo => .seqMeanTokenMean
  | .sapo => .seqMeanTokenMean
  | _ => input.lossAggMode

/-- `pg_losses` of a token of `dppo_tv` and `dppo_kl`. -/
def dppoPgLoss (E : ExpLog ℚ) (config : ActorConfig) (input : PolicyLossInput n w)
    (validMask : Bool) (i : Fin n) (j : Fin w) : ℚ :=
  -input.advantages i j * min (E.exp (input.clampedKl i j)) config.clipRatioC * input.logProb i j *
    maskValue validMask

/-- `pg_losses` before the weights.  The entry of a row reads that row only. -/
def PolicyLossMode.pgLosses (E : ExpLog ℚ) (mode : PolicyLossMode) (config : ActorConfig)
    (input : PolicyLossInput n w) (routerShiftWeight : Option (Rows n w)) : Rows n w := fun i j =>
  let advantage := input.advantages i j
  let ratio := E.exp (input.clampedKl i j)
  let prob := E.exp (input.logProb i j)
  let oldProb := E.exp (input.oldLogProb i j)
  match mode with
  | .vanilla =>
      let clipPgLosses1 := max (-advantage * ratio)
        (-advantage * clamp ratio (1 - config.low) (1 + config.high))
      if advantage < 0 then min (-advantage * config.clipRatioC) clipPgLosses1 else clipPgLosses1
  | .dppoTv =>
      let validMask : Bool := if 0 < advantage then prob - oldProb ≤ config.high
        else -config.low ≤ prob - oldProb
      dppoPgLoss E config input validMask i j
  | .dppoKl =>
      let binaryKl := oldProb * (input.oldLogProb i j - input.logProb i j) + (1 - oldProb) *
        E.log ((1 - oldProb + 1 / 10 ^ 8) / (1 - prob + 1 / 10 ^ 8))
      let validMask : Bool := if 0 < advantage then binaryKl ≤ config.high ∨ prob ≤ oldProb
        else binaryKl ≤ config.low ∨ oldProb ≤ prob
      dppoPgLoss E config input validMask i j
  | .gspo =>
      let seqImportanceRatio := E.exp (min (input.logProb i j - input.logProb i j +
        negativeApproxKlSeq E input routerShiftWeight i) 10)
      max (-advantage * seqImportanceRatio)
        (-advantage * clamp seqImportanceRatio (1 - config.low) (1 + config.high))
  | .sapo =>
      let tau := if 0 < advantage then config.tauPos else config.tauNeg
      let pgLoss := -(1 / (1 + E.exp (-(tau * (ratio - 1)))) * (4 / tau)) * advantage
      pgLoss
  | .gpg => -input.logProb i j * advantage
  | .geoMean => 0
  | .cispo => -clamp ratio (1 - config.low) (1 + config.high) * advantage * input.logProb i j

variable {E : ExpLog ℚ} {mode : PolicyLossMode} {config : ActorConfig}

/-- A loss other than that of `geo_mean` aggregates its loss matrix with the global
counts. -/
theorem compute_eq_aggLossMat (h : mode ≠ .geoMean) (input : PolicyLossInput n w)
    (routerShiftWeight : Option (Rows n w)) :
    mode.compute E config input routerShiftWeight =
      mode.checkConfig config >>= fun _ =>
        aggLossMat (input.applyIsWeights (mode.pgLosses E config input routerShiftWeight))
          input.responseMask (mode.aggMode input) config.globalBatchInfo := by
  cases mode with
  | geoMean => exact absurd rfl h
  | vanilla => rfl
  | dppoTv => rfl
  | dppoKl => rfl
  | gspo => rfl
  | sapo => rfl
  | gpg => rfl
  | cispo => rfl

theorem negativeApproxKlSeq_takeRows (input : PolicyLossInput n w)
    (routerShiftWeight : Option (Rows n w)) (idx : Fin m → Fin n) (i : Fin m) :
    negativeApproxKlSeq E (input.takeRows idx)
        (routerShiftWeight.map fun rows => takeRows rows idx) i =
      negativeApproxKlSeq E input routerShiftWeight (idx i) := by
  cases routerShiftWeight with
  | none => rfl
  | some rows => rfl

/-- The loss matrix of a micro-batch has the rows of that of the global batch. -/
theorem pgLosses_takeRows (input : PolicyLossInput n w) (routerShiftWeight : Option (Rows n w))
    (idx : Fin m → Fin n) :
    mode.pgLosses E config (input.takeRows idx)
        (routerShiftWeight.map fun rows => takeRows rows idx) =
      takeRows (mode.pgLosses E config input routerShiftWeight) idx := by
  funext i j
  cases mode with
  | gspo =>
      rw [PolicyLossMode.pgLosses, negativeApproxKlSeq_takeRows]
      rfl
  | geoMean => rfl
  | vanilla => rfl
  | dppoTv => rfl
  | dppoKl => rfl
  | sapo => rfl
  | gpg => rfl
  | cispo => rfl

theorem applyIsWeights_takeRows (input : PolicyLossInput n w) (pgLosses : Rows n w)
    (idx : Fin m → Fin n) :
    (input.takeRows idx).applyIsWeights (takeRows pgLosses idx) =
      takeRows (input.applyIsWeights pgLosses) idx := by
  obtain ⟨oldLogProb, logProb, advantages, responseMask, lossAggMode, rolloutIsWeights⟩ := input
  cases rolloutIsWeights with
  | none => rfl
  | some weights => rfl

/-! ## Sums over a division -/

variable {counts : GlobalCounts}

theorem Division.length_ranks_ne_zero (d : Division n) : (d.ranks.length : ℚ) ≠ 0 := by
  rw [Nat.cast_ne_zero, Ne, List.length_eq_zero_iff]
  exact d.ranks_ne_nil

/-- The losses of the micro-batches, rank by rank. -/
theorem mapM_ranks {f : List (Fin n) → Except Py.Error ℚ} {g : List (Fin n) → ℚ} (d : Division n)
    (h : ∀ microBatch ∈ d.ranks.flatten, f microBatch = .ok (g microBatch)) :
    d.ranks.mapM (fun rank => rank.mapM f) = .ok (d.ranks.map fun rank => rank.map g) :=
  Py.mapM_eq_ok fun rank hrank => Py.mapM_eq_ok fun microBatch hmicroBatch =>
    h microBatch (List.mem_flatten.mpr ⟨rank, hrank, hmicroBatch⟩)

theorem sum_map_sum (ranks : List (List (List (Fin n)))) (g : List (Fin n) → ℚ) :
    ((ranks.map fun rank => rank.map g).map List.sum).sum = (ranks.flatten.map g).sum := by
  rw [List.map_map, sum_map_flatten]
  rfl

/-- A sum over the rows of the division is a sum over all rows. -/
theorem Division.sum_map (d : Division n) (f : Fin n → ℚ) :
    (d.ranks.flatten.map fun microBatch => (microBatch.map f).sum).sum =
      ((List.finRange n).map f).sum := by
  rw [← sum_map_flatten, (d.perm.map f).sum_eq]

/-! ## Losses with the global counts -/

/-- The row of a loss matrix with its mask. -/
def lossRow (lossMat : Rows n w) (lossMask : Fin n → Fin w → Bool) (i : Fin n) : LossRow w :=
  LossRow.ofMask (lossMat i) (lossMask i)

theorem ofFn_comp_get {α : Type} (f : Fin n → α) (microBatch : List (Fin n)) :
    (List.ofFn fun i => f (microBatch.get i)) = microBatch.map f := by
  calc (List.ofFn fun i => f (microBatch.get i))
      = (List.ofFn microBatch.get).map f := List.map_ofFn.symm
    _ = microBatch.map f := by rw [List.ofFn_get]

theorem aggLossMat_get (lossMat : Rows n w) (lossMask : Fin n → Fin w → Bool)
    (aggMode : LossAggMode) (counts : GlobalCounts) (dpSize : Nat) (microBatch : List (Fin n)) :
    aggLossMat (takeRows lossMat microBatch.get) (takeRows lossMask microBatch.get) aggMode
        (counts.info dpSize) =
      .ok ((microBatch.map fun i =>
          rowTerm aggMode counts.lossScaleFactor (lossRow lossMat lossMask i)).sum /
        givenCount aggMode counts.batchNumTokens counts.globalBatchSize * dpSize) := by
  have hrows : (List.ofFn fun i => LossRow.ofMask (takeRows lossMat microBatch.get i)
      (takeRows lossMask microBatch.get i)) = microBatch.map (lossRow lossMat lossMask) :=
    ofFn_comp_get (lossRow lossMat lossMask) microBatch
  rw [aggLossMat, hrows, GlobalCounts.info, aggLoss_counts, List.map_map]
  rfl

theorem aggLossMat_whole (lossMat : Rows n w) (lossMask : Fin n → Fin w → Bool)
    (aggMode : LossAggMode) (counts : GlobalCounts) :
    aggLossMat lossMat lossMask aggMode (counts.info 1) =
      .ok (((List.finRange n).map fun i =>
          rowTerm aggMode counts.lossScaleFactor (lossRow lossMat lossMask i)).sum /
        givenCount aggMode counts.batchNumTokens counts.globalBatchSize) := by
  rw [aggLossMat, GlobalCounts.info, aggLoss_counts, List.ofFn_eq_map, List.map_map, Nat.cast_one,
    mul_one]
  rfl

/-- A loss that aggregates with the global counts does not depend on the layout. -/
theorem layoutInvariant_of_ne_geoMean (h : mode ≠ .geoMean) (input : PolicyLossInput n w)
    (routerShiftWeight : Option (Rows n w)) (d : Division n) :
    LayoutInvariant E mode config counts input routerShiftWeight d := by
  obtain ⟨lossMat, hlossMat⟩ : ∃ lossMat, lossMat =
      input.applyIsWeights (mode.pgLosses E config input routerShiftWeight) := ⟨_, rfl⟩
  have hwhole : wholeLoss E mode config counts input routerShiftWeight =
      mode.checkConfig config >>= fun _ =>
        aggLossMat lossMat input.responseMask (mode.aggMode input) (counts.info 1) := by
    rw [wholeLoss, compute_eq_aggLossMat h, hlossMat]
    cases mode <;> rfl
  have hmicro : ∀ microBatch, microBatchLoss E mode config counts input routerShiftWeight
        d.ranks.length microBatch =
      mode.checkConfig config >>= fun _ =>
        aggLossMat (takeRows lossMat microBatch.get) (takeRows input.responseMask microBatch.get)
          (mode.aggMode input) (counts.info d.ranks.length) := by
    intro microBatch
    rw [microBatchLoss, compute_eq_aggLossMat h, pgLosses_takeRows, applyIsWeights_takeRows,
      hlossMat]
    cases mode <;> rfl
  cases hcheck : mode.checkConfig config with
  | error e =>
      rw [hcheck] at hwhole
      constructor
      · intro whole hok
        rw [hwhole] at hok
        cases hok
      · intro e' he' microBatch
        rw [hwhole] at he'
        rw [hmicro, hcheck]
        exact he'
  | ok u =>
      rw [hcheck, Py.ok_bind, aggLossMat_whole] at hwhole
      constructor
      · intro whole hok
        rw [hwhole] at hok
        obtain rfl := Except.ok.inj hok
        let loss : List (Fin n) → ℚ := fun microBatch =>
          (microBatch.map fun i => rowTerm (mode.aggMode input) counts.lossScaleFactor
            (lossRow lossMat input.responseMask i)).sum /
          givenCount (mode.aggMode input) counts.batchNumTokens counts.globalBatchSize *
            d.ranks.length
        refine ⟨_, @mapM_ranks _ _ loss d fun microBatch _ => ?_, ?_⟩
        · rw [hmicro, hcheck, Py.ok_bind, aggLossMat_get]
        · simp only [sum_map_sum, loss, List.sum_map_mul_right]
          simp only [div_eq_mul_inv, List.sum_map_mul_right, d.sum_map]
          rw [mul_assoc _ (d.ranks.length : ℚ), mul_inv_cancel₀ d.length_ranks_ne_zero, mul_one]
      · intro e he
        rw [hwhole] at he
        cases he

/-! ## The mean of `geo_mean` -/

/-- The loss of one sequence in `geo_mean`. -/
def geoMeanRow (E : ExpLog ℚ) (config : ActorConfig) (input : PolicyLossInput n w) (i : Fin n) :
    ℚ :=
  let sgnAdvantage i j := (SignType.sign (input.advantages i j) : ℚ)
  let negativeApproxKlClamp i j := clamp (input.negativeApproxKl i j) (-config.low) config.high
  let negativeApproxKlMin i j := sgnAdvantage i j *
    min (sgnAdvantage i j * input.negativeApproxKl i j)
      (sgnAdvantage i j * negativeApproxKlClamp i j)
  let seqMean xs i := input.maskedSum xs i / (input.numTokens i + 1 / 10 ^ 8)
  let pgLosses i := -seqMean input.advantages i * E.exp (seqMean negativeApproxKlMin i)
  match input.rolloutIsWeights with
  | none => pgLosses i
  | some weights =>
      pgLosses i * E.exp (seqMean (fun i j => E.log (weights i j + 1 / 10 ^ 10)) i)

theorem computePolicyLossGeoMean_eq (input : PolicyLossInput n w) :
    computePolicyLossGeoMean E config input =
      .ok (((List.finRange n).map (geoMeanRow E config input)).sum / n) := by
  have hsum : ((List.finRange n).map (geoMeanRow E config input)).sum =
      ∑ i, geoMeanRow E config input i := by
    rw [← List.ofFn_eq_map, List.sum_ofFn]
  rw [hsum]
  rfl

theorem geoMeanRow_takeRows (input : PolicyLossInput n w) (idx : Fin m → Fin n) :
    geoMeanRow E config (input.takeRows idx) = takeRows (geoMeanRow E config input) idx := by
  obtain ⟨oldLogProb, logProb, advantages, responseMask, lossAggMode, rolloutIsWeights⟩ := input
  cases rolloutIsWeights with
  | none => rfl
  | some weights => rfl

/-- The mean over the rows of a micro-batch. -/
theorem microBatchLoss_geoMean (input : PolicyLossInput n w)
    (routerShiftWeight : Option (Rows n w)) (dpSize : Nat) (microBatch : List (Fin n)) :
    microBatchLoss E .geoMean config counts input routerShiftWeight dpSize microBatch =
      .ok ((microBatch.map (geoMeanRow E config input)).sum / microBatch.length) := by
  rw [microBatchLoss, PolicyLossMode.compute, computePolicyLossGeoMean_eq, geoMeanRow_takeRows,
    ← List.ofFn_eq_map]
  exact congrArg (fun xs : List ℚ => Except.ok (xs.sum / microBatch.length))
    (ofFn_comp_get (geoMeanRow E config input) microBatch)

theorem wholeLoss_geoMean (input : PolicyLossInput n w) (routerShiftWeight : Option (Rows n w)) :
    wholeLoss E .geoMean config counts input routerShiftWeight =
      .ok (((List.finRange n).map (geoMeanRow E config input)).sum / n) :=
  computePolicyLossGeoMean_eq input

/-- The mean of the means of the micro-batches is that of all rows. -/
theorem layoutInvariant_geoMean_iff (input : PolicyLossInput n w)
    (routerShiftWeight : Option (Rows n w)) (d : Division n) :
    LayoutInvariant E .geoMean config counts input routerShiftWeight d ↔
      (d.ranks.flatten.map fun microBatch =>
          (microBatch.map (geoMeanRow E config input)).sum / (microBatch.length : ℚ)).sum /
        d.ranks.length = ((List.finRange n).map (geoMeanRow E config input)).sum / n := by
  have hlosses := @mapM_ranks n _ _ d fun microBatch _ =>
    @microBatchLoss_geoMean n w E config counts input routerShiftWeight d.ranks.length microBatch
  constructor
  · intro h
    obtain ⟨losses, hok, hsum⟩ := h.loss_eq _ (wholeLoss_geoMean input routerShiftWeight)
    rw [hlosses] at hok
    obtain rfl := Except.ok.inj hok
    rw [← hsum, sum_map_sum]
  · intro h
    constructor
    · intro whole hwhole
      rw [wholeLoss_geoMean] at hwhole
      obtain rfl := Except.ok.inj hwhole
      exact ⟨_, hlosses, by rw [← h, sum_map_sum]⟩
    · intro e he
      rw [wholeLoss_geoMean] at he
      cases he

/-- A division is balanced when every micro-batch has `n / D` rows, so that each rank
has one micro-batch and all have the same size. -/
def Division.Balanced (d : Division n) : Prop :=
  ∀ microBatch ∈ d.ranks.flatten, microBatch.length * d.ranks.length = n

theorem layoutInvariant_of_balanced (hn : 0 < n) {d : Division n} (h : d.Balanced)
    (input : PolicyLossInput n w) (routerShiftWeight : Option (Rows n w)) :
    LayoutInvariant E .geoMean config counts input routerShiftWeight d := by
  rw [layoutInvariant_geoMean_iff]
  have hsize : ∀ microBatch ∈ d.ranks.flatten,
      (microBatch.map (geoMeanRow E config input)).sum / (microBatch.length : ℚ) =
        (microBatch.map (geoMeanRow E config input)).sum * (d.ranks.length / n) := by
    intro microBatch hmicroBatch
    have hlength : (microBatch.length : ℚ) * d.ranks.length = n := by
      rw [← Nat.cast_mul, h microBatch hmicroBatch]
    have hne : (microBatch.length : ℚ) ≠ 0 := by
      rw [Nat.cast_ne_zero, Ne, List.length_eq_zero_iff]
      exact d.microBatch_ne_nil microBatch hmicroBatch
    have hranks := d.length_ranks_ne_zero
    rw [← hlength]
    field_simp
  have hranks := d.length_ranks_ne_zero
  have hn' : (n : ℚ) ≠ 0 := Nat.cast_ne_zero.mpr hn.ne'
  rw [List.map_congr_left hsize, List.sum_map_mul_right, d.sum_map]
  field_simp

/-! ## One row with an advantage -/

/-- A batch in which one row has an advantage, and the policy has not changed. -/
def oneAdvantage (n w : Nat) (k : Fin n) : PolicyLossInput n w where
  oldLogProb := fun _ _ => 0
  logProb := fun _ _ => 0
  advantages := fun i _ => if i = k then 1 else 0
  responseMask := fun _ _ => true
  lossAggMode := .tokenMean
  rolloutIsWeights := none

theorem geoMeanRow_oneAdvantage_of_ne {i k : Fin n} (h : i ≠ k) :
    geoMeanRow E config (oneAdvantage n w k) i = 0 := by
  have hsum : (oneAdvantage n w k).maskedSum (oneAdvantage n w k).advantages i = 0 := by
    refine Finset.sum_eq_zero fun j _ => ?_
    rw [oneAdvantage]
    dsimp only
    rw [if_neg h, zero_mul]
  rw [geoMeanRow]
  dsimp only
  rw [hsum, zero_div, neg_zero, zero_mul]
  rfl

theorem geoMeanRow_oneAdvantage_self (hw : 0 < w) (k : Fin n) :
    geoMeanRow E config (oneAdvantage n w k) k ≠ 0 := by
  have hsum : (oneAdvantage n w k).maskedSum (oneAdvantage n w k).advantages k = w := by
    rw [PolicyLossInput.maskedSum, oneAdvantage]
    simp [maskValue]
  have htokens : (oneAdvantage n w k).numTokens k = w := by
    rw [PolicyLossInput.numTokens, oneAdvantage]
    simp [maskValue]
  have hw' : (0 : ℚ) < w := Nat.cast_pos.mpr hw
  have hpos : (0 : ℚ) < w / (w + 1 / 10 ^ 8) :=
    div_pos hw' (add_pos hw' (div_pos one_pos (pow_pos (by decide) 8)))
  rw [geoMeanRow]
  dsimp only
  rw [hsum, htokens]
  exact mul_ne_zero (neg_ne_zero.mpr hpos.ne') (E.exp_pos _).ne'

/-- A sum with one entry that counts. -/
theorem sum_map_eq_count_mul {f : Fin n → ℚ} {k : Fin n} (h : ∀ i, i ≠ k → f i = 0)
    (xs : List (Fin n)) : (xs.map f).sum = xs.count k * f k := by
  induction xs with
  | nil => rw [List.map_nil, List.sum_nil, List.count_nil, Nat.cast_zero, zero_mul]
  | cons x xs ih =>
      rw [List.map_cons, List.sum_cons, ih, List.count_cons]
      by_cases hx : x = k
      · rw [hx, if_pos (beq_self_eq_true k)]
        push_cast
        ring
      · rw [h x hx, if_neg (by rwa [beq_iff_eq]), zero_add, Nat.add_zero]

/-- A row is in one micro-batch only, and once. -/
theorem Division.exists_split (d : Division n) {microBatch : List (Fin n)} {k : Fin n}
    (hmicroBatch : microBatch ∈ d.ranks.flatten) (hk : k ∈ microBatch) :
    ∃ before after, d.ranks.flatten = before ++ microBatch :: after ∧ microBatch.count k = 1 ∧
      ∀ other ∈ before ++ after, other.count k = 0 := by
  obtain ⟨before, after, hsplit⟩ := List.append_of_mem hmicroBatch
  have htotal : d.ranks.flatten.flatten.count k = 1 := by
    rw [d.perm.count_eq]
    exact List.count_eq_one_of_mem (List.nodup_finRange n) (List.mem_finRange k)
  have hpos : 0 < microBatch.count k := List.count_pos_iff.mpr hk
  rw [hsplit, List.flatten_append, List.flatten_cons, List.count_append, List.count_append]
    at htotal
  refine ⟨before, after, hsplit, by omega, fun other hother => ?_⟩
  rw [List.count_eq_zero]
  intro hmem
  have hcount : 0 < (before ++ after).flatten.count k :=
    List.count_pos_iff.mpr (List.mem_flatten.mpr ⟨other, hother, hmem⟩)
  rw [List.flatten_append, List.count_append] at hcount
  omega

theorem balanced_of_layoutInvariant (hn : 0 < n) (hw : 0 < w) {d : Division n}
    (h : ∀ (input : PolicyLossInput n w) (routerShiftWeight : Option (Rows n w)),
      LayoutInvariant E .geoMean config counts input routerShiftWeight d) : d.Balanced := by
  intro microBatch hmicroBatch
  obtain ⟨k, hk⟩ := List.exists_mem_of_ne_nil _ (d.microBatch_ne_nil microBatch hmicroBatch)
  obtain ⟨before, after, hsplit, hone, hothers⟩ := d.exists_split hmicroBatch hk
  have hsum := (layoutInvariant_geoMean_iff _ _ d).mp (h (oneAdvantage n w k) none)
  have hrow : ∀ i, i ≠ k → geoMeanRow E config (oneAdvantage n w k) i = 0 := fun i hi =>
    geoMeanRow_oneAdvantage_of_ne hi
  have hself := @geoMeanRow_oneAdvantage_self n w E config hw k
  have hfinRange : (List.finRange n).count k = 1 :=
    List.count_eq_one_of_mem (List.nodup_finRange n) (List.mem_finRange k)
  simp only [sum_map_eq_count_mul hrow, hfinRange, Nat.cast_one, one_mul] at hsum
  have hzero : ∀ part : List (List (Fin n)), (∀ other ∈ part, other.count k = 0) →
      (part.map fun other => (other.count k : ℚ) * geoMeanRow E config (oneAdvantage n w k) k /
        (other.length : ℚ)).sum = 0 := by
    intro part hpart
    refine List.sum_eq_zero fun x hx => ?_
    obtain ⟨other, hother, rfl⟩ := List.mem_map.mp hx
    rw [hpart other hother, Nat.cast_zero, zero_mul, zero_div]
  rw [hsplit, List.map_append, List.sum_append, List.map_cons, List.sum_cons, hone,
    hzero before fun other hother => hothers other (List.mem_append_left _ hother),
    hzero after fun other hother => hothers other (List.mem_append_right _ hother)] at hsum
  have hlength : (microBatch.length : ℚ) ≠ 0 := by
    rw [Nat.cast_ne_zero, Ne, List.length_eq_zero_iff]
    exact d.microBatch_ne_nil microBatch hmicroBatch
  have hranks := d.length_ranks_ne_zero
  have hn' : (n : ℚ) ≠ 0 := Nat.cast_ne_zero.mpr hn.ne'
  have hcast : ((microBatch.length * d.ranks.length : Nat) : ℚ) = n := by
    rw [zero_add, add_zero, Nat.cast_one, one_mul] at hsum
    field_simp at hsum
    rw [Nat.cast_mul]
    exact hsum.symm
  exact Nat.cast_injective hcast

/-- Over all batches, the loss of a mode does not depend on a division when the mode
is not `geo_mean` or the division is balanced. -/
theorem layoutInvariant_iff (E : ExpLog ℚ) (mode : PolicyLossMode) (config : ActorConfig)
    (counts : GlobalCounts) (hn : 0 < n) (hw : 0 < w) (d : Division n) :
    (∀ (input : PolicyLossInput n w) (routerShiftWeight : Option (Rows n w)),
      LayoutInvariant E mode config counts input routerShiftWeight d) ↔
      mode ≠ .geoMean ∨ d.Balanced := by
  by_cases hmode : mode = .geoMean
  · rw [hmode]
    constructor
    · exact fun h => .inr (balanced_of_layoutInvariant hn hw h)
    · intro h
      exact layoutInvariant_of_balanced hn (h.resolve_left (not_not_intro rfl))
  · exact ⟨fun _ => .inl hmode, fun _ input routerShiftWeight =>
      layoutInvariant_of_ne_geoMean hmode input routerShiftWeight d⟩

def defaultActorConfig : ActorConfig where
  clipRatio := 1 / 5
  clipRatioLow := none
  clipRatioHigh := none
  clipRatioC := 3
  tauPos := 1
  tauNeg := 1
  lossMode := "geo_mean"
  lossAggMode := .tokenMean
  lossScaleFactor := none
  entropyCoeff := 0
  useKlLoss := false
  klLossCoef := 0
  klLossType := ⟨.k1, false⟩
  routerShift := none
  globalBatchInfo := ⟨1, none, none, none⟩

/-- Two rows of one token. -/
def twoRowCounts : GlobalCounts where
  batchNumTokens := 2
  globalBatchSize := 2
  lossScaleFactor := none
  batchNumTokens_ne_zero := by decide
  globalBatchSize_ne_zero := by decide
  lossScaleFactor_ne_zero := by decide

/-- One rank, and a micro-batch for each of two rows. -/
def oneRowEach : Division 2 where
  ranks := [[[0], [1]]]
  ranks_ne_nil := by decide
  microBatch_ne_nil := by decide
  perm := by decide

theorem layoutInvariant_iff_oneRowEach :
    (∀ (input : PolicyLossInput 2 1) (routerShiftWeight : Option (Rows 2 1)),
      LayoutInvariant linearExpLog .geoMean defaultActorConfig twoRowCounts input routerShiftWeight
        oneRowEach) ↔
      PolicyLossMode.geoMean ≠ .geoMean ∨ oneRowEach.Balanced :=
  layoutInvariant_iff linearExpLog .geoMean defaultActorConfig twoRowCounts two_pos one_pos
    oneRowEach

/-- The two micro-batches have the losses `x` and 0.  Their sum is `x`, and the loss of
the undivided batch is `x / 2`. -/
theorem not_layoutInvariant_oneRowEach :
    ¬ LayoutInvariant linearExpLog .geoMean defaultActorConfig twoRowCounts (oneAdvantage 2 1 0)
      none oneRowEach := by
  intro h
  have hsum := (layoutInvariant_geoMean_iff _ _ oneRowEach).mp h
  exact absurd hsum (by decide +kernel)

end Verl
