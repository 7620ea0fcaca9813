import Mathlib.Logic.Equiv.Fin.Basic
import Verl.Distillation.DenseGradient

/-!
# Sharded and dense distillation

Over the reals.  Every teacher id is in the shard of one rank, so a sum over the ranks of
masked values is a sum over the ids (`sum_shards`).  The losses of the two versions are
equal, and the backward of the sharded one is the gradient of the dense loss.

The sharded version takes the masses after the clamp and the dense one before it, so the
masses are equal exactly when the clamp changes nothing (`shardedMatchesDense_iff`).
-/

namespace Verl.Distillation

open Finset

variable {P n k : Nat}

/-! ## Shards of the vocabulary -/

/-- The values of all ranks are the values of the vocabulary. -/
theorem sum_finProd (f : Fin (P * n) → ℝ) :
    ∑ rank : Fin P, ∑ i : Fin n, f (finProdFinEquiv (rank, i)) = ∑ v, f v := by
  rw [← Fintype.sum_prod_type' fun rank i => f (finProdFinEquiv (rank, i))]
  exact Equiv.sum_comp finProdFinEquiv f

/-- `logsumexp` does not depend on the shift. -/
theorem logsumexp_sub {V : Nat} [NeZero V] (logits : Fin V → ℝ) (shift : ℝ) :
    logsumexp realExpLog (fun v => logits v - shift) = logsumexp realExpLog logits - shift := by
  have hpos : 0 < ∑ v, Real.exp (logits v) :=
    sum_pos (fun v _ => Real.exp_pos _) univ_nonempty
  have hsum : ∑ v, Real.exp (logits v - shift) = (∑ v, Real.exp (logits v)) / Real.exp shift := by
    rw [Finset.sum_div]
    exact sum_congr rfl fun v _ => Real.exp_sub _ _
  change Real.log (∑ v, Real.exp (logits v - shift)) = Real.log (∑ v, Real.exp (logits v)) - shift
  rw [hsum, Real.log_div hpos.ne' (Real.exp_ne_zero _), Real.log_exp]

/-- Every rank has its part of the log-probs of the whole vocabulary. -/
theorem vocabParallelLogSoftmax_shards (t : Token ℝ (P * n) k) (rank : Fin P) (i : Fin n) :
    vocabParallelLogSoftmax realExpLog t.shards.vpLogits rank i =
      logSoftmax realExpLog t.studentLogits (finProdFinEquiv (rank, i)) := by
  have : NeZero (P * n) := ⟨(Nat.mul_pos (Nat.pos_of_ne_zero fun h => by
    subst h
    exact rank.elim0) (Nat.pos_of_ne_zero fun h => by
    subst h
    exact i.elim0)).ne'⟩
  rw [vocabParallelLogSoftmax, logSoftmax]
  simp only
  generalize allReduceLogitsMax t.shards.vpLogits = logitsMax
  have hsum : (allReduceSum fun rank : Fin P => ∑ i : Fin n,
      realExpLog.exp (t.shards.vpLogits rank i - logitsMax)) =
        ∑ v, realExpLog.exp (t.studentLogits v - logitsMax) :=
    sum_finProd fun v => realExpLog.exp (t.studentLogits v - logitsMax)
  have hshift := logsumexp_sub t.studentLogits logitsMax
  rw [logsumexp] at hshift
  rw [hsum, hshift]
  change t.studentLogits _ - _ - _ = _
  ring

section Mask

variable (t : Token ℝ (P * n) k)

/-- An id is in the shard of one rank. -/
theorem mask_iff (rank : Fin P) (i : Fin k) :
    t.shards.topkIndicesInVocabMask rank i = true ↔ (t.teacherTopkIds i).divNat = rank := by
  have hdiv : (t.teacherTopkIds i).val / n = rank.val ↔
      rank.val * n ≤ (t.teacherTopkIds i).val ∧
        (t.teacherTopkIds i).val < rank.val * n + n := by
    have hn : 0 < n := Nat.pos_of_mul_pos_left ((Nat.zero_le _).trans_lt (t.teacherTopkIds i).isLt)
    rw [Nat.div_eq_iff hn]
    omega
  rw [Fin.ext_iff, Fin.coe_divNat, hdiv, ShardedToken.topkIndicesInVocabMask, Bool.and_eq_true,
    decide_eq_true_iff, decide_eq_true_iff]
  rfl

theorem finProd_localIndices [NeZero n] {rank : Fin P} {i : Fin k}
    (h : t.shards.topkIndicesInVocabMask rank i = true) :
    finProdFinEquiv (rank, t.shards.localIndices rank i) = t.teacherTopkIds i := by
  have hmask := h
  rw [ShardedToken.topkIndicesInVocabMask, Bool.and_eq_true, decide_eq_true_iff,
    decide_eq_true_iff] at hmask
  obtain ⟨hstart, hend⟩ := hmask
  rw [ShardedToken.localIndices, if_pos h, Fin.ext_iff, finProdFinEquiv_apply_val]
  change ((t.teacherTopkIds i).val - rank.val * n) % n + n * rank.val = (t.teacherTopkIds i).val
  change rank.val * n ≤ (t.teacherTopkIds i).val at hstart
  change (t.teacherTopkIds i).val < rank.val * n + n at hend
  rw [Nat.mod_eq_of_lt (by omega), Nat.mul_comm n]
  omega

/-- A masked value is counted by one rank. -/
theorem sum_shards (f : Fin k → ℝ) :
    ∑ rank : Fin P, ∑ i, (if t.shards.topkIndicesInVocabMask rank i then f i else 0) =
      ∑ i, f i := by
  rw [sum_comm]
  refine sum_congr rfl fun i _ => ?_
  simp only [mask_iff]
  exact (sum_ite_eq univ (t.teacherTopkIds i).divNat fun _ => f i).trans (if_pos (mem_univ _))

end Mask

/-! ## Forward -/

section Forward

variable [NeZero n] (logProbMinClamp : Option ℝ) (t : Token ℝ (P * n) k)

/-- A rank gathers the log-probs of the ids in its shard. -/
theorem gatheredLogps_of_mask {rank : Fin P} {i : Fin k}
    (h : t.shards.topkIndicesInVocabMask rank i = true) :
    t.shards.gatheredLogps realExpLog rank i = t.studentTopkLogProbs realExpLog i := by
  rw [ShardedToken.gatheredLogps, vocabParallelLogSoftmax_shards, finProd_localIndices t h]
  rfl

/-- The dummies cancel. -/
theorem distillationLoss_shards :
    (t.shards.forward realExpLog logProbMinClamp).distillationLoss =
      (t.loss realExpLog logProbMinClamp).distillationLoss := by
  have hloss := sum_shards t fun i =>
    Real.exp (clampMin logProbMinClamp (t.teacherTopkLogProbs i)) *
      (clampMin logProbMinClamp (t.teacherTopkLogProbs i) -
        clampMin logProbMinClamp (t.studentTopkLogProbs realExpLog i))
  change (∑ rank : Fin P, ∑ i, t.shards.targetTopkProbs realExpLog logProbMinClamp rank i *
    (t.shards.targetTopkLogpsMasked logProbMinClamp rank i -
      t.shards.vpSourceTopkLogps realExpLog logProbMinClamp rank i)) = _
  refine (sum_congr rfl fun rank _ => sum_congr rfl fun i _ => ?_).trans hloss
  rw [ShardedToken.targetTopkProbs, ShardedToken.targetTopkLogpsMasked,
    ShardedToken.vpSourceTopkLogps]
  by_cases hmask : t.shards.topkIndicesInVocabMask rank i = true
  · rw [if_pos hmask, if_pos hmask, if_pos hmask, if_pos hmask, gatheredLogps_of_mask t hmask]
    rfl
  · rw [if_neg hmask, if_neg hmask, if_neg hmask, zero_mul, if_neg hmask]

/-- The student's mass is taken after the clamp. -/
theorem studentMass_shards :
    (t.shards.forward realExpLog logProbMinClamp).studentMass =
      ∑ i, Real.exp (clampMin logProbMinClamp (t.studentTopkLogProbs realExpLog i)) := by
  have hmass := sum_shards t fun i =>
    Real.exp (clampMin logProbMinClamp (t.studentTopkLogProbs realExpLog i))
  change (∑ rank : Fin P, ∑ i,
    Real.exp (t.shards.vpSourceTopkLogps realExpLog logProbMinClamp rank i) *
      if t.shards.topkIndicesInVocabMask rank i then 1 else 0) = _
  refine (sum_congr rfl fun rank _ => sum_congr rfl fun i _ => ?_).trans hmass
  rw [ShardedToken.vpSourceTopkLogps]
  by_cases hmask : t.shards.topkIndicesInVocabMask rank i = true
  · rw [if_pos hmask, if_pos hmask, if_pos hmask, mul_one, gatheredLogps_of_mask t hmask]
  · rw [if_neg hmask, if_neg hmask, if_neg hmask, mul_zero]

/-- A clamp changes the mass when it changes a log-prob. -/
theorem sum_exp_clampMin_iff (logProbs : Fin k → ℝ) :
    ∑ i, Real.exp (clampMin logProbMinClamp (logProbs i)) = ∑ i, Real.exp (logProbs i) ↔
      ∀ clamp ∈ logProbMinClamp, ∀ i, clamp ≤ logProbs i := by
  cases logProbMinClamp with
  | none => simp [clampMin]
  | some clamp =>
      have hle : ∀ i ∈ univ, Real.exp (logProbs i) ≤ Real.exp (max (logProbs i) clamp) :=
        fun i _ => Real.exp_le_exp.mpr (le_max_left _ _)
      rw [eq_comm]
      refine (sum_eq_sum_iff_of_le hle).trans ?_
      simp only [mem_univ, forall_const, Real.exp_eq_exp, left_eq_sup, Option.mem_some_iff,
        forall_eq']

/-- The clamp changes no log-prob of the token. -/
def Unclamped {V : Nat} (logProbMinClamp : Option ℝ) (t : Token ℝ V k) : Prop :=
  ∀ clamp ∈ logProbMinClamp, ∀ i,
    clamp ≤ t.studentTopkLogProbs realExpLog i ∧ clamp ≤ t.teacherTopkLogProbs i

theorem forward_shards_iff :
    t.shards.forward realExpLog logProbMinClamp = t.loss realExpLog logProbMinClamp ↔
      Unclamped logProbMinClamp t := by
  have hstudent := sum_exp_clampMin_iff logProbMinClamp (t.studentTopkLogProbs realExpLog)
  have hteacher := sum_exp_clampMin_iff logProbMinClamp t.teacherTopkLogProbs
  rw [← studentMass_shards] at hstudent
  have hparts : t.shards.forward realExpLog logProbMinClamp = t.loss realExpLog logProbMinClamp ↔
      (t.shards.forward realExpLog logProbMinClamp).studentMass =
          (t.loss realExpLog logProbMinClamp).studentMass ∧
        (t.shards.forward realExpLog logProbMinClamp).teacherMass =
          (t.loss realExpLog logProbMinClamp).teacherMass := by
    constructor
    · intro h
      rw [h]
      exact ⟨rfl, rfl⟩
    · rintro ⟨hs, ht⟩
      exact TopkLoss.ext (distillationLoss_shards logProbMinClamp t) hs ht
  refine hparts.trans ((and_congr hstudent hteacher).trans ?_)
  rw [Unclamped]
  exact ⟨fun h clamp hc i => ⟨h.1 clamp hc i, h.2 clamp hc i⟩,
    fun h => ⟨fun clamp hc i => (h clamp hc i).1, fun clamp hc i => (h clamp hc i).2⟩⟩

end Forward

/-! ## Backward -/

section Backward

variable (logProbMinClamp : Option ℝ) [NeZero n] (t : Token ℝ (P * n) k)

theorem activeMask_iff (rank : Fin P) (i : Fin k) :
    t.shards.activeMask realExpLog logProbMinClamp rank i = true ↔
      t.shards.topkIndicesInVocabMask rank i = true ∧
        Active logProbMinClamp (t.studentTopkLogProbs realExpLog i) := by
  cases logProbMinClamp with
  | none =>
      rw [ShardedToken.activeMask, Active]
      simp only [Option.mem_def, reduceCtorEq, false_implies, implies_true, and_true]
  | some clamp =>
      rw [ShardedToken.activeMask, Active]
      simp only [Bool.and_eq_true, decide_eq_true_iff, Option.mem_some_iff, forall_eq']
      refine and_congr_right fun hmask => ?_
      rw [gatheredLogps_of_mask t hmask]

/-- The teacher's probability of an active id, in the rank of the id. -/
theorem active_targetTopkProbs (rank : Fin P) (i : Fin k) :
    (if t.shards.activeMask realExpLog logProbMinClamp rank i then
        t.shards.targetTopkProbs realExpLog logProbMinClamp rank i else 0) =
      if t.shards.topkIndicesInVocabMask rank i then activeProb logProbMinClamp t i else 0 := by
  rw [ShardedToken.targetTopkProbs, activeProb]
  have hactive := activeMask_iff logProbMinClamp t rank i
  by_cases hmask : t.shards.topkIndicesInVocabMask rank i = true
  · rw [if_pos hmask, if_pos hmask]
    refine if_congr (hactive.trans (and_iff_right hmask)) rfl rfl
  · rw [if_neg hmask, if_neg hmask, ite_self]

theorem targetActiveMass_shards :
    t.shards.targetActiveMass realExpLog logProbMinClamp =
      ∑ i, activeProb logProbMinClamp t i := by
  cases logProbMinClamp with
  | none =>
      change ∑ i, Real.exp (clampMin none (t.teacherTopkLogProbs i)) = _
      refine sum_congr rfl fun i _ => (if_pos ?_).symm
      rintro clamp ⟨⟩
  | some clamp =>
      rw [← sum_shards t (activeProb (some clamp) t), ShardedToken.targetActiveMass]
      exact sum_congr rfl fun rank _ => sum_congr rfl fun i _ =>
        active_targetTopkProbs (some clamp) t rank i

/-- An id is at a place of a shard when the rank has it at this place. -/
theorem teacherTopkIds_eq_iff (rank : Fin P) (v : Fin n) (i : Fin k) :
    t.teacherTopkIds i = finProdFinEquiv (rank, v) ↔
      t.shards.topkIndicesInVocabMask rank i = true ∧ t.shards.localIndices rank i = v := by
  constructor
  · intro h
    have hmask : t.shards.topkIndicesInVocabMask rank i = true := by
      rw [mask_iff, h]
      exact congrArg Prod.fst (finProdFinEquiv.symm_apply_apply (rank, v))
    have hlocal := (finProd_localIndices t hmask).trans h
    exact ⟨hmask, congrArg Prod.snd (finProdFinEquiv.injective hlocal)⟩
  · rintro ⟨hmask, rfl⟩
    exact (finProd_localIndices t hmask).symm

/-- The backward of a rank is the rank's part of the gradient. -/
theorem backward_shards (rank : Fin P) (v : Fin n) (gradLoss : ℝ) :
    (t.shards.savedTensors realExpLog logProbMinClamp rank).backward gradLoss v =
      lossGrad logProbMinClamp t (finProdFinEquiv (rank, v)) * gradLoss := by
  have hscatter : (∑ i with t.shards.localIndices rank i = v,
      -(t.shards.targetTopkProbs realExpLog logProbMinClamp rank i *
        if t.shards.activeMask realExpLog logProbMinClamp rank i then 1 else 0)) =
        -∑ i with t.teacherTopkIds i = finProdFinEquiv (rank, v),
          activeProb logProbMinClamp t i := by
    rw [sum_neg_distrib, sum_filter, sum_filter]
    congr 1
    refine sum_congr rfl fun i _ => ?_
    rw [mul_ite, mul_one, mul_zero, active_targetTopkProbs, ← ite_and]
    refine if_congr ?_ rfl rfl
    rw [teacherTopkIds_eq_iff, and_comm]
  change (Real.exp (vocabParallelLogSoftmax realExpLog t.shards.vpLogits rank v) *
    t.shards.targetActiveMass realExpLog logProbMinClamp +
      ∑ i with t.shards.localIndices rank i = v,
        -(t.shards.targetTopkProbs realExpLog logProbMinClamp rank i *
          if t.shards.activeMask realExpLog logProbMinClamp rank i then 1 else 0)) * gradLoss = _
  rw [hscatter, targetActiveMass_shards, vocabParallelLogSoftmax_shards, ← sub_eq_add_neg]
  rfl

end Backward

/-! ## The two versions -/

/-- The sharded version on all ranks and the dense one, for a batch of tokens. -/
structure ShardedMatchesDense {N : Nat} [NeZero n] (logProbMinClamp : Option ℝ)
    (tokens : Fin N → Token ℝ (P * n) k) : Prop where
  forward : ∀ (useChunkedTopk : Bool) (chunkSize : Nat), 0 < chunkSize →
    (List.ofFn fun j => (tokens j).shards.forward realExpLog logProbMinClamp) =
      computeForwardKlTopk realExpLog logProbMinClamp useChunkedTopk chunkSize
        (List.ofFn tokens)
  backward : (∀ j, ∀ clamp ∈ logProbMinClamp, ∀ i,
      (tokens j).studentTopkLogProbs realExpLog i ≠ clamp) →
    ∀ (useChunkedTopk : Bool) (chunkSize : Nat), 0 < chunkSize → ∀ gradLoss : Fin N → ℝ,
      HasFDerivAt (denseLoss logProbMinClamp useChunkedTopk chunkSize tokens gradLoss)
        (batchForm fun j v =>
          ((tokens j).shards.savedTensors realExpLog logProbMinClamp v.divNat).backward
            (gradLoss j) v.modNat)
        fun j => (tokens j).studentLogits

/-- The two versions return the same when the clamp changes no log-prob, and only then. -/
theorem shardedMatchesDense_iff {N : Nat} [NeZero n] (logProbMinClamp : Option ℝ)
    (tokens : Fin N → Token ℝ (P * n) k) :
    ShardedMatchesDense logProbMinClamp tokens ↔ ∀ j, Unclamped logProbMinClamp (tokens j) := by
  constructor
  · intro h j
    have hforward := h.forward false 1 Nat.one_pos
    rw [computeForwardKlTopk_eq realExpLog logProbMinClamp false Nat.one_pos, List.map_ofFn,
      List.ofFn_inj] at hforward
    exact (forward_shards_iff logProbMinClamp (tokens j)).mp (congrFun hforward j)
  · intro h
    constructor
    · intro useChunkedTopk chunkSize hsize
      rw [computeForwardKlTopk_eq realExpLog logProbMinClamp useChunkedTopk hsize, List.map_ofFn]
      exact congrArg List.ofFn <| funext fun j =>
        (forward_shards_iff logProbMinClamp (tokens j)).mpr (h j)
    · intro hne useChunkedTopk chunkSize hsize gradLoss
      refine (hasFDerivAt_denseLoss useChunkedTopk hsize tokens gradLoss hne).congr_fderiv ?_
      refine congrArg batchForm <| funext fun j => funext fun v => ?_
      rw [backward_shards]
      exact congrArg (fun w => lossGrad logProbMinClamp (tokens j) w * gradLoss j)
        (finProdFinEquiv.apply_symm_apply v).symm

/-- Two equal logits, one in the shard of each of two ranks, and the teacher at the first. -/
def evenToken (teacherLogProb : ℝ) : Token ℝ (2 * 1) 1 where
  studentLogits := fun _ => 0
  teacherTopkLogProbs := fun _ => teacherLogProb
  teacherTopkIds := fun _ => 0

theorem studentTopkLogProbs_evenToken (teacherLogProb : ℝ) (i : Fin 1) :
    (evenToken teacherLogProb).studentTopkLogProbs realExpLog i = -Real.log 2 := by
  change 0 - Real.log (∑ _ : Fin (2 * 1), Real.exp 0) = _
  rw [Real.exp_zero, sum_const, zero_sub]
  norm_num

theorem shardedMatchesDense_iff_two :
    ShardedMatchesDense (some (-30)) fun _ : Fin 1 => evenToken (-20) := by
  refine (shardedMatchesDense_iff (some (-30)) fun _ : Fin 1 => evenToken (-20)).mpr ?_
  intro j clamp hc i
  obtain rfl := Option.some.inj hc
  rw [studentTopkLogProbs_evenToken]
  have hlog := Real.log_le_sub_one_of_pos two_pos
  exact ⟨by linarith, by norm_num [evenToken]⟩

/-- The teacher's mass is `exp (-10)` in the sharded version and `exp (-20)` in the dense one. -/
theorem not_shardedMatchesDense_two :
    ¬ ShardedMatchesDense (some (-10)) fun _ : Fin 1 => evenToken (-20) := by
  intro h
  have hforward := h.forward false 1 Nat.one_pos
  rw [computeForwardKlTopk_eq realExpLog (some (-10)) false Nat.one_pos, List.map_ofFn,
    List.ofFn_inj] at hforward
  have hunclamped := (forward_shards_iff (some (-10)) (evenToken (-20))).mp (congrFun hforward 0)
  have hteacher := (hunclamped (-10) rfl 0).2
  norm_num [evenToken] at hteacher

end Verl.Distillation
