import Mathlib.Algebra.BigOperators.Field
import Mathlib.Analysis.SpecialFunctions.Log.Deriv
import Mathlib.Analysis.SpecialFunctions.ExpDeriv
import Mathlib.Analysis.Calculus.FDeriv.Pi
import Verl.Distillation.TopkLosses

/-!
# The gradient of the dense loss

The dense distillation loss over the reals, and its differential in the logits of the
student (`hasFDerivAt_denseLoss`).  A clamped log-prob does not move with the logits, so
only the active ids receive a gradient.
-/

namespace Verl.Distillation

open Finset hiding sum_apply

variable {V k N : Nat}

/-- The exponential and the logarithm of the reals. -/
noncomputable def realExpLog : ExpLog ℝ where
  exp := Real.exp
  log := Real.log
  exp_zero := Real.exp_zero
  exp_pos := Real.exp_pos
  exp_mono := Real.exp_monotone
  log_one := Real.log_one
  log_strictMono := Real.strictMonoOn_log

/-! ## Active ids -/

/-- The clamp is below the log-prob, which then receives a gradient. -/
def Active (logProbMinClamp : Option ℝ) (logProb : ℝ) : Prop :=
  ∀ clamp ∈ logProbMinClamp, clamp < logProb

noncomputable instance (logProbMinClamp : Option ℝ) (logProb : ℝ) :
    Decidable (Active logProbMinClamp logProb) :=
  Classical.propDecidable _

/-- The teacher's probability of an active id. -/
noncomputable def activeProb (logProbMinClamp : Option ℝ) (t : Token ℝ V k) (i : Fin k) : ℝ :=
  if Active logProbMinClamp (t.studentTopkLogProbs realExpLog i) then
    Real.exp (clampMin logProbMinClamp (t.teacherTopkLogProbs i))
  else 0

/-- `m_A * p_v`, less the probabilities of the active ids at `v`. -/
noncomputable def lossGrad (logProbMinClamp : Option ℝ) (t : Token ℝ V k) (v : Fin V) : ℝ :=
  Real.exp (logSoftmax realExpLog t.studentLogits v) * ∑ i, activeProb logProbMinClamp t i -
    ∑ i with t.teacherTopkIds i = v, activeProb logProbMinClamp t i

/-! ## The differential -/

/-- A linear form in the logits, from its coefficients. -/
noncomputable def linearForm (grad : Fin V → ℝ) : (Fin V → ℝ) →L[ℝ] ℝ :=
  ∑ v, grad v • (ContinuousLinearMap.proj v : (Fin V → ℝ) →L[ℝ] ℝ)

theorem linearForm_apply (grad dir : Fin V → ℝ) :
    linearForm grad dir = ∑ v, grad v * dir v := by
  rw [linearForm, sum_apply]
  rfl

/-- The differential of a log-prob in the logits. -/
noncomputable def logSoftmaxDeriv (logits : Fin V → ℝ) (w : Fin V) : (Fin V → ℝ) →L[ℝ] ℝ :=
  linearForm fun v => (if v = w then 1 else 0) - Real.exp (logSoftmax realExpLog logits v)

theorem logSoftmaxDeriv_apply (logits dir : Fin V → ℝ) (w : Fin V) :
    logSoftmaxDeriv logits w dir =
      dir w - ∑ v, Real.exp (logSoftmax realExpLog logits v) * dir v := by
  rw [logSoftmaxDeriv, linearForm_apply]
  simp only [sub_mul, sum_sub_distrib, ite_mul, one_mul, zero_mul, sum_ite_eq', mem_univ, if_true]

theorem hasFDerivAt_logSoftmax (logits : Fin V → ℝ) (w : Fin V) :
    HasFDerivAt (fun z => logSoftmax realExpLog z w) (logSoftmaxDeriv logits w) logits := by
  have hpos : 0 < ∑ v, Real.exp (logits v) := sum_pos (fun v _ => Real.exp_pos _) ⟨w, mem_univ w⟩
  have hsum : HasFDerivAt (fun z : Fin V → ℝ => ∑ v, Real.exp (z v))
      (linearForm fun v => Real.exp (logits v)) logits :=
    HasFDerivAt.fun_sum fun v _ => (hasFDerivAt_apply v logits).exp
  refine ((hasFDerivAt_apply w logits).sub (hsum.log hpos.ne')).congr_fderiv ?_
  ext dir
  have hprob : ∀ v, Real.exp (logSoftmax realExpLog logits v) =
      (∑ v, Real.exp (logits v))⁻¹ * Real.exp (logits v) := by
    intro v
    change Real.exp (logits v - Real.log (∑ v, Real.exp (logits v))) = _
    rw [Real.exp_sub, Real.exp_log hpos, div_eq_inv_mul]
  rw [logSoftmaxDeriv_apply]
  simp only [hprob, mul_assoc]
  rw [← mul_sum, ← linearForm_apply]
  rfl

/-- Clamped, a log-prob moves with the logits when it is active. -/
theorem hasFDerivAt_clampMin {logProbMinClamp : Option ℝ} {t : Token ℝ V k} {i : Fin k}
    (hne : ∀ clamp ∈ logProbMinClamp, t.studentTopkLogProbs realExpLog i ≠ clamp) :
    HasFDerivAt
      (fun z => clampMin logProbMinClamp (logSoftmax realExpLog z (t.teacherTopkIds i)))
      (if Active logProbMinClamp (t.studentTopkLogProbs realExpLog i) then
        logSoftmaxDeriv t.studentLogits (t.teacherTopkIds i) else 0) t.studentLogits := by
  have hderiv := hasFDerivAt_logSoftmax t.studentLogits (t.teacherTopkIds i)
  have hcont := hderiv.continuousAt
  by_cases hactive : Active logProbMinClamp (t.studentTopkLogProbs realExpLog i)
  · rw [if_pos hactive]
    refine hderiv.congr_of_eventuallyEq ?_
    cases logProbMinClamp with
    | none => exact Filter.Eventually.of_forall fun _ => rfl
    | some clamp =>
        filter_upwards [hcont.eventually_const_lt (hactive clamp rfl)] with z hz
        exact max_eq_left hz.le
  · rw [if_neg hactive]
    cases logProbMinClamp with
    | none => exact absurd (fun clamp hc => nomatch hc) hactive
    | some clamp =>
        have hlt : t.studentTopkLogProbs realExpLog i < clamp := by
          refine lt_of_le_of_ne (not_lt.mp fun h => hactive ?_) (hne clamp rfl)
          intro c hc
          obtain rfl := Option.some.inj hc
          exact h
        refine (hasFDerivAt_const clamp _).congr_of_eventuallyEq ?_
        filter_upwards [hcont.eventually_lt_const hlt] with z hz
        exact max_eq_right hz.le

/-- The loss of a token whose logits are `z`. -/
theorem hasFDerivAt_loss {logProbMinClamp : Option ℝ} {t : Token ℝ V k} (gradLoss : ℝ)
    (hne : ∀ clamp ∈ logProbMinClamp, ∀ i, t.studentTopkLogProbs realExpLog i ≠ clamp) :
    HasFDerivAt
      (fun z => gradLoss *
        (Token.loss realExpLog logProbMinClamp { t with studentLogits := z }).distillationLoss)
      (linearForm fun v => lossGrad logProbMinClamp t v * gradLoss) t.studentLogits := by
  have hsum := HasFDerivAt.fun_sum fun i (_ : i ∈ univ) =>
    ((hasFDerivAt_clampMin fun clamp hc => hne clamp hc i).const_sub
      (clampMin logProbMinClamp (t.teacherTopkLogProbs i))).const_mul
        (Real.exp (clampMin logProbMinClamp (t.teacherTopkLogProbs i)))
  refine (hsum.const_mul gradLoss).congr_fderiv ?_
  ext dir
  have hterm : ∀ i, (Real.exp (clampMin logProbMinClamp (t.teacherTopkLogProbs i)) •
      -(if Active logProbMinClamp (t.studentTopkLogProbs realExpLog i) then
        logSoftmaxDeriv t.studentLogits (t.teacherTopkIds i) else 0)) dir =
      activeProb logProbMinClamp t i *
        (∑ v, Real.exp (logSoftmax realExpLog t.studentLogits v) * dir v) -
          activeProb logProbMinClamp t i * dir (t.teacherTopkIds i) := by
    intro i
    rw [activeProb]
    by_cases hactive : Active logProbMinClamp (t.studentTopkLogProbs realExpLog i)
    · rw [if_pos hactive, if_pos hactive, smul_apply,
        neg_apply, logSoftmaxDeriv_apply, smul_eq_mul]
      ring
    · rw [if_neg hactive, if_neg hactive, neg_zero, smul_zero, zero_apply,
        zero_mul, zero_mul, sub_zero]
  have hscatter : ∑ v, (∑ i with t.teacherTopkIds i = v, activeProb logProbMinClamp t i) * dir v =
      ∑ i, activeProb logProbMinClamp t i * dir (t.teacherTopkIds i) := by
    rw [← sum_fiberwise univ t.teacherTopkIds]
    refine sum_congr rfl fun v _ => ?_
    rw [sum_mul]
    refine sum_congr rfl fun i hi => ?_
    rw [(mem_filter.mp hi).2]
  rw [smul_apply, sum_apply, smul_eq_mul,
    sum_congr rfl fun i _ => hterm i, sum_sub_distrib, ← sum_mul, linearForm_apply, ← hscatter,
    mul_sum, ← sum_sub_distrib, mul_sum]
  refine sum_congr rfl fun v _ => ?_
  rw [lossGrad]
  ring

/-- The losses of a batch whose logits are `z`, with the incoming gradients. -/
noncomputable def denseLoss (logProbMinClamp : Option ℝ) (useChunkedTopk : Bool)
    (chunkSize : Nat) (tokens : Fin N → Token ℝ V k) (gradLoss : Fin N → ℝ)
    (z : Fin N → Fin V → ℝ) : ℝ :=
  (List.zipWith (fun grad loss => grad * loss.distillationLoss) (List.ofFn gradLoss)
    (computeForwardKlTopk realExpLog logProbMinClamp useChunkedTopk chunkSize
      (List.ofFn fun j => { tokens j with studentLogits := z j }))).sum

/-- A linear form in the logits of a batch. -/
noncomputable def batchForm (grad : Fin N → Fin V → ℝ) : (Fin N → Fin V → ℝ) →L[ℝ] ℝ :=
  ∑ j, (linearForm (grad j)).comp
    (ContinuousLinearMap.proj j : (Fin N → Fin V → ℝ) →L[ℝ] Fin V → ℝ)

theorem denseLoss_eq (logProbMinClamp : Option ℝ) (useChunkedTopk : Bool) {chunkSize : Nat}
    (hsize : 0 < chunkSize) (tokens : Fin N → Token ℝ V k) (gradLoss : Fin N → ℝ)
    (z : Fin N → Fin V → ℝ) :
    denseLoss logProbMinClamp useChunkedTopk chunkSize tokens gradLoss z =
      ∑ j, gradLoss j * (Token.loss realExpLog logProbMinClamp
        { tokens j with studentLogits := z j }).distillationLoss := by
  rw [denseLoss, computeForwardKlTopk_eq realExpLog logProbMinClamp useChunkedTopk hsize,
    List.map_ofFn, ← List.sum_ofFn]
  congr 1
  refine List.ext_getElem ?_ fun j h h' => ?_
  · simp only [List.length_zipWith, List.length_ofFn, min_self]
  · simp only [List.getElem_zipWith, List.getElem_ofFn, Function.comp_apply]

/-- The gradient of a batch is the gradients of its tokens. -/
theorem hasFDerivAt_denseLoss {logProbMinClamp : Option ℝ} (useChunkedTopk : Bool)
    {chunkSize : Nat} (hsize : 0 < chunkSize) (tokens : Fin N → Token ℝ V k)
    (gradLoss : Fin N → ℝ)
    (hne : ∀ j, ∀ clamp ∈ logProbMinClamp, ∀ i,
      (tokens j).studentTopkLogProbs realExpLog i ≠ clamp) :
    HasFDerivAt (denseLoss logProbMinClamp useChunkedTopk chunkSize tokens gradLoss)
      (batchForm fun j v => lossGrad logProbMinClamp (tokens j) v * gradLoss j)
      fun j => (tokens j).studentLogits := by
  have htoken : ∀ j, HasFDerivAt
      (fun z : Fin N → Fin V → ℝ => gradLoss j * (Token.loss realExpLog logProbMinClamp
        { tokens j with studentLogits := z j }).distillationLoss)
      ((linearForm fun v => lossGrad logProbMinClamp (tokens j) v * gradLoss j).comp
        (ContinuousLinearMap.proj j : (Fin N → Fin V → ℝ) →L[ℝ] Fin V → ℝ))
      fun j => (tokens j).studentLogits := by
    intro j
    have hproj : HasFDerivAt (fun z : Fin N → Fin V → ℝ => z j)
        (ContinuousLinearMap.proj j : (Fin N → Fin V → ℝ) →L[ℝ] Fin V → ℝ)
        fun j => (tokens j).studentLogits := hasFDerivAt_apply j _
    exact HasFDerivAt.comp (f := fun z : Fin N → Fin V → ℝ => z j)
      (fun j => (tokens j).studentLogits) (hasFDerivAt_loss (gradLoss j) (hne j)) hproj
  refine (HasFDerivAt.fun_sum fun j _ => htoken j).congr_of_eventuallyEq ?_
  exact Filter.Eventually.of_forall fun z =>
    denseLoss_eq logProbMinClamp useChunkedTopk hsize tokens gradLoss z

end Verl.Distillation
