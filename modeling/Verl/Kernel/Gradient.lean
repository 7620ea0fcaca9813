import Mathlib
import Verl.Kernel.BackwardMethods
import Verl.Kernel.ForwardPlain

/-!
# The backward pass is the gradient of the forward pass

The hidden states and the weights move along a line.  Then the log-probs and the entropies
of the plain path have a derivative, and it is the product of the direction with what the
backward kernels return for the values that the forward kernels saved.
-/

namespace Verl.Kernel

open Finset
open Tiles (cdiv)
open OnlineSoftmax
open Distillation (realExpLog)

/-! ## The plain path -/

section

variable {vocabSize : Nat} {logits : ℝ → Nat → ℝ} {dir : Nat → ℝ} {x : ℝ}

theorem softmax_eq_exp (l : Nat → ℝ) {v : Nat} (hv : v < vocabSize) :
    softmax realExpLog vocabSize l v = Real.exp (l v - logsumexp realExpLog vocabSize l) := by
  have hpos := sum_exp_pos (Nat.zero_lt_of_lt hv) l
  change _ / _ = Real.exp (l v - Real.log (∑ v ∈ range vocabSize, Real.exp (l v)))
  rw [Real.exp_sub, Real.exp_log hpos]
  rfl

/-- The mean of the direction. -/
noncomputable def softmaxMean (vocabSize : Nat) (l dir : Nat → ℝ) : ℝ :=
  ∑ v ∈ range vocabSize, softmax realExpLog vocabSize l v * dir v

theorem hasDerivAt_logsumexp (hvocab : 0 < vocabSize)
    (h : ∀ v < vocabSize, HasDerivAt (fun s => logits s v) (dir v) x) :
    HasDerivAt (fun s => logsumexp realExpLog vocabSize (logits s))
      (softmaxMean vocabSize (logits x) dir) x := by
  have hsum : HasDerivAt (fun s => ∑ v ∈ range vocabSize, Real.exp (logits s v))
      (∑ v ∈ range vocabSize, Real.exp (logits x v) * dir v) x :=
    HasDerivAt.fun_sum fun v hv => (h v (mem_range.mp hv)).exp
  refine (hsum.log (sum_exp_pos hvocab (logits x)).ne').congr_deriv ?_
  rw [softmaxMean, sum_div]
  refine sum_congr rfl fun v _ => ?_
  exact (div_mul_eq_mul_div _ _ _).symm

theorem hasDerivAt_logprobs {label : Nat} (hlabel : label < vocabSize)
    (h : ∀ v < vocabSize, HasDerivAt (fun s => logits s v) (dir v) x) :
    HasDerivAt (fun s => logprobsFromLogits realExpLog vocabSize (logits s) label)
      (dir label - softmaxMean vocabSize (logits x) dir) x :=
  (h label hlabel).sub (hasDerivAt_logsumexp (Nat.zero_lt_of_lt hlabel) h)

theorem hasDerivAt_softmax (h : ∀ v < vocabSize, HasDerivAt (fun s => logits s v) (dir v) x)
    {v : Nat} (hv : v < vocabSize) :
    HasDerivAt (fun s => softmax realExpLog vocabSize (logits s) v)
      (softmax realExpLog vocabSize (logits x) v *
        (dir v - softmaxMean vocabSize (logits x) dir)) x := by
  simp only [softmax_eq_exp _ hv]
  exact ((h v hv).sub (hasDerivAt_logsumexp (Nat.zero_lt_of_lt hv) h)).exp

theorem hasDerivAt_entropy (hvocab : 0 < vocabSize)
    (h : ∀ v < vocabSize, HasDerivAt (fun s => logits s v) (dir v) x) :
    HasDerivAt (fun s => entropyFromLogits realExpLog vocabSize (logits s))
      (∑ v ∈ range vocabSize, -softmax realExpLog vocabSize (logits x) v *
        (logits x v - ∑ w ∈ range vocabSize,
          softmax realExpLog vocabSize (logits x) w * logits x w) * dir v) x := by
  have hmean : HasDerivAt
      (fun s => ∑ v ∈ range vocabSize, softmax realExpLog vocabSize (logits s) v * logits s v)
      (∑ v ∈ range vocabSize, (softmax realExpLog vocabSize (logits x) v *
        (dir v - softmaxMean vocabSize (logits x) dir) * logits x v +
          softmax realExpLog vocabSize (logits x) v * dir v)) x :=
    HasDerivAt.fun_sum fun v hv =>
      (hasDerivAt_softmax h (mem_range.mp hv)).mul (h v (mem_range.mp hv))
  let p := softmax realExpLog vocabSize (logits x)
  let mean := ∑ w ∈ range vocabSize, p w * logits x w
  have hleft : ∑ v ∈ range vocabSize,
      p v * (dir v - softmaxMean vocabSize (logits x) dir) * logits x v =
        ∑ v ∈ range vocabSize, p v * dir v * logits x v -
          mean * softmaxMean vocabSize (logits x) dir := by
    rw [sum_mul, ← sum_sub_distrib]
    exact sum_congr rfl fun v _ => by ring
  have hright : ∑ v ∈ range vocabSize, -p v * (logits x v - mean) * dir v =
      mean * softmaxMean vocabSize (logits x) dir -
        ∑ v ∈ range vocabSize, p v * dir v * logits x v := by
    rw [softmaxMean, mul_sum, ← sum_sub_distrib]
    exact sum_congr rfl fun v _ => by ring
  refine ((hasDerivAt_logsumexp hvocab h).sub hmean).congr_deriv ?_
  rw [sum_add_distrib]
  change softmaxMean _ _ _ - (_ + softmaxMean vocabSize (logits x) dir) = _
  rw [sub_add_cancel_right]
  exact (congrArg Neg.neg hleft).trans ((neg_sub _ _).trans hright.symm)

/-- The gradient of a loss of one token in its logits. -/
theorem hasDerivAt_token {label : Nat} (hlabel : label < vocabSize) (dLogprobs dEntropy : ℝ)
    (h : ∀ v < vocabSize, HasDerivAt (fun s => logits s v) (dir v) x) :
    HasDerivAt
      (fun s => dLogprobs * logprobsFromLogits realExpLog vocabSize (logits s) label +
        dEntropy * entropyFromLogits realExpLog vocabSize (logits s))
      (∑ v ∈ range vocabSize, (-dLogprobs *
          (softmax realExpLog vocabSize (logits x) v - if v = label then 1 else 0) +
        dEntropy * -softmax realExpLog vocabSize (logits x) v *
          (logits x v - ∑ w ∈ range vocabSize,
            softmax realExpLog vocabSize (logits x) w * logits x w)) * dir v) x := by
  refine (((hasDerivAt_logprobs hlabel h).const_mul dLogprobs).add
    ((hasDerivAt_entropy (Nat.zero_lt_of_lt hlabel) h).const_mul dEntropy)).congr_deriv ?_
  have hlabelSum : dir label = ∑ v ∈ range vocabSize, (if v = label then 1 else 0) * dir v := by
    simp only [ite_mul, one_mul, zero_mul]
    rw [sum_ite_eq' _ label, if_pos (mem_range.mpr hlabel)]
  rw [hlabelSum, softmaxMean, ← sum_sub_distrib, mul_sum, mul_sum, ← sum_add_distrib]
  exact sum_congr rfl fun v _ => by ring

end

/-! ## Along a line -/

/-- Hidden states and weights on a line. -/
def KernelArgs.along (a : KernelArgs ℝ) (dirHidden dirWeight : Nat → ℝ) (s : ℝ) : KernelArgs ℝ :=
  { a with
    hidden := fun i => a.hidden i + s * dirHidden i
    weight := fun i => a.weight i + s * dirWeight i }

theorem KernelArgs.along_zero (a : KernelArgs ℝ) (dirHidden dirWeight : Nat → ℝ) :
    a.along dirHidden dirWeight 0 = a := by
  simp [KernelArgs.along]

/-- The loss that the backward pass is about: the sum of the results of the plain path with the
gradients that come in. -/
noncomputable def plainLoss (a : KernelArgs ℝ) (dLogprobs dEntropy : Nat → ℝ) : ℝ :=
  ∑ token ∈ range a.numTokens,
    (dLogprobs token *
        logprobsFromLogits realExpLog a.vocabSize (a.logits token) (a.labels token) +
      dEntropy token * entropyFromLogits realExpLog a.vocabSize (a.logits token))

/-- How a product moves. -/
noncomputable def dotDir (a : KernelArgs ℝ) (dirHidden dirWeight : Nat → ℝ) (token col : Nat) :
    ℝ :=
  ∑ k ∈ range a.hiddenSize,
    (dirHidden (token * a.hiddenSize + k) * a.weight (col * a.hiddenSize + k) +
      a.hidden (token * a.hiddenSize + k) * dirWeight (col * a.hiddenSize + k))

theorem hasDerivAt_logits (a : KernelArgs ℝ) (dirHidden dirWeight : Nat → ℝ) (token col : Nat) :
    HasDerivAt (fun s => (a.along dirHidden dirWeight s).logits token col)
      (dotDir a dirHidden dirWeight token col * a.rcpTemperature) 0 := by
  have hentry (f dir : Nat → ℝ) (i : Nat) : HasDerivAt (fun s => f i + s * dir i) (dir i) 0 := by
    have hmul := ((hasDerivAt_id (0 : ℝ)).mul_const (dir i)).const_add (f i)
    rw [one_mul] at hmul
    exact hmul
  have hdot : HasDerivAt
      (fun s => ∑ k ∈ range a.hiddenSize,
        (a.hidden (token * a.hiddenSize + k) + s * dirHidden (token * a.hiddenSize + k)) *
          (a.weight (col * a.hiddenSize + k) + s * dirWeight (col * a.hiddenSize + k)))
      (dotDir a dirHidden dirWeight token col) 0 := by
    refine (HasDerivAt.fun_sum fun k _ => (hentry a.hidden dirHidden _).mul
      (hentry a.weight dirWeight _)).congr_deriv (sum_congr rfl fun k _ => ?_)
    rw [zero_mul, zero_mul, add_zero, add_zero]
  exact hdot.mul_const a.rcpTemperature

/-! ## The kernels -/

/-- The gradient that the kernels use is that of the plain path. -/
theorem logitGrad_of_ok {b : BackwardArgs ℝ} {token v : Nat} {cell : ForwardCell ℝ}
    (hrank : b.rank = 0) (hcell : ForwardOk b.vocabSize (b.logits token) cell)
    (hmaximum : b.maximum token = cell.maximum) (haccu : b.accu token = cell.accumulate)
    (hentropyB : b.entropyB token = cell.entropyB) :
    logitGrad b token v =
      (-b.dLogprobs token * (softmax realExpLog b.vocabSize (b.logits token) v -
          if v = b.labels token then 1 else 0) +
        b.dEntropy token * -softmax realExpLog b.vocabSize (b.logits token) v *
          (b.logits token v - ∑ w ∈ range b.vocabSize,
            softmax realExpLog b.vocabSize (b.logits token) w * b.logits token w)) *
        b.rcpTemperature := by
  have hprob : Real.exp (b.logits token v - b.maximum token) / b.accu token =
      softmax realExpLog b.vocabSize (b.logits token) v := by
    change _ = Real.exp (b.logits token v) / ∑ v ∈ range b.vocabSize, Real.exp (b.logits token v)
    rw [← hcell.accumulate, hmaximum, haccu, Real.exp_sub, div_div, mul_comm cell.accumulate]
  simp only [logitGrad, hprob, hrank, Nat.zero_mul, Nat.add_zero, hentropyB, hcell.entropyB]

/-- Products with the gradient of the logits are the gradient in the matrices. -/
theorem sum_gradients {b : BackwardArgs ℝ} {g : Gradients ℝ} (hg : GradientsOk b g)
    (dirHidden dirWeight : Nat → ℝ) :
    ∑ token ∈ range b.numTokens, ∑ v ∈ range b.vocabSize,
        logitGrad b token v * dotDir b.toKernelArgs dirHidden dirWeight token v =
      ∑ token ∈ range b.numTokens, ∑ k ∈ range b.hiddenSize,
          g.hidden (token, k) * dirHidden (token * b.hiddenSize + k) +
        ∑ v ∈ range b.vocabSize, ∑ k ∈ range b.hiddenSize,
          g.weight (v, k) * dirWeight (v * b.hiddenSize + k) := by
  have hhidden (token : Nat) (htoken : token ∈ range b.numTokens) :
      ∑ k ∈ range b.hiddenSize, g.hidden (token, k) * dirHidden (token * b.hiddenSize + k) =
        ∑ v ∈ range b.vocabSize, ∑ k ∈ range b.hiddenSize, logitGrad b token v *
          (dirHidden (token * b.hiddenSize + k) * b.weight (v * b.hiddenSize + k)) := by
    rw [sum_comm]
    refine sum_congr rfl fun k hk => ?_
    rw [hg.hidden token (mem_range.mp htoken) k (mem_range.mp hk), sum_mul]
    exact sum_congr rfl fun v _ => by ring
  have hweight (v : Nat) (hv : v ∈ range b.vocabSize) :
      ∑ k ∈ range b.hiddenSize, g.weight (v, k) * dirWeight (v * b.hiddenSize + k) =
        ∑ token ∈ range b.numTokens, ∑ k ∈ range b.hiddenSize, logitGrad b token v *
          (b.hidden (token * b.hiddenSize + k) * dirWeight (v * b.hiddenSize + k)) := by
    rw [sum_comm]
    refine sum_congr rfl fun k hk => ?_
    rw [hg.weight v (mem_range.mp hv) k (mem_range.mp hk), sum_mul]
    exact sum_congr rfl fun token _ => by ring
  rw [sum_congr rfl hhidden, sum_congr rfl hweight, sum_comm (s := range b.vocabSize),
    ← sum_add_distrib]
  refine sum_congr rfl fun token _ => ?_
  rw [← sum_add_distrib]
  refine sum_congr rfl fun v _ => ?_
  rw [dotDir, mul_sum, ← sum_add_distrib]
  exact sum_congr rfl fun k _ => mul_add _ _ _

/-- The fused forward and backward passes, with any method and in any order of the programs, give
the gradient of the plain path: in every direction the loss moves by the products of the results
with the direction. -/
theorem linearCrossEntropy_gradient (a : KernelArgs ℝ) (blocks epilogueBlocks : BlockSizes)
    (vocabPerSplit : Nat) (events : List KernelEvent) (epiloguePrograms : List Nat)
    (buffers : KernelBuffers ℝ) (out : Nat → ForwardCell ℝ) (dLogprobs dEntropy : Nat → ℝ)
    (backwardBlocks : BlockSizes) (groupSizeM : Nat) (run : BackwardRun ℝ)
    (hblocks : BlocksOk a.hiddenSize blocks) (hsize : 0 < vocabPerSplit)
    (hepilogue : 0 < epilogueBlocks.m ∧ 0 < epilogueBlocks.n)
    (hevents : GridEvents (cdiv a.numTokens blocks.m * cdiv a.vocabSize vocabPerSplit) events)
    (hprograms : epiloguePrograms.Perm (List.range (cdiv a.numTokens epilogueBlocks.m)))
    (hrank : a.rank = 0) (hvocab : 0 < a.vocabSize)
    (hlabels : ∀ token < a.numTokens, a.labels token < a.vocabSize)
    (hbackward : BlocksOk a.hiddenSize backwardBlocks) (hG : 0 < groupSizeM)
    (hrun : run.Complete (saveForBackward a
      (efficientEntropyForward realExpLog a blocks epilogueBlocks vocabPerSplit events
        epiloguePrograms buffers out) dLogprobs dEntropy) backwardBlocks)
    (dirHidden dirWeight : Nat → ℝ) :
    let cells := efficientEntropyForward realExpLog a blocks epilogueBlocks vocabPerSplit events
      epiloguePrograms buffers out
    let g := efficientEntropyBackward realExpLog (saveForBackward a cells dLogprobs dEntropy)
      backwardBlocks groupSizeM run
    HasDerivAt (fun s => plainLoss (a.along dirHidden dirWeight s) dLogprobs dEntropy)
      (∑ token ∈ range a.numTokens, ∑ k ∈ range a.hiddenSize,
          g.hidden (token, k) * dirHidden (token * a.hiddenSize + k) +
        ∑ v ∈ range a.vocabSize, ∑ k ∈ range a.hiddenSize,
          g.weight (v, k) * dirWeight (v * a.hiddenSize + k)) 0 := by
  intro cells g
  let b := saveForBackward a cells dLogprobs dEntropy
  have hg : GradientsOk b g := hrun.gradientsOk hbackward hG hvocab
  have hcells (token : Nat) (htoken : token < a.numTokens) :
      ForwardOk a.vocabSize (a.logits token) (cells token) :=
    efficientEntropyForward_ok hblocks hsize hepilogue hevents hprograms htoken hvocab buffers out
  have htokens (token : Nat) (htoken : token ∈ range a.numTokens) : HasDerivAt
      (fun s => dLogprobs token * logprobsFromLogits realExpLog a.vocabSize
          ((a.along dirHidden dirWeight s).logits token) (a.labels token) +
        dEntropy token * entropyFromLogits realExpLog a.vocabSize
          ((a.along dirHidden dirWeight s).logits token))
      (∑ v ∈ range a.vocabSize,
        logitGrad b token v * dotDir a dirHidden dirWeight token v) 0 := by
    have htoken := mem_range.mp htoken
    have hderiv := hasDerivAt_token (hlabels token htoken) (dLogprobs token) (dEntropy token)
      fun v _ => hasDerivAt_logits a dirHidden dirWeight token v
    rw [KernelArgs.along_zero] at hderiv
    refine hderiv.congr_deriv (sum_congr rfl fun v _ => ?_)
    have hgrad : logitGrad b token v = _ * a.rcpTemperature :=
      logitGrad_of_ok hrank (hcells token htoken) rfl rfl rfl
    have hcomm (y d r : ℝ) : y * (d * r) = y * r * d := by ring
    rw [hgrad]
    exact hcomm _ _ _
  have hloss : HasDerivAt (fun s => plainLoss (a.along dirHidden dirWeight s) dLogprobs dEntropy)
      (∑ token ∈ range a.numTokens, ∑ v ∈ range a.vocabSize,
        logitGrad b token v * dotDir a dirHidden dirWeight token v) 0 :=
    HasDerivAt.fun_sum htokens
  exact hloss.congr_deriv (sum_gradients hg dirHidden dirWeight)

/-- One token and two splits. -/
theorem linearCrossEntropy_gradient_two_splits :
    let a : KernelArgs ℝ := ⟨0, fun _ => 1, fun i => i, fun _ => 1, 1, 1, 2, 1, false⟩
    let cells := efficientEntropyForward realExpLog a ⟨1, 1, 1⟩ ⟨1, 1, 1⟩ 1
      [.launched 0, .launched 1, .stored 1, .stored 0] [0] ⟨fun _ => ⟨none, 0, 0, true⟩, fun _ => 7⟩
      (fun _ => ⟨7, 7, 7, 7, 7⟩)
    let g := efficientEntropyBackward realExpLog
      (saveForBackward a cells (fun _ => 1) (fun _ => 1)) ⟨1, 1, 1⟩ 1
      (.splitDlogitsN 1 (fun _ => [0]) ⟨fun _ => 7, fun _ => 7, fun _ => 7⟩)
    HasDerivAt (fun s => plainLoss (a.along (fun _ => 1) (fun _ => 1) s) (fun _ => 1) (fun _ => 1))
      (∑ token ∈ range 1, ∑ k ∈ range 1, g.hidden (token, k) * 1 +
        ∑ v ∈ range 2, ∑ k ∈ range 1, g.weight (v, k) * 1) 0 := by
  intro a cells g
  have hprograms : [0].Perm (List.range (cdiv 1 1)) := by decide
  have htiles : [0].Perm (List.range (cdiv 1 1 * cdiv 1 1)) := by decide
  have hblocks : BlocksOk a.hiddenSize ⟨1, 1, 1⟩ :=
    ⟨Nat.one_pos, Nat.one_pos, Nat.one_pos, one_dvd _⟩
  exact linearCrossEntropy_gradient a ⟨1, 1, 1⟩ ⟨1, 1, 1⟩ 1
    [.launched 0, .launched 1, .stored 1, .stored 0] [0] ⟨fun _ => ⟨none, 0, 0, true⟩, fun _ => 7⟩
    (fun _ => ⟨7, 7, 7, 7, 7⟩) (fun _ => 1) (fun _ => 1) ⟨1, 1, 1⟩ 1
    (.splitDlogitsN 1 (fun _ => [0]) ⟨fun _ => 7, fun _ => 7, fun _ => 7⟩) hblocks Nat.one_pos
    ⟨Nat.one_pos, Nat.one_pos⟩ gridEvents_two hprograms rfl Nat.two_pos
    (fun _ _ => Nat.one_lt_two) hblocks Nat.one_pos ⟨Nat.one_pos, fun _ _ => htiles⟩
    (fun _ => 1) (fun _ => 1)

end Verl.Kernel
