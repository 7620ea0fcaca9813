import Mathlib.Algebra.BigOperators.Fin
import Mathlib.Algebra.Order.BigOperators.Ring.Finset
import Verl.Lib.ExpLog
import Verl.Lib.Slices

/-!
# Top-k distillation losses

The forward KL divergence of the student from the teacher's top-k distribution, for each
token.  The dense version has the logits of all of the vocabulary in one tensor.  In the
sharded one every tensor-parallel rank has the logits of its part of the vocabulary, and
the ranks combine their values in all-reduces.

A collective is a function of what all ranks give to it.  The overlap with the student's
own top-k is left out.
-/

namespace Verl.Distillation

open Finset

variable {K : Type} [Field K] [LinearOrder K] [IsStrictOrderedRing K] {V k : Nat}

/-! ## The dense version -/

/-- The rows of a token. -/
structure Token (K : Type) (V k : Nat) where
  studentLogits : Fin V → K
  teacherTopkLogProbs : Fin k → K
  teacherTopkIds : Fin k → Fin V

/-- What is returned for a token. -/
@[ext]
structure TopkLoss (K : Type) where
  distillationLoss : K
  studentMass : K
  teacherMass : K

/-- `torch.logsumexp`. -/
def logsumexp (E : ExpLog K) (logits : Fin V → K) : K := E.log (∑ v, E.exp (logits v))

/-- `F.log_softmax`. -/
def logSoftmax (E : ExpLog K) (logits : Fin V → K) : Fin V → K :=
  fun v => logits v - logsumexp E logits

/-- `_chunked_topk_log_probs`: the loop `for s in range(0, N, chunk_size)`. -/
def chunkedTopkLogProbs (E : ExpLog K) (tokens : List (Token K V k)) (chunkSize : Nat) :
    List (Fin k → K) :=
  (List.range ((tokens.length + chunkSize - 1) / chunkSize)).flatMap fun chunk =>
    ((tokens.drop (chunk * chunkSize)).take chunkSize).map fun t =>
      let logZ := logsumexp E t.studentLogits
      fun i => t.studentLogits (t.teacherTopkIds i) - logZ

/-- `kl_divergence`. -/
def klDivergence (E : ExpLog K) (logQ logP : Fin k → K) : K :=
  ∑ i, E.exp (logP i) * (logP i - logQ i)

/-- `x.clamp_min(clamp)` if there is a clamp. -/
def clampMin (logProbMinClamp : Option K) (x : K) : K :=
  match logProbMinClamp with
  | some clamp => max x clamp
  | none => x

/-- The losses of a token from the student's log-probs at the teacher's ids. -/
def topkLoss (E : ExpLog K) (logProbMinClamp : Option K)
    (studentTopkLogProbs teacherTopkLogProbs : Fin k → K) : TopkLoss K where
  studentMass := ∑ i, E.exp (studentTopkLogProbs i)
  teacherMass := ∑ i, E.exp (teacherTopkLogProbs i)
  distillationLoss :=
    klDivergence E (fun i => clampMin logProbMinClamp (studentTopkLogProbs i))
      fun i => clampMin logProbMinClamp (teacherTopkLogProbs i)

/-- `compute_forward_kl_topk` of FSDP. -/
def computeForwardKlTopk (E : ExpLog K) (logProbMinClamp : Option K) (useChunkedTopk : Bool)
    (chunkSize : Nat) (tokens : List (Token K V k)) : List (TopkLoss K) :=
  let studentTopkLogProbs :=
    if useChunkedTopk then chunkedTopkLogProbs E tokens chunkSize
    else tokens.map fun t i => logSoftmax E t.studentLogits (t.teacherTopkIds i)
  List.zipWith (fun t studentTopkLogProbs =>
    topkLoss E logProbMinClamp studentTopkLogProbs t.teacherTopkLogProbs) tokens studentTopkLogProbs

/-- The student's log-probs at the teacher's ids. -/
def Token.studentTopkLogProbs (E : ExpLog K) (t : Token K V k) (i : Fin k) : K :=
  logSoftmax E t.studentLogits (t.teacherTopkIds i)

/-- The losses of a token. -/
def Token.loss (E : ExpLog K) (logProbMinClamp : Option K) (t : Token K V k) : TopkLoss K :=
  topkLoss E logProbMinClamp (t.studentTopkLogProbs E) t.teacherTopkLogProbs

/-- The chunks do not change the values. -/
theorem chunkedTopkLogProbs_eq (E : ExpLog K) (tokens : List (Token K V k)) {chunkSize : Nat}
    (hsize : 0 < chunkSize) :
    chunkedTopkLogProbs E tokens chunkSize = tokens.map (Token.studentTopkLogProbs E) := by
  have hcover : tokens.length ≤ (tokens.length + chunkSize - 1) / chunkSize * chunkSize := by
    have hmod := Nat.div_add_mod (tokens.length + chunkSize - 1) chunkSize
    have hlt := Nat.mod_lt (tokens.length + chunkSize - 1) hsize
    rw [Nat.mul_comm] at hmod
    omega
  have hslices := Slices.flatMap_range_slice
    ((tokens.length + chunkSize - 1) / chunkSize) chunkSize tokens
  rw [Slices.slice_zero_of_length_le hcover] at hslices
  have hmap := congrArg (List.map (Token.studentTopkLogProbs E)) hslices
  rw [List.map_flatMap] at hmap
  exact hmap

theorem computeForwardKlTopk_eq (E : ExpLog K) (logProbMinClamp : Option K)
    (useChunkedTopk : Bool) {chunkSize : Nat} (hsize : 0 < chunkSize)
    (tokens : List (Token K V k)) :
    computeForwardKlTopk E logProbMinClamp useChunkedTopk chunkSize tokens =
      tokens.map (Token.loss E logProbMinClamp) := by
  have hstudent : (if useChunkedTopk = true then chunkedTopkLogProbs E tokens chunkSize
      else tokens.map fun t i => logSoftmax E t.studentLogits (t.teacherTopkIds i)) =
        tokens.map (Token.studentTopkLogProbs E) := by
    cases useChunkedTopk with
    | true => exact chunkedTopkLogProbs_eq E tokens hsize
    | false => rfl
  rw [computeForwardKlTopk, hstudent, List.zipWith_map_right, List.zipWith_self]
  rfl

/-! ## The sharded version -/

variable {P n : Nat}

/-- `all_reduce` with `ReduceOp.SUM`. -/
def allReduceSum (f : Fin P → K) : K := ∑ rank, f rank

/-- The largest value of a list. -/
def maxOf : List K → K
  | [] => 0
  | x :: xs => xs.foldl max x

/-- `calculate_logits_max`, and `all_reduce` with `ReduceOp.MAX`. -/
def allReduceLogitsMax (vpLogits : Fin P → Fin n → K) : K :=
  maxOf (List.ofFn fun rank => maxOf (List.ofFn (vpLogits rank)))

/-- `vocab_parallel_log_softmax`. -/
def vocabParallelLogSoftmax (E : ExpLog K) (vpLogits : Fin P → Fin n → K) (rank : Fin P) :
    Fin n → K :=
  let logitsMax := allReduceLogitsMax vpLogits
  let sumExpLogits := allReduceSum fun rank => ∑ i, E.exp (vpLogits rank i - logitsMax)
  fun i => vpLogits rank i - logitsMax - E.log sumExpLogits

/-- The inputs of `_VocabParallelKLDivergence`: the logits of all ranks, and the teacher's
values, which every rank has. -/
structure ShardedToken (K : Type) (P n k : Nat) where
  vpLogits : Fin P → Fin n → K
  targetTopkLogps : Fin k → K
  targetTopkIndices : Fin k → Fin (P * n)

/-- `ctx.save_for_backward`. -/
structure SavedTensors (K : Type) (n k : Nat) where
  vpSourceProbs : Fin n → K
  targetTopkProbs : Fin k → K
  targetTopkIndices : Fin k → Fin n
  activeMask : Fin k → Bool
  targetActiveMass : K

namespace ShardedToken

variable (E : ExpLog K) (logProbMinClamp : Option K) (t : ShardedToken K P n k)

/-- `topk_indices_in_vocab_mask`. -/
def topkIndicesInVocabMask (rank : Fin P) (i : Fin k) : Bool :=
  let vocabStartIndex := rank.val * n
  let vocabEndIndex := vocabStartIndex + n
  decide (vocabStartIndex ≤ (t.targetTopkIndices i).val) &&
    decide ((t.targetTopkIndices i).val < vocabEndIndex)

/-- The indices in the shard, with the dummy 0 outside of it. -/
def localIndices [NeZero n] (rank : Fin P) (i : Fin k) : Fin n :=
  Fin.ofNat n
    (if t.topkIndicesInVocabMask rank i then (t.targetTopkIndices i).val - rank.val * n else 0)

/-- `target_topk_mass`, before the mask. -/
def targetTopkMass : K := ∑ i, E.exp (clampMin logProbMinClamp (t.targetTopkLogps i))

/-- `target_topk_probs` after the mask. -/
def targetTopkProbs (rank : Fin P) (i : Fin k) : K :=
  if t.topkIndicesInVocabMask rank i then E.exp (clampMin logProbMinClamp (t.targetTopkLogps i))
  else 0

/-- `target_topk_logps` after the mask. -/
def targetTopkLogpsMasked (rank : Fin P) (i : Fin k) : K :=
  if t.topkIndicesInVocabMask rank i then clampMin logProbMinClamp (t.targetTopkLogps i) else 0

/-- The log-probs at the local indices, before the clamp. -/
def gatheredLogps [NeZero n] (rank : Fin P) (i : Fin k) : K :=
  vocabParallelLogSoftmax E t.vpLogits rank (t.localIndices rank i)

/-- `vp_source_topk_logps` after the clamp and the mask. -/
def vpSourceTopkLogps [NeZero n] (rank : Fin P) (i : Fin k) : K :=
  if t.topkIndicesInVocabMask rank i then clampMin logProbMinClamp (t.gatheredLogps E rank i)
  else 0

/-- `active_mask`. -/
def activeMask [NeZero n] (rank : Fin P) (i : Fin k) : Bool :=
  match logProbMinClamp with
  | some clamp => t.topkIndicesInVocabMask rank i && decide (t.gatheredLogps E rank i > clamp)
  | none => t.topkIndicesInVocabMask rank i

/-- `target_active_mass`. -/
def targetActiveMass [NeZero n] : K :=
  match logProbMinClamp with
  | some _ => allReduceSum fun rank => ∑ i,
      if t.activeMask E logProbMinClamp rank i then t.targetTopkProbs E logProbMinClamp rank i
      else 0
  | none => t.targetTopkMass E logProbMinClamp

/-- `_VocabParallelKLDivergence.forward`: what a rank returns. -/
def forward [NeZero n] : TopkLoss K where
  distillationLoss := allReduceSum fun rank : Fin P => ∑ i,
    t.targetTopkProbs E logProbMinClamp rank i *
      (t.targetTopkLogpsMasked logProbMinClamp rank i -
        t.vpSourceTopkLogps E logProbMinClamp rank i)
  studentMass := allReduceSum fun rank : Fin P => ∑ i,
    E.exp (t.vpSourceTopkLogps E logProbMinClamp rank i) *
      if t.topkIndicesInVocabMask rank i then 1 else 0
  teacherMass := t.targetTopkMass E logProbMinClamp

/-- What `forward` saves on a rank. -/
def savedTensors [NeZero n] (rank : Fin P) : SavedTensors K n k where
  vpSourceProbs := fun v => E.exp (vocabParallelLogSoftmax E t.vpLogits rank v)
  targetTopkProbs := t.targetTopkProbs E logProbMinClamp rank
  targetTopkIndices := t.localIndices rank
  activeMask := t.activeMask E logProbMinClamp rank
  targetActiveMass := t.targetActiveMass E logProbMinClamp

end ShardedToken

/-- `_VocabParallelKLDivergence.backward` on a rank. -/
def SavedTensors.backward (saved : SavedTensors K n k) (gradLoss : K) (v : Fin n) : K :=
  let gradInput := saved.vpSourceProbs v * saved.targetActiveMass
  let sub i := saved.targetTopkProbs i * if saved.activeMask i then 1 else 0
  -- `scatter_add_` of `-sub`
  (gradInput + ∑ i with saved.targetTopkIndices i = v, -sub i) * gradLoss

/-- The shards of a token. -/
def Token.shards (t : Token K (P * n) k) : ShardedToken K P n k where
  vpLogits := fun rank i => t.studentLogits (finProdFinEquiv (rank, i))
  targetTopkLogps := t.teacherTopkLogProbs
  targetTopkIndices := t.teacherTopkIds

end Verl.Distillation
