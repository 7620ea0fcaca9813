import Mathlib.Data.List.Perm.Basic
import Verl.Lib.ExpLog
import Verl.Lib.Tiles

/-!
# The forward kernels of the fused linear cross entropy

The logits of a token are never stored.  A program of the main loop has one block of
tokens and one split of the vocabulary.  It goes over the split tile by tile, with the
largest logit so far, the sum of exponentials and the sum of logits with these weights.
The epilogue goes over the splits of a token.  With tensor parallelism every rank has the
weights of its part of the vocabulary, and the ranks combine their values in between.

Arithmetic is exact.  A logit of minus infinity is `none`, and `nan` is set where an
exponential of `inf - inf` is taken.

The programs of the main loop run at the same time.  A program does something to memory
when it is launched and when it stores its results.  Without a reduction the log-probs
and the scalar that the first program sets to zero are the same memory.
-/

namespace Verl.Kernel

open Finset
open Tiles (cdiv)

variable {K : Type} [Field K] [LinearOrder K] [IsStrictOrderedRing K]

/-- What is given to the kernels of one rank.  The two matrices are contiguous. -/
structure KernelArgs (K : Type) where
  rank : Nat
  hidden : Nat → K
  weight : Nat → K
  labels : Nat → Nat
  numTokens : Nat
  hiddenSize : Nat
  vocabSize : Nat
  rcpTemperature : K
  useTma : Bool

/-- `BLOCK_SIZE_M`, `BLOCK_SIZE_N` and `BLOCK_SIZE_K`. -/
structure BlockSizes where
  m : Nat
  n : Nat
  k : Nat

/-! ## The product -/

namespace KernelArgs

/-- A load of `hidden` in block `k`.  `shift` is how far the pointers were moved. -/
def loadHidden (a : KernelArgs K) (blockSizeK token k lane shift : Nat) : K :=
  if a.useTma then
    if token < a.numTokens ∧ k * blockSizeK + lane < a.hiddenSize then
      a.hidden (token * a.hiddenSize + (k * blockSizeK + lane))
    else 0
  else if lane < a.hiddenSize - k * blockSizeK ∧ token < a.numTokens then
    a.hidden (token * a.hiddenSize + lane + shift)
  else 0

/-- A load of `weight`, masked from `bound` on. -/
def loadWeight (a : KernelArgs K) (blockSizeK bound col k lane shift : Nat) : K :=
  if a.useTma then
    if col < a.vocabSize ∧ k * blockSizeK + lane < a.hiddenSize then
      a.weight (col * a.hiddenSize + (k * blockSizeK + lane))
    else 0
  else if lane < a.hiddenSize - k * blockSizeK ∧ col < bound then
    a.weight (col * a.hiddenSize + lane + shift)
  else 0

end KernelArgs

/-- A logit in the loop over the hidden dimension, and how far the pointers were moved. -/
structure Gemm (K : Type) where
  logits : K
  hiddenPtrs : Nat
  weightPtrs : Nat

/-- One block of the product. -/
def gemmStep (a : KernelArgs K) (blockSizeK bound token col : Nat) (s : Gemm K) (k : Nat) :
    Gemm K where
  logits := s.logits + ∑ lane ∈ range blockSizeK,
    a.loadHidden blockSizeK token k lane s.hiddenPtrs *
      a.loadWeight blockSizeK bound col k lane s.weightPtrs
  hiddenPtrs := if a.useTma then s.hiddenPtrs else s.hiddenPtrs + blockSizeK
  weightPtrs := if a.useTma then s.weightPtrs else s.weightPtrs + blockSizeK

/-- The loop over the hidden dimension. -/
def gemm (a : KernelArgs K) (blockSizeK bound token col hiddenPtrs : Nat) : Gemm K :=
  (List.range (cdiv a.hiddenSize blockSizeK)).foldl (gemmStep a blockSizeK bound token col)
    ⟨0, hiddenPtrs, 0⟩

/-! ## The main loop -/

/-- `tl.maximum`. -/
def maximum : Option K → Option K → Option K
  | none, y => y
  | some x, none => some x
  | some x, some y => some (max x y)

/-- `tl.exp(x - y)`. -/
def expSub (E : ExpLog K) (x : Option K) (y : K) : K :=
  match x with
  | none => 0
  | some x => E.exp (x - y)

/-- The values of one token in the main loop. -/
structure MainloopLane (K : Type) where
  max : Option K
  accu : K
  entropyB : K
  logprobs : K
  hiddenPtrs : Nat
  nan : Bool

/-- One tile of the loop over the vocabulary. -/
def mainloopStep (E : ExpLog K) (a : KernelArgs K) (blocks : BlockSizes)
    (vocabPerSplit pidN token : Nat) (s : MainloopLane K) (n : Nat) : MainloopLane K :=
  let offsBn := fun j => pidN * vocabPerSplit + n * blocks.n + j
  let vocabBound := min ((pidN + 1) * vocabPerSplit) a.vocabSize
  let product := fun j => gemm a blocks.k vocabBound token (offsBn j) s.hiddenPtrs
  let logits := fun j => (product j).logits * a.rcpTemperature
  let logitsForLse := fun j => if offsBn j < vocabBound then some (logits j) else none
  let newMax := maximum s.max (((List.range blocks.n).map logitsForLse).foldl maximum none)
  let shift := newMax.getD 0
  let expLogits := fun j => expSub E (logitsForLse j) shift
  let coeff := expSub E s.max shift
  { max := newMax
    accu := coeff * s.accu + ∑ j ∈ range blocks.n, expLogits j
    entropyB := s.entropyB * coeff + ∑ j ∈ range blocks.n, logits j * expLogits j
    logprobs := s.logprobs + ∑ j ∈ range blocks.n,
      logits j * if offsBn j + a.rank * a.vocabSize = a.labels token then 1 else 0
    hiddenPtrs :=
      if a.useTma then s.hiddenPtrs
      else s.hiddenPtrs + cdiv a.hiddenSize blocks.k * blocks.k - a.hiddenSize
    nan := s.nan || newMax.isNone }

/-- The loop over the vocabulary of one split. -/
def mainloop (E : ExpLog K) (a : KernelArgs K) (blocks : BlockSizes) (vocabPerSplit pidN : Nat)
    (token : Nat) : MainloopLane K :=
  (List.range (cdiv vocabPerSplit blocks.n)).foldl
    (mainloopStep E a blocks vocabPerSplit pidN token) ⟨none, 0, 0, 0, 0, false⟩

/-- What is stored for a token and a split. -/
structure SplitCell (K : Type) where
  max : Option K
  accu : K
  entropyB : K
  nan : Bool

/-- The buffers between the kernels. -/
structure KernelBuffers (K : Type) where
  splits : Nat × Nat → SplitCell K
  logprobs : Nat → K

/-- What a program does to memory. -/
inductive KernelEvent where
  | launched (pid : Nat)
  | stored (pid : Nat)
deriving DecidableEq

/-- `tl.store(global_logprobs_scalar_ptr, 0.0)`, in the first program. -/
def resetScalar (a : KernelArgs K) (blocks : BlockSizes) (buffers : KernelBuffers K) (pid : Nat) :
    KernelBuffers K :=
  let numPidM := cdiv a.numTokens blocks.m
  if pid % numPidM = 0 ∧ pid / numPidM = 0 then
    { buffers with logprobs := fun token => if token = 0 then 0 else buffers.logprobs token }
  else buffers

/-- The loop of a program, and its stores. -/
def storeResults (E : ExpLog K) (a : KernelArgs K) (blocks : BlockSizes) (vocabPerSplit : Nat)
    (buffers : KernelBuffers K) (pid : Nat) : KernelBuffers K :=
  let numSplits := cdiv a.vocabSize vocabPerSplit
  let numPidM := cdiv a.numTokens blocks.m
  let pidM := pid % numPidM
  let pidN := pid / numPidM
  let vocabLeftIdx := pidN * vocabPerSplit + a.rank * a.vocabSize
  let vocabRightIdx := min ((pidN + 1) * vocabPerSplit) a.vocabSize + a.rank * a.vocabSize
  { splits := fun cell =>
      if cell.1 / blocks.m = pidM ∧ cell.1 < a.numTokens ∧ cell.2 = pidN ∧ pidN < numSplits then
        let lane := mainloop E a blocks vocabPerSplit pidN cell.1
        ⟨lane.max, lane.accu, lane.entropyB, lane.nan⟩
      else buffers.splits cell
    logprobs := fun token =>
      if token / blocks.m = pidM ∧ token < a.numTokens ∧ vocabLeftIdx ≤ a.labels token ∧
          a.labels token < vocabRightIdx then
        (mainloop E a blocks vocabPerSplit pidN token).logprobs
      else buffers.logprobs token }

/-- `efficient_entropy_kernel_general_mainloop`. -/
def efficientEntropyKernelGeneralMainloop (E : ExpLog K) (a : KernelArgs K) (blocks : BlockSizes)
    (vocabPerSplit : Nat) (buffers : KernelBuffers K) : KernelEvent → KernelBuffers K
  | .launched pid => resetScalar a blocks buffers pid
  | .stored pid => storeResults E a blocks vocabPerSplit buffers pid

/-! ## The epilogue -/

/-- The values of one token in the epilogue. -/
structure EpilogueLane (K : Type) where
  max : K
  accu : K
  entropyB : K

/-- One block of splits.  `reducedMax` are the maxima, of all ranks if there are several. -/
def epilogueStep (E : ExpLog K) (blockSizeN numSplits : Nat) (reducedMax : Nat → Option K)
    (splits : Nat → SplitCell K) (s : EpilogueLane K) (pidN : Nat) : EpilogueLane K :=
  let offsN := fun j => pidN * blockSizeN + j
  let loadedMax := fun j => if offsN j < numSplits then reducedMax (offsN j) else some 0
  let newMax := (maximum (some s.max)
    (((List.range blockSizeN).map loadedMax).foldl maximum none)).getD 0
  let scale := fun j =>
    expSub E (if offsN j < numSplits then (splits (offsN j)).max else some 0) newMax
  let coeff := E.exp (s.max - newMax)
  { max := newMax
    accu := coeff * s.accu + ∑ j ∈ range blockSizeN,
      scale j * if offsN j < numSplits then (splits (offsN j)).accu else 0
    entropyB := coeff * s.entropyB + ∑ j ∈ range blockSizeN,
      scale j * if offsN j < numSplits then (splits (offsN j)).entropyB else 0 }

/-- The loop over the splits. -/
def epilogue (E : ExpLog K) (blockSizeN numSplits : Nat) (reducedMax : Nat → Option K)
    (splits : Nat → SplitCell K) : EpilogueLane K :=
  (List.range (cdiv numSplits blockSizeN)).foldl
    (epilogueStep E blockSizeN numSplits reducedMax splits) ⟨0, 0, 0⟩

/-- What is returned for a token. -/
structure ForwardCell (K : Type) where
  logprobs : K
  entropy : K
  maximum : K
  accumulate : K
  entropyB : K

/-- The end of the epilogue. -/
def finish (E : ExpLog K) (s : EpilogueLane K) (logprobs : K) : ForwardCell K :=
  let entropyB := s.entropyB / s.accu
  { logprobs := -1 * (s.max + E.log s.accu - logprobs)
    entropy := E.log s.accu + s.max - entropyB
    maximum := s.max
    accumulate := s.accu
    entropyB := entropyB }

/-- `efficient_entropy_triton_kernel_epilogue`. -/
def efficientEntropyTritonKernelEpilogue (E : ExpLog K) (a : KernelArgs K) (blocks : BlockSizes)
    (vocabPerSplit : Nat) (buffers : KernelBuffers K) (out : Nat → ForwardCell K) (pidM : Nat) :
    Nat → ForwardCell K :=
  let numSplits := cdiv a.vocabSize vocabPerSplit
  fun token =>
    if token / blocks.m = pidM ∧ token < a.numTokens then
      let splits := fun split => buffers.splits (token, split)
      finish E (epilogue E blocks.n numSplits (fun split => (splits split).max) splits)
        (buffers.logprobs token)
    else out token

/-! ## The host -/

/-- The main loop, with what its programs do in the order in which they do it. -/
def runMainloop (E : ExpLog K) (a : KernelArgs K) (blocks : BlockSizes) (vocabPerSplit : Nat)
    (events : List KernelEvent) (buffers : KernelBuffers K) : KernelBuffers K :=
  events.foldl (efficientEntropyKernelGeneralMainloop E a blocks vocabPerSplit) buffers

/-- `efficient_entropy_forward` on one device, without a reduction.  The buffers and the
results are not set before. -/
def efficientEntropyForward (E : ExpLog K) (a : KernelArgs K) (blocks epilogueBlocks : BlockSizes)
    (vocabPerSplit : Nat) (events : List KernelEvent) (epiloguePrograms : List Nat)
    (buffers : KernelBuffers K) (out : Nat → ForwardCell K) : Nat → ForwardCell K :=
  let buffers := runMainloop E a blocks vocabPerSplit events buffers
  epiloguePrograms.foldl
    (efficientEntropyTritonKernelEpilogue E a epilogueBlocks vocabPerSplit buffers) out

/-- `all_reduce` with `ReduceOp.MAX`. -/
def allReduceMax (worldSize : Nat) (f : Nat → Option K) : Option K :=
  ((List.range worldSize).map f).foldl maximum none

/-- `all_reduce` with `ReduceOp.SUM`. -/
def allReduceSum (worldSize : Nat) (f : Nat → K) : K := ∑ rank ∈ range worldSize, f rank

/-- `efficient_entropy_triton_kernel_epilogue_tp`. -/
def efficientEntropyTritonKernelEpilogueTp (E : ExpLog K) (a : KernelArgs K) (blocks : BlockSizes)
    (vocabPerSplit : Nat) (reducedMax : Nat × Nat → Option K) (buffers : KernelBuffers K)
    (out : Nat → EpilogueLane K) (pidM : Nat) : Nat → EpilogueLane K :=
  let numSplits := cdiv a.vocabSize vocabPerSplit
  fun token =>
    if token / blocks.m = pidM ∧ token < a.numTokens then
      epilogue E blocks.n numSplits (fun split => reducedMax (token, split))
        fun split => buffers.splits (token, split)
    else out token

/-- `efficient_entropy_triton_epilogue_tp_update`. -/
def efficientEntropyTritonEpilogueTpUpdate (E : ExpLog K) (a : KernelArgs K) (blockSizeM : Nat)
    (lanes : Nat → EpilogueLane K) (logprobs : Nat → K) (out : Nat → ForwardCell K) (pidM : Nat) :
    Nat → ForwardCell K :=
  fun token =>
    if token / blockSizeM = pidM ∧ token < a.numTokens then
      finish E (lanes token) (logprobs token)
    else out token

/-- `efficient_entropy_forward` with tensor parallelism. -/
def efficientEntropyForwardTp (E : ExpLog K) (worldSize : Nat) (args : Nat → KernelArgs K)
    (blocks epilogueBlocks : BlockSizes) (blockSizeM vocabPerSplit : Nat)
    (events : Nat → List KernelEvent) (epiloguePrograms updatePrograms : Nat → List Nat)
    (splits : Nat → Nat × Nat → SplitCell K) (lanes : Nat → Nat → EpilogueLane K)
    (out : Nat → Nat → ForwardCell K) (rank : Nat) : Nat → ForwardCell K :=
  let buffers := fun rank =>
    runMainloop E (args rank) blocks vocabPerSplit (events rank) ⟨splits rank, fun _ => 0⟩
  let reducedMax := fun cell => allReduceMax worldSize fun rank => ((buffers rank).splits cell).max
  let logprobs := fun token => allReduceSum worldSize fun rank => (buffers rank).logprobs token
  let lanes := fun rank => (epiloguePrograms rank).foldl
    (efficientEntropyTritonKernelEpilogueTp E (args rank) epilogueBlocks vocabPerSplit reducedMax
      (buffers rank)) (lanes rank)
  let reduced := fun token =>
    { max := (lanes rank token).max
      accu := allReduceSum worldSize fun rank => (lanes rank token).accu
      entropyB := allReduceSum worldSize fun rank => (lanes rank token).entropyB }
  (updatePrograms rank).foldl
    (efficientEntropyTritonEpilogueTpUpdate E (args rank) blockSizeM reduced logprobs) (out rank)

/-! ## The plain path -/

namespace KernelArgs

/-- A logit of `torch.matmul(hidden, weight.T) / temperature`. -/
def logits (a : KernelArgs K) (token col : Nat) : K :=
  (∑ k ∈ range a.hiddenSize,
    a.hidden (token * a.hiddenSize + k) * a.weight (col * a.hiddenSize + k)) * a.rcpTemperature

end KernelArgs

/-- `torch.logsumexp`. -/
def logsumexp (E : ExpLog K) (vocabSize : Nat) (logits : Nat → K) : K :=
  E.log (∑ v ∈ range vocabSize, E.exp (logits v))

/-- `torch.nn.functional.softmax`. -/
def softmax (E : ExpLog K) (vocabSize : Nat) (logits : Nat → K) (v : Nat) : K :=
  E.exp (logits v) / ∑ v ∈ range vocabSize, E.exp (logits v)

/-- `logprobs_from_logits_naive`. -/
def logprobsFromLogits (E : ExpLog K) (vocabSize : Nat) (logits : Nat → K) (label : Nat) : K :=
  logits label - logsumexp E vocabSize logits

/-- `entropy_from_logits`. -/
def entropyFromLogits (E : ExpLog K) (vocabSize : Nat) (logits : Nat → K) : K :=
  logsumexp E vocabSize logits - ∑ v ∈ range vocabSize, softmax E vocabSize logits v * logits v

end Verl.Kernel
