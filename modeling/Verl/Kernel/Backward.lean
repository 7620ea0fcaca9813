import Verl.Kernel.Forward

/-!
# The backward kernels of the fused linear cross entropy

There are three methods, which differ in what is stored.  The fused one has no gradient of
the logits in memory: a program has one tile of them, and adds its products to the two
results with atomic adds.  The separate one stores all of them.  The last one, which is
used, stores those of one split of the vocabulary at a time.

A program has a block of tokens and a block of columns.  Programs are swizzled: those that
follow each other have the same columns and go over a group of blocks of tokens.
-/

namespace Verl.Kernel

open Finset
open Tiles (cdiv)

variable {K : Type} [Field K] [LinearOrder K] [IsStrictOrderedRing K]

/-- What is given to the backward kernels of one rank, and what the forward pass saved. -/
structure BackwardArgs (K : Type) extends KernelArgs K where
  dLogprobs : Nat → K
  dEntropy : Nat → K
  maximum : Nat → K
  accu : Nat → K
  entropyB : Nat → K

/-- An entry of `d_logits`.  A token beyond the last one is masked. -/
def dLogits (E : ExpLog K) (b : BackwardArgs K) (blockSizeK bound token col : Nat) : K :=
  let load := fun (f : Nat → K) (other : K) => if token < b.numTokens then f token else other
  let accuRcp := 1 / load b.accu (1 / 1000000)
  let dLogprobs := -1 * load b.dLogprobs 0
  let labels := if token < b.numTokens then b.labels token else 0
  let logits := (gemm b.toKernelArgs blockSizeK bound token col 0).logits * b.rcpTemperature
  let expLogits := E.exp (logits - load b.maximum 0)
  let mask := if col + b.rank * b.vocabSize = labels then 1 else 0
  (dLogprobs * (expLogits * accuRcp - mask) +
    load b.dEntropy 0 * (-expLogits * accuRcp) * (logits - load b.entropyB 0)) * b.rcpTemperature

/-- The blocks of a program. -/
def swizzle (numPidM numPidN groupSizeM pid : Nat) : Nat × Nat :=
  let numPidInGroup := groupSizeM * numPidN
  let groupId := pid / numPidInGroup
  let firstPidM := groupId * groupSizeM
  let groupSizeM := min (numPidM - firstPidM) groupSizeM
  (firstPidM + pid % numPidInGroup % groupSizeM, pid % numPidInGroup / groupSizeM)

/-- `d_hidden` and `d_weight`. -/
structure Gradients (K : Type) where
  hidden : Nat × Nat → K
  weight : Nat × Nat → K

/-! ## All in one kernel -/

/-- Block `k` of the second loop of a program, with its two atomic adds. -/
def efficientEntropyBackwardKernelGeneralMainloopMN (E : ExpLog K) (b : BackwardArgs K)
    (blocks : BlockSizes) (groupSizeM : Nat) (g : Gradients K) (add : Nat × Nat) : Gradients K :=
  let numPidM := cdiv b.numTokens blocks.m
  let numPidN := cdiv b.vocabSize blocks.n
  let pidM := (swizzle numPidM numPidN groupSizeM add.1).1
  let pidN := (swizzle numPidM numPidN groupSizeM add.1).2
  let k := add.2
  let shift := cdiv b.hiddenSize blocks.k * blocks.k - b.hiddenSize + k * blocks.k
  { hidden := fun cell =>
      g.hidden cell +
        if cell.1 / blocks.m = pidM ∧ cell.2 / blocks.k = k ∧
            cell.2 % blocks.k < b.hiddenSize - k * blocks.k ∧ cell.1 < b.numTokens then
          ∑ j ∈ range blocks.n,
            dLogits E b blocks.k b.vocabSize cell.1 (pidN * blocks.n + j) *
              b.loadWeight blocks.k b.vocabSize (pidN * blocks.n + j) k (cell.2 % blocks.k) shift
        else 0
    weight := fun cell =>
      g.weight cell +
        if cell.1 / blocks.n = pidN ∧ cell.2 / blocks.k = k ∧
            cell.2 % blocks.k < b.hiddenSize - k * blocks.k ∧ cell.1 < b.vocabSize then
          ∑ i ∈ range blocks.m,
            dLogits E b blocks.k b.vocabSize (pidM * blocks.m + i) cell.1 *
              b.loadHidden blocks.k (pidM * blocks.m + i) k (cell.2 % blocks.k) shift
        else 0 }

/-- `efficient_entropy_backward` with `_Total_Fuse_MN`.  An atomic add is a program and a block. -/
def totalFuseMN (E : ExpLog K) (b : BackwardArgs K) (blocks : BlockSizes) (groupSizeM : Nat)
    (adds : List (Nat × Nat)) : Gradients K :=
  adds.foldl (efficientEntropyBackwardKernelGeneralMainloopMN E b blocks groupSizeM)
    ⟨fun _ => 0, fun _ => 0⟩

/-! ## With the gradient of the logits in memory -/

/-- `torch.matmul` of the gradient of some columns, from `start` on, with their weights. -/
def matmulWeight (b : BackwardArgs K) (start width : Nat) (stored : Nat × Nat → K)
    (cell : Nat × Nat) : K :=
  ∑ j ∈ range width, stored (cell.1, j) * b.weight ((start + j) * b.hiddenSize + cell.2)

/-- `torch.matmul` of the transposed gradient of a column with the hidden states. -/
def matmulHidden (b : BackwardArgs K) (stored : Nat × Nat → K) (j : Nat) (k : Nat) : K :=
  ∑ token ∈ range b.numTokens, stored (token, j) * b.hidden (token * b.hiddenSize + k)

/-- `efficient_entropy_backward_kernel_general_d_logits`. -/
def efficientEntropyBackwardKernelGeneralDLogits (E : ExpLog K) (b : BackwardArgs K)
    (blocks : BlockSizes) (groupSizeM : Nat) (stored : Nat × Nat → K) (pid : Nat) :
    Nat × Nat → K :=
  let block := swizzle (cdiv b.numTokens blocks.m) (cdiv b.vocabSize blocks.n) groupSizeM pid
  fun cell =>
    if cell.1 / blocks.m = block.1 ∧ cell.2 / blocks.n = block.2 ∧ cell.1 < b.numTokens ∧
        cell.2 < b.vocabSize then
      dLogits E b blocks.k b.vocabSize cell.1 cell.2
    else stored cell

/-- `efficient_entropy_backward` with `_Total_Separate`. -/
def totalSeparate (E : ExpLog K) (b : BackwardArgs K) (blocks : BlockSizes) (groupSizeM : Nat)
    (programs : List Nat) (stored : Nat × Nat → K) : Gradients K :=
  let stored :=
    programs.foldl (efficientEntropyBackwardKernelGeneralDLogits E b blocks groupSizeM) stored
  { hidden := matmulWeight b 0 b.vocabSize stored
    weight := fun cell => matmulHidden b stored cell.1 cell.2 }

/-! ## One split of the vocabulary at a time -/

/-- `efficient_entropy_backward_kernel_general_d_logits_split_N`. -/
def efficientEntropyBackwardKernelGeneralDLogitsSplitN (E : ExpLog K) (b : BackwardArgs K)
    (blocks : BlockSizes) (groupSizeM vocabPerSplit splitIdx : Nat) (stored : Nat × Nat → K)
    (pid : Nat) : Nat × Nat → K :=
  let block := swizzle (cdiv b.numTokens blocks.m) (cdiv vocabPerSplit blocks.n) groupSizeM pid
  fun cell =>
    if cell.1 / blocks.m = block.1 ∧ cell.2 / blocks.n = block.2 ∧ cell.1 < b.numTokens ∧
        cell.2 < vocabPerSplit then
      dLogits E b blocks.k (min ((splitIdx + 1) * vocabPerSplit) b.vocabSize) cell.1
        (splitIdx * vocabPerSplit + cell.2)
    else stored cell

/-- The memory of the loop over the splits. -/
structure SplitMemory (K : Type) where
  stored : Nat × Nat → K
  gradients : Gradients K

/-- One split.  The last one is cut at the end of the vocabulary. -/
def splitStep (E : ExpLog K) (b : BackwardArgs K) (blocks : BlockSizes)
    (groupSizeM vocabPerSplit : Nat) (programs : Nat → List Nat) (s : SplitMemory K)
    (splitIdx : Nat) : SplitMemory K :=
  let numSplits := cdiv b.vocabSize vocabPerSplit
  let start := splitIdx * vocabPerSplit
  let stored := (programs splitIdx).foldl
    (efficientEntropyBackwardKernelGeneralDLogitsSplitN E b blocks groupSizeM vocabPerSplit
      splitIdx) s.stored
  let width :=
    if splitIdx = numSplits - 1 then min ((splitIdx + 1) * vocabPerSplit) b.vocabSize - start
    else vocabPerSplit
  { stored
    gradients :=
      { hidden := fun cell =>
          if splitIdx = 0 then matmulWeight b start width stored cell
          else s.gradients.hidden cell + matmulWeight b start width stored cell
        weight := fun cell =>
          if start ≤ cell.1 ∧ cell.1 < start + width then
            matmulHidden b stored (cell.1 - start) cell.2
          else s.gradients.weight cell } }

/-- `efficient_entropy_backward` with `_Split_Dlogits_N`. -/
def splitDlogitsN (E : ExpLog K) (b : BackwardArgs K) (blocks : BlockSizes)
    (groupSizeM vocabPerSplit : Nat) (programs : Nat → List Nat) (memory : SplitMemory K) :
    Gradients K :=
  ((List.range (cdiv b.vocabSize vocabPerSplit)).foldl
    (splitStep E b blocks groupSizeM vocabPerSplit programs) memory).gradients

/-! ## The host -/

/-- A run of one of the methods: in which order its programs, or their atomic adds, run, and what
is in memory that is not set before. -/
inductive BackwardRun (K : Type) where
  | totalFuseMN (adds : List (Nat × Nat))
  | totalSeparate (programs : List Nat) (stored : Nat × Nat → K)
  | splitDlogitsN (vocabPerSplit : Nat) (programs : Nat → List Nat) (memory : SplitMemory K)

/-- `efficient_entropy_backward`, without a reduction. -/
def efficientEntropyBackward (E : ExpLog K) (b : BackwardArgs K) (blocks : BlockSizes)
    (groupSizeM : Nat) : BackwardRun K → Gradients K
  | .totalFuseMN adds => totalFuseMN E b blocks groupSizeM adds
  | .totalSeparate programs stored => totalSeparate E b blocks groupSizeM programs stored
  | .splitDlogitsN vocabPerSplit programs memory =>
      splitDlogitsN E b blocks groupSizeM vocabPerSplit programs memory

/-- `ctx.save_for_backward`, with the gradients that come in. -/
def saveForBackward (a : KernelArgs K) (cells : Nat → ForwardCell K)
    (dLogprobs dEntropy : Nat → K) : BackwardArgs K :=
  { a with
    dLogprobs, dEntropy
    maximum := fun token => (cells token).maximum
    accu := fun token => (cells token).accumulate
    entropyB := fun token => (cells token).entropyB }

end Verl.Kernel
