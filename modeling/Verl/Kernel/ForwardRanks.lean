import Verl.Kernel.ForwardPlain

/-!
# The fused forward with tensor parallelism

Every rank has a part of the vocabulary.  The ranks agree on the maxima of their splits,
so the sums of the ranks have one shift and can be added.  The log-probs are added too,
because only the rank that has a label has its logit.
-/

namespace Verl.Kernel

open Finset
open Tiles (cdiv)
open OnlineSoftmax
open Distillation (realExpLog)

/-- The ranks have the same tokens and parts of the vocabulary of one size. -/
structure RanksOk (worldSize numTokens vocabSize : Nat) (labels : Nat → Nat)
    (args : Nat → KernelArgs ℝ) : Prop where
  rank : ∀ rank < worldSize, (args rank).rank = rank
  numTokens : ∀ rank < worldSize, (args rank).numTokens = numTokens
  vocabSize : ∀ rank < worldSize, (args rank).vocabSize = vocabSize
  labels : ∀ rank < worldSize, (args rank).labels = labels

/-- The logits of all ranks. -/
def rankLogits {K : Type} [Field K] (args : Nat → KernelArgs K) (vocabSize token v : Nat) : K :=
  (args (v / vocabSize)).logits token (v % vocabSize)

/-! ## The log-probs -/

/-- A rank that does not have the label leaves the zero. -/
theorem logprobs_of_foreign {a : KernelArgs ℝ} {blocks : BlockSizes} {vocabPerSplit token : Nat}
    (hlabel : a.labels token < a.rank * a.vocabSize ∨
      (a.rank + 1) * a.vocabSize ≤ a.labels token)
    (events : List KernelEvent) {buffers : KernelBuffers ℝ} (hzero : buffers.logprobs token = 0) :
    (runMainloop realExpLog a blocks vocabPerSplit events buffers).logprobs token = 0 := by
  rw [Nat.succ_mul] at hlabel
  rw [runMainloop]
  refine List.foldlRecOn (motive := fun buffers : KernelBuffers ℝ => buffers.logprobs token = 0)
    events _ hzero
    fun buffers ih event _ => ?_
  cases event with
  | launched pid =>
      change (resetScalar a blocks buffers pid).logprobs token = 0
      rw [resetScalar]
      split
      · change (if token = 0 then 0 else buffers.logprobs token) = 0
        rw [ih, ite_self]
      · exact ih
  | stored pid =>
      refine (if_neg ?_).trans ih
      rintro ⟨-, -, hleft, hright⟩
      have hstop := Nat.min_le_right ((pid / cdiv a.numTokens blocks.m + 1) * vocabPerSplit)
        a.vocabSize
      omega

variable {worldSize numTokens vocabSize : Nat} {labels : Nat → Nat} {args : Nat → KernelArgs ℝ}
  {blocks epilogueBlocks : BlockSizes} {vocabPerSplit token : Nat}
  {events : Nat → List KernelEvent}

/-- One rank has the label. -/
theorem allReduceSum_logprobs (hranks : RanksOk worldSize numTokens vocabSize labels args)
    (hlabel : labels token < worldSize * vocabSize) {buffers : Nat → KernelBuffers ℝ}
    (hzero : ∀ rank, (buffers rank).logprobs token = 0) :
    (allReduceSum worldSize fun rank =>
        (runMainloop realExpLog (args rank) blocks vocabPerSplit (events rank)
          (buffers rank)).logprobs token) =
      (runMainloop realExpLog (args (labels token / vocabSize)) blocks vocabPerSplit
        (events (labels token / vocabSize)) (buffers (labels token / vocabSize))).logprobs
          token := by
  have hvocab : 0 < vocabSize :=
    Nat.pos_of_mul_pos_left (Nat.zero_lt_of_lt hlabel)
  have howner : labels token / vocabSize < worldSize := by
    rw [Nat.div_lt_iff_lt_mul hvocab]
    exact hlabel
  refine sum_eq_single_of_mem _ (mem_range.mpr howner) fun rank hrank hne => ?_
  have hrank := mem_range.mp hrank
  refine logprobs_of_foreign ?_ (events rank) (hzero rank)
  rw [hranks.labels rank hrank, hranks.rank rank hrank, hranks.vocabSize rank hrank]
  rw [← Nat.div_lt_iff_lt_mul hvocab, ← Nat.le_div_iff_mul_le hvocab]
  omega

/-! ## The sums -/

/-- The largest logit does not depend on the values of the rank. -/
theorem epilogue_max (blockSizeN numSplits : Nat) (reducedMax : Nat → Option ℝ)
    (splits splits' : Nat → SplitCell ℝ) :
    (epilogue realExpLog blockSizeN numSplits reducedMax splits).max =
      (epilogue realExpLog blockSizeN numSplits reducedMax splits').max := by
  have hloop (pids : List Nat) (s s' : EpilogueLane ℝ) (h : s.max = s'.max) :
      (pids.foldl (epilogueStep realExpLog blockSizeN numSplits reducedMax splits) s).max =
        (pids.foldl (epilogueStep realExpLog blockSizeN numSplits reducedMax splits') s').max := by
    induction pids generalizing s s' with
    | nil => exact h
    | cons pidN pids ih =>
        refine ih _ _ ?_
        rw [epilogueStep, epilogueStep, h]
  exact hloop _ _ _ rfl

/-- The parts of the vocabulary are the vocabulary. -/
theorem sum_ranks (hranks : RanksOk worldSize numTokens vocabSize labels args) (f : ℝ → ℝ) :
    ∑ rank ∈ range worldSize, ∑ v ∈ range (args rank).vocabSize, f ((args rank).logits token v) =
      ∑ v ∈ range (worldSize * vocabSize), f (rankLogits args vocabSize token v) := by
  rw [← Tiles.sum_tiles]
  refine sum_congr rfl fun rank hrank => ?_
  rw [hranks.vocabSize rank (mem_range.mp hrank)]
  refine sum_congr rfl fun v hv => ?_
  have hv := mem_range.mp hv
  have hdiv : (rank * vocabSize + v) / vocabSize = rank := by
    rw [Nat.mul_comm, Nat.mul_add_div (Nat.zero_lt_of_lt hv), Nat.div_eq_of_lt hv, Nat.add_zero]
  have hmod : (rank * vocabSize + v) % vocabSize = v := by
    rw [Nat.mul_comm, Nat.mul_add_mod, Nat.mod_eq_of_lt hv]
  rw [rankLogits, hdiv, hmod]

/-- The buffers of the ranks after their main loops. -/
noncomputable def rankBuffers (args : Nat → KernelArgs ℝ) (blocks : BlockSizes)
    (vocabPerSplit : Nat) (events : Nat → List KernelEvent)
    (splits : Nat → Nat × Nat → SplitCell ℝ) (rank : Nat) : KernelBuffers ℝ :=
  runMainloop realExpLog (args rank) blocks vocabPerSplit (events rank) ⟨splits rank, fun _ => 0⟩

/-- The epilogue of a rank, with the maxima of all. -/
noncomputable def rankLane (worldSize numSplits blockSizeN : Nat) (buffers : Nat → KernelBuffers ℝ)
    (token rank : Nat) : EpilogueLane ℝ :=
  epilogue realExpLog blockSizeN numSplits
    (fun split => allReduceMax worldSize fun rank => ((buffers rank).splits (token, split)).max)
    fun split => (buffers rank).splits (token, split)

/-- What the last kernel of a rank reads. -/
noncomputable def reducedLane (worldSize : Nat) (lane : Nat → EpilogueLane ℝ) (rank : Nat) :
    EpilogueLane ℝ where
  max := (lane rank).max
  accu := allReduceSum worldSize fun rank => (lane rank).accu
  entropyB := allReduceSum worldSize fun rank => (lane rank).entropyB

theorem reducedLane_congr {lane lane' : Nat → EpilogueLane ℝ}
    (h : ∀ rank < worldSize, lane rank = lane' rank) {rank : Nat} (hrank : rank < worldSize) :
    reducedLane worldSize lane rank = reducedLane worldSize lane' rank := by
  have haccu : (allReduceSum worldSize fun rank => (lane rank).accu) =
      allReduceSum worldSize fun rank => (lane' rank).accu :=
    sum_congr rfl fun rank hrank => congrArg _ (h rank (mem_range.mp hrank))
  have hentropyB : (allReduceSum worldSize fun rank => (lane rank).entropyB) =
      allReduceSum worldSize fun rank => (lane' rank).entropyB :=
    sum_congr rfl fun rank hrank => congrArg _ (h rank (mem_range.mp hrank))
  rw [reducedLane, haccu, hentropyB, h rank hrank]
  rfl

/-! ## The result of a rank -/

section

variable (hranks : RanksOk worldSize numTokens vocabSize labels args) (htoken : token < numTokens)

include hranks htoken

/-- The programs of the last two kernels. -/
theorem efficientEntropyForwardTp_apply {blockSizeM : Nat}
    {epiloguePrograms updatePrograms : Nat → List Nat} (hepilogue : 0 < epilogueBlocks.m)
    (hupdate : 0 < blockSizeM)
    (hprograms : ∀ rank < worldSize,
      (epiloguePrograms rank).Perm (List.range (cdiv numTokens epilogueBlocks.m)) ∧
        (updatePrograms rank).Perm (List.range (cdiv numTokens blockSizeM)))
    (splits : Nat → Nat × Nat → SplitCell ℝ) (lanes : Nat → Nat → EpilogueLane ℝ)
    (out : Nat → Nat → ForwardCell ℝ) {rank : Nat} (hrank : rank < worldSize) :
    efficientEntropyForwardTp realExpLog worldSize args blocks epilogueBlocks blockSizeM
        vocabPerSplit events epiloguePrograms updatePrograms splits lanes out rank token =
      finish realExpLog
        (reducedLane worldSize (rankLane worldSize (cdiv vocabSize vocabPerSplit) epilogueBlocks.n
          (rankBuffers args blocks vocabPerSplit events splits) token) rank)
        (allReduceSum worldSize fun rank =>
          (rankBuffers args blocks vocabPerSplit events splits rank).logprobs token) := by
  let buffers := rankBuffers args blocks vocabPerSplit events splits
  let stored := fun rank => (epiloguePrograms rank).foldl
    (efficientEntropyTritonKernelEpilogueTp realExpLog (args rank) epilogueBlocks vocabPerSplit
      (fun cell => allReduceMax worldSize fun rank => ((buffers rank).splits cell).max)
      (buffers rank)) (lanes rank)
  have hstored (rank : Nat) (hrank : rank < worldSize) : stored rank token =
      rankLane worldSize (cdiv vocabSize vocabPerSplit) epilogueBlocks.n buffers token rank := by
    rw [← hranks.vocabSize rank hrank]
    exact Tiles.foldl_blocks hepilogue
      (fun token => rankLane worldSize (cdiv (args rank).vocabSize vocabPerSplit) epilogueBlocks.n
        buffers token rank)
      (hranks.numTokens rank hrank ▸ (hprograms rank hrank).1)
      (hranks.numTokens rank hrank ▸ htoken) (lanes rank)
  refine (Tiles.foldl_blocks hupdate
    (fun token => finish realExpLog (reducedLane worldSize (fun rank => stored rank token) rank)
      (allReduceSum worldSize fun rank => (buffers rank).logprobs token))
    (hranks.numTokens rank hrank ▸ (hprograms rank hrank).2)
    (hranks.numTokens rank hrank ▸ htoken) (out rank)).trans ?_
  rw [reducedLane_congr hstored hrank]

variable (hblocks : ∀ rank < worldSize, BlocksOk (args rank).hiddenSize blocks)
  (hsize : 0 < vocabPerSplit)
  (hevents : ∀ rank < worldSize,
    GridEvents (cdiv numTokens blocks.m * cdiv vocabSize vocabPerSplit) (events rank))

include hblocks hsize hevents

/-- The sums of one rank. -/
theorem rankLane_scaled {blockSizeN : Nat} (hpos : 0 < blockSizeN)
    (splits : Nat → Nat × Nat → SplitCell ℝ) {rank : Nat} (hrank : rank < worldSize) :
    let s := rankLane worldSize (cdiv vocabSize vocabPerSplit) blockSizeN
      (rankBuffers args blocks vocabPerSplit events splits) token rank
    Scaled s.max s.accu
        (∑ v ∈ range (args rank).vocabSize, Real.exp ((args rank).logits token v)) ∧
      Scaled s.max s.entropyB (∑ v ∈ range (args rank).vocabSize,
        (args rank).logits token v * Real.exp ((args rank).logits token v)) := by
  have hgrid := hevents rank hrank
  rw [← hranks.numTokens rank hrank, ← hranks.vocabSize rank hrank] at hgrid
  rw [← hranks.vocabSize rank hrank]
  exact epilogue_runMainloop (hblocks rank hrank) hsize hgrid
    (hranks.numTokens rank hrank ▸ htoken) hpos _ _

/-- The sums of all ranks. -/
theorem reducedLane_scaled {blockSizeN : Nat} (hpos : 0 < blockSizeN)
    (splits : Nat → Nat × Nat → SplitCell ℝ) (rank : Nat) :
    let s := reducedLane worldSize (rankLane worldSize (cdiv vocabSize vocabPerSplit) blockSizeN
      (rankBuffers args blocks vocabPerSplit events splits) token) rank
    Scaled s.max s.accu
        (∑ v ∈ range (worldSize * vocabSize), Real.exp (rankLogits args vocabSize token v)) ∧
      Scaled s.max s.entropyB
        (∑ v ∈ range (worldSize * vocabSize),
          rankLogits args vocabSize token v * Real.exp (rankLogits args vocabSize token v)) := by
  intro s
  let lane := rankLane worldSize (cdiv vocabSize vocabPerSplit) blockSizeN
    (rankBuffers args blocks vocabPerSplit events splits) token
  have hmax (other : Nat) : (lane other).max = s.max := epilogue_max _ _ _ _ _
  have hsums (other : Nat) (hother : other ∈ range worldSize) :=
    rankLane_scaled hranks htoken hblocks hsize hevents hpos splits (mem_range.mp hother)
  have haccu (other : Nat) (hother : other ∈ range worldSize) : Scaled s.max (lane other).accu
      (∑ v ∈ range (args other).vocabSize, Real.exp ((args other).logits token v)) :=
    hmax other ▸ (hsums other hother).1
  have hentropyB (other : Nat) (hother : other ∈ range worldSize) :
      Scaled s.max (lane other).entropyB (∑ v ∈ range (args other).vocabSize,
        (args other).logits token v * Real.exp ((args other).logits token v)) :=
    hmax other ▸ (hsums other hother).2
  rw [← sum_ranks hranks Real.exp, ← sum_ranks hranks fun x => x * Real.exp x]
  exact ⟨Scaled.sum haccu, Scaled.sum hentropyB⟩

/-- With tensor parallelism every rank has the log-prob and the entropy of the plain path over
the whole vocabulary.  The exception is that of the rank that has the label. -/
theorem efficientEntropyForwardTp_plain (epilogueBlocks : BlockSizes) (blockSizeM : Nat)
    (epiloguePrograms updatePrograms : Nat → List Nat) (splits : Nat → Nat × Nat → SplitCell ℝ)
    (lanes : Nat → Nat → EpilogueLane ℝ) (out : Nat → Nat → ForwardCell ℝ)
    (hepilogue : 0 < epilogueBlocks.m ∧ 0 < epilogueBlocks.n) (hupdate : 0 < blockSizeM)
    (hprograms : ∀ rank < worldSize,
      (epiloguePrograms rank).Perm (List.range (cdiv numTokens epilogueBlocks.m)) ∧
        (updatePrograms rank).Perm (List.range (cdiv numTokens blockSizeM)))
    (hlabel : labels token < worldSize * vocabSize) (rank : Nat) (hrank : rank < worldSize) :
    let cell := efficientEntropyForwardTp realExpLog worldSize args blocks epilogueBlocks blockSizeM
      vocabPerSplit events epiloguePrograms updatePrograms splits lanes out rank token
    let owner := labels token / vocabSize
    let late := ResetLate (args owner) blocks vocabPerSplit (events owner) token
      (labels token % vocabSize)
    ForwardOk (worldSize * vocabSize) (rankLogits args vocabSize token) cell ∧
      (¬ late → cell.logprobs = logprobsFromLogits realExpLog (worldSize * vocabSize)
        (rankLogits args vocabSize token) (labels token)) ∧
      (late → cell.logprobs =
        -logsumexp realExpLog (worldSize * vocabSize) (rankLogits args vocabSize token)) ∧
      ∀ other < worldSize, ∀ split < cdiv vocabSize vocabPerSplit,
        ((rankBuffers args blocks vocabPerSplit events splits other).splits
          (token, split)).nan = false := by
  intro cell owner late
  have hvocab : 0 < vocabSize := Nat.pos_of_mul_pos_left (Nat.zero_lt_of_lt hlabel)
  have howner : owner < worldSize := by
    rw [Nat.div_lt_iff_lt_mul hvocab]
    exact hlabel
  have hcol : labels token % vocabSize < (args owner).vocabSize := by
    rw [hranks.vocabSize owner howner]
    exact Nat.mod_lt _ hvocab
  have hcolumn : (args owner).labels token =
      labels token % vocabSize + (args owner).rank * (args owner).vocabSize := by
    rw [hranks.labels owner howner, hranks.rank owner howner, hranks.vocabSize owner howner,
      Nat.mul_comm, Nat.mod_add_div]
  have hgrid := hevents owner howner
  rw [← hranks.numTokens owner howner, ← hranks.vocabSize owner howner] at hgrid
  have htoken' : token < (args owner).numTokens := hranks.numTokens owner howner ▸ htoken
  obtain ⟨haccu, hentropyB⟩ :=
    reducedLane_scaled hranks htoken hblocks hsize hevents hepilogue.2 splits rank
  have hcell : cell = _ :=
    efficientEntropyForwardTp_apply hranks htoken hepilogue.1 hupdate hprograms splits lanes out
      hrank
  have hsum : (allReduceSum worldSize fun rank =>
      (rankBuffers args blocks vocabPerSplit events splits rank).logprobs token) = _ :=
    allReduceSum_logprobs hranks hlabel fun _ => rfl
  rw [hsum] at hcell
  rw [hcell]
  have hpos := Nat.zero_lt_of_lt hlabel
  refine ⟨finish_ok hpos haccu _ hentropyB, fun hreset => ?_, fun hreset => ?_,
    fun other hother split hsplit => ?_⟩
  · rw [finish_logprobs hpos haccu]
    rw [logprobs_runMainloop (hblocks owner howner) hsize hgrid htoken' hcol hcolumn _ hreset]
    rfl
  · rw [finish_logprobs hpos haccu]
    rw [logprobs_of_resetLate (hblocks owner howner) hsize hgrid htoken' hcol hcolumn _ hreset,
      zero_sub]
  · have hgrid := hevents other hother
    rw [← hranks.numTokens other hother, ← hranks.vocabSize other hother] at hgrid
    exact (splits_runMainloop (hblocks other hother) hsize hgrid
      (hranks.numTokens other hother ▸ htoken) (hranks.vocabSize other hother ▸ hsplit) _).nan

end

/-- Two ranks, of which the second has the label. -/
theorem efficientEntropyForwardTp_plain_two_ranks :
    let args : Nat → KernelArgs ℝ := fun rank =>
      ⟨rank, fun _ => 1, fun i => i + 2 * rank, fun _ => 3, 1, 1, 2, 1, false⟩
    let cell := efficientEntropyForwardTp realExpLog 2 args ⟨1, 1, 1⟩ ⟨1, 1, 1⟩ 1 1
      (fun _ => [.launched 0, .launched 1, .stored 1, .stored 0]) (fun _ => [0]) (fun _ => [0])
      (fun _ _ => ⟨none, 0, 0, true⟩) (fun _ _ => ⟨7, 7, 7⟩) (fun _ _ => ⟨7, 7, 7, 7, 7⟩) 0 0
    cell.logprobs = logprobsFromLogits realExpLog 4 (rankLogits args 2 0) 3 ∧
      cell.entropy = entropyFromLogits realExpLog 4 (rankLogits args 2 0) := by
  intro args cell
  have hranks : RanksOk 2 1 2 (fun _ => 3) args :=
    ⟨fun _ _ => rfl, fun _ _ => rfl, fun _ _ => rfl, fun _ _ => rfl⟩
  have hprograms : [0].Perm (List.range (cdiv 1 1)) := by decide
  have hblocks : ∀ rank < 2, BlocksOk (args rank).hiddenSize ⟨1, 1, 1⟩ :=
    fun _ _ => ⟨Nat.one_pos, Nat.one_pos, Nat.one_pos, one_dvd _⟩
  obtain ⟨hok, hlogprobs, -⟩ := efficientEntropyForwardTp_plain hranks Nat.one_pos hblocks
    Nat.one_pos (fun _ _ => gridEvents_two) ⟨1, 1, 1⟩ 1 (fun _ => [0]) (fun _ => [0])
    (fun _ _ => ⟨none, 0, 0, true⟩) (fun _ _ => ⟨7, 7, 7⟩) (fun _ _ => ⟨7, 7, 7, 7, 7⟩)
    ⟨Nat.one_pos, Nat.one_pos⟩ Nat.one_pos (fun _ _ => ⟨hprograms, hprograms⟩) (by decide) 0
    (by decide)
  exact ⟨hlogprobs (not_resetLate_two (by simp [ownerOf, cdiv, args])), hok.entropy⟩

end Verl.Kernel
