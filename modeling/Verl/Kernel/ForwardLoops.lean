import Verl.Distillation.DenseGradient
import Verl.Kernel.Forward
import Verl.Lib.OnlineSoftmax

/-!
# The loops of the forward kernels

Over the reals.  What a program has after some tiles stands for sums over the columns of
these tiles (`MainloopOk`), whatever the largest logit is.  The product of a token and a
column is that of the plain path if a block of the hidden dimension divides it, because
only then do the pointers come back to where they were.
-/

namespace Verl.Kernel

open Finset
open Tiles (cdiv)
open OnlineSoftmax
open Distillation (realExpLog)

/-- Blocks that the kernels are called with. -/
structure BlocksOk (hiddenSize : Nat) (blocks : BlockSizes) : Prop where
  pos_m : 0 < blocks.m
  pos_n : 0 < blocks.n
  pos_k : 0 < blocks.k
  dvd : blocks.k ∣ hiddenSize

/-! ## The product -/

/-- From which column on the weights are masked. -/
def KernelArgs.weightBound {K : Type} (a : KernelArgs K) (bound : Nat) : Nat :=
  if a.useTma then a.vocabSize else bound

/-- The product of a token and a column. -/
def KernelArgs.dot {K : Type} [Field K] (a : KernelArgs K) (token col : Nat) : K :=
  ∑ k ∈ range a.hiddenSize,
    a.hidden (token * a.hiddenSize + k) * a.weight (col * a.hiddenSize + k)

variable {a : KernelArgs ℝ}

theorem loadHidden_eq (blockSizeK token k lane : Nat) :
    a.loadHidden blockSizeK token k lane (if a.useTma then 0 else k * blockSizeK) =
      if k * blockSizeK + lane < a.hiddenSize then
        if token < a.numTokens then a.hidden (token * a.hiddenSize + (k * blockSizeK + lane)) else 0
      else 0 := by
  rw [KernelArgs.loadHidden]
  cases a.useTma with
  | true =>
      simp only [if_true, and_comm (a := token < a.numTokens)]
      split_ifs
      all_goals first | rfl | omega
  | false =>
      simp only [Bool.false_eq_true, if_false]
      have haddress : token * a.hiddenSize + lane + k * blockSizeK =
          token * a.hiddenSize + (k * blockSizeK + lane) := by omega
      rw [haddress]
      split_ifs
      all_goals first | rfl | omega

theorem loadWeight_eq (blockSizeK bound col k lane : Nat) :
    a.loadWeight blockSizeK bound col k lane (if a.useTma then 0 else k * blockSizeK) =
      if k * blockSizeK + lane < a.hiddenSize then
        if col < a.weightBound bound then a.weight (col * a.hiddenSize + (k * blockSizeK + lane))
        else 0
      else 0 := by
  rw [KernelArgs.loadWeight, KernelArgs.weightBound]
  cases a.useTma with
  | true =>
      simp only [if_true]
      split_ifs
      all_goals first | rfl | omega
  | false =>
      simp only [Bool.false_eq_true, if_false]
      have haddress : col * a.hiddenSize + lane + k * blockSizeK =
          col * a.hiddenSize + (k * blockSizeK + lane) := by omega
      rw [haddress]
      split_ifs
      all_goals first | rfl | omega

/-- The blocks of the product that are done. -/
theorem foldl_gemmStep (blockSizeK bound token col n : Nat) :
    (List.range n).foldl (gemmStep a blockSizeK bound token col) ⟨0, 0, 0⟩ =
      { logits := ∑ k ∈ range n, ∑ lane ∈ range blockSizeK,
          a.loadHidden blockSizeK token k lane (if a.useTma then 0 else k * blockSizeK) *
            a.loadWeight blockSizeK bound col k lane (if a.useTma then 0 else k * blockSizeK)
        hiddenPtrs := if a.useTma then 0 else n * blockSizeK
        weightPtrs := if a.useTma then 0 else n * blockSizeK } := by
  induction n with
  | zero => simp
  | succ n ih =>
      rw [List.range_succ, List.foldl_append, ih, List.foldl_cons, List.foldl_nil, gemmStep]
      rw [sum_range_succ, Nat.succ_mul]
      cases a.useTma with
      | true => rfl
      | false => rfl

theorem gemm_logits {blockSizeK : Nat} (hpos : 0 < blockSizeK) (bound token col : Nat) :
    (gemm a blockSizeK bound token col 0).logits =
      if token < a.numTokens ∧ col < a.weightBound bound then a.dot token col else 0 := by
  rw [gemm, foldl_gemmStep]
  simp only [loadHidden_eq, loadWeight_eq]
  have hterm (k lane : Nat) :
      ((if k * blockSizeK + lane < a.hiddenSize then
          if token < a.numTokens then a.hidden (token * a.hiddenSize + (k * blockSizeK + lane))
          else 0
        else 0) *
        if k * blockSizeK + lane < a.hiddenSize then
          if col < a.weightBound bound then a.weight (col * a.hiddenSize + (k * blockSizeK + lane))
          else 0
        else 0) =
      if k * blockSizeK + lane < a.hiddenSize then
        if token < a.numTokens ∧ col < a.weightBound bound then
          a.hidden (token * a.hiddenSize + (k * blockSizeK + lane)) *
            a.weight (col * a.hiddenSize + (k * blockSizeK + lane))
        else 0
      else 0 := by
    split_ifs
    all_goals simp_all
  simp only [hterm]
  rw [Tiles.sum_tiles_masked _ _ (Tiles.le_cdiv_mul hpos a.hiddenSize) fun i =>
    if token < a.numTokens ∧ col < a.weightBound bound then
      a.hidden (token * a.hiddenSize + i) * a.weight (col * a.hiddenSize + i) else 0]
  split
  · rfl
  · exact sum_const_zero

theorem maximum_some (x : Option ℝ) (y : ℝ) : (maximum x (some y)).isSome := by
  cases x with
  | none => rfl
  | some x => rfl

/-- The largest of some values, one of which is finite. -/
theorem isSome_foldl_maximum {xs : List (Option ℝ)} {x : Option ℝ}
    (h : x.isSome ∨ ∃ y ∈ xs, y.isSome) : (xs.foldl maximum x).isSome := by
  induction xs generalizing x with
  | nil =>
      obtain h | ⟨y, hy, -⟩ := h
      · exact h
      · cases hy
  | cons z xs ih =>
      refine ih ?_
      cases z with
      | some z => exact .inl (maximum_some x z)
      | none =>
          obtain h | ⟨y, hy, hsome⟩ := h
          · obtain ⟨x', rfl⟩ := Option.isSome_iff_exists.mp h
            exact .inl rfl
          · rcases List.mem_cons.mp hy with rfl | hy
            · cases hsome
            · exact .inr ⟨y, hy, hsome⟩

/-! ## The loop over the vocabulary -/

theorem expSub_eq_coeff (x : Option ℝ) (y : ℝ) : expSub realExpLog x y = coeff x y := by
  cases x with
  | none => rfl
  | some x => rfl

/-- The columns of a split. -/
def splitBound (a : KernelArgs ℝ) (vocabPerSplit pidN : Nat) : Nat :=
  min ((pidN + 1) * vocabPerSplit) a.vocabSize

/-- A sum over the columns of the first tiles of a split. -/
noncomputable def tileSum (a : KernelArgs ℝ) (blockSizeN vocabPerSplit pidN count : Nat)
    (f : Nat → ℝ) : ℝ :=
  ∑ n ∈ range count, ∑ j ∈ range blockSizeN,
    if pidN * vocabPerSplit + n * blockSizeN + j < splitBound a vocabPerSplit pidN then
      f (pidN * vocabPerSplit + n * blockSizeN + j)
    else 0

/-- What a program has after some tiles. -/
structure MainloopOk (a : KernelArgs ℝ) (blocks : BlockSizes) (vocabPerSplit pidN token : Nat)
    (count : Nat) (s : MainloopLane ℝ) : Prop where
  accu : ScaledFrom s.max s.accu (tileSum a blocks.n vocabPerSplit pidN count fun v =>
    Real.exp (a.logits token v))
  entropyB : ScaledFrom s.max s.entropyB (tileSum a blocks.n vocabPerSplit pidN count fun v =>
    a.logits token v * Real.exp (a.logits token v))
  logprobs : ∀ col, pidN * vocabPerSplit ≤ col → col < splitBound a vocabPerSplit pidN →
    a.labels token = col + a.rank * a.vocabSize →
    s.logprobs = tileSum a blocks.n vocabPerSplit pidN count fun v =>
      if v = col then a.logits token v else 0
  hiddenPtrs : s.hiddenPtrs = 0
  max : 0 < count → s.max.isSome
  nan : s.nan = false

theorem min_eq_splitBound (a : KernelArgs ℝ) (vocabPerSplit pidN : Nat) :
    min ((pidN + 1) * vocabPerSplit) a.vocabSize = splitBound a vocabPerSplit pidN := rfl

theorem splitBound_le (a : KernelArgs ℝ) (vocabPerSplit pidN : Nat) :
    splitBound a vocabPerSplit pidN ≤ a.vocabSize := Nat.min_le_right _ _

/-- A logit of a tile. -/
theorem product_of_lt {blockSizeK : Nat} (hpos : 0 < blockSizeK) {vocabPerSplit pidN token : Nat}
    (htoken : token < a.numTokens) {col : Nat} (hcol : col < splitBound a vocabPerSplit pidN) :
    (gemm a blockSizeK (splitBound a vocabPerSplit pidN) token col 0).logits * a.rcpTemperature =
      a.logits token col := by
  have hbound : col < a.weightBound (splitBound a vocabPerSplit pidN) := by
    have hvocab := splitBound_le a vocabPerSplit pidN
    rw [KernelArgs.weightBound]
    split
    · omega
    · exact hcol
  rw [gemm_logits hpos, if_pos ⟨htoken, hbound⟩]
  rfl

/-- Some logit of a split is finite from the first tile on. -/
theorem isSome_newMax {blocks : BlockSizes} (hpos : 0 < blocks.n) {vocabPerSplit pidN : Nat}
    (hsplit : pidN * vocabPerSplit < a.vocabSize) (hsize : 0 < vocabPerSplit) {count : Nat}
    {old : Option ℝ} (hold : 0 < count → old.isSome) (logits : Nat → ℝ) :
    (maximum old (((List.range blocks.n).map fun j =>
      if pidN * vocabPerSplit + count * blocks.n + j < splitBound a vocabPerSplit pidN then
        some (logits j)
      else none).foldl maximum none)).isSome := by
  obtain rfl | hcount := Nat.eq_zero_or_pos count
  · have hfirst : pidN * vocabPerSplit + 0 * blocks.n + 0 < splitBound a vocabPerSplit pidN := by
      rw [splitBound, Nat.succ_mul]
      omega
    have hsome : (((List.range blocks.n).map fun j =>
        if pidN * vocabPerSplit + 0 * blocks.n + j < splitBound a vocabPerSplit pidN then
          some (logits j)
        else none).foldl maximum none).isSome := by
      refine isSome_foldl_maximum (.inr ⟨some (logits 0), ?_, rfl⟩)
      exact List.mem_map.mpr ⟨0, List.mem_range.mpr hpos, if_pos hfirst⟩
    obtain ⟨y, hy⟩ := Option.isSome_iff_exists.mp hsome
    rw [hy]
    exact maximum_some old y
  · obtain ⟨x, rfl⟩ := Option.isSome_iff_exists.mp (hold hcount)
    generalize ((List.range blocks.n).map fun j =>
      if pidN * vocabPerSplit + count * blocks.n + j < splitBound a vocabPerSplit pidN then
        some (logits j)
      else none).foldl maximum none = y
    cases y with
    | none => rfl
    | some y => rfl

theorem MainloopOk.step {blocks : BlockSizes} (hblocks : BlocksOk a.hiddenSize blocks)
    {vocabPerSplit pidN token : Nat} (hsplit : pidN * vocabPerSplit < a.vocabSize)
    (hsize : 0 < vocabPerSplit) (htoken : token < a.numTokens) {count : Nat}
    {s : MainloopLane ℝ} (h : MainloopOk a blocks vocabPerSplit pidN token count s) :
    MainloopOk a blocks vocabPerSplit pidN token (count + 1)
      (mainloopStep realExpLog a blocks vocabPerSplit pidN token s count) := by
  have hsome := isSome_newMax hblocks.pos_n hsplit hsize h.max fun j =>
    (gemm a blocks.k (splitBound a vocabPerSplit pidN) token
      (pidN * vocabPerSplit + count * blocks.n + j) 0).logits * a.rcpTemperature
  obtain ⟨newMax, hnewMax⟩ := Option.isSome_iff_exists.mp hsome
  have hproduct {col : Nat} (hcol : col < splitBound a vocabPerSplit pidN) :=
    product_of_lt hblocks.pos_k htoken hcol
  have hptrs := Tiles.cdiv_mul_of_dvd hblocks.pos_k hblocks.dvd
  simp only [mainloopStep, h.hiddenPtrs, min_eq_splitBound, hnewMax, Option.getD_some,
    expSub_eq_coeff, Option.isNone_some, Bool.or_false]
  constructor
  · refine (h.accu.rescale newMax).add ?_ |>.trans (sum_range_succ _ count).symm
    refine Scaled.sum fun j _ => ?_
    split
    next hcol =>
      rw [hproduct hcol]
      exact scaled_exp newMax _
    · exact scaled_zero newMax
  · rw [mul_comm s.entropyB]
    refine (h.entropyB.rescale newMax).add ?_ |>.trans (sum_range_succ _ count).symm
    refine Scaled.sum fun j _ => ?_
    split
    next hcol =>
      rw [hproduct hcol]
      exact (scaled_exp newMax _).const_mul _
    · rw [coeff, mul_zero]
      exact scaled_zero newMax
  · intro col hstart hstop hlabel
    change s.logprobs + _ = _
    rw [h.logprobs col hstart hstop hlabel, tileSum, tileSum, sum_range_succ]
    refine congrArg _ ?_
    refine sum_congr rfl fun j _ => ?_
    by_cases hcol : pidN * vocabPerSplit + count * blocks.n + j = col
    · rw [if_pos (by omega), if_pos (hcol ▸ hstop), if_pos hcol, mul_one, hproduct (hcol ▸ hstop)]
    · rw [if_neg (by omega), if_neg hcol, mul_zero, ite_self]
  · change (if a.useTma = true then 0
      else 0 + cdiv a.hiddenSize blocks.k * blocks.k - a.hiddenSize) = 0
    split
    · rfl
    · omega
  · exact fun _ => rfl
  · exact h.nan

/-- The loop of a program. -/
theorem mainloop_ok {blocks : BlockSizes} (hblocks : BlocksOk a.hiddenSize blocks)
    {vocabPerSplit pidN token : Nat} (hsplit : pidN * vocabPerSplit < a.vocabSize)
    (hsize : 0 < vocabPerSplit) (htoken : token < a.numTokens) (count : Nat) :
    MainloopOk a blocks vocabPerSplit pidN token count
      ((List.range count).foldl (mainloopStep realExpLog a blocks vocabPerSplit pidN token)
        ⟨none, 0, 0, 0, 0, false⟩) := by
  induction count with
  | zero =>
      constructor
      · exact sum_range_zero _
      · exact sum_range_zero _
      · exact fun _ _ _ _ => (sum_range_zero _).symm
      · rfl
      · exact fun hfalse => absurd hfalse (Nat.lt_irrefl 0)
      · rfl
  | succ count ih =>
      rw [List.range_succ, List.foldl_append, List.foldl_cons, List.foldl_nil]
      exact ih.step hblocks hsplit hsize htoken

/-- The tiles of a split are its columns. -/
theorem tileSum_eq {blockSizeN : Nat} (hpos : 0 < blockSizeN) (vocabPerSplit pidN : Nat)
    (f : Nat → ℝ) :
    tileSum a blockSizeN vocabPerSplit pidN (cdiv vocabPerSplit blockSizeN) f =
      ∑ v ∈ Ico (pidN * vocabPerSplit) (splitBound a vocabPerSplit pidN), f v := by
  refine Tiles.sum_tiles_Ico _ _ _ ?_ f
  have hcover := Tiles.le_cdiv_mul hpos vocabPerSplit
  rw [splitBound, Nat.succ_mul]
  omega

/-- What a program has of a token after its loop. -/
structure SplitOk (a : KernelArgs ℝ) (vocabPerSplit pidN token : Nat) (cell : SplitCell ℝ) :
    Prop where
  max : cell.max.isSome
  accu : ScaledFrom cell.max cell.accu
    (∑ v ∈ Ico (pidN * vocabPerSplit) (splitBound a vocabPerSplit pidN),
      Real.exp (a.logits token v))
  entropyB : ScaledFrom cell.max cell.entropyB
    (∑ v ∈ Ico (pidN * vocabPerSplit) (splitBound a vocabPerSplit pidN),
      a.logits token v * Real.exp (a.logits token v))
  nan : cell.nan = false

theorem mainloop_split {blocks : BlockSizes} (hblocks : BlocksOk a.hiddenSize blocks)
    {vocabPerSplit pidN token : Nat} (hsplit : pidN * vocabPerSplit < a.vocabSize)
    (hsize : 0 < vocabPerSplit) (htoken : token < a.numTokens) :
    SplitOk a vocabPerSplit pidN token
      ⟨(mainloop realExpLog a blocks vocabPerSplit pidN token).max,
        (mainloop realExpLog a blocks vocabPerSplit pidN token).accu,
        (mainloop realExpLog a blocks vocabPerSplit pidN token).entropyB,
        (mainloop realExpLog a blocks vocabPerSplit pidN token).nan⟩ := by
  have hok := mainloop_ok hblocks hsplit hsize htoken (cdiv vocabPerSplit blocks.n)
  have hcount : 0 < cdiv vocabPerSplit blocks.n := by
    have hcover := Tiles.le_cdiv_mul hblocks.pos_n vocabPerSplit
    exact Nat.pos_of_ne_zero fun hzero => by rw [hzero] at hcover; omega
  constructor
  · exact hok.max hcount
  · exact (tileSum_eq (a := a) hblocks.pos_n vocabPerSplit pidN _) ▸ hok.accu
  · exact (tileSum_eq (a := a) hblocks.pos_n vocabPerSplit pidN _) ▸ hok.entropyB
  · exact hok.nan

/-- The logit of a label, in the program that has its column. -/
theorem mainloop_logprobs {blocks : BlockSizes} (hblocks : BlocksOk a.hiddenSize blocks)
    {vocabPerSplit pidN token col : Nat} (hsize : 0 < vocabPerSplit) (htoken : token < a.numTokens)
    (hstart : pidN * vocabPerSplit ≤ col) (hstop : col < splitBound a vocabPerSplit pidN)
    (hlabel : a.labels token = col + a.rank * a.vocabSize) :
    (mainloop realExpLog a blocks vocabPerSplit pidN token).logprobs = a.logits token col := by
  have hsplit : pidN * vocabPerSplit < a.vocabSize := by
    have := splitBound_le a vocabPerSplit pidN
    omega
  have hok := mainloop_ok hblocks hsplit hsize htoken (cdiv vocabPerSplit blocks.n)
  rw [mainloop, hok.logprobs col hstart hstop hlabel, tileSum_eq hblocks.pos_n,
    sum_ite_eq' _ col, if_pos (mem_Ico.mpr ⟨hstart, hstop⟩)]

/-! ## The loop over the splits -/

/-- Splits whose values are known. -/
theorem epilogue_scaled {blockSizeN : Nat} (hpos : 0 < blockSizeN) (numSplits : Nat)
    (reducedMax : Nat → Option ℝ) {splits : Nat → SplitCell ℝ} {accu entropyB : Nat → ℝ}
    (haccu : ∀ split < numSplits, ScaledFrom (splits split).max (splits split).accu (accu split))
    (hentropyB : ∀ split < numSplits,
      ScaledFrom (splits split).max (splits split).entropyB (entropyB split)) :
    Scaled (epilogue realExpLog blockSizeN numSplits reducedMax splits).max
        (epilogue realExpLog blockSizeN numSplits reducedMax splits).accu
        (∑ split ∈ range numSplits, accu split) ∧
      Scaled (epilogue realExpLog blockSizeN numSplits reducedMax splits).max
        (epilogue realExpLog blockSizeN numSplits reducedMax splits).entropyB
        (∑ split ∈ range numSplits, entropyB split) := by
  have hloop (count : Nat) :
      let s := (List.range count).foldl
        (epilogueStep realExpLog blockSizeN numSplits reducedMax splits) ⟨0, 0, 0⟩
      Scaled s.max s.accu (∑ n ∈ range count, ∑ j ∈ range blockSizeN,
          if n * blockSizeN + j < numSplits then accu (n * blockSizeN + j) else 0) ∧
        Scaled s.max s.entropyB (∑ n ∈ range count, ∑ j ∈ range blockSizeN,
          if n * blockSizeN + j < numSplits then entropyB (n * blockSizeN + j) else 0) := by
    induction count with
    | zero => exact ⟨scaled_zero 0, scaled_zero 0⟩
    | succ count ih =>
        rw [List.range_succ, List.foldl_append, List.foldl_cons, List.foldl_nil, sum_range_succ,
          sum_range_succ, epilogueStep]
        simp only [expSub_eq_coeff]
        refine ⟨(ih.1.rescale _).add (Scaled.sum fun j _ => ?_),
          (ih.2.rescale _).add (Scaled.sum fun j _ => ?_)⟩
        · split
          next hsplit => exact (haccu _ hsplit).rescale _
          · rw [mul_zero]
            exact scaled_zero _
        · split
          next hsplit => exact (hentropyB _ hsplit).rescale _
          · rw [mul_zero]
            exact scaled_zero _
  have hcover := Tiles.le_cdiv_mul hpos numSplits
  rw [← Tiles.sum_tiles_masked _ _ hcover accu, ← Tiles.sum_tiles_masked _ _ hcover entropyB]
  exact hloop (cdiv numSplits blockSizeN)

end Verl.Kernel
