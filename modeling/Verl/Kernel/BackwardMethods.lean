import Mathlib.Data.Finset.Prod
import Mathlib.Data.List.ProdSigma
import Verl.Kernel.Backward
import Verl.Kernel.ForwardLoops

/-!
# The methods of the backward pass

Whatever is stored, and in whatever order programs and atomic adds run, the results are
the products of one gradient of the logits (`logitGrad`) with the weights and with the
hidden states.
-/

namespace Verl.Kernel

open Finset
open Tiles (cdiv)
open Distillation (realExpLog)

/-! ## Swizzling -/

section

variable {numPidM numPidN groupSizeM m n : Nat}

/-- How many blocks of tokens a group has.  The last group may have fewer. -/
def groupCount (numPidM groupSizeM group : Nat) : Nat :=
  min (numPidM - group * groupSizeM) groupSizeM

/-- The program that has two blocks. -/
def unswizzle (numPidM numPidN groupSizeM : Nat) (block : Nat × Nat) : Nat :=
  groupSizeM * numPidN * (block.1 / groupSizeM) +
    (groupCount numPidM groupSizeM (block.1 / groupSizeM) * block.2 + block.1 % groupSizeM)

theorem mod_lt_groupCount (hG : 0 < groupSizeM) (hm : m < numPidM) :
    m % groupSizeM < groupCount numPidM groupSizeM (m / groupSizeM) := by
  have hmod := Nat.mod_lt m hG
  have hdiv := Nat.div_add_mod m groupSizeM
  rw [Nat.mul_comm] at hdiv
  rw [groupCount]
  omega

/-- A program has a place in its group. -/
theorem place_lt (hG : 0 < groupSizeM) (hm : m < numPidM) (hn : n < numPidN) :
    groupCount numPidM groupSizeM (m / groupSizeM) * n + m % groupSizeM <
      groupCount numPidM groupSizeM (m / groupSizeM) * numPidN := by
  have hmod := mod_lt_groupCount hG hm
  have hle := Nat.mul_le_mul_left (groupCount numPidM groupSizeM (m / groupSizeM))
    (Nat.succ_le_of_lt hn)
  rw [Nat.mul_succ] at hle
  omega

theorem unswizzle_lt (hG : 0 < groupSizeM) (hm : m < numPidM) (hn : n < numPidN) :
    unswizzle numPidM numPidN groupSizeM (m, n) < numPidM * numPidN := by
  have hplace := place_lt hG hm hn
  have hcount : groupSizeM * (m / groupSizeM) + groupCount numPidM groupSizeM (m / groupSizeM) ≤
      numPidM := by
    have hdiv := Nat.div_add_mod m groupSizeM
    rw [groupCount, Nat.mul_comm (m / groupSizeM)]
    omega
  calc unswizzle numPidM numPidN groupSizeM (m, n)
      < groupSizeM * numPidN * (m / groupSizeM) +
          groupCount numPidM groupSizeM (m / groupSizeM) * numPidN := Nat.add_lt_add_left hplace _
    _ = (groupSizeM * (m / groupSizeM) + groupCount numPidM groupSizeM (m / groupSizeM)) *
          numPidN := by rw [Nat.add_mul, Nat.mul_right_comm]
    _ ≤ numPidM * numPidN := Nat.mul_le_mul_right _ hcount

theorem swizzle_unswizzle (hG : 0 < groupSizeM) (hm : m < numPidM) (hn : n < numPidN) :
    swizzle numPidM numPidN groupSizeM (unswizzle numPidM numPidN groupSizeM (m, n)) = (m, n) := by
  have hplace := place_lt hG hm hn
  have hmod := mod_lt_groupCount hG hm
  have hle : groupCount numPidM groupSizeM (m / groupSizeM) * numPidN ≤ groupSizeM * numPidN :=
    Nat.mul_le_mul_right _ (Nat.min_le_right _ _)
  have hlt := Nat.lt_of_lt_of_le hplace hle
  have hgroup : unswizzle numPidM numPidN groupSizeM (m, n) / (groupSizeM * numPidN) =
      m / groupSizeM := by
    rw [unswizzle, Nat.mul_add_div (Nat.zero_lt_of_lt hlt), Nat.div_eq_of_lt hlt, Nat.add_zero]
  have hrest : unswizzle numPidM numPidN groupSizeM (m, n) % (groupSizeM * numPidN) =
      groupCount numPidM groupSizeM (m / groupSizeM) * n + m % groupSizeM := by
    rw [unswizzle, Nat.mul_add_mod, Nat.mod_eq_of_lt hlt]
  simp only [swizzle, hgroup, hrest]
  change (_ + _ % groupCount numPidM groupSizeM (m / groupSizeM),
    _ / groupCount numPidM groupSizeM (m / groupSizeM)) = _
  rw [Nat.mul_add_mod, Nat.mod_eq_of_lt hmod, Nat.mul_add_div (Nat.zero_lt_of_lt hmod),
    Nat.div_eq_of_lt hmod, Nat.add_zero, Nat.mul_comm, Nat.div_add_mod]

theorem injOn_unswizzle (hG : 0 < groupSizeM) :
    Set.InjOn (unswizzle numPidM numPidN groupSizeM)
      ↑(range numPidM ×ˢ range numPidN : Finset (Nat × Nat)) := by
  rintro ⟨m, n⟩ hblock ⟨m', n'⟩ hblock' heq
  obtain ⟨hm, hn⟩ := mem_product.mp hblock
  obtain ⟨hm', hn'⟩ := mem_product.mp hblock'
  rw [← swizzle_unswizzle hG (mem_range.mp hm) (mem_range.mp hn), heq]
  exact swizzle_unswizzle hG (mem_range.mp hm') (mem_range.mp hn')

/-- Every program has its own blocks. -/
theorem image_unswizzle (hG : 0 < groupSizeM) :
    (range numPidM ×ˢ range numPidN).image (unswizzle numPidM numPidN groupSizeM) =
      range (numPidM * numPidN) := by
  refine eq_of_subset_of_card_le ?_ ?_
  · intro pid hpid
    obtain ⟨⟨m, n⟩, hblock, rfl⟩ := mem_image.mp hpid
    obtain ⟨hm, hn⟩ := mem_product.mp hblock
    exact mem_range.mpr (unswizzle_lt hG (mem_range.mp hm) (mem_range.mp hn))
  · rw [card_image_of_injOn (injOn_unswizzle hG), card_product, card_range, card_range, card_range]

theorem eq_unswizzle {pid : Nat} (hG : 0 < groupSizeM) (hpid : pid < numPidM * numPidN)
    {block : Nat × Nat} (h : swizzle numPidM numPidN groupSizeM pid = block) :
    pid = unswizzle numPidM numPidN groupSizeM block := by
  have hmem := mem_range.mpr hpid
  rw [← image_unswizzle hG] at hmem
  obtain ⟨⟨m, n⟩, hblock, rfl⟩ := mem_image.mp hmem
  obtain ⟨hm, hn⟩ := mem_product.mp hblock
  rw [← h, swizzle_unswizzle hG (mem_range.mp hm) (mem_range.mp hn)]

/-- A sum over the programs is a sum over the blocks. -/
theorem sum_swizzle {M : Type*} [AddCommMonoid M] (hG : 0 < groupSizeM) (f : Nat × Nat → M) :
    ∑ pid ∈ range (numPidM * numPidN), f (swizzle numPidM numPidN groupSizeM pid) =
      ∑ m ∈ range numPidM, ∑ n ∈ range numPidN, f (m, n) := by
  rw [← image_unswizzle hG, sum_image (injOn_unswizzle hG), sum_product]
  refine sum_congr rfl fun m hm => sum_congr rfl fun n hn => ?_
  rw [swizzle_unswizzle hG (mem_range.mp hm) (mem_range.mp hn)]

end

/-! ## The gradient of a logit -/

/-- The gradient of a logit, from what the forward pass saved. -/
noncomputable def logitGrad (b : BackwardArgs ℝ) (token col : Nat) : ℝ :=
  let prob := Real.exp (b.logits token col - b.maximum token) / b.accu token
  let mask := if col + b.rank * b.vocabSize = b.labels token then 1 else 0
  (-b.dLogprobs token * (prob - mask) +
    b.dEntropy token * -prob * (b.logits token col - b.entropyB token)) * b.rcpTemperature

variable {b : BackwardArgs ℝ} {blocks : BlockSizes}

theorem dLogits_eq {blockSizeK : Nat} (hpos : 0 < blockSizeK) {bound token col : Nat}
    (htoken : token < b.numTokens) (hbound : bound ≤ b.vocabSize) (hcol : col < bound) :
    dLogits realExpLog b blockSizeK bound token col = logitGrad b token col := by
  have hweight : col < b.weightBound bound := by
    rw [KernelArgs.weightBound]
    split
    · omega
    · exact hcol
  have hlogits : (gemm b.toKernelArgs blockSizeK bound token col 0).logits * b.rcpTemperature =
      b.logits token col := by
    rw [gemm_logits hpos, if_pos ⟨htoken, hweight⟩]
    rfl
  simp only [dLogits, logitGrad, hlogits, if_pos htoken, realExpLog, neg_one_mul, mul_one_div,
    neg_div]

/-- The two results are products with the gradient of the logits. -/
structure GradientsOk (b : BackwardArgs ℝ) (g : Gradients ℝ) : Prop where
  hidden : ∀ token < b.numTokens, ∀ k < b.hiddenSize, g.hidden (token, k) =
    ∑ v ∈ range b.vocabSize, logitGrad b token v * b.weight (v * b.hiddenSize + k)
  weight : ∀ v < b.vocabSize, ∀ k < b.hiddenSize, g.weight (v, k) =
    ∑ token ∈ range b.numTokens, logitGrad b token v * b.hidden (token * b.hiddenSize + k)

/-- The order of the programs of a swizzled grid does not matter. -/
theorem foldl_swizzle {numPidM numPidN groupSizeM sizeM sizeN rows cols : Nat}
    (hsizeM : 0 < sizeM) (hsizeN : 0 < sizeN) (hG : 0 < groupSizeM) (value : Nat × Nat → ℝ)
    (hnumPidM : numPidM = cdiv rows sizeM) (hnumPidN : numPidN = cdiv cols sizeN)
    {programs : List Nat} (hprograms : programs.Perm (List.range (numPidM * numPidN)))
    {row col : Nat} (hrow : row < rows) (hcol : col < cols) (stored : Nat × Nat → ℝ) :
    programs.foldl (fun stored pid cell =>
      if cell.1 / sizeM = (swizzle numPidM numPidN groupSizeM pid).1 ∧
          cell.2 / sizeN = (swizzle numPidM numPidN groupSizeM pid).2 ∧ cell.1 < rows ∧
          cell.2 < cols then value cell
      else stored cell) stored (row, col) = value (row, col) := by
  have hm : row / sizeM < numPidM := hnumPidM ▸ Tiles.div_lt_cdiv hsizeM hrow
  have hn : col / sizeN < numPidN := hnumPidN ▸ Tiles.div_lt_cdiv hsizeN hcol
  have howner := swizzle_unswizzle hG hm hn
  refine Tiles.foldl_owner _ (fun stored => stored (row, col))
    (unswizzle numPidM numPidN groupSizeM (row / sizeM, col / sizeN)) (fun _ => value (row, col))
    (fun stored => ?_) (hprograms.nodup_iff.mpr List.nodup_range)
    (hprograms.mem_iff.mpr (List.mem_range.mpr (unswizzle_lt hG hm hn)))
    (fun stored pid hpid hne => ?_) stored
  · refine if_pos ?_
    rw [howner]
    exact ⟨rfl, rfl, hrow, hcol⟩
  · refine if_neg ?_
    rintro ⟨hrowBlock, hcolBlock, -, -⟩
    exact hne (eq_unswizzle hG (List.mem_range.mp (hprograms.mem_iff.mp hpid))
      (Prod.ext hrowBlock.symm hcolBlock.symm))

/-! ## The separate method -/

theorem totalSeparate_ok (hblocks : BlocksOk b.hiddenSize blocks) {groupSizeM : Nat}
    (hG : 0 < groupSizeM) {programs : List Nat}
    (hprograms : programs.Perm
      (List.range (cdiv b.numTokens blocks.m * cdiv b.vocabSize blocks.n)))
    (stored : Nat × Nat → ℝ) :
    GradientsOk b (totalSeparate realExpLog b blocks groupSizeM programs stored) := by
  have hstored (token v : Nat) (htoken : token < b.numTokens) (hv : v < b.vocabSize) :
      programs.foldl (efficientEntropyBackwardKernelGeneralDLogits realExpLog b blocks groupSizeM)
        stored (token, v) = logitGrad b token v :=
    (foldl_swizzle hblocks.pos_m hblocks.pos_n hG
      (fun cell => dLogits realExpLog b blocks.k b.vocabSize cell.1 cell.2) rfl rfl hprograms htoken
      hv stored).trans (dLogits_eq hblocks.pos_k htoken (Nat.le_refl _) hv)
  constructor
  · intro token htoken k _
    change ∑ v ∈ range b.vocabSize, _ * b.weight ((0 + v) * b.hiddenSize + k) = _
    refine sum_congr rfl fun v hv => ?_
    rw [hstored token v htoken (mem_range.mp hv), Nat.zero_add]
  · intro v hv k _
    change ∑ token ∈ range b.numTokens, _ * b.hidden (token * b.hiddenSize + k) = _
    refine sum_congr rfl fun token htoken => ?_
    rw [hstored token v (mem_range.mp htoken) hv]

/-! ## The method with splits -/

/-- The results after some splits. -/
structure SplitsOk (b : BackwardArgs ℝ) (vocabPerSplit count : Nat) (g : Gradients ℝ) : Prop where
  hidden : 0 < count → ∀ token < b.numTokens, ∀ k < b.hiddenSize, g.hidden (token, k) =
    ∑ v ∈ range (min (count * vocabPerSplit) b.vocabSize),
      logitGrad b token v * b.weight (v * b.hiddenSize + k)
  weight : ∀ v < min (count * vocabPerSplit) b.vocabSize, ∀ k < b.hiddenSize, g.weight (v, k) =
    ∑ token ∈ range b.numTokens, logitGrad b token v * b.hidden (token * b.hiddenSize + k)

section

variable {groupSizeM vocabPerSplit : Nat} {programs : Nat → List Nat}

/-- Only the last split is cut. -/
theorem splitWidth_eq (hsize : 0 < vocabPerSplit) {splitIdx : Nat}
    (hsplit : splitIdx < cdiv b.vocabSize vocabPerSplit) :
    (if splitIdx = cdiv b.vocabSize vocabPerSplit - 1 then
      min ((splitIdx + 1) * vocabPerSplit) b.vocabSize - splitIdx * vocabPerSplit
    else vocabPerSplit) =
      min ((splitIdx + 1) * vocabPerSplit) b.vocabSize - splitIdx * vocabPerSplit := by
  split
  · rfl
  next hlast =>
    have hstop : (splitIdx + 1) * vocabPerSplit < b.vocabSize :=
      Tiles.mul_lt_of_lt_cdiv hsize (by omega)
    rw [Nat.min_eq_left (Nat.le_of_lt hstop), Nat.succ_mul, Nat.add_sub_cancel_left]

theorem SplitsOk.step (hblocks : BlocksOk b.hiddenSize blocks) (hG : 0 < groupSizeM)
    (hsize : 0 < vocabPerSplit) {splitIdx : Nat}
    (hprograms : (programs splitIdx).Perm
      (List.range (cdiv b.numTokens blocks.m * cdiv vocabPerSplit blocks.n)))
    (hsplit : splitIdx < cdiv b.vocabSize vocabPerSplit) {s : SplitMemory ℝ}
    (h : SplitsOk b vocabPerSplit splitIdx s.gradients) :
    SplitsOk b vocabPerSplit (splitIdx + 1)
      (splitStep realExpLog b blocks groupSizeM vocabPerSplit programs s splitIdx).gradients := by
  have hstart := Tiles.mul_lt_of_lt_cdiv hsize hsplit
  have hmin : min (splitIdx * vocabPerSplit) b.vocabSize = splitIdx * vocabPerSplit :=
    Nat.min_eq_left (Nat.le_of_lt hstart)
  obtain ⟨width, hwidth⟩ : ∃ width, min ((splitIdx + 1) * vocabPerSplit) b.vocabSize =
      splitIdx * vocabPerSplit + width :=
    Nat.exists_eq_add_of_le (by rw [Nat.succ_mul]; omega)
  have hle : width ≤ vocabPerSplit := by
    rw [Nat.succ_mul] at hwidth
    omega
  have hvocab : splitIdx * vocabPerSplit + width ≤ b.vocabSize := by omega
  let stored := (programs splitIdx).foldl
    (efficientEntropyBackwardKernelGeneralDLogitsSplitN realExpLog b blocks groupSizeM vocabPerSplit
      splitIdx) s.stored
  have hstored (token j : Nat) (htoken : token < b.numTokens) (hj : j < width) :
      stored (token, j) = logitGrad b token (splitIdx * vocabPerSplit + j) :=
    (foldl_swizzle hblocks.pos_m hblocks.pos_n hG
      (fun cell => dLogits realExpLog b blocks.k
        (min ((splitIdx + 1) * vocabPerSplit) b.vocabSize) cell.1
        (splitIdx * vocabPerSplit + cell.2))
      rfl rfl hprograms htoken (Nat.lt_of_lt_of_le hj hle) s.stored).trans
      (dLogits_eq hblocks.pos_k htoken (Nat.min_le_right _ _) (by omega))
  have hmatmul (token k : Nat) (htoken : token < b.numTokens) :
      matmulWeight b (splitIdx * vocabPerSplit) width stored (token, k) =
        ∑ j ∈ range width, logitGrad b token (splitIdx * vocabPerSplit + j) *
          b.weight ((splitIdx * vocabPerSplit + j) * b.hiddenSize + k) :=
    sum_congr rfl fun j hj => by rw [hstored token j htoken (mem_range.mp hj)]
  have hcut := splitWidth_eq (b := b) hsize hsplit
  have hrest : min ((splitIdx + 1) * vocabPerSplit) b.vocabSize - splitIdx * vocabPerSplit =
      width := by
    rw [hwidth, Nat.add_sub_cancel_left]
  simp only [splitStep, hcut.trans hrest]
  constructor
  · intro _ token htoken k hk
    rw [hwidth, sum_range_add]
    change (if splitIdx = 0 then matmulWeight b _ width stored (token, k)
      else _ + matmulWeight b _ width stored (token, k)) = _
    rw [hmatmul token k htoken]
    obtain rfl | hpos := Nat.eq_zero_or_pos splitIdx
    · rw [if_pos rfl, Nat.zero_mul, range_zero, sum_empty, zero_add]
    · rw [if_neg hpos.ne', h.hidden hpos token htoken k hk, hmin]
  · intro v hv k hk
    rw [hwidth] at hv
    change (if splitIdx * vocabPerSplit ≤ v ∧ v < splitIdx * vocabPerSplit + width then
      matmulHidden b stored (v - splitIdx * vocabPerSplit) k else _) = _
    split
    next hin =>
      refine sum_congr rfl fun token htoken => ?_
      rw [hstored token _ (mem_range.mp htoken) (by omega), Nat.add_sub_cancel' hin.1]
    next hout => exact h.weight v (by omega) k hk

theorem splitDlogitsN_ok (hblocks : BlocksOk b.hiddenSize blocks) (hG : 0 < groupSizeM)
    (hsize : 0 < vocabPerSplit) (hvocab : 0 < b.vocabSize)
    (hprograms : ∀ splitIdx < cdiv b.vocabSize vocabPerSplit, (programs splitIdx).Perm
      (List.range (cdiv b.numTokens blocks.m * cdiv vocabPerSplit blocks.n)))
    (memory : SplitMemory ℝ) :
    GradientsOk b
      (splitDlogitsN realExpLog b blocks groupSizeM vocabPerSplit programs memory) := by
  have hloop (count : Nat) (hcount : count ≤ cdiv b.vocabSize vocabPerSplit) :
      SplitsOk b vocabPerSplit count ((List.range count).foldl
        (splitStep realExpLog b blocks groupSizeM vocabPerSplit programs) memory).gradients := by
    induction count with
    | zero =>
        constructor
        · exact fun hfalse => absurd hfalse (Nat.lt_irrefl 0)
        · intro v hv
          rw [Nat.zero_mul, Nat.zero_min] at hv
          exact absurd hv (Nat.not_lt_zero v)
    | succ count ih =>
        rw [List.range_succ, List.foldl_append, List.foldl_cons, List.foldl_nil]
        exact (ih (Nat.le_of_succ_le hcount)).step hblocks hG hsize (hprograms count hcount) hcount
  have hok := hloop _ (Nat.le_refl _)
  have hcover := Tiles.le_cdiv_mul hsize b.vocabSize
  have hpos : 0 < cdiv b.vocabSize vocabPerSplit :=
    Nat.pos_of_ne_zero fun hzero => by rw [hzero] at hcover; omega
  constructor
  · exact Nat.min_eq_right hcover ▸ hok.hidden hpos
  · exact Nat.min_eq_right hcover ▸ hok.weight

end

/-! ## The fused method -/

/-- Where the pointers are in the second loop. -/
theorem shift_eq (hblocks : BlocksOk b.hiddenSize blocks) (k : Nat) :
    cdiv b.hiddenSize blocks.k * blocks.k - b.hiddenSize + k * blocks.k = k * blocks.k := by
  rw [Tiles.cdiv_mul_of_dvd hblocks.pos_k hblocks.dvd, Nat.sub_self, Nat.zero_add]

/-- The lane of a place in its block. -/
theorem lane_lt {c size : Nat} (hc : c < size) (blockSizeK : Nat) :
    c % blockSizeK < size - c / blockSizeK * blockSizeK := by
  have hcell := Nat.div_add_mod' c blockSizeK
  omega

theorem loadWeight_cell (blockSizeK : Nat) {col c : Nat} (hc : c < b.hiddenSize) :
    b.loadWeight blockSizeK b.vocabSize col (c / blockSizeK) (c % blockSizeK)
        (c / blockSizeK * blockSizeK) =
      if col < b.vocabSize then b.weight (col * b.hiddenSize + c) else 0 := by
  have hcell : c / blockSizeK * blockSizeK + c % blockSizeK = c := Nat.div_add_mod' c blockSizeK
  rw [KernelArgs.loadWeight, hcell]
  cases b.useTma with
  | true => simp only [if_true, hc, and_true]
  | false =>
      simp only [Bool.false_eq_true, if_false, lane_lt hc, true_and]
      rw [Nat.add_assoc, Nat.add_comm (c % blockSizeK), hcell]

theorem loadHidden_cell (blockSizeK : Nat) {token c : Nat} (hc : c < b.hiddenSize) :
    b.loadHidden blockSizeK token (c / blockSizeK) (c % blockSizeK)
        (c / blockSizeK * blockSizeK) =
      if token < b.numTokens then b.hidden (token * b.hiddenSize + c) else 0 := by
  have hcell : c / blockSizeK * blockSizeK + c % blockSizeK = c := Nat.div_add_mod' c blockSizeK
  rw [KernelArgs.loadHidden, hcell]
  cases b.useTma with
  | true => simp only [if_true, hc, and_true]
  | false =>
      simp only [Bool.false_eq_true, if_false, lane_lt hc, true_and]
      rw [Nat.add_assoc, Nat.add_comm (c % blockSizeK), hcell]

/-- The products of a token with a tile of columns. -/
theorem hiddenTile_eq (hpos : 0 < blocks.k) {token c : Nat} (htoken : token < b.numTokens)
    (hc : c < b.hiddenSize) (pidN : Nat) :
    ∑ j ∈ range blocks.n, dLogits realExpLog b blocks.k b.vocabSize token (pidN * blocks.n + j) *
        b.loadWeight blocks.k b.vocabSize (pidN * blocks.n + j) (c / blocks.k) (c % blocks.k)
          (c / blocks.k * blocks.k) =
      ∑ j ∈ range blocks.n, if pidN * blocks.n + j < b.vocabSize then
        logitGrad b token (pidN * blocks.n + j) *
          b.weight ((pidN * blocks.n + j) * b.hiddenSize + c)
      else 0 := by
  refine sum_congr rfl fun j _ => ?_
  rw [loadWeight_cell blocks.k hc]
  split
  next hcol => rw [dLogits_eq hpos htoken (Nat.le_refl _) hcol]
  · exact mul_zero _

/-- The products of a column with a tile of tokens. -/
theorem weightTile_eq (hpos : 0 < blocks.k) {v c : Nat} (hv : v < b.vocabSize)
    (hc : c < b.hiddenSize) (pidM : Nat) :
    ∑ i ∈ range blocks.m, dLogits realExpLog b blocks.k b.vocabSize (pidM * blocks.m + i) v *
        b.loadHidden blocks.k (pidM * blocks.m + i) (c / blocks.k) (c % blocks.k)
          (c / blocks.k * blocks.k) =
      ∑ i ∈ range blocks.m, if pidM * blocks.m + i < b.numTokens then
        logitGrad b (pidM * blocks.m + i) v *
          b.hidden ((pidM * blocks.m + i) * b.hiddenSize + c)
      else 0 := by
  refine sum_congr rfl fun i _ => ?_
  rw [loadHidden_cell blocks.k hc]
  split
  next htoken => rw [dLogits_eq hpos htoken (Nat.le_refl _) hv]
  · exact mul_zero _

/-- One row of blocks, and one block of the hidden dimension. -/
theorem sum_row {numPidM numPidN numBlocks m k : Nat} (hm : m < numPidM) (hk : k < numBlocks)
    (tile : Nat → ℝ) :
    ∑ m' ∈ range numPidM, ∑ n ∈ range numPidN, ∑ k' ∈ range numBlocks,
        (if m = m' ∧ k = k' then tile n else 0) =
      ∑ n ∈ range numPidN, tile n := by
  have hblock (m' n : Nat) :
      ∑ k' ∈ range numBlocks, (if m = m' ∧ k = k' then tile n else 0) =
        if m = m' then tile n else 0 := by
    simp only [ite_and]
    split
    · rw [sum_ite_eq, if_pos (mem_range.mpr hk)]
    · exact sum_const_zero
  simp only [hblock]
  rw [sum_comm]
  refine sum_congr rfl fun n _ => ?_
  rw [sum_ite_eq, if_pos (mem_range.mpr hm)]

section

variable (hblocks : BlocksOk b.hiddenSize blocks) {groupSizeM : Nat} (hG : 0 < groupSizeM)
  {adds : List (Nat × Nat)} (hnodup : adds.Nodup)
  (hadds : ∀ add, add ∈ adds ↔
    add.1 < cdiv b.numTokens blocks.m * cdiv b.vocabSize blocks.n ∧
      add.2 < cdiv b.hiddenSize blocks.k)

include hG hnodup hadds

/-- What every program and every block of the hidden dimension add to a place. -/
theorem totalFuseMN_apply (read : Gradients ℝ → ℝ) (term : Nat × Nat → Nat → ℝ)
    (hstep : ∀ g add,
      read (efficientEntropyBackwardKernelGeneralMainloopMN realExpLog b blocks groupSizeM g add) =
        read g + term (swizzle (cdiv b.numTokens blocks.m) (cdiv b.vocabSize blocks.n) groupSizeM
          add.1) add.2) :
    read (totalFuseMN realExpLog b blocks groupSizeM adds) =
      read ⟨fun _ => 0, fun _ => 0⟩ +
        ∑ m ∈ range (cdiv b.numTokens blocks.m), ∑ n ∈ range (cdiv b.vocabSize blocks.n),
          ∑ k ∈ range (cdiv b.hiddenSize blocks.k), term (m, n) k := by
  have hset : adds.toFinset = range (cdiv b.numTokens blocks.m * cdiv b.vocabSize blocks.n) ×ˢ
      range (cdiv b.hiddenSize blocks.k) := by
    ext add
    rw [List.mem_toFinset, hadds, mem_product, mem_range, mem_range]
  rw [totalFuseMN, Tiles.foldl_add _ read _ hstep hnodup, hset, sum_product]
  exact congrArg _ (sum_swizzle hG fun block =>
    ∑ k ∈ range (cdiv b.hiddenSize blocks.k), term block k)

include hblocks

theorem totalFuseMN_hidden {token c : Nat} (htoken : token < b.numTokens)
    (hc : c < b.hiddenSize) :
    (totalFuseMN realExpLog b blocks groupSizeM adds).hidden (token, c) =
      ∑ v ∈ range b.vocabSize, logitGrad b token v * b.weight (v * b.hiddenSize + c) := by
  let tile := fun pidN => ∑ j ∈ range blocks.n, if pidN * blocks.n + j < b.vocabSize then
    logitGrad b token (pidN * blocks.n + j) * b.weight ((pidN * blocks.n + j) * b.hiddenSize + c)
  else 0
  let term := fun (block : Nat × Nat) (k : Nat) =>
    if token / blocks.m = block.1 ∧ c / blocks.k = k ∧
        c % blocks.k < b.hiddenSize - k * blocks.k ∧ token < b.numTokens then
      ∑ j ∈ range blocks.n,
        dLogits realExpLog b blocks.k b.vocabSize token (block.2 * blocks.n + j) *
          b.loadWeight blocks.k b.vocabSize (block.2 * blocks.n + j) k (c % blocks.k)
            (cdiv b.hiddenSize blocks.k * blocks.k - b.hiddenSize + k * blocks.k)
    else 0
  have hterm (m n k : Nat) :
      term (m, n) k = if token / blocks.m = m ∧ c / blocks.k = k then tile n else 0 := by
    refine if_ctx_congr ⟨fun h => ⟨h.1, h.2.1⟩, ?_⟩ ?_ fun _ => rfl
    · rintro ⟨hrow, rfl⟩
      exact ⟨hrow, rfl, lane_lt hc blocks.k, htoken⟩
    · rintro ⟨-, rfl⟩
      rw [shift_eq hblocks]
      exact hiddenTile_eq hblocks.pos_k htoken hc n
  have hcover := Tiles.le_cdiv_mul hblocks.pos_n b.vocabSize
  calc (totalFuseMN realExpLog b blocks groupSizeM adds).hidden (token, c)
      = 0 + ∑ m ∈ range (cdiv b.numTokens blocks.m), ∑ n ∈ range (cdiv b.vocabSize blocks.n),
          ∑ k ∈ range (cdiv b.hiddenSize blocks.k), term (m, n) k :=
        totalFuseMN_apply hG hnodup hadds (fun g => g.hidden (token, c)) term fun _ _ => rfl
    _ = ∑ n ∈ range (cdiv b.vocabSize blocks.n), tile n := by
        simp only [hterm, zero_add]
        exact sum_row (Tiles.div_lt_cdiv hblocks.pos_m htoken)
          (Tiles.div_lt_cdiv hblocks.pos_k hc) tile
    _ = ∑ v ∈ range b.vocabSize, logitGrad b token v * b.weight (v * b.hiddenSize + c) :=
        Tiles.sum_tiles_masked _ _ hcover fun v =>
          logitGrad b token v * b.weight (v * b.hiddenSize + c)

theorem totalFuseMN_weight {v c : Nat} (hv : v < b.vocabSize) (hc : c < b.hiddenSize) :
    (totalFuseMN realExpLog b blocks groupSizeM adds).weight (v, c) =
      ∑ token ∈ range b.numTokens,
        logitGrad b token v * b.hidden (token * b.hiddenSize + c) := by
  let tile := fun pidM => ∑ i ∈ range blocks.m, if pidM * blocks.m + i < b.numTokens then
    logitGrad b (pidM * blocks.m + i) v * b.hidden ((pidM * blocks.m + i) * b.hiddenSize + c)
  else 0
  let term := fun (block : Nat × Nat) (k : Nat) =>
    if v / blocks.n = block.2 ∧ c / blocks.k = k ∧
        c % blocks.k < b.hiddenSize - k * blocks.k ∧ v < b.vocabSize then
      ∑ i ∈ range blocks.m,
        dLogits realExpLog b blocks.k b.vocabSize (block.1 * blocks.m + i) v *
          b.loadHidden blocks.k (block.1 * blocks.m + i) k (c % blocks.k)
            (cdiv b.hiddenSize blocks.k * blocks.k - b.hiddenSize + k * blocks.k)
    else 0
  have hterm (m n k : Nat) :
      term (m, n) k = if v / blocks.n = n ∧ c / blocks.k = k then tile m else 0 := by
    refine if_ctx_congr ⟨fun h => ⟨h.1, h.2.1⟩, ?_⟩ ?_ fun _ => rfl
    · rintro ⟨hrow, rfl⟩
      exact ⟨hrow, rfl, lane_lt hc blocks.k, hv⟩
    · rintro ⟨-, rfl⟩
      rw [shift_eq hblocks]
      exact weightTile_eq hblocks.pos_k hv hc m
  have hcover := Tiles.le_cdiv_mul hblocks.pos_m b.numTokens
  calc (totalFuseMN realExpLog b blocks groupSizeM adds).weight (v, c)
      = 0 + ∑ m ∈ range (cdiv b.numTokens blocks.m), ∑ n ∈ range (cdiv b.vocabSize blocks.n),
          ∑ k ∈ range (cdiv b.hiddenSize blocks.k), term (m, n) k :=
        totalFuseMN_apply hG hnodup hadds (fun g => g.weight (v, c)) term fun _ _ => rfl
    _ = ∑ m ∈ range (cdiv b.numTokens blocks.m), tile m := by
        simp only [hterm, zero_add]
        rw [sum_comm]
        exact sum_row (Tiles.div_lt_cdiv hblocks.pos_n hv) (Tiles.div_lt_cdiv hblocks.pos_k hc)
          tile
    _ = ∑ token ∈ range b.numTokens,
          logitGrad b token v * b.hidden (token * b.hiddenSize + c) :=
        Tiles.sum_tiles_masked _ _ hcover fun token =>
          logitGrad b token v * b.hidden (token * b.hiddenSize + c)

theorem totalFuseMN_ok : GradientsOk b (totalFuseMN realExpLog b blocks groupSizeM adds) where
  hidden _ htoken _ hc := totalFuseMN_hidden hblocks hG hnodup hadds htoken hc
  weight _ hv _ hc := totalFuseMN_weight hblocks hG hnodup hadds hv hc

end

/-! ## All methods -/

/-- Every program, or every atomic add, runs once. -/
def BackwardRun.Complete (b : BackwardArgs ℝ) (blocks : BlockSizes) : BackwardRun ℝ → Prop
  | .totalFuseMN adds =>
      adds.Nodup ∧ ∀ add, add ∈ adds ↔
        add.1 < cdiv b.numTokens blocks.m * cdiv b.vocabSize blocks.n ∧
          add.2 < cdiv b.hiddenSize blocks.k
  | .totalSeparate programs _ =>
      programs.Perm (List.range (cdiv b.numTokens blocks.m * cdiv b.vocabSize blocks.n))
  | .splitDlogitsN vocabPerSplit programs _ =>
      0 < vocabPerSplit ∧ ∀ splitIdx < cdiv b.vocabSize vocabPerSplit, (programs splitIdx).Perm
        (List.range (cdiv b.numTokens blocks.m * cdiv vocabPerSplit blocks.n))

theorem BackwardRun.Complete.gradientsOk {groupSizeM : Nat} {run : BackwardRun ℝ}
    (hrun : run.Complete b blocks) (hblocks : BlocksOk b.hiddenSize blocks) (hG : 0 < groupSizeM)
    (hvocab : 0 < b.vocabSize) :
    GradientsOk b (efficientEntropyBackward realExpLog b blocks groupSizeM run) := by
  cases run with
  | totalFuseMN adds => exact totalFuseMN_ok hblocks hG hrun.1 hrun.2
  | totalSeparate programs stored => exact totalSeparate_ok hblocks hG hrun stored
  | splitDlogitsN vocabPerSplit programs memory =>
      exact splitDlogitsN_ok hblocks hG hrun.1 hvocab hrun.2 memory

/-- The three methods of the backward pass have the same results, for every size of the tiles and
in every order, on every rank and for all values that were saved. -/
theorem efficientEntropyBackward_products (b : BackwardArgs ℝ) (blocks : BlockSizes)
    (groupSizeM : Nat) (run : BackwardRun ℝ) (hblocks : BlocksOk b.hiddenSize blocks)
    (hG : 0 < groupSizeM) (hvocab : 0 < b.vocabSize) (hrun : run.Complete b blocks) :
    GradientsOk b (efficientEntropyBackward realExpLog b blocks groupSizeM run) :=
  hrun.gradientsOk hblocks hG hvocab

/-- Atomic adds of two programs. -/
theorem efficientEntropyBackward_products_two_programs :
    let b : BackwardArgs ℝ := ⟨⟨0, fun _ => 1, fun i => i, fun _ => 1, 1, 1, 2, 1, false⟩,
      fun _ => 1, fun _ => 1, fun _ => 1, fun _ => 2, fun _ => 1⟩
    GradientsOk b
      (efficientEntropyBackward realExpLog b ⟨1, 1, 1⟩ 1 (.totalFuseMN [(1, 0), (0, 0)])) := by
  intro b
  have hadds (add : Nat × Nat) :
      add ∈ [(1, 0), (0, 0)] ↔ add.1 < cdiv 1 1 * cdiv 2 1 ∧ add.2 < cdiv 1 1 := by
    obtain ⟨pid, k⟩ := add
    simp [cdiv]
    omega
  exact efficientEntropyBackward_products b ⟨1, 1, 1⟩ 1 (.totalFuseMN [(1, 0), (0, 0)])
    ⟨Nat.one_pos, Nat.one_pos, Nat.one_pos, one_dvd _⟩ Nat.one_pos Nat.two_pos ⟨by decide, hadds⟩

end Verl.Kernel
