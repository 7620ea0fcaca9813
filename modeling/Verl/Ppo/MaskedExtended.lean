import Verl.Lib.ExtendedRat
import Verl.Ppo.Whitening

/-!
# Masked reductions of special values

`masked_sum` selects the unmasked entries with `torch.where` before it multiplies
with the mask, so a masked `nan` has no influence on it, nor on the functions that
are built from it.  The `seq-*` modes of `agg_loss` sum the product of the loss
matrix and the mask first.  There a masked `nan` or infinity spoils the loss of its
sequence, unless the sequence has no unmasked entry (`isFinite_seqLoss_iff`).
-/

namespace Verl

open XRat

/-! ## The reductions of `torch_functional` -/

/-- `masked_sum` of the listed values, each with its mask entry. -/
def maskedSumX (entries : List (XRat × ℚ)) : XRat :=
  XRat.sum (entries.map fun e => (if e.2 ≠ 0 then e.1 else 0) * fin e.2)

/-- `mask.sum()`. -/
def maskTotal (entries : List (XRat × ℚ)) : ℚ := (entries.map Prod.snd).sum

/-- `masked_mean`. -/
def maskedMeanX (entries : List (XRat × ℚ)) : XRat :=
  maskedSumX entries / fin (maskTotal entries + 1 / 10 ^ 8)

/-- `masked_var`. -/
def maskedVarX (entries : List (XRat × ℚ)) : Except Py.Error XRat :=
  let mean := maskedMeanX entries
  let centeredValues := entries.map fun e => (e.1 - mean, e.2)
  let variance := maskedMeanX (centeredValues.map fun e => (e.1 * e.1, e.2))
  let maskSum := maskTotal entries
  if maskSum = 0 then .error (.value "At least one element in the mask has to be 1.")
  else if maskSum = 1 then
    .error (.value "The sum of the mask is one, which can cause a division by zero.")
  else .ok (variance * fin (maskSum / (maskSum - 1)))

/-- `torch.rsqrt`. -/
def rsqrtX (S : SquareRoot) : XRat → XRat
  | fin q => if q = 0 then inf false else if q < 0 then nan else fin (1 / S.sqrt q)
  | inf false => fin 0
  | inf true => nan
  | nan => nan

/-- `masked_whiten`. -/
def maskedWhitenX (S : SquareRoot) (shiftMean : Bool) (entries : List (XRat × ℚ)) :
    Except Py.Error (List XRat) := do
  let mean := maskedMeanX entries
  let var ← maskedVarX entries
  return entries.map fun e =>
    let whitened := (e.1 - mean) * rsqrtX S (var + fin (1 / 10 ^ 8))
    if shiftMean then whitened else whitened + mean

/-! ## `agg_loss` -/

/-- One row of a loss matrix that may have special values. -/
structure XLossRow (w : Nat) where
  loss : Fin w → XRat
  mask : Fin w → ℚ
  mask_zero_or_one : ∀ j, mask j = 0 ∨ mask j = 1

namespace XLossRow

variable {w : Nat}

/-- The row with 0 for the masked entries. -/
def live (r : XLossRow w) : LossRow w where
  loss j := if r.mask j ≠ 0 then (r.loss j).toRat else 0
  mask := r.mask
  mask_zero_or_one := r.mask_zero_or_one

/-- `torch.sum(loss_mask, dim=-1)`. -/
def maskSum (r : XLossRow w) : ℚ := r.live.maskSum

/-- `(torch.sum(loss_mask, dim=-1) > 0).float()`. -/
def seqMask (r : XLossRow w) : ℚ := r.live.seqMask

/-- `torch.sum(loss_mat * loss_mask, dim=-1)`. -/
def maskedLoss (r : XLossRow w) : XRat := XRat.sum (List.ofFn fun j => r.loss j * fin (r.mask j))

/-- The entries of a row with their mask entries. -/
def entries (r : XLossRow w) : List (XRat × ℚ) := List.ofFn fun j => (r.loss j, r.mask j)

end XLossRow

variable {w : Nat}

/-- The entries of the loss matrix with their mask entries, row by row. -/
def tokenEntriesX (batch : List (XLossRow w)) : List (XRat × ℚ) := batch.flatMap XLossRow.entries

/-- `agg_loss`. -/
def aggLossX (batch : List (XLossRow w)) (mode : LossAggMode) (dpSize : Nat)
    (batchNumTokens globalBatchSize lossScaleFactor : Option Int) : Except String XRat :=
  let seqCount := globalCount globalBatchSize dpSize (batch.map XLossRow.seqMask).sum
    "global_batch_size is required when dp_size > 1"
  let tokenSums := batch.map fun r => (r.maskedLoss, r.seqMask)
  match mode with
  | .tokenMean => do
      let n ← globalCount batchNumTokens dpSize (batch.map XLossRow.maskSum).sum
        "(global) batch_num_tokens is required when dp_size > 1"
      return maskedSumX (tokenEntriesX batch) / fin n * fin dpSize
  | .seqMeanTokenSum => do
      let n ← seqCount
      return maskedSumX tokenSums / fin n * fin dpSize
  | .seqMeanTokenSumNorm => do
      let n ← seqCount
      return maskedSumX tokenSums / fin n * fin dpSize / fin (scaleFactor w lossScaleFactor)
  | .seqMeanTokenMean => do
      let n ← seqCount
      let tokenMeans := batch.map fun r =>
        (r.maskedLoss / fin (r.maskSum + 1 / 10 ^ 8), r.seqMask)
      return maskedSumX tokenMeans / fin n * fin dpSize

/-! ## Finite values -/

/-- An entry with 0 for a masked value. -/
def liveEntry (e : XRat × ℚ) : ℚ × ℚ := (if e.2 ≠ 0 then e.1.toRat else 0, e.2)

/-- Every unmasked entry is finite. -/
def FiniteLive (entries : List (XRat × ℚ)) : Prop := ∀ e ∈ entries, e.2 ≠ 0 → e.1.IsFinite

variable {entries : List (XRat × ℚ)}

/-- Masked values have no influence on `masked_sum`. -/
theorem maskedSumX_eq (h : FiniteLive entries) :
    maskedSumX entries = fin (maskedSum (entries.map liveEntry)) := by
  rw [maskedSumX, maskedSum, List.map_map, ← XRat.sum_map_fin]
  refine congrArg XRat.sum (List.map_congr_left fun e he => ?_)
  rw [Function.comp_apply, liveEntry]
  by_cases hm : e.2 ≠ 0
  · rw [if_pos hm, if_pos hm, if_pos hm, h e he hm]
    rfl
  · rw [if_neg hm, if_neg hm, if_neg hm]
    rfl

theorem isFinite_maskedSumX_iff : (maskedSumX entries).IsFinite ↔ FiniteLive entries := by
  rw [maskedSumX, isFinite_sum_iff, List.forall_mem_map]
  refine forall₂_congr fun e _ => ?_
  rw [isFinite_mul_fin_iff]
  by_cases hm : e.2 ≠ 0
  · rw [if_pos hm, forall_prop_of_true hm]
  · rw [if_neg hm, forall_prop_of_false hm, iff_true]
    exact isFinite_fin 0

theorem maskTotal_eq (entries : List (XRat × ℚ)) :
    maskTotal entries = ((entries.map liveEntry).map Prod.snd).sum := by
  rw [maskTotal, List.map_map]
  rfl

/-- A mask of 0 and 1. -/
def BinaryMask (entries : List (XRat × ℚ)) : Prop := ∀ e ∈ entries, e.2 = 0 ∨ e.2 = 1

theorem maskTotal_nonneg (h : BinaryMask entries) : 0 ≤ maskTotal entries := by
  refine List.sum_nonneg fun m hm => ?_
  obtain ⟨e, he, rfl⟩ := List.mem_map.mp hm
  rcases h e he with h | h
  · rw [h]
  · rw [h]
    exact zero_le_one

theorem maskedMeanX_eq (hmask : BinaryMask entries) (h : FiniteLive entries) :
    maskedMeanX entries = fin (maskedMean (entries.map liveEntry)) := by
  have hpos : 0 < maskTotal entries + 1 / 10 ^ 8 :=
    add_pos_of_nonneg_of_pos (maskTotal_nonneg hmask) (div_pos one_pos (pow_pos (by decide) 8))
  rw [maskedMeanX, maskedSumX_eq h, fin_div_fin hpos.ne', maskTotal_eq, maskedMean]

/-- `masked_sum` reads the unmasked entries. -/
theorem maskedSum_map_congr {α : Type} {f g : α → ℚ × ℚ} {xs : List α}
    (hmask : ∀ x ∈ xs, (f x).2 = (g x).2) (hvalue : ∀ x ∈ xs, (g x).2 ≠ 0 → (f x).1 = (g x).1) :
    maskedSum (xs.map f) = maskedSum (xs.map g) := by
  rw [maskedSum, maskedSum, List.map_map, List.map_map]
  refine congrArg List.sum (List.map_congr_left fun x hx => ?_)
  rw [Function.comp_apply, Function.comp_apply, hmask x hx]
  by_cases hm : (g x).2 ≠ 0
  · rw [if_pos hm, if_pos hm, hvalue x hx hm]
  · rw [if_neg hm, if_neg hm]

theorem maskedMean_map_congr {α : Type} {f g : α → ℚ × ℚ} {xs : List α}
    (hmask : ∀ x ∈ xs, (f x).2 = (g x).2) (hvalue : ∀ x ∈ xs, (g x).2 ≠ 0 → (f x).1 = (g x).1) :
    maskedMean (xs.map f) = maskedMean (xs.map g) := by
  have htotal : (xs.map f).map Prod.snd = (xs.map g).map Prod.snd := by
    rw [List.map_map, List.map_map]
    exact List.map_congr_left hmask
  rw [maskedMean, maskedMean, maskedSum_map_congr hmask hvalue, htotal]

/-- Masked values have no influence on `masked_var`. -/
theorem maskedVarX_eq (hmask : BinaryMask entries) (h : FiniteLive entries) :
    maskedVarX entries = (maskedVar (entries.map liveEntry)).map fin := by
  obtain ⟨mean, hmean⟩ : ∃ mean, mean = maskedMean (entries.map liveEntry) := ⟨_, rfl⟩
  obtain ⟨squares, hsquares⟩ : ∃ squares, squares =
      entries.map fun e => ((e.1 - fin mean) * (e.1 - fin mean), e.2) := ⟨_, rfl⟩
  have hbinary : BinaryMask squares := by
    intro e he
    rw [hsquares] at he
    obtain ⟨e', he', rfl⟩ := List.mem_map.mp he
    exact hmask e' he'
  have hfinite : FiniteLive squares := by
    intro e he hm
    rw [hsquares] at he
    obtain ⟨e', he', rfl⟩ := List.mem_map.mp he
    rw [h e' he' hm]
    exact isFinite_fin _
  have hvariance : maskedMean (squares.map liveEntry) =
      maskedMean ((entries.map liveEntry).map fun e => ((e.1 - mean) ^ 2, e.2)) := by
    rw [hsquares, List.map_map, List.map_map]
    refine maskedMean_map_congr (fun e _ => rfl) fun e he hm => ?_
    have hm : e.2 ≠ 0 := hm
    simp only [Function.comp_apply, liveEntry, if_pos hm]
    rw [h e he hm, fin_sub_fin, fin_mul_fin, sq]
    rfl
  have hmaps : (entries.map fun e => (e.1 - maskedMeanX entries, e.2)).map
      (fun e => (e.1 * e.1, e.2)) = squares := by
    rw [List.map_map, maskedMeanX_eq hmask h, ← hmean, hsquares]
    rfl
  rw [maskedVarX, maskedVar, hmaps, maskedMeanX_eq hbinary hfinite, hvariance, ← maskTotal_eq,
    ← hmean]
  split
  · rfl
  · split
    · rfl
    · rfl

theorem rsqrtX_fin {S : SquareRoot} {q : ℚ} (h : 0 < q) :
    rsqrtX S (fin q) = fin (1 / S.sqrt q) := by
  rw [rsqrtX, if_neg h.ne', if_neg h.le.not_gt]

/-! ## Two runs -/

/-- One finite number. -/
def SameFinite (x y : XRat) : Prop := x = y ∧ x.IsFinite

/-- The same exception, or results that are related. -/
def SameOutcome {ε α : Type} (R : α → α → Prop) : Except ε α → Except ε α → Prop
  | .ok x, .ok y => R x y
  | .error e, .error e' => e = e'
  | _, _ => False

/-- Entries with one mask, and one finite value where the mask is 1. -/
structure AgreeLiveEntry (e e' : XRat × ℚ) : Prop where
  mask_eq : e.2 = e'.2
  mask_zero_or_one : e.2 = 0 ∨ e.2 = 1
  value_same : e.2 ≠ 0 → SameFinite e.1 e'.1

/-- Two tensors that agree at the unmasked positions. -/
def AgreeLive (entries entries' : List (XRat × ℚ)) : Prop :=
  List.Forall₂ AgreeLiveEntry entries entries'

variable {entries' : List (XRat × ℚ)}

theorem AgreeLive.symm (h : AgreeLive entries entries') : AgreeLive entries' entries := by
  refine h.flip.imp fun e e' he => ⟨he.mask_eq.symm, he.mask_eq ▸ he.mask_zero_or_one, fun hm => ?_⟩
  obtain ⟨heq, hfinite⟩ := he.value_same (he.mask_eq ▸ hm)
  exact ⟨heq.symm, heq ▸ hfinite⟩

theorem AgreeLive.binaryMask (h : AgreeLive entries entries') : BinaryMask entries := by
  induction h with
  | nil => exact fun _ he => absurd he List.not_mem_nil
  | cons he hrest ih => exact List.forall_mem_cons.mpr ⟨he.mask_zero_or_one, ih⟩

theorem AgreeLive.finiteLive (h : AgreeLive entries entries') : FiniteLive entries := by
  induction h with
  | nil => exact fun _ he => absurd he List.not_mem_nil
  | cons he hrest ih => exact List.forall_mem_cons.mpr ⟨fun hm => (he.value_same hm).2, ih⟩

theorem AgreeLive.map_liveEntry (h : AgreeLive entries entries') :
    entries.map liveEntry = entries'.map liveEntry := by
  induction h with
  | nil => rfl
  | @cons e e' rest rest' he hrest ih =>
      rw [List.map_cons, List.map_cons, ih, liveEntry, liveEntry, ← he.mask_eq]
      by_cases hm : e.2 ≠ 0
      · rw [(he.value_same hm).1]
      · rw [if_neg hm, if_neg hm]

/-- Both `masked_sum`s are the sum of the finite values. -/
theorem sameFinite_maskedSumX (h : AgreeLive entries entries') :
    SameFinite (maskedSumX entries) (maskedSumX entries') := by
  rw [maskedSumX_eq h.finiteLive, maskedSumX_eq h.symm.finiteLive, h.map_liveEntry]
  exact ⟨rfl, isFinite_fin _⟩

theorem sameFinite_maskedMeanX (h : AgreeLive entries entries') :
    SameFinite (maskedMeanX entries) (maskedMeanX entries') := by
  rw [maskedMeanX_eq h.binaryMask h.finiteLive, maskedMeanX_eq h.symm.binaryMask h.symm.finiteLive,
    h.map_liveEntry]
  exact ⟨rfl, isFinite_fin _⟩

theorem sameOutcome_maskedVarX (h : AgreeLive entries entries') :
    SameOutcome SameFinite (maskedVarX entries) (maskedVarX entries') := by
  rw [maskedVarX_eq h.binaryMask h.finiteLive, maskedVarX_eq h.symm.binaryMask h.symm.finiteLive,
    h.map_liveEntry]
  cases maskedVar (entries'.map liveEntry) with
  | error e => exact rfl
  | ok var => exact ⟨rfl, isFinite_fin _⟩

/-- The whitened values at the unmasked positions. -/
def whitenedLive (S : SquareRoot) (shiftMean : Bool) (entries : List (XRat × ℚ)) :
    Except Py.Error (List XRat) := do
  let whitened ← maskedWhitenX S shiftMean entries
  return (((entries.map Prod.snd).zip whitened).filter fun e => e.1 ≠ 0).map Prod.snd

theorem filter_zip_map {α : Type} (mask : α → ℚ) (f : α → XRat) (xs : List α) :
    (((xs.map mask).zip (xs.map f)).filter fun e => e.1 ≠ 0).map Prod.snd =
      (xs.filter fun x => mask x ≠ 0).map f := by
  rw [List.zip_map', List.filter_map, List.map_map]
  rfl

theorem AgreeLive.forall₂_filter {f f' : XRat → XRat} (h : AgreeLive entries entries')
    (hf : ∀ x y, SameFinite x y → SameFinite (f x) (f' y)) :
    List.Forall₂ SameFinite ((entries.filter fun e => e.2 ≠ 0).map fun e => f e.1)
      ((entries'.filter fun e => e.2 ≠ 0).map fun e => f' e.1) := by
  induction h with
  | nil => exact .nil
  | @cons e e' rest rest' he hrest ih =>
      by_cases hm : e.2 ≠ 0
      · rw [List.filter_cons_of_pos (by rwa [decide_eq_true_eq]),
          List.filter_cons_of_pos (by rwa [decide_eq_true_eq, ← he.mask_eq])]
        exact .cons (hf _ _ (he.value_same hm)) ih
      · rw [List.filter_cons_of_neg (by rwa [decide_eq_true_eq]),
          List.filter_cons_of_neg (by rwa [decide_eq_true_eq, ← he.mask_eq])]
        exact ih

/-- The whitened values at the unmasked positions are the same finite numbers. -/
theorem sameOutcome_whitenedLive (S : SquareRoot) (shiftMean : Bool)
    (h : AgreeLive entries entries') :
    SameOutcome (List.Forall₂ SameFinite) (whitenedLive S shiftMean entries)
      (whitenedLive S shiftMean entries') := by
  rw [whitenedLive, whitenedLive, maskedWhitenX, maskedWhitenX,
    maskedVarX_eq h.binaryMask h.finiteLive, maskedVarX_eq h.symm.binaryMask h.symm.finiteLive,
    maskedMeanX_eq h.binaryMask h.finiteLive, maskedMeanX_eq h.symm.binaryMask h.symm.finiteLive,
    h.map_liveEntry]
  cases hvar : maskedVar (entries'.map liveEntry) with
  | error e => exact rfl
  | ok var =>
      have hpos : 0 < var + 1 / 10 ^ 8 := by
        refine add_pos_of_nonneg_of_pos (maskedVar_nonneg ?_ hvar)
          (div_pos one_pos (pow_pos (by decide) 8))
        intro e he
        obtain ⟨e', he', rfl⟩ := List.mem_map.mp he
        exact h.symm.binaryMask e' he'
      obtain ⟨mean, hmean⟩ : ∃ mean, mean = maskedMean (entries'.map liveEntry) := ⟨_, rfl⟩
      change List.Forall₂ SameFinite _ _
      rw [filter_zip_map, filter_zip_map, fin_add_fin, rsqrtX_fin hpos, ← hmean]
      let whiten : XRat → XRat := fun x =>
        let whitened := (x - fin mean) * fin (1 / S.sqrt (var + 1 / 10 ^ 8))
        if shiftMean then whitened else whitened + fin mean
      refine @AgreeLive.forall₂_filter _ _ whiten whiten h fun x y hxy => ?_
      obtain ⟨rfl, hx⟩ := hxy
      refine ⟨rfl, ?_⟩
      rw [hx]
      dsimp only [whiten]
      rw [fin_sub_fin, fin_mul_fin]
      split
      · exact isFinite_fin _
      · exact isFinite_fin _

/-! ## The loss of a batch -/

variable {batch batch' : List (XLossRow w)}

/-- Rows that agree at the unmasked positions. -/
def AgreeLiveRow (r r' : XLossRow w) : Prop :=
  r.mask = r'.mask ∧ ∀ j, r.mask j = 1 → SameFinite (r.loss j) (r'.loss j)

/-- Loss matrices that agree, and are finite, at the unmasked positions. -/
def AgreeLiveBatch (batch batch' : List (XLossRow w)) : Prop :=
  List.Forall₂ AgreeLiveRow batch batch'

/-- An unmasked entry. -/
def HasLive (r : XLossRow w) : Prop := ∃ j, r.mask j = 1

/-- Every entry of a row with an unmasked entry is finite. -/
def FiniteLiveRows (batch : List (XLossRow w)) : Prop :=
  ∀ r ∈ batch, HasLive r → ∀ j, (r.loss j).IsFinite

theorem AgreeLiveRow.agreeLive_entries {r r' : XLossRow w} (h : AgreeLiveRow r r') :
    AgreeLive r.entries r'.entries := by
  rw [AgreeLive, XLossRow.entries, XLossRow.entries, List.forall₂_iff_get]
  refine ⟨by rw [List.length_ofFn, List.length_ofFn], fun i hi hi' => ?_⟩
  rw [List.get_ofFn, List.get_ofFn]
  refine ⟨congrFun h.1 _, r.mask_zero_or_one _, fun hm => ?_⟩
  exact h.2 _ ((r.mask_zero_or_one _).resolve_left hm)

theorem AgreeLiveRow.live_eq {r r' : XLossRow w} (h : AgreeLiveRow r r') : r.live = r'.live := by
  have hloss : r.live.loss = r'.live.loss := by
    funext j
    rcases r.mask_zero_or_one j with h0 | h1
    · change (if r.mask j ≠ 0 then _ else _) = if r'.mask j ≠ 0 then _ else _
      rw [← h.1, if_neg (not_not.mpr h0), if_neg (not_not.mpr h0)]
    · change (if r.mask j ≠ 0 then _ else _) = if r'.mask j ≠ 0 then _ else _
      rw [← h.1, (h.2 j h1).1]
  cases r
  cases r'
  obtain ⟨hmask, _⟩ := h
  simp only at hmask
  subst hmask
  simp only [XLossRow.live, LossRow.mk.injEq, and_true] at hloss ⊢
  exact hloss

theorem AgreeLiveBatch.agreeLive_tokenEntriesX (h : AgreeLiveBatch batch batch') :
    AgreeLive (tokenEntriesX batch) (tokenEntriesX batch') := by
  induction h with
  | nil => exact .nil
  | cons hrow hrest ih =>
      rw [tokenEntriesX, tokenEntriesX, List.flatMap_cons, List.flatMap_cons]
      exact List.rel_append hrow.agreeLive_entries ih

theorem AgreeLiveBatch.map_live (h : AgreeLiveBatch batch batch') :
    batch.map XLossRow.live = batch'.map XLossRow.live := by
  induction h with
  | nil => rfl
  | cons hrow hrest ih => rw [List.map_cons, List.map_cons, ih, hrow.live_eq]

theorem AgreeLiveBatch.exists_hasLive (h : AgreeLiveBatch batch batch')
    (hlive : ∃ r ∈ batch, HasLive r) : ∃ r ∈ batch', HasLive r := by
  obtain ⟨r, hr, j, hj⟩ := hlive
  induction h with
  | nil => exact absurd hr List.not_mem_nil
  | @cons r₁ r₁' rest rest' hrow hrest ih =>
      rcases List.mem_cons.mp hr with rfl | hr
      · exact ⟨r₁', List.mem_cons_self, j, hrow.1 ▸ hj⟩
      · obtain ⟨r', hr', hlive'⟩ := ih hr
        exact ⟨r', List.mem_cons_of_mem _ hr', hlive'⟩

/-- A sequence counts when it has an unmasked entry. -/
theorem hasLive_iff {r : XLossRow w} : HasLive r ↔ r.seqMask ≠ 0 := by
  have hcard : 0 < r.live.numTokens ↔ HasLive r := by
    rw [LossRow.numTokens, Finset.card_pos]
    constructor
    · rintro ⟨j, hj⟩
      exact ⟨j, (Finset.mem_filter.mp hj).2⟩
    · rintro ⟨j, hj⟩
      exact ⟨j, Finset.mem_filter.mpr ⟨Finset.mem_univ j, hj⟩⟩
  rw [XLossRow.seqMask, LossRow.seqMask_eq, ← hcard]
  by_cases h : 0 < r.live.numTokens
  · rw [if_pos h]
    exact ⟨fun _ => one_ne_zero, fun _ => h⟩
  · rw [if_neg h]
    exact ⟨fun h' => absurd h' h, fun h' => absurd rfl h'⟩

/-! ## The loss of a sequence -/

/-- A special value of a row spoils `torch.sum(loss_mat * loss_mask, dim=-1)`, also
where it is masked. -/
theorem isFinite_seqLoss_iff {r : XLossRow w} :
    r.maskedLoss.IsFinite ↔ ∀ j, (r.loss j).IsFinite := by
  rw [XLossRow.maskedLoss, isFinite_sum_iff, List.forall_mem_ofFn_iff]
  exact forall_congr' fun j => isFinite_mul_fin_iff

theorem maskedLoss_eq {r : XLossRow w} (h : ∀ j, (r.loss j).IsFinite) :
    r.maskedLoss = fin r.live.maskedLoss := by
  have hentry : (fun j => r.loss j * fin (r.mask j)) =
      fun j => fin (r.live.loss j * r.live.mask j) := by
    funext j
    change _ = fin ((if r.mask j ≠ 0 then (r.loss j).toRat else 0) * r.mask j)
    rw [h j, fin_mul_fin]
    by_cases hm : r.mask j ≠ 0
    · rw [if_pos hm]
      rfl
    · rw [not_not.mp hm, mul_zero, mul_zero]
  rw [XLossRow.maskedLoss, hentry, LossRow.maskedLoss, ← List.sum_ofFn, List.ofFn_eq_map,
    XRat.sum_map_fin, List.ofFn_eq_map]

/-- The sum over the sequences, with what each adds to it. -/
theorem maskedSumX_rows {f : XLossRow w → XRat} {g : LossRow w → ℚ}
    (h : ∀ r ∈ batch, HasLive r → f r = fin (g r.live)) :
    maskedSumX (batch.map fun r => (f r, r.seqMask)) =
      fin (maskedSum ((batch.map XLossRow.live).map fun r => (g r, r.seqMask))) := by
  rw [maskedSumX_eq]
  · rw [List.map_map, List.map_map]
    refine congrArg fin (maskedSum_map_congr (fun r _ => rfl) fun r hr hm => ?_)
    have hm : r.seqMask ≠ 0 := hm
    rw [Function.comp_apply, liveEntry, if_pos hm, h r hr (hasLive_iff.mpr hm)]
    rfl
  · intro e he hm
    obtain ⟨r, hr, rfl⟩ := List.mem_map.mp he
    rw [h r hr (hasLive_iff.mpr hm)]
    exact isFinite_fin _

/-! ## The modes -/

/-- The counts are given without the value 0. -/
structure NonzeroCounts (batchNumTokens globalBatchSize lossScaleFactor : Option Int) : Prop where
  tokens : batchNumTokens ≠ some 0
  sequences : globalBatchSize ≠ some 0
  scale : lossScaleFactor ≠ some 0

theorem globalCount_ne_zero {given : Option Int} {dpSize : Nat} {localCount n : ℚ}
    {message : String} (hgiven : given ≠ some 0) (hlocal : localCount ≠ 0)
    (h : globalCount given dpSize localCount message = .ok n) : n ≠ 0 := by
  cases given with
  | some k =>
      obtain rfl := Except.ok.inj h
      rw [Int.cast_ne_zero]
      rintro rfl
      exact hgiven rfl
  | none =>
      rw [globalCount] at h
      split at h
      · cases h
      · obtain rfl := Except.ok.inj h
        exact hlocal

theorem scaleFactor_ne_zero {lossScaleFactor : Option Int} (hw : w ≠ 0)
    (h : lossScaleFactor ≠ some 0) : scaleFactor w lossScaleFactor ≠ 0 := by
  cases lossScaleFactor with
  | some k =>
      rw [scaleFactor, Int.cast_ne_zero]
      rintro rfl
      exact h rfl
  | none => rwa [scaleFactor, Nat.cast_ne_zero]

theorem sum_seqMask_ne_zero (h : ∃ r ∈ batch, HasLive r) :
    (batch.map XLossRow.seqMask).sum ≠ 0 := by
  obtain ⟨r, hr, hlive⟩ := h
  have hnonneg : ∀ x ∈ batch.map XLossRow.seqMask, 0 ≤ x := by
    intro x hx
    obtain ⟨r', _, rfl⟩ := List.mem_map.mp hx
    rw [XLossRow.seqMask, LossRow.seqMask]
    split
    · exact zero_le_one
    · exact le_refl 0
  intro hzero
  have hle := List.single_le_sum hnonneg _ (List.mem_map_of_mem hr)
  have hpos : 0 < r.seqMask := lt_of_le_of_ne (hnonneg _ (List.mem_map_of_mem hr))
    (hasLive_iff.mp hlive).symm
  rw [hzero] at hle
  exact absurd hle hpos.not_ge

theorem sum_maskSum_ne_zero (h : ∃ r ∈ batch, HasLive r) :
    (batch.map XLossRow.maskSum).sum ≠ 0 := by
  obtain ⟨r, hr, hlive⟩ := h
  have hnonneg : ∀ x ∈ batch.map XLossRow.maskSum, 0 ≤ x := by
    intro x hx
    obtain ⟨r', _, rfl⟩ := List.mem_map.mp hx
    rw [XLossRow.maskSum, LossRow.maskSum_eq]
    exact Nat.cast_nonneg _
  have hpos : 0 < r.maskSum := by
    have hseq := hasLive_iff.mp hlive
    rw [XLossRow.seqMask, LossRow.seqMask] at hseq
    by_contra hle
    exact hseq (if_neg hle)
  intro hzero
  have hle := List.single_le_sum hnonneg _ (List.mem_map_of_mem hr)
  rw [hzero] at hle
  exact absurd hle hpos.not_ge

theorem maskSum_add_ne_zero (r : LossRow w) : r.maskSum + 1 / 10 ^ 8 ≠ 0 := by
  rw [LossRow.maskSum_eq]
  exact (add_pos_of_nonneg_of_pos (Nat.cast_nonneg _)
    (div_pos one_pos (pow_pos (by decide) 8))).ne'

theorem FiniteLiveRows.finiteLive (h : FiniteLiveRows batch) :
    FiniteLive (tokenEntriesX batch) := by
  intro e he hm
  obtain ⟨r, hr, he⟩ := List.mem_flatMap.mp he
  obtain ⟨j, rfl⟩ := List.mem_ofFn.mp he
  exact h r hr ⟨j, (r.mask_zero_or_one j).resolve_left hm⟩ j

theorem map_liveEntry_tokenEntriesX (batch : List (XLossRow w)) :
    (tokenEntriesX batch).map liveEntry = tokenEntries (batch.map XLossRow.live) := by
  rw [tokenEntriesX, tokenEntries, List.map_flatMap, List.flatMap_map]
  refine congrArg (batch.flatMap ·) (funext fun r => ?_)
  rw [XLossRow.entries, List.map_ofFn]
  rfl

theorem sum_map_live {f : XLossRow w → ℚ} {g : LossRow w → ℚ} (h : ∀ r, f r = g r.live) :
    ((batch.map XLossRow.live).map g).sum = (batch.map f).sum := by
  rw [List.map_map]
  exact congrArg List.sum (List.map_congr_left fun r _ => (h r).symm)

/-- Where the sequences with an unmasked entry are finite, `agg_loss` is that of
numbers. -/
theorem aggLossX_eq {batchNumTokens globalBatchSize lossScaleFactor : Option Int}
    (hlive : ∃ r ∈ batch, HasLive r) (hfinite : FiniteLiveRows batch)
    (hcounts : NonzeroCounts batchNumTokens globalBatchSize lossScaleFactor)
    (mode : LossAggMode) (dpSize : Nat) :
    aggLossX batch mode dpSize batchNumTokens globalBatchSize lossScaleFactor =
      (aggLoss (batch.map XLossRow.live) mode dpSize batchNumTokens globalBatchSize
        lossScaleFactor).map fin := by
  have hw : w ≠ 0 := by
    obtain ⟨r, _, j, _⟩ := hlive
    exact j.pos.ne'
  have hsums : maskedSumX (batch.map fun r => (r.maskedLoss, r.seqMask)) =
      fin (maskedSum ((batch.map XLossRow.live).map fun r => (r.maskedLoss, r.seqMask))) :=
    maskedSumX_rows fun r hr hrow => maskedLoss_eq (hfinite r hr hrow)
  have hseq : ((batch.map XLossRow.live).map LossRow.seqMask).sum =
      (batch.map XLossRow.seqMask).sum := sum_map_live fun _ => rfl
  cases mode with
  | tokenMean =>
      rw [aggLossX, aggLoss, maskedSumX_eq hfinite.finiteLive, map_liveEntry_tokenEntriesX,
        @sum_map_live _ batch XLossRow.maskSum LossRow.maskSum fun _ => rfl]
      cases hn : globalCount batchNumTokens dpSize (batch.map XLossRow.maskSum).sum
          "(global) batch_num_tokens is required when dp_size > 1" with
      | error e => rfl
      | ok n =>
          have hne := globalCount_ne_zero hcounts.tokens (sum_maskSum_ne_zero hlive) hn
          refine congrArg Except.ok ?_
          rw [fin_div_fin hne]
          rfl
  | seqMeanTokenSum =>
      rw [aggLossX, aggLoss, hsums, hseq]
      cases hn : globalCount globalBatchSize dpSize (batch.map XLossRow.seqMask).sum
          "global_batch_size is required when dp_size > 1" with
      | error e => rfl
      | ok n =>
          have hne := globalCount_ne_zero hcounts.sequences (sum_seqMask_ne_zero hlive) hn
          refine congrArg Except.ok ?_
          rw [fin_div_fin hne]
          rfl
  | seqMeanTokenSumNorm =>
      rw [aggLossX, aggLoss, hsums, hseq]
      cases hn : globalCount globalBatchSize dpSize (batch.map XLossRow.seqMask).sum
          "global_batch_size is required when dp_size > 1" with
      | error e => rfl
      | ok n =>
          have hne := globalCount_ne_zero hcounts.sequences (sum_seqMask_ne_zero hlive) hn
          refine congrArg Except.ok ?_
          rw [fin_div_fin hne, fin_mul_fin, fin_div_fin (scaleFactor_ne_zero hw hcounts.scale)]
  | seqMeanTokenMean =>
      have hmeans : maskedSumX (batch.map fun r =>
            (r.maskedLoss / fin (r.maskSum + 1 / 10 ^ 8), r.seqMask)) =
          fin (maskedSum ((batch.map XLossRow.live).map fun r =>
            (r.maskedLoss / (r.maskSum + 1 / 10 ^ 8), r.seqMask))) := by
        refine @maskedSumX_rows _ batch _ (fun r => r.maskedLoss / (r.maskSum + 1 / 10 ^ 8))
          fun r hr hrow => ?_
        rw [maskedLoss_eq (hfinite r hr hrow), XLossRow.maskSum,
          fin_div_fin (maskSum_add_ne_zero r.live)]
      rw [aggLossX, aggLoss, hseq]
      cases hn : globalCount globalBatchSize dpSize (batch.map XLossRow.seqMask).sum
          "global_batch_size is required when dp_size > 1" with
      | error e => rfl
      | ok n =>
          have hne := globalCount_ne_zero hcounts.sequences (sum_seqMask_ne_zero hlive) hn
          refine congrArg Except.ok ?_
          rw [hmeans, fin_div_fin hne]
          rfl

/-- A finite loss has finite sequences. -/
theorem finiteLiveRows_of_isFinite (hlive : ∃ r ∈ batch, HasLive r) {x : XRat}
    (h : aggLossX batch .seqMeanTokenSum 1 none none none = .ok x) (hx : x.IsFinite) :
    FiniteLiveRows batch := by
  obtain rfl := Except.ok.inj h
  rw [isFinite_mul_fin_iff, isFinite_div_fin_iff (sum_seqMask_ne_zero hlive),
    isFinite_maskedSumX_iff] at hx
  intro r hr hrow
  exact isFinite_seqLoss_iff.mp (hx _ (List.mem_map_of_mem hr) (hasLive_iff.mp hrow))

/-! ## Masked entries -/

/-- Masked entries have no influence: the masked reductions of the entries of the
whole loss matrix and of each of its rows, and `agg_loss` in each mode. -/
structure MaskedEntriesInert (S : SquareRoot) (batch batch' : List (XLossRow w)) : Prop where
  reductions : ∀ entries entries' : List (XRat × ℚ),
    ((entries, entries') = (tokenEntriesX batch, tokenEntriesX batch') ∨
      (entries, entries') ∈ (batch.map XLossRow.entries).zip (batch'.map XLossRow.entries)) →
    SameFinite (maskedSumX entries) (maskedSumX entries') ∧
    SameFinite (maskedMeanX entries) (maskedMeanX entries') ∧
    SameOutcome SameFinite (maskedVarX entries) (maskedVarX entries') ∧
    ∀ shiftMean, SameOutcome (List.Forall₂ SameFinite) (whitenedLive S shiftMean entries)
      (whitenedLive S shiftMean entries')
  loss : ∀ mode dpSize batchNumTokens globalBatchSize lossScaleFactor,
    NonzeroCounts batchNumTokens globalBatchSize lossScaleFactor →
    SameOutcome SameFinite
      (aggLossX batch mode dpSize batchNumTokens globalBatchSize lossScaleFactor)
      (aggLossX batch' mode dpSize batchNumTokens globalBatchSize lossScaleFactor)

/-- The masked reductions and the token mean never read a masked entry.  The other
modes do, so masked entries have no influence when every sequence with an unmasked
entry is finite throughout. -/
theorem maskedEntriesInert_iff (S : SquareRoot) (h : AgreeLiveBatch batch batch')
    (hlive : ∃ r ∈ batch, HasLive r) :
    MaskedEntriesInert S batch batch' ↔ FiniteLiveRows batch ∧ FiniteLiveRows batch' := by
  have hlive' := h.exists_hasLive hlive
  constructor
  · intro hinert
    have hsame := hinert.loss .seqMeanTokenSum 1 none none none ⟨nofun, nofun, nofun⟩
    obtain ⟨heq, hfinite⟩ : SameFinite _ _ := hsame
    exact ⟨finiteLiveRows_of_isFinite hlive rfl hfinite,
      finiteLiveRows_of_isFinite hlive' rfl (heq ▸ hfinite)⟩
  · rintro ⟨hfinite, hfinite'⟩
    constructor
    · intro entries entries' hentries
      have hagree : AgreeLive entries entries' := by
        rcases hentries with heq | hmem
        · obtain ⟨rfl, rfl⟩ := Prod.mk.inj heq
          exact h.agreeLive_tokenEntriesX
        · rw [List.zip_map] at hmem
          obtain ⟨⟨r, r'⟩, hrow, heq⟩ := List.mem_map.mp hmem
          obtain ⟨rfl, rfl⟩ := Prod.mk.inj heq
          exact (List.forall₂_zip h hrow).agreeLive_entries
      exact ⟨sameFinite_maskedSumX hagree, sameFinite_maskedMeanX hagree,
        sameOutcome_maskedVarX hagree, fun shiftMean => sameOutcome_whitenedLive S shiftMean hagree⟩
    · intro mode dpSize batchNumTokens globalBatchSize lossScaleFactor hcounts
      rw [aggLossX_eq hlive hfinite hcounts, aggLossX_eq hlive' hfinite' hcounts, h.map_live]
      cases aggLoss (batch'.map XLossRow.live) mode dpSize batchNumTokens globalBatchSize
          lossScaleFactor with
      | error e => exact rfl
      | ok loss => exact ⟨rfl, isFinite_fin _⟩

/-- An unmasked token with the loss 1 and a masked one. -/
def maskedTokenRow (masked : XRat) : XLossRow 2 where
  loss := ![fin 1, masked]
  mask := ![1, 0]
  mask_zero_or_one := by decide

theorem agreeLiveBatch_maskedTokenRow (masked masked' : XRat) :
    AgreeLiveBatch [maskedTokenRow masked] [maskedTokenRow masked'] := by
  refine .cons ⟨rfl, fun j hj => ?_⟩ .nil
  match j with
  | 0 => exact ⟨rfl, isFinite_fin 1⟩
  | 1 => exact absurd hj zero_ne_one

theorem maskedEntriesInert_iff_nan :
    MaskedEntriesInert floorSqrt [maskedTokenRow nan] [maskedTokenRow (fin 5)] ↔
      FiniteLiveRows [maskedTokenRow nan] ∧ FiniteLiveRows [maskedTokenRow (fin 5)] :=
  maskedEntriesInert_iff floorSqrt (agreeLiveBatch_maskedTokenRow nan (fin 5))
    ⟨_, List.mem_cons_self, 0, rfl⟩

/-- A masked `nan` makes the loss `nan`. -/
theorem not_maskedEntriesInert_nan :
    AgreeLiveBatch [maskedTokenRow nan] [maskedTokenRow (fin 5)] ∧
      ¬ MaskedEntriesInert floorSqrt [maskedTokenRow nan] [maskedTokenRow (fin 5)] := by
  refine ⟨agreeLiveBatch_maskedTokenRow nan (fin 5), fun h => ?_⟩
  have hloss := h.loss .seqMeanTokenSum 1 none none none ⟨nofun, nofun, nofun⟩
  have hnan : aggLossX [maskedTokenRow nan] .seqMeanTokenSum 1 none none none = .ok nan := by
    decide +kernel
  rw [hnan] at hloss
  exact not_isFinite_nan hloss.2

end Verl
