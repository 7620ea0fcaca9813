import Mathlib.Data.List.Rotate
import Verl.Ppo.AggLoss

/-!
# The loss of supervised fine-tuning

`sft_loss` shifts the loss mask by one token so that it lines up with the
log-probabilities.  Without padding the samples of a micro-batch are packed one
after the other, and `torch.roll` shifts the packed mask as a whole.  So the last
position of a sample gets the first mask entry of the sample that follows it, and
the last sample that of the first one (`maskedSum_roll`).
-/

namespace Verl

/-! ## Samples -/

/-- A sample of the nested tensors `log_probs` and `loss_mask`.  Entry `t` of the
log-probabilities is that of token `t + 1`, so the last one says nothing. -/
structure SftSample where
  logProbs : List ℚ
  lossMask : List ℚ
  length_eq : logProbs.length = lossMask.length
  ne_nil : lossMask ≠ []
  mask_zero_or_one : ∀ m ∈ lossMask, m = 0 ∨ m = 1

/-- The data of `sft_loss` by its `pad_mode`. -/
inductive SftBatch where
  | noPadding (samples : List SftSample)
  | padded (logProb responseMask : List (List ℚ))

/-- `sft_loss`. -/
def sftLoss (dpSize batchNumTokens : ℚ) : SftBatch → ℚ
  | .noPadding samples =>
      let logProbFlatten := samples.flatMap SftSample.logProbs
      let lossMaskFlatten := (samples.flatMap SftSample.lossMask).rotate 1
      let loss := -maskedSum (logProbFlatten.zip lossMaskFlatten) / batchNumTokens * dpSize
      loss
  | .padded logProb responseMask =>
      -maskedSum (List.zipWith List.zip logProb responseMask).flatten / batchNumTokens * dpSize

namespace SftSample

/-- The loss mask of the first token. -/
def firstMask (s : SftSample) : ℚ := s.lossMask.head s.ne_nil

theorem logProbs_ne_nil (s : SftSample) : s.logProbs ≠ [] :=
  List.ne_nil_of_length_pos (s.length_eq ▸ List.length_pos_of_ne_nil s.ne_nil)

/-- The log-probability at the last position. -/
def lastLogProb (s : SftSample) : ℚ := s.logProbs.getLast s.logProbs_ne_nil

/-- The sum of the log-probabilities of the tokens from the second one on whose own
loss mask is 1. -/
def ownSum (s : SftSample) : ℚ :=
  ((s.logProbs.zip s.lossMask.tail).filter fun e => e.2 = 1).map Prod.fst |>.sum

theorem lossMask_eq (s : SftSample) : s.lossMask = s.firstMask :: s.lossMask.tail :=
  (List.cons_head_tail s.ne_nil).symm

theorem ownSum_eq (s : SftSample) :
    s.ownSum = ((s.logProbs.zip s.lossMask.tail).map fun e => e.1 * e.2).sum := by
  have hmask : ∀ e ∈ s.logProbs.zip s.lossMask.tail, e.2 = 0 ∨ e.2 = 1 := fun e he =>
    s.mask_zero_or_one e.2 (List.mem_of_mem_tail (List.of_mem_zip he).2)
  rw [ownSum]
  generalize s.logProbs.zip s.lossMask.tail = entries at hmask
  induction entries with
  | nil => rfl
  | cons e entries ih =>
      have hrest := ih fun e' he' => hmask e' (List.mem_cons_of_mem e he')
      rw [List.map_cons, List.sum_cons, ← hrest]
      rcases hmask e List.mem_cons_self with h | h
      · rw [List.filter_cons_of_neg (by rw [h]; decide), h, mul_zero, zero_add]
      · rw [List.filter_cons_of_pos (by rw [h]; decide), List.map_cons, List.sum_cons, h, mul_one]

end SftSample

/-! ## The roll -/

/-- Products of log-probabilities with masks. -/
def dotSum (logProbs masks : List ℚ) : ℚ := ((logProbs.zip masks).map fun e => e.1 * e.2).sum

theorem dotSum_append {xs xs' ms ms' : List ℚ} (h : xs.length = ms.length) :
    dotSum (xs ++ xs') (ms ++ ms') = dotSum xs ms + dotSum xs' ms' := by
  rw [dotSum, List.zip_append h, List.map_append, List.sum_append]
  rfl

/-- What the last positions add: the last log-probability of each sample times the
first mask entry of the sample after it, in a circle. -/
def leak (samples : List SftSample) : ℚ :=
  dotSum (samples.map SftSample.lastLogProb) ((samples.map SftSample.firstMask).rotate 1)

/-- One sample, with the mask entry that its last position gets. -/
theorem dotSum_sample (s : SftSample) (m : ℚ) :
    dotSum s.logProbs (s.lossMask.tail ++ [m]) = s.ownSum + s.lastLogProb * m := by
  have hlength : s.logProbs.dropLast.length = s.lossMask.tail.length := by
    rw [List.length_dropLast, List.length_tail, s.length_eq]
  have hsplit : s.logProbs = s.logProbs.dropLast ++ [s.lastLogProb] :=
    (List.dropLast_concat_getLast s.logProbs_ne_nil).symm
  have hown : s.ownSum = dotSum s.logProbs.dropLast s.lossMask.tail := by
    rw [s.ownSum_eq, dotSum]
    nth_rewrite 1 [hsplit]
    rw [← List.append_nil s.lossMask.tail, List.zip_append hlength, List.zip_nil_right,
      List.append_nil, List.append_nil]
  rw [hown, hsplit, dotSum_append hlength, ← hsplit]
  exact congrArg _ (add_zero _)

/-- The packed samples, with the mask entry that the last position gets. -/
theorem dotSum_packed {samples : List SftSample} (h : samples ≠ []) (m : ℚ) :
    dotSum (samples.flatMap SftSample.logProbs)
        ((samples.flatMap SftSample.lossMask).tail ++ [m]) =
      (samples.map SftSample.ownSum).sum +
        dotSum (samples.map SftSample.lastLogProb)
          ((samples.map SftSample.firstMask).tail ++ [m]) := by
  induction samples with
  | nil => exact absurd rfl h
  | cons s rest ih =>
      cases rest with
      | nil =>
          rw [List.flatMap_singleton, List.flatMap_singleton, dotSum_sample, List.map_singleton,
            List.sum_singleton]
          exact congrArg _ (add_zero _).symm
      | cons s' rest =>
          have hrest := ih (List.cons_ne_nil s' rest)
          obtain ⟨masks, hmasks⟩ : ∃ masks, masks = (s' :: rest).flatMap SftSample.lossMask :=
            ⟨_, rfl⟩
          have hcons : masks = s'.firstMask :: masks.tail := by
            rw [hmasks, List.flatMap_cons, s'.lossMask_eq]
            rfl
          have htail : ((s :: s' :: rest).flatMap SftSample.lossMask).tail ++ [m] =
              (s.lossMask.tail ++ [s'.firstMask]) ++ (masks.tail ++ [m]) := by
            rw [List.flatMap_cons, ← hmasks, hcons, List.tail_append_of_ne_nil s.ne_nil,
              List.append_assoc, List.append_assoc]
            rfl
          have hlength : s.logProbs.length = (s.lossMask.tail ++ [s'.firstMask]).length := by
            have := List.length_pos_of_ne_nil s.ne_nil
            rw [List.length_append, List.length_tail, s.length_eq, List.length_singleton]
            omega
          rw [htail, List.flatMap_cons, dotSum_append hlength, dotSum_sample, hmasks, hrest]
          have hsecond : dotSum ((s :: s' :: rest).map SftSample.lastLogProb)
              (((s :: s' :: rest).map SftSample.firstMask).tail ++ [m]) =
                s.lastLogProb * s'.firstMask +
                  dotSum ((s' :: rest).map SftSample.lastLogProb)
                    (((s' :: rest).map SftSample.firstMask).tail ++ [m]) := rfl
          have hown : ((s :: s' :: rest).map SftSample.ownSum).sum =
              s.ownSum + ((s' :: rest).map SftSample.ownSum).sum := List.sum_cons
          rw [hsecond, hown]
          ring

theorem rotate_one_eq {xs : List ℚ} {x : ℚ} (h : xs = x :: xs.tail) :
    xs.rotate 1 = xs.tail ++ [x] := by
  rw [h]
  exact (List.rotate_cons_succ xs.tail x 0).trans (List.rotate_zero _)

/-- The masked sum of the packed samples is that of the own tokens and the leak. -/
theorem maskedSum_roll (samples : List SftSample) :
    maskedSum ((samples.flatMap SftSample.logProbs).zip
        ((samples.flatMap SftSample.lossMask).rotate 1)) =
      (samples.map SftSample.ownSum).sum + leak samples := by
  cases samples with
  | nil => simp [maskedSum, leak, dotSum]
  | cons s rest =>
      have hmasks : (s :: rest).flatMap SftSample.lossMask =
          s.firstMask :: ((s :: rest).flatMap SftSample.lossMask).tail := by
        rw [List.flatMap_cons, s.lossMask_eq]
        rfl
      have hfirst : (s :: rest).map SftSample.firstMask =
          s.firstMask :: ((s :: rest).map SftSample.firstMask).tail := rfl
      rw [maskedSum_eq, rotate_one_eq hmasks, leak, rotate_one_eq hfirst]
      exact dotSum_packed (List.cons_ne_nil s rest) s.firstMask

/-! ## Micro-batches -/

variable {dpSize batchNumTokens : ℚ}

/-- The loss of the own tokens of the samples. -/
def ownLoss (dpSize batchNumTokens : ℚ) (samples : List SftSample) : ℚ :=
  -(dpSize / batchNumTokens) * (samples.map SftSample.ownSum).sum

theorem sftLoss_eq (samples : List SftSample) :
    sftLoss dpSize batchNumTokens (.noPadding samples) =
      ownLoss dpSize batchNumTokens samples - dpSize / batchNumTokens * leak samples := by
  rw [sftLoss, maskedSum_roll, ownLoss]
  ring

/-- The loss of a micro-batch is that of its own tokens when the leak is 0. -/
theorem sftLoss_eq_ownLoss_iff (hdp : dpSize ≠ 0) (hn : batchNumTokens ≠ 0)
    (samples : List SftSample) :
    sftLoss dpSize batchNumTokens (.noPadding samples) = ownLoss dpSize batchNumTokens samples ↔
      leak samples = 0 := by
  rw [sftLoss_eq, sub_eq_self, mul_eq_zero, or_iff_right (div_ne_zero hdp hn)]

theorem dotSum_eq_zero_of_left {xs ms : List ℚ} (h : ∀ x ∈ xs, x = 0) : dotSum xs ms = 0 := by
  refine List.sum_eq_zero fun y hy => ?_
  obtain ⟨e, he, rfl⟩ := List.mem_map.mp hy
  rw [h e.1 (List.of_mem_zip he).1, zero_mul]

theorem dotSum_eq_zero_of_right {xs ms : List ℚ} (h : ∀ m ∈ ms, m = 0) : dotSum xs ms = 0 := by
  refine List.sum_eq_zero fun y hy => ?_
  obtain ⟨e, he, rfl⟩ := List.mem_map.mp hy
  rw [h e.2 (List.of_mem_zip he).2, mul_zero]

/-- Nothing can leak: no sample begins with mask 1, or no sample ends with a
log-probability other than 0. -/
def NoLeak (batch : List SftSample) : Prop :=
  (∀ s ∈ batch, s.firstMask = 0) ∨ ∀ s ∈ batch, s.lastLogProb = 0

theorem leak_eq_zero {batch samples : List SftSample} (h : NoLeak batch)
    (hsub : ∀ s ∈ samples, s ∈ batch) : leak samples = 0 := by
  rcases h with h | h
  · refine dotSum_eq_zero_of_right fun m hm => ?_
    obtain ⟨s, hs, rfl⟩ := List.mem_map.mp (List.mem_rotate.mp hm)
    exact h s (hsub s hs)
  · refine dotSum_eq_zero_of_left fun x hx => ?_
    obtain ⟨s, hs, rfl⟩ := List.mem_map.mp hx
    exact h s (hsub s hs)

/-- Each sample depends on its own tokens only: for every order of the samples and
every division into micro-batches, each micro-batch has the loss of its own tokens,
and the total is that of the batch. -/
def OwnTokensOnly (dpSize batchNumTokens : ℚ) (batch : List SftSample) : Prop :=
  ∀ microBatches : List (List SftSample), microBatches.flatten.Perm batch →
    (∀ samples ∈ microBatches,
      sftLoss dpSize batchNumTokens (.noPadding samples) = ownLoss dpSize batchNumTokens samples) ∧
    (microBatches.map fun samples => sftLoss dpSize batchNumTokens (.noPadding samples)).sum =
      ownLoss dpSize batchNumTokens batch

theorem ownLoss_flatten (microBatches : List (List SftSample)) :
    ownLoss dpSize batchNumTokens microBatches.flatten =
      (microBatches.map (ownLoss dpSize batchNumTokens)).sum := by
  rw [ownLoss, sum_map_flatten, ← List.sum_map_mul_left]
  rfl

/-- The loss does not leak in any division when no sample begins with mask 1, or no
sample ends with a log-probability other than 0. -/
theorem ownTokensOnly_of_noLeak (hdp : dpSize ≠ 0) (hn : batchNumTokens ≠ 0)
    {batch : List SftSample} (h : NoLeak batch) : OwnTokensOnly dpSize batchNumTokens batch := by
  intro microBatches hperm
  have hown : ∀ samples ∈ microBatches,
      sftLoss dpSize batchNumTokens (.noPadding samples) =
        ownLoss dpSize batchNumTokens samples := by
    intro samples hsamples
    rw [sftLoss_eq_ownLoss_iff hdp hn]
    refine leak_eq_zero h fun s hs => ?_
    exact hperm.mem_iff.mp (List.mem_flatten.mpr ⟨samples, hsamples, hs⟩)
  refine ⟨hown, ?_⟩
  rw [List.map_congr_left hown, ← ownLoss_flatten, ownLoss, ownLoss,
    (hperm.map SftSample.ownSum).sum_eq]

theorem leak_singleton (s : SftSample) : leak [s] = s.lastLogProb * s.firstMask := by
  rw [leak, List.map_singleton, List.map_singleton, List.rotate_singleton]
  exact add_zero _

theorem leak_pair (s t : SftSample) :
    leak [s, t] = s.lastLogProb * t.firstMask + t.lastLogProb * s.firstMask := by
  have hrotate : ([s, t].map SftSample.firstMask).rotate 1 = [t.firstMask, s.firstMask] :=
    rotate_one_eq rfl
  rw [leak, hrotate]
  exact congrArg _ (add_zero _)

theorem firstMask_zero_or_one (s : SftSample) : s.firstMask = 0 ∨ s.firstMask = 1 :=
  s.mask_zero_or_one _ (List.head_mem s.ne_nil)

/-- The samples that one division packs together do not leak. -/
theorem leak_of_ownTokensOnly (hdp : dpSize ≠ 0) (hn : batchNumTokens ≠ 0)
    {batch samples rest : List SftSample} (h : OwnTokensOnly dpSize batchNumTokens batch)
    (hperm : batch.Perm (samples ++ rest)) : leak samples = 0 := by
  have hflatten : [samples, rest].flatten = samples ++ rest := by
    rw [List.flatten_cons, List.flatten_singleton]
  have hdivision := h [samples, rest] (hflatten ▸ hperm.symm)
  exact (sftLoss_eq_ownLoss_iff hdp hn samples).mp (hdivision.1 samples List.mem_cons_self)

theorem exists_perm_cons {α : Type} {x : α} {xs : List α} (h : x ∈ xs) :
    ∃ rest, xs.Perm (x :: rest) := by
  obtain ⟨l, r, rfl⟩ := List.append_of_mem h
  exact ⟨l ++ r, List.perm_middle⟩

/-- A sample that begins with mask 1 gets the last log-probability of any other
sample that is packed before it, and its own when it is alone. -/
theorem noLeak_of_ownTokensOnly (hdp : dpSize ≠ 0) (hn : batchNumTokens ≠ 0)
    {batch : List SftSample} (h : OwnTokensOnly dpSize batchNumTokens batch) : NoLeak batch := by
  by_cases hfirst : ∀ s ∈ batch, s.firstMask = 0
  · exact .inl hfirst
  · refine .inr ?_
    push Not at hfirst
    obtain ⟨s, hs, hne⟩ := hfirst
    have hone : s.firstMask = 1 := (firstMask_zero_or_one s).resolve_left hne
    obtain ⟨rest, hrest⟩ := exists_perm_cons hs
    have halone : s.lastLogProb = 0 := by
      have hleak := @leak_of_ownTokensOnly _ _ hdp hn _ [s] rest h hrest
      rwa [leak_singleton, hone, mul_one] at hleak
    intro t ht
    rcases List.mem_cons.mp (hrest.mem_iff.mp ht) with rfl | ht
    · exact halone
    · obtain ⟨others, hothers⟩ := exists_perm_cons ht
      have hleak := @leak_of_ownTokensOnly _ _ hdp hn _ [s, t] others h
        (hrest.trans (hothers.cons s))
      rwa [leak_pair, halone, hone, zero_mul, zero_add, mul_one] at hleak

/-- The loss of each sample depends on its own tokens only when nothing can leak. -/
theorem ownTokensOnly_iff (hdp : dpSize ≠ 0) (hn : batchNumTokens ≠ 0) (batch : List SftSample) :
    OwnTokensOnly dpSize batchNumTokens batch ↔ NoLeak batch :=
  ⟨noLeak_of_ownTokensOnly hdp hn, ownTokensOnly_of_noLeak hdp hn⟩

/-- Two tokens.  The second one has a loss. -/
def twoTokenSample (firstMask lastLogProb : ℚ) (h : firstMask = 0 ∨ firstMask = 1) : SftSample where
  logProbs := [-1, lastLogProb]
  lossMask := [firstMask, 1]
  length_eq := rfl
  ne_nil := List.cons_ne_nil _ _
  mask_zero_or_one := by
    intro m hm
    rcases List.mem_cons.mp hm with rfl | hm
    · exact h
    · exact .inr (List.mem_singleton.mp hm)

theorem ownTokensOnly_iff_two :
    OwnTokensOnly 1 2 [twoTokenSample 0 (-5) (.inl rfl), twoTokenSample 0 (-7) (.inl rfl)] ↔
      NoLeak [twoTokenSample 0 (-5) (.inl rfl), twoTokenSample 0 (-7) (.inl rfl)] :=
  ownTokensOnly_iff one_ne_zero two_ne_zero _

/-- The second sample begins with mask 1, so the loss has the last log-probability
of the first sample in it: 7/2 against 1. -/
theorem not_ownTokensOnly_two :
    ¬ OwnTokensOnly 1 2 [twoTokenSample 0 (-5) (.inl rfl), twoTokenSample 1 (-7) (.inr rfl)] := by
  intro h
  have hdivision := h [[twoTokenSample 0 (-5) (.inl rfl), twoTokenSample 1 (-7) (.inr rfl)]]
    (List.Perm.refl _)
  exact absurd (hdivision.1 _ List.mem_cons_self) (by decide +kernel)

end Verl
