import Verl.Ppo.Advantage

/-!
# Generalized advantage estimation

The loop of `compute_gae_advantage_return` goes from the last token of a row back
to the first.  Its two accumulators are frozen on an observation token, so the loop
runs as on the row without these tokens (`gaeLoop_unmasked`).  On a row without
observation tokens it computes the sum of the discounted TD errors
(`gaeLoop_allUnmasked`).
-/

namespace Verl

/-! ## The loop -/

/-- A token of a row of the critic, with its entry of `response_mask`. -/
structure CriticToken where
  reward : ℚ
  value : ℚ
  mask : ℚ
  mask_zero_or_one : mask = 0 ∨ mask = 1

/-- The accumulators `nextvalues` and `lastgaelam`. -/
structure GaeState where
  nextvalues : ℚ
  lastgaelam : ℚ

/-- The body of the loop. -/
def gaeStep (gamma lam : ℚ) (tok : CriticToken) (s : GaeState) : GaeState :=
  let delta := tok.reward + gamma * s.nextvalues - tok.value
  let lastgaelam' := delta + gamma * lam * s.lastgaelam
  { nextvalues := tok.value * tok.mask + (1 - tok.mask) * s.nextvalues
    lastgaelam := lastgaelam' * tok.mask + (1 - tok.mask) * s.lastgaelam }

/-- The advantages before whitening, and the accumulators after the first token. -/
def gaeLoop (gamma lam : ℚ) : List CriticToken → List ℚ × GaeState
  | [] => ([], ⟨0, 0⟩)
  | tok :: rest =>
      let later := gaeLoop gamma lam rest
      let s := gaeStep gamma lam tok later.2
      (s.lastgaelam :: later.1, s)

/-- `advantages + values` of a row, before whitening. -/
def gaeReturns (gamma lam : ℚ) (row : List CriticToken) : List ℚ :=
  List.zipWith (· + ·) (gaeLoop gamma lam row).1 (row.map CriticToken.value)

/-- `compute_gae_advantage_return`. -/
def computeGaeAdvantageReturn (S : SquareRoot) (gamma lam : ℚ) (rows : List (List CriticToken)) :
    Except Py.Error AdvOutput := do
  let advantages := rows.map fun row => (gaeLoop gamma lam row).1
  let returns := rows.map (gaeReturns gamma lam)
  let advantages ← maskedWhiten S advantages (rows.map fun row => row.map CriticToken.mask)
  return ⟨advantages, returns.map (List.map some)⟩

/-! ## The textbook advantages -/

/-- The row without its observation tokens. -/
def unmasked (row : List CriticToken) : List CriticToken := row.filter (·.mask = 1)

/-- The entries of a row at its unmasked positions. -/
def atUnmasked {α : Type} (row : List CriticToken) (xs : List α) : List α :=
  ((row.zip xs).filter fun e => e.1.mask = 1).map Prod.snd

/-- The value of the token at a position, 0 after the end. -/
def valueAt (row : List CriticToken) (t : Nat) : ℚ := (row[t]?.map CriticToken.value).getD 0

/-- The TD error `r_t + gamma * V_(t+1) - V_t`. -/
def tdError (gamma : ℚ) (row : List CriticToken) (t : Nat) : ℚ :=
  (row[t]?.map CriticToken.reward).getD 0 + gamma * valueAt row (t + 1) - valueAt row t

/-- The advantage `∑ k, (gamma * lam) ^ k * delta_(t+k)`. -/
def gaeAdvantage (gamma lam : ℚ) (row : List CriticToken) (t : Nat) : ℚ :=
  ∑ k ∈ Finset.range (row.length - t), (gamma * lam) ^ k * tdError gamma row (t + k)

variable {gamma lam : ℚ} {tok : CriticToken} {row rest : List CriticToken}

/-! ## One token -/

/-- An observation token freezes the accumulators. -/
theorem gaeStep_masked (h : tok.mask = 0) (s : GaeState) : gaeStep gamma lam tok s = s := by
  rw [gaeStep, h, mul_zero, mul_zero, sub_zero, one_mul, one_mul, zero_add, zero_add]

theorem gaeStep_unmasked (h : tok.mask = 1) (s : GaeState) :
    gaeStep gamma lam tok s =
      ⟨tok.value, tok.reward + gamma * s.nextvalues - tok.value + gamma * lam * s.lastgaelam⟩ := by
  rw [gaeStep, h, mul_one, mul_one, sub_self, zero_mul, zero_mul, add_zero, add_zero]

theorem gaeLoop_cons (tok : CriticToken) (rest : List CriticToken) :
    (gaeLoop gamma lam (tok :: rest)).1 =
      (gaeLoop gamma lam (tok :: rest)).2.lastgaelam :: (gaeLoop gamma lam rest).1 := rfl

theorem unmasked_cons_masked (h : tok.mask = 0) : unmasked (tok :: rest) = unmasked rest := by
  rw [unmasked, unmasked, List.filter_cons_of_neg (by rw [h]; decide)]

theorem unmasked_cons_unmasked (h : tok.mask = 1) :
    unmasked (tok :: rest) = tok :: unmasked rest := by
  rw [unmasked, unmasked, List.filter_cons_of_pos (by rw [h]; decide)]

theorem atUnmasked_cons_masked {α : Type} (h : tok.mask = 0) (x : α) (xs : List α) :
    atUnmasked (tok :: rest) (x :: xs) = atUnmasked rest xs := by
  rw [atUnmasked, atUnmasked, List.zip_cons_cons, List.filter_cons_of_neg (by rw [h]; decide)]

theorem atUnmasked_cons_unmasked {α : Type} (h : tok.mask = 1) (x : α) (xs : List α) :
    atUnmasked (tok :: rest) (x :: xs) = x :: atUnmasked rest xs := by
  rw [atUnmasked, atUnmasked, List.zip_cons_cons, List.filter_cons_of_pos (by rw [h]; decide),
    List.map_cons]

theorem mask_eq_one_of_mem_unmasked (h : tok ∈ unmasked row) : tok.mask = 1 :=
  of_decide_eq_true (List.mem_filter.mp h).2

/-! ## Skipping the observation tokens -/

/-- The accumulators are those of the row without its observation tokens. -/
theorem gaeLoop_state_unmasked (row : List CriticToken) :
    (gaeLoop gamma lam row).2 = (gaeLoop gamma lam (unmasked row)).2 := by
  induction row with
  | nil => rfl
  | cons tok rest ih =>
      rcases tok.mask_zero_or_one with h | h
      · rw [unmasked_cons_masked h, gaeLoop, gaeStep_masked h, ih]
      · rw [unmasked_cons_unmasked h, gaeLoop, gaeLoop, ih]

/-- The loop skips the observation tokens. -/
theorem gaeLoop_unmasked (row : List CriticToken) :
    atUnmasked row (gaeLoop gamma lam row).1 = (gaeLoop gamma lam (unmasked row)).1 := by
  induction row with
  | nil => rfl
  | cons tok rest ih =>
      rcases tok.mask_zero_or_one with h | h
      · rw [unmasked_cons_masked h, gaeLoop, atUnmasked_cons_masked h, ih]
      · rw [unmasked_cons_unmasked h, gaeLoop, gaeLoop, atUnmasked_cons_unmasked h, ih,
          gaeLoop_state_unmasked]

/-! ## The textbook recursion -/

theorem gaeAdvantage_cons_succ (t : Nat) :
    gaeAdvantage gamma lam (tok :: rest) (t + 1) = gaeAdvantage gamma lam rest t := by
  rw [gaeAdvantage, gaeAdvantage, List.length_cons, Nat.add_sub_add_right]
  refine Finset.sum_congr rfl fun k _ => ?_
  rw [show t + 1 + k = t + k + 1 by omega]
  rfl

/-- `A_t = delta_t + gamma * lam * A_(t+1)`. -/
theorem gaeAdvantage_cons_zero :
    gaeAdvantage gamma lam (tok :: rest) 0 =
      tok.reward + gamma * valueAt rest 0 - tok.value +
        gamma * lam * gaeAdvantage gamma lam rest 0 := by
  rw [gaeAdvantage, gaeAdvantage, List.length_cons, Nat.sub_zero, Nat.sub_zero,
    Finset.sum_range_succ', add_comm, Finset.mul_sum, pow_zero, one_mul]
  congr 1
  refine Finset.sum_congr rfl fun k _ => ?_
  rw [pow_succ', mul_assoc, Nat.zero_add, Nat.zero_add]
  rfl

/-- Without observation tokens the accumulators are the first value and the first
advantage. -/
theorem gaeLoop_state_allUnmasked (h : ∀ tok ∈ row, tok.mask = 1) :
    (gaeLoop gamma lam row).2 = ⟨valueAt row 0, gaeAdvantage gamma lam row 0⟩ := by
  induction row with
  | nil => rfl
  | cons tok rest ih =>
      rw [gaeLoop, gaeStep_unmasked (h tok List.mem_cons_self),
        ih fun t ht => h t (List.mem_cons_of_mem tok ht), gaeAdvantage_cons_zero]
      rfl

theorem gaeLoop_allUnmasked (h : ∀ tok ∈ row, tok.mask = 1) :
    (gaeLoop gamma lam row).1 = (List.range row.length).map (gaeAdvantage gamma lam row) := by
  induction row with
  | nil => rfl
  | cons tok rest ih =>
      have hrest : ∀ t ∈ rest, t.mask = 1 := fun t ht => h t (List.mem_cons_of_mem tok ht)
      rw [gaeLoop_cons, gaeLoop_state_allUnmasked h, ih hrest, List.length_cons,
        List.range_succ_eq_map, List.map_cons, List.map_map]
      congr 1
      exact List.map_congr_left fun t _ => (gaeAdvantage_cons_succ t).symm

/-- The advantages at the unmasked positions are those of the row without its
observation tokens. -/
theorem atUnmasked_gaeLoop (row : List CriticToken) :
    atUnmasked row (gaeLoop gamma lam row).1 =
      (List.range (unmasked row).length).map (gaeAdvantage gamma lam (unmasked row)) := by
  rw [gaeLoop_unmasked, gaeLoop_allUnmasked fun _ => mask_eq_one_of_mem_unmasked]

/-! ## Rows that agree at the unmasked positions -/

/-- Tokens with one mask, and the same token where the mask is 1. -/
def CriticToken.Agree (tok tok' : CriticToken) : Prop :=
  tok.mask = tok'.mask ∧ (tok.mask = 1 → tok.reward = tok'.reward ∧ tok.value = tok'.value)

theorem gaeStep_congr {tok' : CriticToken} (h : tok.Agree tok') (s : GaeState) :
    gaeStep gamma lam tok s = gaeStep gamma lam tok' s := by
  obtain ⟨hmask, htok⟩ := h
  rcases tok.mask_zero_or_one with h0 | h1
  · rw [gaeStep_masked h0, gaeStep_masked (hmask ▸ h0)]
  · rw [gaeStep_unmasked h1, gaeStep_unmasked (hmask ▸ h1), (htok h1).1, (htok h1).2]

/-- The loop does not read the observation tokens. -/
theorem gaeLoop_congr {row' : List CriticToken} (h : List.Forall₂ CriticToken.Agree row row') :
    gaeLoop gamma lam row = gaeLoop gamma lam row' := by
  induction h with
  | nil => rfl
  | cons htok hrest ih => rw [gaeLoop, gaeLoop, ih, gaeStep_congr htok]

theorem map_mask_congr {row' : List CriticToken} (h : List.Forall₂ CriticToken.Agree row row') :
    row.map CriticToken.mask = row'.map CriticToken.mask := by
  induction h with
  | nil => rfl
  | cons htok hrest ih => rw [List.map_cons, List.map_cons, ih, htok.1]

theorem atUnmasked_congr {α : Type} {row' : List CriticToken}
    (h : List.Forall₂ CriticToken.Agree row row') (xs : List α) :
    atUnmasked row xs = atUnmasked row' xs := by
  induction h generalizing xs with
  | nil => rfl
  | @cons tok tok' rest rest' htok hrest ih =>
      cases xs with
      | nil => rfl
      | cons x xs =>
          rcases tok.mask_zero_or_one with h0 | h1
          · rw [atUnmasked_cons_masked h0, atUnmasked_cons_masked (htok.1 ▸ h0), ih]
          · rw [atUnmasked_cons_unmasked h1, atUnmasked_cons_unmasked (htok.1 ▸ h1), ih]

/-- The returns at the unmasked positions add the values of these positions. -/
theorem atUnmasked_zipWith_value (xs : List ℚ) :
    atUnmasked row (List.zipWith (· + ·) xs (row.map CriticToken.value)) =
      List.zipWith (· + ·) (atUnmasked row xs) ((unmasked row).map CriticToken.value) := by
  induction row generalizing xs with
  | nil => rw [List.map_nil, List.zipWith_nil_right]; rfl
  | cons tok rest ih =>
      cases xs with
      | nil => rfl
      | cons x xs =>
          rw [List.map_cons, List.zipWith_cons_cons]
          rcases tok.mask_zero_or_one with h0 | h1
          · rw [atUnmasked_cons_masked h0, atUnmasked_cons_masked h0, unmasked_cons_masked h0, ih]
          · rw [atUnmasked_cons_unmasked h1, atUnmasked_cons_unmasked h1,
              unmasked_cons_unmasked h1, ih, List.map_cons, List.zipWith_cons_cons]

theorem map_value_unmasked_congr {row' : List CriticToken}
    (h : List.Forall₂ CriticToken.Agree row row') :
    (unmasked row).map CriticToken.value = (unmasked row').map CriticToken.value := by
  induction h with
  | nil => rfl
  | @cons tok tok' rest rest' htok hrest ih =>
      rcases tok.mask_zero_or_one with h0 | h1
      · rw [unmasked_cons_masked h0, unmasked_cons_masked (htok.1 ▸ h0), ih]
      · rw [unmasked_cons_unmasked h1, unmasked_cons_unmasked (htok.1 ▸ h1), List.map_cons,
          List.map_cons, ih, (htok.2 h1).2]

theorem atUnmasked_gaeReturns_congr {row' : List CriticToken}
    (h : List.Forall₂ CriticToken.Agree row row') :
    atUnmasked row (gaeReturns gamma lam row) = atUnmasked row' (gaeReturns gamma lam row') := by
  rw [gaeReturns, gaeReturns, atUnmasked_zipWith_value, atUnmasked_zipWith_value,
    gaeLoop_congr h, atUnmasked_congr h, map_value_unmasked_congr h]

/-! ## Batches -/

/-- The output at the unmasked positions of the rows. -/
def AdvOutput.atUnmasked (rows : List (List CriticToken)) (out : AdvOutput) : AdvOutput where
  advantages := List.zipWith Verl.atUnmasked rows out.advantages
  returns := List.zipWith Verl.atUnmasked rows out.returns

/-- The batches agree at the unmasked positions. -/
def AgreeUnmasked (rows rows' : List (List CriticToken)) : Prop :=
  List.Forall₂ (List.Forall₂ CriticToken.Agree) rows rows'

theorem map_congr_agreeUnmasked {α : Type} {f : List CriticToken → α}
    {rows rows' : List (List CriticToken)} (h : AgreeUnmasked rows rows')
    (hf : ∀ row row', List.Forall₂ CriticToken.Agree row row' → f row = f row') :
    rows.map f = rows'.map f := by
  induction h with
  | nil => rfl
  | cons hrow hrest ih => rw [List.map_cons, List.map_cons, ih, hf _ _ hrow]

theorem zipWith_atUnmasked_congr {rows rows' : List (List CriticToken)} {α : Type}
    (h : AgreeUnmasked rows rows') (xss : List (List α)) :
    List.zipWith Verl.atUnmasked rows xss = List.zipWith Verl.atUnmasked rows' xss := by
  induction h generalizing xss with
  | nil => rfl
  | cons hrow hrest ih =>
      cases xss with
      | nil => rfl
      | cons xs xss => rw [List.zipWith_cons_cons, List.zipWith_cons_cons, ih,
            atUnmasked_congr hrow]

theorem atUnmasked_map {α β : Type} (f : α → β) (xs : List α) :
    atUnmasked row (xs.map f) = (atUnmasked row xs).map f := by
  rw [atUnmasked, atUnmasked, List.zip_map_right, List.filter_map, List.map_map, List.map_map]
  rfl

/-- Whitening keeps the agreement: the advantages agree at every position. -/
theorem computeGaeAdvantageReturn_congr (S : SquareRoot) {rows rows' : List (List CriticToken)}
    (h : AgreeUnmasked rows rows') :
    (computeGaeAdvantageReturn S gamma lam rows).map (AdvOutput.atUnmasked rows) =
      (computeGaeAdvantageReturn S gamma lam rows').map (AdvOutput.atUnmasked rows') := by
  have hadv : rows.map (fun row => (gaeLoop gamma lam row).1) =
      rows'.map (fun row => (gaeLoop gamma lam row).1) :=
    map_congr_agreeUnmasked h fun _ _ hrow => by rw [gaeLoop_congr hrow]
  have hmask : rows.map (fun row => row.map CriticToken.mask) =
      rows'.map (fun row => row.map CriticToken.mask) :=
    map_congr_agreeUnmasked h fun _ _ hrow => map_mask_congr hrow
  have hreturns : List.zipWith Verl.atUnmasked rows
        ((rows.map (gaeReturns gamma lam)).map (List.map some)) =
      List.zipWith Verl.atUnmasked rows'
        ((rows'.map (gaeReturns gamma lam)).map (List.map some)) := by
    rw [List.map_map, List.map_map, List.zipWith_map_right, List.zipWith_map_right,
      List.zipWith_self, List.zipWith_self]
    refine map_congr_agreeUnmasked h fun row row' hrow => ?_
    rw [Function.comp_apply, Function.comp_apply, atUnmasked_map, atUnmasked_map,
      atUnmasked_gaeReturns_congr hrow]
  rw [computeGaeAdvantageReturn, computeGaeAdvantageReturn, hadv, hmask]
  cases hwhiten : maskedWhiten S (rows'.map fun row => (gaeLoop gamma lam row).1)
      (rows'.map fun row => row.map CriticToken.mask) with
  | error e => rfl
  | ok advantages =>
      refine congrArg Except.ok ?_
      rw [AdvOutput.atUnmasked, AdvOutput.atUnmasked, hreturns, zipWith_atUnmasked_congr h]

/-- At the unmasked positions the loop computes the textbook advantages of the row
without its observation tokens, and neither the advantages nor the returns depend
on the rewards and the values at the other positions. -/
theorem gaeAdvantageReturn_skips_observations (S : SquareRoot) (gamma lam : ℚ) :
    (∀ row, atUnmasked row (gaeLoop gamma lam row).1 =
      (List.range (unmasked row).length).map (gaeAdvantage gamma lam (unmasked row))) ∧
    (∀ row row', List.Forall₂ CriticToken.Agree row row' →
      atUnmasked row (gaeLoop gamma lam row).1 = atUnmasked row' (gaeLoop gamma lam row').1 ∧
      atUnmasked row (gaeReturns gamma lam row) = atUnmasked row' (gaeReturns gamma lam row')) ∧
    ∀ rows rows', AgreeUnmasked rows rows' →
      (computeGaeAdvantageReturn S gamma lam rows).map (AdvOutput.atUnmasked rows) =
        (computeGaeAdvantageReturn S gamma lam rows').map (AdvOutput.atUnmasked rows') := by
  refine ⟨atUnmasked_gaeLoop, fun row row' h => ⟨?_, atUnmasked_gaeReturns_congr h⟩,
    fun rows rows' h => computeGaeAdvantageReturn_congr S h⟩
  rw [gaeLoop_congr h, atUnmasked_congr h]

/-- Two tokens with an observation between them. -/
def gapRow (reward value : ℚ) : List CriticToken :=
  [⟨0, 1 / 2, 1, .inr rfl⟩, ⟨reward, value, 0, .inl rfl⟩, ⟨1, 1 / 4, 1, .inr rfl⟩]

theorem agree_gapRow (reward value reward' value' : ℚ) :
    List.Forall₂ CriticToken.Agree (gapRow reward value) (gapRow reward' value') :=
  .cons ⟨rfl, fun _ => ⟨rfl, rfl⟩⟩ <| .cons ⟨rfl, fun h => absurd h zero_ne_one⟩ <|
    .cons ⟨rfl, fun _ => ⟨rfl, rfl⟩⟩ .nil

theorem gaeAdvantageReturn_skips_gap :
    atUnmasked (gapRow 5 3) (gaeLoop 1 1 (gapRow 5 3)).1 = [1 / 2, 3 / 4] ∧
    atUnmasked (gapRow 5 3) (gaeReturns 1 1 (gapRow 5 3)) =
      atUnmasked (gapRow 0 0) (gaeReturns 1 1 (gapRow 0 0)) :=
  have h := gaeAdvantageReturn_skips_observations floorSqrt 1 1
  ⟨(h.1 (gapRow 5 3)).trans (by decide +kernel), (h.2.1 _ _ (agree_gapRow 5 3 0 0)).2⟩

end Verl
