import Verl.Ppo.PaddingInert

/-!
# Returns across turns

The loop of `compute_reinforce_plus_plus_outcome_advantage` resets the running
return at every masked token.  This cuts off the padding (`AdvRow.returns_padTo`).
It also cuts a turn off from the turns after it: the return of a token is that of
its own turn, so it is the return of the row without the observation tokens only
when the later turns earn nothing (`atLive_discountedReturns_iff`).
-/

namespace Verl

variable {gamma : ℚ}

/-! ## Discounted sums -/

/-- `∑ k, gamma ^ k * r_k`. -/
def discountedSum (gamma : ℚ) (rewards : List ℚ) : ℚ :=
  ∑ k ∈ Finset.range rewards.length, gamma ^ k * rewards.getD k 0

/-- The discounted sum from each token on. -/
def returnsToGo (gamma : ℚ) (rewards : List ℚ) : List ℚ :=
  (List.range rewards.length).map fun t => discountedSum gamma (rewards.drop t)

@[simp] theorem discountedSum_nil : discountedSum gamma [] = 0 := rfl

theorem discountedSum_cons (reward : ℚ) (rewards : List ℚ) :
    discountedSum gamma (reward :: rewards) = reward + gamma * discountedSum gamma rewards := by
  rw [discountedSum, discountedSum, List.length_cons, Finset.sum_range_succ', add_comm,
    Finset.mul_sum, pow_zero, one_mul]
  congr 1
  refine Finset.sum_congr rfl fun k _ => ?_
  rw [pow_succ', mul_assoc]
  rfl

theorem discountedSum_append (rewards later : List ℚ) :
    discountedSum gamma (rewards ++ later) =
      discountedSum gamma rewards + gamma ^ rewards.length * discountedSum gamma later := by
  induction rewards with
  | nil => rw [List.nil_append, discountedSum_nil, List.length_nil, pow_zero, one_mul, zero_add]
  | cons reward rewards ih =>
      rw [List.cons_append, discountedSum_cons, discountedSum_cons, ih, List.length_cons, pow_succ']
      ring

theorem returnsToGo_cons (reward : ℚ) (rewards : List ℚ) :
    returnsToGo gamma (reward :: rewards) =
      discountedSum gamma (reward :: rewards) :: returnsToGo gamma rewards := by
  rw [returnsToGo, List.length_cons, List.range_succ_eq_map, List.map_cons, List.map_map]
  rfl

/-- Turns that earn nothing, one after the other. -/
theorem discountedSum_flatten_eq_zero {turns : List (List ℚ)}
    (h : ∀ turn ∈ turns, discountedSum gamma turn = 0) : discountedSum gamma turns.flatten = 0 := by
  induction turns with
  | nil => rfl
  | cons turn turns ih =>
      rw [List.flatten_cons, discountedSum_append, h turn List.mem_cons_self,
        ih fun t ht => h t (List.mem_cons_of_mem turn ht), mul_zero, add_zero]

/-! ## Turns -/

/-- The rewards of the unmasked entries. -/
def liveRewards (entries : List (ℚ × ℚ)) : List ℚ := (entries.filter fun e => e.2 ≠ 0).map Prod.fst

/-- The rewards between the masked tokens. -/
def runs (entries : List (ℚ × ℚ)) : List (List ℚ) :=
  (entries.splitOnP fun e => e.2 = 0).map (List.map Prod.fst)

/-- The rewards of the turns: the maximal runs of unmasked tokens. -/
def turns (entries : List (ℚ × ℚ)) : List (List ℚ) := (runs entries).filter (· ≠ [])

/-- The entries of a list at the unmasked positions. -/
def atLive {α : Type} (mask : List ℚ) (xs : List α) : List α :=
  ((mask.zip xs).filter fun e => e.1 ≠ 0).map Prod.snd

variable {reward m : ℚ} {rest : List (ℚ × ℚ)}

theorem liveRewards_cons_masked (reward : ℚ) (rest : List (ℚ × ℚ)) :
    liveRewards ((reward, 0) :: rest) = liveRewards rest := by
  rw [liveRewards, liveRewards, List.filter_cons_of_neg (by rw [decide_eq_true_eq, not_not])]

theorem liveRewards_cons_live (hm : m ≠ 0) :
    liveRewards ((reward, m) :: rest) = reward :: liveRewards rest := by
  rw [liveRewards, liveRewards, List.filter_cons_of_pos (by rwa [decide_eq_true_eq]), List.map_cons]

theorem runs_cons_masked (reward : ℚ) (rest : List (ℚ × ℚ)) :
    runs ((reward, 0) :: rest) = [] :: runs rest := by
  rw [runs, List.splitOnP_cons_eq_if_modifyHead, if_pos (decide_eq_true rfl)]
  rfl

theorem runs_cons_live (hm : m ≠ 0) {run : List ℚ} {later : List (List ℚ)}
    (h : runs rest = run :: later) : runs ((reward, m) :: rest) = (reward :: run) :: later := by
  rw [runs] at h
  cases hsplit : rest.splitOnP (fun e => e.2 = 0) with
  | nil => exact absurd hsplit (List.splitOnP_ne_nil _ _)
  | cons first others =>
      rw [hsplit, List.map_cons] at h
      obtain ⟨rfl, rfl⟩ := List.cons.inj h
      rw [runs, List.splitOnP_cons_eq_if_modifyHead, if_neg (by rw [decide_eq_true_eq]; exact hm),
        hsplit]
      rfl

theorem exists_runs_eq_cons (entries : List (ℚ × ℚ)) :
    ∃ run later, runs entries = run :: later := by
  cases h : runs entries with
  | nil => exact absurd (List.map_eq_nil_iff.mp h) (List.splitOnP_ne_nil _ _)
  | cons run later => exact ⟨run, later, rfl⟩

theorem turns_cons_masked (reward : ℚ) (rest : List (ℚ × ℚ)) :
    turns ((reward, 0) :: rest) = turns rest := by
  rw [turns, turns, runs_cons_masked, List.filter_cons_of_neg (by decide)]

theorem turns_cons_live (hm : m ≠ 0) {run : List ℚ} {later : List (List ℚ)}
    (h : runs rest = run :: later) :
    turns ((reward, m) :: rest) = (reward :: run) :: later.filter (· ≠ []) := by
  rw [turns, runs_cons_live hm h, List.filter_cons_of_pos (by simp)]

theorem flatten_turns (entries : List (ℚ × ℚ)) : (turns entries).flatten = liveRewards entries := by
  induction entries with
  | nil => rfl
  | cons e rest ih =>
      obtain ⟨reward, m⟩ := e
      by_cases hm : m = 0
      · rw [hm, turns_cons_masked, liveRewards_cons_masked, ih]
      · obtain ⟨run, later, hruns⟩ := exists_runs_eq_cons rest
        have hturns : (turns rest).flatten = run ++ (later.filter (· ≠ [])).flatten := by
          rw [turns, hruns]
          by_cases hrun : run = []
          · rw [hrun, List.filter_cons_of_neg (by decide), List.nil_append]
          · rw [List.filter_cons_of_pos (by rwa [decide_eq_true_eq]), List.flatten_cons]
        rw [turns_cons_live hm hruns, liveRewards_cons_live hm, List.flatten_cons,
          List.cons_append, ← hturns, ih]

/-! ## The loop -/

variable {entries : List (ℚ × ℚ)}

theorem atLive_cons_masked {α : Type} (mask : List ℚ) (x : α) (xs : List α) :
    atLive (0 :: mask) (x :: xs) = atLive mask xs := by
  rw [atLive, atLive, List.zip_cons_cons, List.filter_cons_of_neg (by
    rw [decide_eq_true_eq, not_not])]

theorem atLive_cons_live {α : Type} (hm : m ≠ 0) (mask : List ℚ) (x : α) (xs : List α) :
    atLive (m :: mask) (x :: xs) = x :: atLive mask xs := by
  rw [atLive, atLive, List.zip_cons_cons, List.filter_cons_of_pos (by rwa [decide_eq_true_eq]),
    List.map_cons]

/-- A mask of 0 and 1. -/
def ZeroOne (entries : List (ℚ × ℚ)) : Prop := ∀ e ∈ entries, e.2 = 0 ∨ e.2 = 1

/-- The running return is the discounted sum of the run that the row begins with. -/
theorem runningReturn_eq (hmask : ZeroOne entries) {run : List ℚ} {later : List (List ℚ)}
    (h : runs entries = run :: later) :
    (discountedReturns gamma entries).2 = discountedSum gamma run := by
  induction entries generalizing run later with
  | nil =>
      obtain ⟨rfl, -⟩ := List.cons.inj h
      rfl
  | cons e rest ih =>
      obtain ⟨reward, m⟩ := e
      have hrest : ZeroOne rest := fun e he => hmask e (List.mem_cons_of_mem _ he)
      rcases hmask _ List.mem_cons_self with hm | hm
      · obtain rfl : m = 0 := hm
        rw [runs_cons_masked] at h
        obtain ⟨rfl, -⟩ := List.cons.inj h
        rw [discountedReturns, mul_zero, discountedSum_nil]
      · obtain rfl : m = 1 := hm
        obtain ⟨run', later', hruns⟩ := exists_runs_eq_cons rest
        rw [runs_cons_live one_ne_zero hruns] at h
        obtain ⟨rfl, -⟩ := List.cons.inj h
        rw [discountedReturns, ih hrest hruns, mul_one, discountedSum_cons]

/-- The turns after the first earn nothing. -/
def LaterTurnsZero (gamma : ℚ) (entries : List (ℚ × ℚ)) : Prop :=
  ∀ turn ∈ (turns entries).tail, discountedSum gamma turn = 0

/-- Before an unmasked token, the later turns earn nothing when the running return is
that of all later tokens. -/
theorem laterTurnsZero_cons_live (hm : m ≠ 0) {run : List ℚ} {later : List (List ℚ)}
    (h : runs rest = run :: later) :
    LaterTurnsZero gamma ((reward, m) :: rest) ↔
      discountedSum gamma run = discountedSum gamma (liveRewards rest) ∧
        LaterTurnsZero gamma rest := by
  rw [LaterTurnsZero, LaterTurnsZero, turns_cons_live hm h, List.tail_cons, ← flatten_turns, turns,
    h]
  by_cases hrun : run = []
  · rw [hrun, List.filter_cons_of_neg (by decide), discountedSum_nil]
    cases hlater : later.filter (· ≠ []) with
    | nil => exact ⟨fun _ => ⟨rfl, fun _ h => absurd h List.not_mem_nil⟩,
        fun _ _ h => absurd h List.not_mem_nil⟩
    | cons turn others =>
        rw [List.tail_cons, List.flatten_cons, discountedSum_append]
        constructor
        · intro hzero
          have hothers : ∀ t ∈ others, discountedSum gamma t = 0 := fun t ht =>
            hzero t (List.mem_cons_of_mem turn ht)
          exact ⟨by rw [hzero turn List.mem_cons_self, discountedSum_flatten_eq_zero hothers,
            mul_zero, add_zero], hothers⟩
        · rintro ⟨hsum, hothers⟩ t ht
          rw [discountedSum_flatten_eq_zero hothers, mul_zero, add_zero] at hsum
          rcases List.mem_cons.mp ht with rfl | ht
          · exact hsum.symm
          · exact hothers t ht
  · rw [List.filter_cons_of_pos (by rwa [decide_eq_true_eq]), List.tail_cons, List.flatten_cons,
      discountedSum_append]
    constructor
    · intro hzero
      exact ⟨by rw [discountedSum_flatten_eq_zero hzero, mul_zero, add_zero], hzero⟩
    · exact fun h => h.2

/-- The returns at the unmasked positions are those of the row without its masked
tokens when the later turns earn nothing. -/
theorem atLive_discountedReturns_iff (hmask : ZeroOne entries) (hgamma : gamma ≠ 0) :
    atLive (entries.map Prod.snd) (discountedReturns gamma entries).1 =
      returnsToGo gamma (liveRewards entries) ↔ LaterTurnsZero gamma entries := by
  induction entries with
  | nil => exact ⟨fun _ _ h => absurd h List.not_mem_nil, fun _ => rfl⟩
  | cons e rest ih =>
      obtain ⟨reward, m⟩ := e
      have hrest : ZeroOne rest := fun e he => hmask e (List.mem_cons_of_mem _ he)
      rcases hmask _ List.mem_cons_self with hm | hm
      · obtain rfl : m = 0 := hm
        rw [LaterTurnsZero, turns_cons_masked, liveRewards_cons_masked, List.map_cons,
          discountedReturns, atLive_cons_masked]
        exact ih hrest
      · obtain rfl : m = 1 := hm
        obtain ⟨run, later, hruns⟩ := exists_runs_eq_cons rest
        rw [laterTurnsZero_cons_live one_ne_zero hruns, liveRewards_cons_live one_ne_zero,
          List.map_cons, discountedReturns, atLive_cons_live one_ne_zero, returnsToGo_cons,
          List.cons.injEq, ih hrest, runningReturn_eq hrest hruns, discountedSum_cons,
          add_right_inj, mul_right_inj' hgamma]

/-- Without a later return nothing is cut off. -/
theorem atLive_discountedReturns_zero (hmask : ZeroOne entries) :
    atLive (entries.map Prod.snd) (discountedReturns 0 entries).1 =
      returnsToGo 0 (liveRewards entries) := by
  induction entries with
  | nil => rfl
  | cons e rest ih =>
      obtain ⟨reward, m⟩ := e
      have hrest : ZeroOne rest := fun e he => hmask e (List.mem_cons_of_mem _ he)
      rcases hmask _ List.mem_cons_self with hm | hm
      · obtain rfl : m = 0 := hm
        rw [liveRewards_cons_masked, List.map_cons, discountedReturns, atLive_cons_masked, ih hrest]
      · obtain rfl : m = 1 := hm
        rw [liveRewards_cons_live one_ne_zero, List.map_cons, discountedReturns,
          atLive_cons_live one_ne_zero, returnsToGo_cons, ih hrest, discountedSum_cons, zero_mul,
          zero_mul]

/-! ## The estimator -/

variable {S : SquareRoot} {rows : List AdvRow} {out : AdvOutput}

/-- The rewards of a row with their masks. -/
def AdvRow.rewardEntries (row : AdvRow) : List (ℚ × ℚ) := row.rewards.zip row.mask

theorem AdvRow.map_snd_rewardEntries (row : AdvRow) :
    row.rewardEntries.map Prod.snd = row.mask := by
  rw [rewardEntries, ← List.unzip_snd, List.unzip_zip row.length_eq]

theorem AdvRow.zeroOne_rewardEntries (row : AdvRow) : ZeroOne row.rewardEntries := by
  intro e he
  refine row.mask_zero_or_one e.2 ?_
  rw [← row.map_snd_rewardEntries]
  exact List.mem_map_of_mem he

/-- The returns of the estimator are those of the loop. -/
theorem returns_of_computeReinforcePlusPlus
    (h : computeReinforcePlusPlusOutcomeAdvantage S gamma rows = .ok out) :
    out.returns = rows.map fun row => (row.returns gamma).map some := by
  rw [computeReinforcePlusPlusOutcomeAdvantage] at h
  obtain ⟨advantages, _, hout⟩ := Py.bind_eq_ok.mp h
  obtain rfl := Except.ok.inj hout
  exact List.map_map

/-- The returns at the unmasked positions are those of the row without its masked
tokens. -/
def ReturnsSkipObservations (gamma : ℚ) (row : AdvRow) (returns : List Num) : Prop :=
  atLive row.mask returns = (returnsToGo gamma (liveRewards row.rewardEntries)).map some

/-- Padding the batch to a width changes no return at an unmasked position of the
row. -/
def PaddingHasNoInfluence (S : SquareRoot) (gamma : ℚ) (rows : List AdvRow) (i : Nat)
    (row : AdvRow) (returns : List Num) : Prop :=
  ∀ width out' returns', (∀ r ∈ rows, r.mask.length ≤ width) →
    computeReinforcePlusPlusOutcomeAdvantage S gamma (rows.map (AdvRow.padTo width)) = .ok out' →
    out'.returns[i]? = some returns' →
    atLive (row.padTo width).mask returns' = atLive row.mask returns

theorem atLive_map {α β : Type} (f : α → β) (mask : List ℚ) (xs : List α) :
    atLive mask (xs.map f) = (atLive mask xs).map f := by
  rw [atLive, atLive, List.zip_map_right, List.filter_map, List.map_map, List.map_map]
  rfl

theorem atLive_append_replicate {α : Type} {mask : List ℚ} {xs ys : List α} {n : Nat}
    (h : mask.length = xs.length) :
    atLive (mask ++ List.replicate n 0) (xs ++ ys) = atLive mask xs := by
  rw [atLive, List.zip_append h, List.filter_append, List.map_append]
  suffices ((List.replicate n (0 : ℚ)).zip ys).filter (fun e => e.1 ≠ 0) = [] by
    rw [this, List.map_nil, List.append_nil]
    rfl
  rw [List.filter_eq_nil_iff]
  intro e he
  rw [decide_eq_true_eq, not_not]
  exact List.eq_of_mem_replicate (List.of_mem_zip he).1

theorem paddingHasNoInfluence {i : Nat} {row : AdvRow} {returns : List Num}
    (h : computeReinforcePlusPlusOutcomeAdvantage S gamma rows = .ok out)
    (hrow : rows[i]? = some row) (hreturns : out.returns[i]? = some returns) :
    PaddingHasNoInfluence S gamma rows i row returns := by
  intro width out' returns' hwidth h' hreturns'
  have hle : row.mask.length ≤ width := hwidth row (List.mem_of_getElem? hrow)
  rw [returns_of_computeReinforcePlusPlus h, List.getElem?_map, hrow] at hreturns
  rw [returns_of_computeReinforcePlusPlus h', List.getElem?_map, List.getElem?_map, hrow]
    at hreturns'
  obtain rfl := Option.some.inj hreturns
  obtain rfl := Option.some.inj hreturns'
  beta_reduce
  rw [AdvRow.returns_padTo gamma hle, AdvRow.mask_padTo, padTo_of_le hle,
    padTo_of_le (by rwa [AdvRow.length_returns]), List.map_append, atLive_append_replicate]
  rw [List.length_map, AdvRow.length_returns]

/-- The estimator skips the observation tokens of a row when nothing is discounted to
an earlier token or every turn after the first earns nothing. -/
theorem returnsSkipObservations_iff {i : Nat} {row : AdvRow} {returns : List Num}
    (h : computeReinforcePlusPlusOutcomeAdvantage S gamma rows = .ok out)
    (hrow : rows[i]? = some row) (hreturns : out.returns[i]? = some returns) :
    ReturnsSkipObservations gamma row returns ∧
        PaddingHasNoInfluence S gamma rows i row returns ↔
      gamma = 0 ∨ LaterTurnsZero gamma row.rewardEntries := by
  rw [and_iff_left (paddingHasNoInfluence h hrow hreturns)]
  rw [returns_of_computeReinforcePlusPlus h, List.getElem?_map, hrow] at hreturns
  obtain rfl := Option.some.inj hreturns
  rw [ReturnsSkipObservations, atLive_map,
    (List.map_injective_iff.mpr (Option.some_injective ℚ)).eq_iff,
    ← row.map_snd_rewardEntries]
  by_cases hgamma : gamma = 0
  · rw [hgamma]
    exact ⟨fun _ => .inl rfl, fun _ => atLive_discountedReturns_zero row.zeroOne_rewardEntries⟩
  · rw [or_iff_right hgamma]
    exact atLive_discountedReturns_iff row.zeroOne_rewardEntries hgamma

/-- One token, an observation and one token, with the reward at the end. -/
def twoTurnRow : AdvRow where
  uid := "u"
  rewards := [0, 0, 1]
  mask := [1, 0, 1]
  mask_zero_or_one := by decide
  length_eq := rfl

/-- Whatever the root is, the batch of this row has returns. -/
theorem exists_returns_twoTurnRow (S : SquareRoot) :
    ∃ out, computeReinforcePlusPlusOutcomeAdvantage S 1 [twoTurnRow] = .ok out ∧
      out.returns[0]? = some [some 0, some 1, some 1] := by
  have hvar : ∃ var, maskedVar [(0, 1), (1, 0), (1, 1)] = .ok var :=
    ⟨_, by rw [maskedVar, if_neg (by decide +kernel), if_neg (by decide +kernel)]⟩
  have hreturns : (discountedReturns 1 (twoTurnRow.rewards.zip twoTurnRow.mask)).1 = [0, 1, 1] := by
    decide +kernel
  obtain ⟨var, hvar⟩ := hvar
  have hwhiten : ∃ advantages, maskedWhiten S [[0, 1, 1]] [[1, 0, 1]] = .ok advantages :=
    ⟨_, Py.bind_eq_ok.mpr ⟨var, hvar, rfl⟩⟩
  obtain ⟨advantages, hwhiten⟩ := hwhiten
  refine ⟨⟨mulMask advantages [[1, 0, 1]], [[some 0, some 1, some 1]]⟩, ?_, rfl⟩
  rw [computeReinforcePlusPlusOutcomeAdvantage, List.map_singleton, List.map_singleton, hreturns]
  exact Py.bind_eq_ok.mpr ⟨advantages, hwhiten, rfl⟩

/-- The later turn of the row earns 1. -/
theorem returnsSkipObservations_iff_twoTurn :
    ∃ out returns, computeReinforcePlusPlusOutcomeAdvantage floorSqrt 1 [twoTurnRow] = .ok out ∧
      out.returns[0]? = some returns ∧
      (ReturnsSkipObservations 1 twoTurnRow returns ∧
          PaddingHasNoInfluence floorSqrt 1 [twoTurnRow] 0 twoTurnRow returns ↔
        (1 : ℚ) = 0 ∨ LaterTurnsZero 1 twoTurnRow.rewardEntries) := by
  obtain ⟨out, hout, hreturns⟩ := exists_returns_twoTurnRow floorSqrt
  exact ⟨out, _, hout, hreturns, returnsSkipObservations_iff hout rfl hreturns⟩

/-- The reward at the end does not reach the first turn: its token has the return 0
and not 1. -/
theorem not_returnsSkipObservations_twoTurn :
    ∃ out returns, computeReinforcePlusPlusOutcomeAdvantage floorSqrt 1 [twoTurnRow] = .ok out ∧
      out.returns[0]? = some returns ∧ (∀ e ∈ twoTurnRow.rewardEntries, e.2 = 0 → e.1 = 0) ∧
      ¬ ReturnsSkipObservations 1 twoTurnRow returns := by
  obtain ⟨out, hout, hreturns⟩ := exists_returns_twoTurnRow floorSqrt
  refine ⟨out, _, hout, hreturns, by decide +kernel, ?_⟩
  rw [ReturnsSkipObservations]
  decide +kernel

end Verl
