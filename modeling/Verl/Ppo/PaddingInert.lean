import Verl.Ppo.AdvantageGroups
import Verl.Ppo.PaddingUtils
import Verl.Ppo.Whitening

/-!
# Padding rows are inert

A padding row has no reward and no unmasked token, and all padding rows are one
group of their own.  What is left for them to change is a statistic of the whole
batch, or a statistic of their group that is not defined.
-/

namespace Verl

open Py (groupBy valuesOf)

variable {S : SquareRoot} {parseInt : String → Option Int} {config : AlgoConfig}
  {rows : List AdvRow} {padUid : String} {p : Nat}

/-! ## Padding rows -/

theorem padRow_mask_zero_or_one : ∀ m ∈ ([0] : List ℚ), m = 0 ∨ m = 1 :=
  fun _ hm => .inl (List.mem_singleton.mp hm)

theorem padRow_length_eq : ([0] : List ℚ).length = ([0] : List ℚ).length := rfl

/-- The row of a padding trajectory. -/
def padRow (padUid : String) : AdvRow where
  uid := padUid
  rewards := [0]
  mask := [0]
  mask_zero_or_one := padRow_mask_zero_or_one
  length_eq := padRow_length_eq

theorem padRow_stat (padUid : String) : (padRow padUid).stat = ⟨0, 0⟩ := by
  rw [AdvRow.stat, AdvRow.score, AdvRow.responseLength, padRow]
  simp only [List.sum_singleton]

/-- The batch with `p` padding rows. -/
def withPadding (rows : List AdvRow) (p : Nat) (padUid : String) : List AdvRow :=
  rows ++ List.replicate p (padRow padUid)

/-- The results without and with `p` padding rows after `n` rows: nothing new is
raised, every other row has its values, and the padding rows have advantage 0. -/
structure PaddingInert (real padded : Except Py.Error AdvOutput) (n p : Nat) : Prop where
  errors : ∀ e, padded = .error e → real = .error e
  values : ∀ out out', real = .ok out → padded = .ok out' →
    out'.advantages.take n = out.advantages ∧ out'.returns.take n = out.returns
  zero : ∀ out', padded = .ok out' → out'.advantages.drop n = List.replicate p [some 0]

/-- The padding rows are inert. -/
abbrev RowsInert (compute : List AdvRow → Except Py.Error AdvOutput) (rows : List AdvRow)
    (p : Nat) (padUid : String) : Prop :=
  PaddingInert (compute rows) (compute (withPadding rows p padUid)) rows.length p

theorem withPadding_zero (rows : List AdvRow) (padUid : String) :
    withPadding rows 0 padUid = rows := List.append_nil rows

theorem length_advantages_le {est : AdvantageEstimator} {out : AdvOutput}
    (h : computeAdvantage S parseInt config est rows = .ok out) :
    out.advantages.length ≤ rows.length ∧ out.returns.length ≤ rows.length := by
  rw [computeAdvantage_eq] at h
  obtain ⟨result, _, h⟩ := Py.bind_eq_ok.mp h
  obtain rfl := Except.ok.inj h
  rw [responseToNested, responseToNested, List.length_zipWith, List.length_zipWith]
  exact ⟨Nat.min_le_left _ _, Nat.min_le_left _ _⟩

/-- Nothing is inert without padding rows. -/
theorem rowsInert_zero (est : AdvantageEstimator) (rows : List AdvRow) (padUid : String) :
    RowsInert (computeAdvantage S parseInt config est) rows 0 padUid := by
  refine ⟨?_, ?_, ?_⟩
  · rw [withPadding_zero]
    exact fun e he => he
  · rw [withPadding_zero]
    intro out out' hout hout'
    obtain rfl := Except.ok.inj (hout.symm.trans hout')
    obtain ⟨hadv, hret⟩ := length_advantages_le hout
    exact ⟨List.take_of_length_le hadv, List.take_of_length_le hret⟩
  · rw [withPadding_zero]
    intro out' hout'
    exact List.drop_eq_nil_of_le (length_advantages_le hout').1

/-! ## Estimators by groups -/

section Groups

variable (hfresh : ∀ row ∈ rows, row.uid ≠ padUid)
include hfresh

theorem groupOf_withPadding {row : AdvRow} (h : row ∈ rows) (p : Nat) :
    groupOf (withPadding rows p padUid) row.uid = groupOf rows row.uid := by
  rw [groupOf, groupOf, withPadding, List.filter_append, List.filter_replicate_of_neg,
    List.append_nil]
  rw [decide_eq_true_eq]
  exact (hfresh row h).symm

theorem groupOf_padUid (p : Nat) :
    groupOf (withPadding rows p padUid) padUid = List.replicate p ⟨0, 0⟩ := by
  have hnone : rows.filter (fun row => decide (row.uid = padUid)) = [] := by
    rw [List.filter_eq_nil_iff]
    intro row hrow
    rw [decide_eq_true_eq]
    exact hfresh row hrow
  have hall : (List.replicate p (padRow padUid)).filter (fun row => decide (row.uid = padUid)) =
      List.replicate p (padRow padUid) := by
    refine List.filter_eq_self.mpr fun row hrow => ?_
    rw [List.eq_of_mem_replicate hrow]
    exact decide_eq_true rfl
  rw [groupOf, withPadding, List.filter_append, hnone, List.nil_append, hall, List.map_replicate,
    padRow_stat]

theorem advantagesByUid_withPadding (scalar : List RowStat → RowStat → Num) (p : Nat) :
    advantagesByUid scalar (withPadding rows p padUid) = advantagesByUid scalar rows ++
      List.replicate p [(scalar (List.replicate p ⟨0, 0⟩) ⟨0, 0⟩).map (· * 0)] := by
  rw [advantagesByUid, advantagesByUid]
  have hsplit (f : AdvRow → List Num) : (withPadding rows p padUid).map f =
      rows.map f ++ List.replicate p (f (padRow padUid)) := by
    rw [withPadding, List.map_append, List.map_replicate]
  rw [hsplit]
  refine congrArg₂ (· ++ ·) ?_ ?_
  · exact List.map_congr_left fun row hrow => by rw [groupOf_withPadding hfresh hrow]
  · rw [show (padRow padUid).uid = padUid from rfl, groupOf_padUid hfresh, padRow_stat]
    rfl

end Groups

theorem length_advantagesByUid (scalar : List RowStat → RowStat → Num) (rows : List AdvRow) :
    (advantagesByUid scalar rows).length = rows.length := List.length_map _

/-- An estimator by uid is inert if the number of a padding row is defined. -/
theorem rowsInert_byUid {compute : List AdvRow → Except Py.Error AdvOutput}
    {scalar : List RowStat → RowStat → Num} (hfresh : ∀ row ∈ rows, row.uid ≠ padUid)
    (hpadded : compute (withPadding rows p padUid) =
      .ok ⟨advantagesByUid scalar (withPadding rows p padUid),
        advantagesByUid scalar (withPadding rows p padUid)⟩)
    (hreal : ∀ out, compute rows = .ok out →
      out = ⟨advantagesByUid scalar rows, advantagesByUid scalar rows⟩)
    {x : ℚ} (hdefined : scalar (List.replicate p ⟨0, 0⟩) ⟨0, 0⟩ = some x) :
    RowsInert compute rows p padUid := by
  have hsplit := advantagesByUid_withPadding hfresh scalar p
  rw [hdefined, Option.map_some, mul_zero] at hsplit
  refine ⟨?_, ?_, ?_⟩
  · intro e he
    rw [hpadded] at he
    cases he
  · intro out out' hout hout'
    obtain rfl := hreal out hout
    obtain rfl := Except.ok.inj (hpadded.symm.trans hout')
    rw [hsplit, ← length_advantagesByUid scalar rows, List.take_left]
    exact ⟨rfl, rfl⟩
  · intro out' hout'
    obtain rfl := Except.ok.inj (hpadded.symm.trans hout')
    rw [hsplit, ← length_advantagesByUid scalar rows, List.drop_left]

theorem computeAdvantage_byUid {est : AdvantageEstimator}
    {scalar : List RowStat → RowStat → Num}
    (h : est.compute S parseInt config (paddedRows rows) =
      .ok ⟨advantagesByUid scalar (paddedRows rows), advantagesByUid scalar (paddedRows rows)⟩) :
    computeAdvantage S parseInt config est rows =
      .ok ⟨advantagesByUid scalar rows, advantagesByUid scalar rows⟩ := by
  rw [computeAdvantage_eq, h, Py.ok_bind]
  dsimp only
  rw [responseToNested_advantagesByUid]
  rfl

/-! ## The numbers of padding rows -/

theorem sum_map_replicate_zero {f : RowStat → ℚ} (h : f ⟨0, 0⟩ = 0) (p : Nat) :
    ((List.replicate p (⟨0, 0⟩ : RowStat)).map f).sum = 0 := by
  rw [List.map_replicate, h]
  exact List.sum_eq_zero fun _ hx => List.eq_of_mem_replicate hx

theorem id2mean_padding (p : Nat) : id2mean (List.replicate p ⟨0, 0⟩) = 0 := by
  rw [id2mean, sum_map_replicate_zero rfl, zero_div, ite_self]

theorem epsilon_pos : 0 < epsilon := one_div_pos.mpr (pow_pos (by decide) 6)

theorem id2std_nonneg (S : SquareRoot) (group : List RowStat) : 0 ≤ id2std S group := by
  rw [id2std]
  split
  · exact zero_le_one
  · exact S.sqrt_nonneg _

theorem groupStd_nonneg (S : SquareRoot) (group : List RowStat) : 0 ≤ groupStd S group := by
  rw [groupStd]
  split
  · exact zero_le_one
  · exact S.sqrt_nonneg _

theorem numDiv_add_epsilon {x y : ℚ} (h : 0 ≤ y) :
    numDiv x (y + epsilon) = some (x / (y + epsilon)) :=
  if_neg (add_pos_of_nonneg_of_pos h epsilon_pos).ne'

theorem grpoScore_defined (S : SquareRoot) (norm : Bool) (group : List RowStat) (row : RowStat) :
    ∃ x, grpoScore S norm group row = some x := by
  rw [grpoScore]
  split
  · exact ⟨_, numDiv_add_epsilon (id2std_nonneg S group)⟩
  · exact ⟨_, rfl⟩

theorem grpoVectorizedScore_defined (S : SquareRoot) (norm : Bool) (group : List RowStat)
    (row : RowStat) : ∃ x, grpoVectorizedScore S norm group row = some x := by
  rw [grpoVectorizedScore]
  split
  · exact ⟨_, numDiv_add_epsilon (groupStd_nonneg S group)⟩
  · exact ⟨_, rfl⟩

theorem rlooScore_defined (group : List RowStat) (row : RowStat) :
    ∃ x, rlooScore group row = some x := by
  rw [rlooScore]
  split <;> exact ⟨_, rfl⟩

/-- The lengths of two padding rows add up to 0. -/
theorem opoScore_padding {p : Nat} (hp : p ≠ 1) :
    opoScore (List.replicate p ⟨0, 0⟩) ⟨0, 0⟩ = none := by
  rw [opoScore, id2bsl, if_neg (by rwa [List.length_replicate]), numDiv,
    if_pos (sum_map_replicate_zero rfl p), Option.map_none]

/-! ## The estimators by uid -/

theorem computeAdvantage_grpo (rows : List AdvRow) :
    computeAdvantage S parseInt config .grpo rows =
      .ok ⟨advantagesByUid (grpoScore S config.normAdvByStdInGrpo) rows,
        advantagesByUid (grpoScore S config.normAdvByStdInGrpo) rows⟩ :=
  computeAdvantage_byUid (by
    rw [AdvantageEstimator.compute, computeGrpoOutcomeAdvantage, groupAdvantage_uid])

theorem computeAdvantage_rloo (rows : List AdvRow) :
    computeAdvantage S parseInt config .rloo rows =
      .ok ⟨advantagesByUid rlooScore rows, advantagesByUid rlooScore rows⟩ :=
  computeAdvantage_byUid (by
    rw [AdvantageEstimator.compute, computeRlooOutcomeAdvantage, groupAdvantage_uid])

theorem computeAdvantage_opo (rows : List AdvRow) :
    computeAdvantage S parseInt config .opo rows =
      .ok ⟨advantagesByUid opoScore rows, advantagesByUid opoScore rows⟩ :=
  computeAdvantage_byUid (by
    rw [AdvantageEstimator.compute, computeOpoOutcomeAdvantage, groupAdvantage_uid])

theorem computeAdvantage_rlooVectorized (rows : List AdvRow) :
    computeAdvantage S parseInt config .rlooVectorized rows =
      .ok ⟨advantagesByUid rlooVectorizedScore rows, advantagesByUid rlooVectorizedScore rows⟩ := by
  refine computeAdvantage_byUid ?_
  have h := groupAdvantage_uniqueInverse (f := id) Function.injective_id rlooVectorizedScore
    (paddedRows rows)
  rw [List.map_id] at h
  rw [AdvantageEstimator.compute, computeRlooVectorizedOutcomeAdvantage, h]

theorem gpgAlpha_paddedRows (rows : List AdvRow) : gpgAlpha (paddedRows rows) = gpgAlpha rows := by
  have hcount (rows : List AdvRow) : rows.countP (fun row => decide (row.score ≠ 0)) =
      (rows.map AdvRow.score).countP fun score => decide (score ≠ 0) := by
    rw [List.countP_map]
    rfl
  rw [gpgAlpha, gpgAlpha, hcount, hcount, map_score_paddedRows, paddedRows, List.length_map]

theorem computeAdvantage_gpg (rows : List AdvRow) :
    computeAdvantage S parseInt config .gpg rows =
      .ok ⟨advantagesByUid (gpgScore (gpgAlpha rows)) rows,
        advantagesByUid (gpgScore (gpgAlpha rows)) rows⟩ :=
  computeAdvantage_byUid (by
    rw [AdvantageEstimator.compute, computeGpgOutcomeAdvantage, gpgAlpha_paddedRows,
      groupAdvantage_uid])

theorem labelsByUid_paddedRows (h : LabelsByUid parseInt rows) :
    LabelsByUid parseInt (paddedRows rows) := by
  intro row hrow row' hrow'
  obtain ⟨r, hr, rfl⟩ := List.mem_map.mp hrow
  obtain ⟨r', hr', rfl⟩ := List.mem_map.mp hrow'
  exact h r hr r' hr'

theorem computeAdvantage_grpoVectorized (h : LabelsByUid parseInt rows) :
    computeAdvantage S parseInt config .grpoVectorized rows =
      if (asTorchIndex parseInt (rows.map AdvRow.uid)).any (· < 0) then .error .index
      else .ok ⟨advantagesByUid (grpoVectorizedScore S true) rows,
        advantagesByUid (grpoVectorizedScore S true) rows⟩ := by
  split
  next hneg =>
    rw [computeAdvantage_eq, AdvantageEstimator.compute, computeGrpoVectorizedOutcomeAdvantage]
    dsimp only
    rw [map_uid_paddedRows, if_pos hneg, Py.error_bind]
  next hneg =>
    refine computeAdvantage_byUid ?_
    rw [AdvantageEstimator.compute, computeGrpoVectorizedOutcomeAdvantage]
    dsimp only
    rw [groupAdvantage_asTorchIndex (labelsByUid_paddedRows h), map_uid_paddedRows, if_neg hneg]

/-! ## Labels with padding -/

theorem labelsByUid_withPadding (hlabels : LabelsByUid parseInt rows)
    (hpad : parseInt padUid = none) : LabelsByUid parseInt (withPadding rows p padUid) := by
  have hcases (row : AdvRow) (hrow : row ∈ withPadding rows p padUid) :
      row ∈ rows ∨ row.uid = padUid := by
    rcases List.mem_append.mp hrow with hrow | hrow
    · exact .inl hrow
    · exact .inr (congrArg AdvRow.uid (List.eq_of_mem_replicate hrow))
  intro row hrow row' hrow' hne heq
  rcases hcases row hrow with hrow | hrow
  · rcases hcases row' hrow' with hrow' | hrow'
    · exact hlabels row hrow row' hrow' hne heq
    · rw [heq, hrow', hpad] at hne
      exact (hne rfl).elim
  · rw [hrow, hpad] at hne
    exact (hne rfl).elim

/-- A label that is no integer makes all labels ranks. -/
theorem asTorchIndex_withPadding (hp : p ≠ 0) (hpad : parseInt padUid = none) :
    (asTorchIndex parseInt ((withPadding rows p padUid).map AdvRow.uid)).any (· < 0) = false := by
  have hmem : padRow padUid ∈ withPadding rows p padUid :=
    List.mem_append.mpr (.inr (List.mem_replicate.mpr ⟨hp, rfl⟩))
  rw [asTorchIndex]
  split
  next coerced hcoerced =>
    exact ((mapM_eq_some hcoerced 0).2 padUid (List.mem_map_of_mem hmem) hpad).elim
  next =>
    rw [List.any_eq_false]
    intro i hi
    obtain ⟨n, _, rfl⟩ := List.mem_map.mp hi
    rw [decide_eq_true_eq]
    omega

/-! ## The factor of `gpg` -/

/-- Padding rows are counted in `alpha`. -/
theorem gpgAlpha_withPadding (rows : List AdvRow) (p : Nat) (padUid : String) :
    gpgAlpha (withPadding rows p padUid) =
      gpgAlpha rows + p / max ((rows.countP fun row => row.score ≠ 0 : Nat) : ℚ) 1 := by
  have hpad : (List.replicate p (padRow padUid)).countP (fun row => row.score ≠ 0) = 0 := by
    rw [List.countP_eq_zero]
    intro row hrow
    rw [List.eq_of_mem_replicate hrow, decide_eq_true_eq, not_not]
    exact congrArg RowStat.score (padRow_stat padUid)
  rw [gpgAlpha, gpgAlpha, withPadding, List.countP_append, hpad, Nat.add_zero, List.length_append,
    List.length_replicate, Nat.cast_add, add_div]

theorem gpgAlpha_withPadding_ne (rows : List AdvRow) {p : Nat} (hp : p ≠ 0) (padUid : String) :
    gpgAlpha (withPadding rows p padUid) ≠ gpgAlpha rows := by
  rw [gpgAlpha_withPadding]
  have hpos : (0 : ℚ) < p := Nat.cast_pos.mpr (Nat.pos_of_ne_zero hp)
  exact (lt_add_of_pos_right _ (div_pos hpos (lt_max_of_lt_right one_pos))).ne'

/-- A row with another factor has the same advantages if its score is the mean, or
no token is unmasked. -/
theorem broadcast_gpgScore_iff {alpha alpha' : ℚ} (hne : alpha' ≠ alpha) (group : List RowStat)
    (row : AdvRow) :
    broadcast (gpgScore alpha' group row.stat) row.mask =
        broadcast (gpgScore alpha group row.stat) row.mask ↔
      ((∃ m ∈ row.mask, m ≠ 0) → row.score = id2mean group) := by
  rw [broadcast, broadcast, List.map_inj_left, gpgScore, gpgScore]
  simp only [Option.map_some, Option.some.injEq, div_one]
  constructor
  · rintro h ⟨m, hm, hm0⟩
    have hprod := mul_right_cancel₀ hm0 (h m hm)
    by_contra hscore
    exact hne (mul_right_cancel₀ (sub_ne_zero.mpr hscore) hprod)
  · intro h m hm
    by_cases hm0 : m = 0
    · rw [hm0, mul_zero, mul_zero]
    · have hscore : row.stat.score = id2mean group := h ⟨m, hm, hm0⟩
      rw [hscore, sub_self, mul_zero, mul_zero]

/-! ## Inert estimators by uid -/

section ByUid

variable (hfresh : ∀ row ∈ rows, row.uid ≠ padUid)
include hfresh

theorem rowsInert_grpo : RowsInert (computeAdvantage S parseInt config .grpo) rows p padUid := by
  obtain ⟨x, hx⟩ := grpoScore_defined S config.normAdvByStdInGrpo (List.replicate p ⟨0, 0⟩) ⟨0, 0⟩
  exact rowsInert_byUid hfresh (computeAdvantage_grpo _)
    (fun _ hout => (Except.ok.inj ((computeAdvantage_grpo rows).symm.trans hout)).symm) hx

theorem rowsInert_rloo : RowsInert (computeAdvantage S parseInt config .rloo) rows p padUid := by
  obtain ⟨x, hx⟩ := rlooScore_defined (List.replicate p ⟨0, 0⟩) ⟨0, 0⟩
  exact rowsInert_byUid hfresh (computeAdvantage_rloo _)
    (fun _ hout => (Except.ok.inj ((computeAdvantage_rloo rows).symm.trans hout)).symm) hx

theorem rowsInert_rlooVectorized :
    RowsInert (computeAdvantage S parseInt config .rlooVectorized) rows p padUid :=
  rowsInert_byUid hfresh (computeAdvantage_rlooVectorized _)
    (fun _ hout => (Except.ok.inj ((computeAdvantage_rlooVectorized rows).symm.trans hout)).symm)
    rfl

theorem rowsInert_grpoVectorized (hlabels : LabelsByUid parseInt rows)
    (hpad : parseInt padUid = none) :
    RowsInert (computeAdvantage S parseInt config .grpoVectorized) rows p padUid := by
  rcases Nat.eq_zero_or_pos p with rfl | hp
  · exact rowsInert_zero .grpoVectorized rows padUid
  · obtain ⟨x, hx⟩ := grpoVectorizedScore_defined S true (List.replicate p ⟨0, 0⟩) ⟨0, 0⟩
    refine rowsInert_byUid hfresh ?_ ?_ hx
    · rw [computeAdvantage_grpoVectorized (labelsByUid_withPadding hlabels hpad),
        asTorchIndex_withPadding hp.ne' hpad, if_neg Bool.false_ne_true]
    · intro out hout
      rw [computeAdvantage_grpoVectorized hlabels] at hout
      split at hout
      · cases hout
      · exact (Except.ok.inj hout).symm

/-- The baseline of two padding rows is 0 divided by 0. -/
theorem rowsInert_opo_iff :
    RowsInert (computeAdvantage S parseInt config .opo) rows p padUid ↔ p ≤ 1 := by
  constructor
  · intro h
    by_contra hp
    have hzero := h.zero _ (computeAdvantage_opo (withPadding rows p padUid))
    rw [advantagesByUid_withPadding hfresh, opoScore_padding (by omega), Option.map_none,
      ← length_advantagesByUid opoScore rows, List.drop_left] at hzero
    have hlast := congrArg (fun xs : List (List Num) => xs[0]?) hzero
    rw [List.getElem?_replicate, List.getElem?_replicate, if_pos (by omega),
      if_pos (by omega)] at hlast
    cases hlast
  · intro hp
    rcases Nat.le_one_iff_eq_zero_or_eq_one.mp hp with rfl | rfl
    · exact rowsInert_zero .opo rows padUid
    · exact rowsInert_byUid hfresh (computeAdvantage_opo _)
        (fun _ hout => (Except.ok.inj ((computeAdvantage_opo rows).symm.trans hout)).symm) rfl

/-- `gpg` is inert only if nothing is scaled. -/
theorem rowsInert_gpg_iff :
    RowsInert (computeAdvantage S parseInt config .gpg) rows p padUid ↔
      p = 0 ∨ ∀ row ∈ rows, (∃ m ∈ row.mask, m ≠ 0) →
        row.score = id2mean (groupOf rows row.uid) := by
  have hsplit :=
      advantagesByUid_withPadding hfresh (gpgScore (gpgAlpha (withPadding rows p padUid))) p
  have hpad : gpgScore (gpgAlpha (withPadding rows p padUid)) (List.replicate p ⟨0, 0⟩) ⟨0, 0⟩ =
      some 0 := by
    rw [gpgScore, id2mean_padding, sub_zero, mul_zero, zero_div]
  rw [hpad, Option.map_some, mul_zero] at hsplit
  rcases Nat.eq_zero_or_pos p with rfl | hp
  · exact iff_of_true (rowsInert_zero .gpg rows padUid) (.inl rfl)
  · have hne := gpgAlpha_withPadding_ne rows hp.ne' padUid
    have hrows : advantagesByUid (gpgScore (gpgAlpha (withPadding rows p padUid))) rows =
          advantagesByUid (gpgScore (gpgAlpha rows)) rows ↔
        ∀ row ∈ rows, (∃ m ∈ row.mask, m ≠ 0) → row.score = id2mean (groupOf rows row.uid) := by
      rw [advantagesByUid, advantagesByUid, List.map_inj_left]
      exact forall₂_congr fun row _ => broadcast_gpgScore_iff hne _ row
    constructor
    · intro h
      obtain ⟨hadv, _⟩ := h.values _ _ (computeAdvantage_gpg rows) (computeAdvantage_gpg _)
      rw [hsplit, ← length_advantagesByUid
        (gpgScore (gpgAlpha (withPadding rows p padUid))) rows, List.take_left] at hadv
      exact .inr (hrows.mp hadv)
    · rintro (rfl | h)
      · cases hp
      · have heq := hrows.mpr h
        refine ⟨?_, ?_, ?_⟩
        · intro e he
          rw [computeAdvantage_gpg] at he
          cases he
        · intro out out' hout hout'
          obtain rfl := Except.ok.inj ((computeAdvantage_gpg rows).symm.trans hout)
          obtain rfl := Except.ok.inj ((computeAdvantage_gpg _).symm.trans hout')
          rw [hsplit, heq, ← length_advantagesByUid (gpgScore (gpgAlpha rows)) rows, List.take_left]
          exact ⟨rfl, rfl⟩
        · intro out' hout'
          obtain rfl := Except.ok.inj ((computeAdvantage_gpg _).symm.trans hout')
          rw [hsplit, heq, ← length_advantagesByUid (gpgScore (gpgAlpha rows)) rows, List.drop_left]

end ByUid

/-! ## Estimators that whiten -/

theorem map_withPadding {β : Type} (f : AdvRow → β) (rows : List AdvRow) (p : Nat)
    (padUid : String) : (withPadding rows p padUid).map f =
      rows.map f ++ List.replicate p (f (padRow padUid)) := by
  rw [withPadding, List.map_append, List.map_replicate]

theorem mask_of_mem_entriesOf {values : AdvRow → List ℚ} :
    ∀ e ∈ entriesOf (rows.map values) (rows.map AdvRow.mask), e.2 = 0 ∨ e.2 = 1 := by
  intro e he
  rw [entriesOf, List.zipWith_map, List.zipWith_self] at he
  obtain ⟨entries, hentries, he⟩ := List.mem_flatten.mp he
  obtain ⟨row, _, rfl⟩ := List.mem_map.mp hentries
  exact row.mask_zero_or_one e.2 (List.of_mem_zip he).2

/-- The centred score of a row. -/
def centredRow (rows : List AdvRow) (row : AdvRow) : List ℚ :=
  row.mask.map fun m => (row.score - id2mean (groupOf rows row.uid)) * m

theorem centredScores_eq (rows : List AdvRow) :
    centredScores rows = rows.map (centredRow rows) := by
  rw [centredScores]
  refine List.map_congr_left fun row _ => ?_
  rw [centredRow, List.zip_map', Py.getD_get?_groupBy, Py.valuesOf_map, groupOf]

theorem centredRow_padTo {row : AdvRow} (h : row ∈ rows) :
    centredRow (paddedRows rows) (row.padTo (batchWidth rows)) =
      padTo (batchWidth rows) (centredRow rows row) := by
  have hwidth := le_batchWidth h
  rw [centredRow, centredRow, AdvRow.uid_padTo, groupOf_paddedRows, AdvRow.score_padTo hwidth,
    AdvRow.mask_padTo, padTo_of_le hwidth, padTo_of_le (by rwa [List.length_map]), List.map_append,
    List.map_replicate, mul_zero, List.length_map]

theorem length_centredRow (rows : List AdvRow) (row : AdvRow) :
    (centredRow rows row).length = row.mask.length := List.length_map _

theorem computeAdvantage_reinforcePlusPlusBaseline (rows : List AdvRow) :
    computeAdvantage S parseInt config .reinforcePlusPlusBaseline rows = (do
      let advantages ← whitenedRows S (rows.map (centredRow rows)) (rows.map AdvRow.mask)
      return ⟨advantages, advantages⟩) := by
  rw [← whitenedRows_padTo (fun row _ => length_centredRow rows row) fun row => le_batchWidth,
    computeAdvantage_eq, AdvantageEstimator.compute,
    computeReinforcePlusPlusBaselineOutcomeAdvantage, centredScores_eq]
  have hvalues : (paddedRows rows).map (centredRow (paddedRows rows)) =
      rows.map fun row => padTo (batchWidth rows) (centredRow rows row) := by
    conv_lhs => rw [paddedRows, List.map_map]
    exact List.map_congr_left fun row hrow => centredRow_padTo hrow
  have hmask : (paddedRows rows).map AdvRow.mask =
      rows.map fun row => padTo (batchWidth rows) row.mask := by
    rw [paddedRows, List.map_map]
    rfl
  rw [hvalues, hmask, whitenedRows]
  cases maskedWhiten S (rows.map fun row => padTo (batchWidth rows) (centredRow rows row))
    (rows.map fun row => padTo (batchWidth rows) row.mask) <;> rfl

theorem centredRow_withPadding (hfresh : ∀ row ∈ rows, row.uid ≠ padUid) (p : Nat) :
    (withPadding rows p padUid).map (centredRow (withPadding rows p padUid)) =
      rows.map (centredRow rows) ++ List.replicate p [0] := by
  have hpad : centredRow (withPadding rows p padUid) (padRow padUid) = [0] := by
    rw [centredRow, padRow]
    exact congrArg (fun x => [x]) (mul_zero _)
  rw [map_withPadding, hpad]
  refine congrArg (· ++ _) (List.map_congr_left fun row hrow => ?_)
  rw [centredRow, centredRow, groupOf_withPadding hfresh hrow]

/-- The padding rows come after the others. -/
theorem rowsInert_append {compute : List AdvRow → Except Py.Error AdvOutput}
    (hpadded : compute (withPadding rows p padUid) = (do
      let out ← compute rows
      return ⟨out.advantages ++ List.replicate p [some 0],
        out.returns ++ List.replicate p [some 0]⟩))
    (hlength : ∀ out, compute rows = .ok out →
      out.advantages.length = rows.length ∧ out.returns.length = rows.length) :
    RowsInert compute rows p padUid := by
  cases hreal : compute rows with
  | error e =>
      rw [hreal, Py.error_bind] at hpadded
      refine ⟨?_, ?_, ?_⟩
      · intro e' he
        rw [hreal]
        exact hpadded.symm.trans he
      · intro out out' hout
        rw [hreal] at hout
        cases hout
      · intro out' hout'
        rw [hpadded] at hout'
        cases hout'
  | ok out =>
      rw [hreal, Py.ok_bind] at hpadded
      obtain ⟨hadv, hret⟩ := hlength out hreal
      refine ⟨?_, ?_, ?_⟩
      · intro e he
        rw [hpadded] at he
        cases he
      · intro out₁ out' hout hout'
        obtain rfl := Except.ok.inj (hreal.symm.trans hout)
        obtain rfl := Except.ok.inj (hpadded.symm.trans hout')
        constructor
        · rw [← hadv, List.take_left]
        · rw [← hret, List.take_left]
      · intro out' hout'
        obtain rfl := Except.ok.inj (hpadded.symm.trans hout')
        rw [← hadv, List.drop_left]

theorem length_whitenedRows {values mask : List (List ℚ)} {advantages : List (List Num)}
    (h : whitenedRows S values mask = .ok advantages) (hlength : values.length = mask.length) :
    advantages.length = mask.length := by
  rw [whitenedRows_eq] at h
  obtain ⟨var, _, h⟩ := Py.bind_eq_ok.mp h
  obtain rfl := Except.ok.inj h
  rw [List.length_zipWith, hlength, Nat.min_self]

/-- Whitened rows followed by the whitened padding rows. -/
theorem whitenedRows_withPadding (S : SquareRoot) (values : AdvRow → List ℚ) (rows : List AdvRow)
    (p : Nat) (padUid : String) :
    whitenedRows S (rows.map values ++ List.replicate p [0])
        ((withPadding rows p padUid).map AdvRow.mask) = (do
      let advantages ← whitenedRows S (rows.map values) (rows.map AdvRow.mask)
      return advantages ++ List.replicate p [some 0]) := by
  rw [map_withPadding, show (padRow padUid).mask = [0] from rfl,
    whitenedRows_append (by rw [List.length_map, List.length_map]) mask_of_mem_entriesOf]

theorem rowsInert_reinforcePlusPlusBaseline (hfresh : ∀ row ∈ rows, row.uid ≠ padUid) :
    RowsInert (computeAdvantage S parseInt config .reinforcePlusPlusBaseline) rows p padUid := by
  refine rowsInert_append ?_ ?_
  · rw [computeAdvantage_reinforcePlusPlusBaseline, computeAdvantage_reinforcePlusPlusBaseline,
      centredRow_withPadding hfresh, whitenedRows_withPadding]
    cases whitenedRows S (rows.map (centredRow rows)) (rows.map AdvRow.mask) <;> rfl
  · intro out hout
    rw [computeAdvantage_reinforcePlusPlusBaseline] at hout
    obtain ⟨advantages, hadv, hout⟩ := Py.bind_eq_ok.mp hout
    obtain rfl := Except.ok.inj hout
    have hlength := length_whitenedRows hadv (by rw [List.length_map, List.length_map])
    rw [List.length_map] at hlength
    exact ⟨hlength, hlength⟩

/-! ## Discounted returns -/

theorem discountedReturns_replicate (gamma : ℚ) (k : Nat) :
    discountedReturns gamma (List.replicate k (0, 0)) = (List.replicate k 0, 0) := by
  induction k with
  | zero => rfl
  | succ k ih =>
      rw [List.replicate_succ, discountedReturns, ih, List.replicate_succ]
      simp only [mul_zero, add_zero]

/-- No reward comes from the padding of a row. -/
theorem discountedReturns_append (gamma : ℚ) (entries : List (ℚ × ℚ)) (k : Nat) :
    (discountedReturns gamma (entries ++ List.replicate k (0, 0))).1 =
        (discountedReturns gamma entries).1 ++ List.replicate k 0 ∧
      (discountedReturns gamma (entries ++ List.replicate k (0, 0))).2 =
        (discountedReturns gamma entries).2 := by
  induction entries with
  | nil =>
      rw [List.nil_append, discountedReturns_replicate]
      exact ⟨rfl, rfl⟩
  | cons e entries ih =>
      obtain ⟨reward, m⟩ := e
      obtain ⟨hreturns, hrunning⟩ := ih
      rw [List.cons_append, discountedReturns, discountedReturns]
      dsimp only
      rw [hreturns, hrunning, List.cons_append]
      exact ⟨rfl, rfl⟩

theorem length_discountedReturns (gamma : ℚ) (entries : List (ℚ × ℚ)) :
    (discountedReturns gamma entries).1.length = entries.length := by
  induction entries with
  | nil => rfl
  | cons e entries ih =>
      obtain ⟨reward, m⟩ := e
      rw [discountedReturns]
      dsimp only
      rw [List.length_cons, ih, List.length_cons]

/-- The returns of a row. -/
def AdvRow.returns (gamma : ℚ) (row : AdvRow) : List ℚ :=
  (discountedReturns gamma (row.rewards.zip row.mask)).1

theorem AdvRow.length_returns (gamma : ℚ) (row : AdvRow) :
    (row.returns gamma).length = row.mask.length := by
  rw [AdvRow.returns, length_discountedReturns, List.length_zip, row.length_eq, Nat.min_self]

theorem AdvRow.returns_padTo (gamma : ℚ) {width : Nat} {row : AdvRow}
    (h : row.mask.length ≤ width) :
    (row.padTo width).returns gamma = Verl.padTo width (row.returns gamma) := by
  rw [AdvRow.returns, AdvRow.mask_padTo, AdvRow.rewards_padTo, padTo_of_le h,
    padTo_of_le (row.length_eq ▸ h), List.zip_append row.length_eq, row.length_eq,
    List.zip_replicate', (discountedReturns_append gamma _ _).1,
    padTo_of_le (by rwa [AdvRow.length_returns]), AdvRow.length_returns]
  rfl

theorem padRow_returns (gamma : ℚ) (padUid : String) : (padRow padUid).returns gamma = [0] := by
  rw [AdvRow.returns]
  exact congrArg Prod.fst (discountedReturns_replicate gamma 1)

theorem computeAdvantage_reinforcePlusPlus (rows : List AdvRow) :
    computeAdvantage S parseInt config .reinforcePlusPlus rows = (do
      let advantages ← whitenedRows S (rows.map (AdvRow.returns config.gamma))
        (rows.map AdvRow.mask)
      return ⟨advantages, rows.map fun row => (row.returns config.gamma).map some⟩) := by
  have hreturns : (paddedRows rows).map (AdvRow.returns config.gamma) =
      rows.map fun row => padTo (batchWidth rows) (row.returns config.gamma) := by
    rw [paddedRows, List.map_map]
    exact List.map_congr_left fun row hrow => AdvRow.returns_padTo config.gamma (le_batchWidth hrow)
  have hmask : (paddedRows rows).map AdvRow.mask =
      rows.map fun row => padTo (batchWidth rows) row.mask := by
    rw [paddedRows, List.map_map]
    rfl
  have hnested : responseToNested rows
      ((rows.map fun row => padTo (batchWidth rows) (row.returns config.gamma)).map
      (List.map some)) =
        rows.map fun row => (row.returns config.gamma).map some := by
    rw [List.map_map, responseToNested_map]
    refine List.map_congr_left fun row hrow => ?_
    rw [Function.comp_apply, ← List.map_take, ← AdvRow.length_returns config.gamma, take_padTo]
    rw [AdvRow.length_returns]
    exact le_batchWidth hrow
  rw [← whitenedRows_padTo (fun row _ => AdvRow.length_returns config.gamma row)
    fun row => le_batchWidth, computeAdvantage_eq, AdvantageEstimator.compute,
    computeReinforcePlusPlusOutcomeAdvantage]
  change (do
    let out ← (do
      let advantages ← maskedWhiten S ((paddedRows rows).map (AdvRow.returns config.gamma))
        ((paddedRows rows).map AdvRow.mask)
      return AdvOutput.mk (mulMask advantages ((paddedRows rows).map AdvRow.mask))
        (((paddedRows rows).map (AdvRow.returns config.gamma)).map (List.map some)))
    return AdvOutput.mk (responseToNested rows out.advantages)
      (responseToNested rows out.returns)) = _
  rw [hreturns, hmask, whitenedRows, ← hnested]
  cases maskedWhiten S (rows.map fun row => padTo (batchWidth rows) (row.returns config.gamma))
    (rows.map fun row => padTo (batchWidth rows) row.mask) <;> rfl

theorem rowsInert_reinforcePlusPlus :
    RowsInert (computeAdvantage S parseInt config .reinforcePlusPlus) rows p padUid := by
  refine rowsInert_append ?_ ?_
  · rw [computeAdvantage_reinforcePlusPlus, computeAdvantage_reinforcePlusPlus,
      map_withPadding (AdvRow.returns config.gamma), padRow_returns, whitenedRows_withPadding,
      map_withPadding, padRow_returns]
    cases whitenedRows S (rows.map (AdvRow.returns config.gamma)) (rows.map AdvRow.mask) <;> rfl
  · intro out hout
    rw [computeAdvantage_reinforcePlusPlus] at hout
    obtain ⟨advantages, hadv, hout⟩ := Py.bind_eq_ok.mp hout
    obtain rfl := Except.ok.inj hout
    have hlength := length_whitenedRows hadv (by rw [List.length_map, List.length_map])
    rw [List.length_map] at hlength
    exact ⟨hlength, List.length_map _⟩

end Verl
