import Mathlib.Data.List.Dedup
import Mathlib.Tactic.FieldSimp
import Mathlib.Tactic.Linarith
import Verl.Ppo.Advantage

/-!
# What an advantage depends on

Padding a row to a width changes neither its score nor the number of its
unmasked tokens.  So the estimators give each row a number that depends on the
rows of the same uid only, whatever the labels of the groups are and whatever
the width of the batch is.
-/

namespace Verl

open Py (groupBy valuesOf)

/-! ## Rows of a width -/

theorem padTo_of_le {α : Type} [Zero α] {width : Nat} {xs : List α} (h : xs.length ≤ width) :
    padTo width xs = xs ++ List.replicate (width - xs.length) 0 := by
  refine List.take_of_length_le ?_
  rw [List.length_append, List.length_replicate]
  omega

theorem take_padTo {α : Type} [Zero α] {width : Nat} {xs : List α} (h : xs.length ≤ width) :
    (padTo width xs).take xs.length = xs := by
  rw [padTo_of_le h, List.take_left]

theorem sum_padTo {width : Nat} {xs : List ℚ} (h : xs.length ≤ width) :
    (padTo width xs).sum = xs.sum := by
  rw [padTo_of_le h, List.sum_append, List.sum_eq_zero (fun _ hx => List.eq_of_mem_replicate hx),
    add_zero]

namespace AdvRow

@[simp] theorem uid_padTo (width : Nat) (row : AdvRow) : (row.padTo width).uid = row.uid := rfl

theorem mask_padTo (width : Nat) (row : AdvRow) :
    (row.padTo width).mask = Verl.padTo width row.mask := rfl

theorem rewards_padTo (width : Nat) (row : AdvRow) :
    (row.padTo width).rewards = Verl.padTo width row.rewards := rfl

theorem stat_padTo {width : Nat} {row : AdvRow} (h : row.mask.length ≤ width) :
    (row.padTo width).stat = row.stat := by
  rw [stat, stat, score, score, responseLength, responseLength, mask_padTo, rewards_padTo,
    sum_padTo h, sum_padTo (row.length_eq ▸ h)]

theorem score_padTo {width : Nat} {row : AdvRow} (h : row.mask.length ≤ width) :
    (row.padTo width).score = row.score := congrArg RowStat.score (stat_padTo h)

end AdvRow

variable {rows : List AdvRow}

theorem le_batchWidth {row : AdvRow} (h : row ∈ rows) : row.mask.length ≤ batchWidth rows := by
  rw [batchWidth]
  induction rows with
  | nil => cases h
  | cons r rows ih =>
      rw [List.map_cons, List.foldr_cons]
      rcases List.mem_cons.mp h with rfl | h
      · exact le_max_left _ _
      · exact (ih h).trans (le_max_right _ _)

/-- The padded rows of a batch. -/
def paddedRows (rows : List AdvRow) : List AdvRow := rows.map (AdvRow.padTo (batchWidth rows))

theorem computeAdvantage_eq (S : SquareRoot) (parseInt : String → Option Int) (config : AlgoConfig)
    (est : AdvantageEstimator) (rows : List AdvRow) :
    computeAdvantage S parseInt config est rows = (do
      let out ← est.compute S parseInt config (paddedRows rows)
      return ⟨responseToNested rows out.advantages, responseToNested rows out.returns⟩) := rfl

theorem map_uid_paddedRows (rows : List AdvRow) :
    (paddedRows rows).map AdvRow.uid = rows.map AdvRow.uid := by
  rw [paddedRows, List.map_map]
  rfl

theorem map_score_paddedRows (rows : List AdvRow) :
    (paddedRows rows).map AdvRow.score = rows.map AdvRow.score := by
  rw [paddedRows, List.map_map]
  exact List.map_congr_left fun row hrow => AdvRow.score_padTo (le_batchWidth hrow)

theorem responseToNested_map (f : AdvRow → List Num) (rows : List AdvRow) :
    responseToNested rows (rows.map f) = rows.map fun row => (f row).take row.mask.length := by
  rw [responseToNested, List.zipWith_map_right, List.zipWith_self]

theorem take_broadcast_padTo (scalar : Num) {width : Nat} {mask : List ℚ}
    (h : mask.length ≤ width) :
    (broadcast scalar (padTo width mask)).take mask.length = broadcast scalar mask := by
  rw [broadcast, ← List.map_take, take_padTo h]
  rfl

/-! ## Groups -/

/-- The statistics of the rows of a uid. -/
def groupOf (rows : List AdvRow) (uid : String) : List RowStat :=
  (rows.filter fun row => row.uid = uid).map AdvRow.stat

/-- The numbers that the rows get from the rows of their uid. -/
def advantagesByUid (scalar : List RowStat → RowStat → Num) (rows : List AdvRow) :
    List (List Num) :=
  rows.map fun row => broadcast (scalar (groupOf rows row.uid) row.stat) row.mask

/-- Groups by labels that tell the uids apart are groups by uid. -/
theorem groupAdvantage_eq {K : Type} [DecidableEq K] {label : String → K}
    (hlabel : ∀ row ∈ rows, ∀ row' ∈ rows, label row.uid = label row'.uid → row.uid = row'.uid)
    (scalar : List RowStat → RowStat → Num) :
    groupAdvantage (rows.map fun row => label row.uid) scalar rows =
    advantagesByUid scalar rows := by
  have hgroup (row : AdvRow) (hrow : row ∈ rows) :
      ((groupBy ((rows.map fun row => label row.uid).zip (rows.map AdvRow.stat))).get?
        (label row.uid)).getD [] = groupOf rows row.uid := by
    rw [Py.getD_get?_groupBy, List.zip_map', Py.valuesOf_map, groupOf]
    congr 1
    refine List.filter_congr fun row' hrow' => ?_
    exact decide_eq_decide.mpr ⟨hlabel row' hrow' row hrow, congrArg label⟩
  rw [groupAdvantage, List.zipWith_map_left, List.zipWith_self, advantagesByUid]
  exact List.map_congr_left fun row hrow => by rw [hgroup row hrow]

theorem groupAdvantage_uid (scalar : List RowStat → RowStat → Num) (rows : List AdvRow) :
    groupAdvantage (rows.map AdvRow.uid) scalar rows = advantagesByUid scalar rows :=
  @groupAdvantage_eq rows String _ id (fun _ _ _ _ h => h) scalar

/-- The values of `np.unique` tell the uids apart. -/
theorem groupAdvantage_uniqueInverse {K : Type} [DecidableEq K] {f : Nat → K}
    (hf : Function.Injective f) (scalar : List RowStat → RowStat → Num) (rows : List AdvRow) :
    groupAdvantage ((uniqueInverse (rows.map AdvRow.uid)).map f) scalar rows =
      advantagesByUid scalar rows := by
  have hmem (row : AdvRow) (hrow : row ∈ rows) : row.uid ∈
      (rows.map AdvRow.uid).dedup.mergeSort fun a b => decide (a ≤ b) :=
    List.mem_mergeSort.mpr (List.mem_dedup.mpr (List.mem_map_of_mem hrow))
  rw [uniqueInverse, List.map_map, List.map_map]
  refine @groupAdvantage_eq rows K _ (fun uid =>
    f (((rows.map AdvRow.uid).dedup.mergeSort fun a b => decide (a ≤ b)).idxOf uid)) ?_ scalar
  exact fun row hrow row' hrow' h => (List.idxOf_inj (hmem row hrow)).mp (hf h)

theorem mapM_eq_some {α β : Type} {f : α → Option β} {xs : List α} {ys : List β}
    (h : xs.mapM f = some ys) (d : β) :
    ys = xs.map (fun x => (f x).getD d) ∧ ∀ x ∈ xs, f x ≠ none := by
  induction xs generalizing ys with
  | nil =>
      rw [List.mapM_nil] at h
      obtain rfl := Option.some.inj h
      exact ⟨rfl, nofun⟩
  | cons x xs ih =>
      rw [List.mapM_cons] at h
      obtain ⟨y, hy, h⟩ := Option.bind_eq_some_iff.mp h
      obtain ⟨zs, hzs, h⟩ := Option.bind_eq_some_iff.mp h
      obtain rfl := Option.some.inj h
      obtain ⟨hmap, hne⟩ := ih hzs
      refine ⟨by rw [List.map_cons, hy, ← hmap, Option.getD_some], ?_⟩
      intro x' hx'
      rcases List.mem_cons.mp hx' with rfl | hx'
      · rw [hy]
        exact Option.some_ne_none y
      · exact hne x' hx'

/-- Groups are given by the uid: integers that are read from different uids differ. -/
def LabelsByUid (parseInt : String → Option Int) (rows : List AdvRow) : Prop :=
  ∀ row ∈ rows, ∀ row' ∈ rows, parseInt row.uid ≠ none → parseInt row.uid = parseInt row'.uid →
    row.uid = row'.uid

theorem groupAdvantage_asTorchIndex {parseInt : String → Option Int}
    (h : LabelsByUid parseInt rows) (scalar : List RowStat → RowStat → Num) :
    groupAdvantage (asTorchIndex parseInt (rows.map AdvRow.uid)) scalar rows =
      advantagesByUid scalar rows := by
  rw [asTorchIndex]
  split
  next coerced hcoerced =>
    obtain ⟨rfl, hne⟩ := mapM_eq_some hcoerced 0
    rw [List.map_map]
    refine @groupAdvantage_eq rows Int _ (fun uid => (parseInt uid).getD 0) ?_ scalar
    intro row hrow row' hrow' heq
    obtain ⟨i, hi⟩ := Option.ne_none_iff_exists'.mp (hne _ (List.mem_map_of_mem hrow))
    obtain ⟨i', hi'⟩ := Option.ne_none_iff_exists'.mp (hne _ (List.mem_map_of_mem hrow'))
    refine h row hrow row' hrow' (by rw [hi]; exact Option.some_ne_none i) ?_
    rw [hi, hi', Option.getD_some, Option.getD_some] at heq
    rw [hi, hi', heq]
  · exact groupAdvantage_uniqueInverse Int.ofNat_injective scalar rows

/-! ## The width of a batch -/

theorem groupOf_paddedRows (rows : List AdvRow) (uid : String) :
    groupOf (paddedRows rows) uid = groupOf rows uid := by
  rw [groupOf, groupOf, paddedRows, List.filter_map, List.map_map]
  refine List.map_congr_left fun row hrow => ?_
  exact AdvRow.stat_padTo (le_batchWidth (List.mem_filter.mp hrow).1)

/-- The width of the batch does not show in the nested result. -/
theorem responseToNested_advantagesByUid (scalar : List RowStat → RowStat → Num)
    (rows : List AdvRow) :
    responseToNested rows (advantagesByUid scalar (paddedRows rows)) =
      advantagesByUid scalar rows := by
  rw [advantagesByUid, paddedRows, List.map_map, responseToNested_map, advantagesByUid]
  refine List.map_congr_left fun row hrow => ?_
  have hwidth := le_batchWidth hrow
  have hgroup := groupOf_paddedRows rows row.uid
  rw [paddedRows] at hgroup
  rw [Function.comp_apply, AdvRow.stat_padTo hwidth, AdvRow.mask_padTo,
    take_broadcast_padTo _ hwidth,
    AdvRow.uid_padTo, hgroup]

/-! ## The loop and the vectorized RLOO -/

theorem length_groupOf (rows : List AdvRow) (uid : String) :
    (groupOf rows uid).length = (rows.map AdvRow.uid).count uid := by
  rw [groupOf, List.length_map, List.count, List.countP_map, List.countP_eq_length_filter]
  rfl

theorem broadcast_eq_iff {x y : ℚ} {mask : List ℚ} :
    broadcast (some x) mask = broadcast (some y) mask ↔ x = y ∨ ∀ m ∈ mask, m = 0 := by
  have hentry (m : ℚ) : Option.map (· * m) (some x) = Option.map (· * m) (some y) ↔
      x = y ∨ m = 0 := by
    rw [Option.map_some, Option.map_some, Option.some.injEq, mul_eq_mul_right_iff]
  rw [broadcast, broadcast, List.map_inj_left]
  simp only [hentry]
  constructor
  · intro h
    by_cases hxy : x = y
    · exact .inl hxy
    · exact .inr fun m hm => (h m hm).resolve_left hxy
  · rintro (h | h) m hm
    · exact .inl h
    · exact .inr (h m hm)

/-- The two agree on a group of two or more. -/
theorem rlooVectorizedScore_eq {group : List RowStat} (h : 1 < group.length) (row : RowStat) :
    rlooVectorizedScore group row = rlooScore group row := by
  have hlength : (1 : ℚ) < group.length := by exact_mod_cast h
  have hpos : (0 : ℚ) < group.length - 1 := by linarith
  have hmax : max ((group.length : ℚ) - 1) 1 = group.length - 1 := by
    have htwo : (2 : ℚ) ≤ group.length := by exact_mod_cast h
    exact max_eq_left (by linarith)
  rw [rlooVectorizedScore, rlooScore, if_pos h, id2mean, if_neg h.ne', hmax, if_pos hlength,
    Option.some.injEq]
  have hne : (group.length : ℚ) ≠ 0 := by linarith
  field_simp

/-- The loop keeps the score of a group of one, the other has 0 there. -/
theorem rlooScore_of_length {group : List RowStat} (h : group.length = 1) (row : RowStat) :
    rlooScore group row = some row.score ∧ rlooVectorizedScore group row = some 0 := by
  constructor
  · rw [rlooScore, if_neg (by omega)]
  · have hlength : ¬(group.length : ℚ) > 1 := by rw [h, Nat.cast_one]; exact lt_irrefl 1
    rw [rlooVectorizedScore, if_neg hlength, mul_zero]

/-- A row agrees unless it is alone in its group with a score that shows. -/
theorem broadcast_rloo_eq_iff {rows : List AdvRow} {row : AdvRow} (hrow : row ∈ rows) :
    broadcast (rlooVectorizedScore (groupOf rows row.uid) row.stat) row.mask =
        broadcast (rlooScore (groupOf rows row.uid) row.stat) row.mask ↔
      ((rows.map AdvRow.uid).count row.uid = 1 → row.score = 0 ∨ ∀ m ∈ row.mask, m = 0) := by
  rw [← length_groupOf]
  have hpos : 0 < (groupOf rows row.uid).length := by
    rw [length_groupOf]
    exact List.count_pos_iff.mpr (List.mem_map_of_mem hrow)
  obtain hone | hmany : (groupOf rows row.uid).length = 1 ∨ 1 < (groupOf rows row.uid).length := by
    omega
  · obtain ⟨hloop, hvectorized⟩ := rlooScore_of_length hone row.stat
    rw [hloop, hvectorized, broadcast_eq_iff]
    simp only [hone, true_implies]
    exact or_congr_left eq_comm
  · rw [rlooVectorizedScore_eq hmany]
    exact ⟨fun _ hone => absurd hone hmany.ne', fun _ => rfl⟩

theorem computeRlooOutcomeAdvantage_eq (rows : List AdvRow) :
    computeRlooOutcomeAdvantage rows =
      .ok ⟨advantagesByUid rlooScore rows, advantagesByUid rlooScore rows⟩ := by
  rw [computeRlooOutcomeAdvantage, groupAdvantage_uid]

theorem computeRlooVectorizedOutcomeAdvantage_eq (rows : List AdvRow) :
    computeRlooVectorizedOutcomeAdvantage rows =
      .ok ⟨advantagesByUid rlooVectorizedScore rows, advantagesByUid rlooVectorizedScore rows⟩ := by
  have hgroups := groupAdvantage_uniqueInverse Function.injective_id rlooVectorizedScore rows
  rw [List.map_id] at hgroups
  rw [computeRlooVectorizedOutcomeAdvantage, hgroups]

/-- The vectorized estimator agrees with the loop when every row that is alone in its
group has the score 0 or no unmasked token, and only then. -/
theorem computeRlooVectorized_eq_iff (rows : List AdvRow) :
    computeRlooVectorizedOutcomeAdvantage rows = computeRlooOutcomeAdvantage rows ↔
      ∀ row ∈ rows, (rows.map AdvRow.uid).count row.uid = 1 →
        row.score = 0 ∨ ∀ m ∈ row.mask, m = 0 := by
  rw [computeRlooVectorizedOutcomeAdvantage_eq, computeRlooOutcomeAdvantage_eq, Except.ok.injEq,
    AdvOutput.mk.injEq, and_self, advantagesByUid, advantagesByUid, List.map_inj_left]
  exact forall₂_congr fun row hrow => broadcast_rloo_eq_iff hrow

/-- One row of score 1. -/
theorem not_computeRlooVectorized_eq :
    let rows : List AdvRow := [⟨"a", [1], [1], by decide, rfl⟩]
    computeRlooVectorizedOutcomeAdvantage rows ≠ computeRlooOutcomeAdvantage rows := by
  intro rows h
  rw [computeRlooVectorizedOutcomeAdvantage_eq, computeRlooOutcomeAdvantage_eq] at h
  have hadvantages := congrArg AdvOutput.advantages (Except.ok.inj h)
  have hzero : advantagesByUid rlooVectorizedScore rows = [[some 0]] := by decide +kernel
  have hone : advantagesByUid rlooScore rows = [[some 1]] := by decide +kernel
  rw [hzero, hone] at hadvantages
  exact absurd hadvantages (by decide)

end Verl
