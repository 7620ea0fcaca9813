import Mathlib.Algebra.BigOperators.Group.List.Basic
import Mathlib.Algebra.Order.Field.Basic
import Mathlib.Algebra.Order.BigOperators.Group.List
import Mathlib.Algebra.Order.Ring.Rat
import Mathlib.Data.Nat.Cast.Order.Ring
import Mathlib.Data.Nat.Sqrt
import Mathlib.Tactic.Linarith
import Verl.Lib.GroupBy
import Verl.Lib.Python

/-!
# GRPO by loops and by scatter-adds

`compute_grpo_outcome_advantage` collects the scores of a group in a dictionary and
overwrites the vector of scores.  `compute_grpo_vectorized_outcome_advantage` takes the
statistics from `group_mean_std`, which adds into vectors with one entry for each group.
The groups are given by integers, which `as_torch_index` returns as they are.

Both are shown to return the scalars of `grpoScalars`, a function of the scores of each
group.  Numbers are those of an ordered field, and the square root is any function.
-/

namespace Verl.VectorizedGrpo

open Py (groupBy valuesOf)

variable {F : Type} [Field F]

/-! ## The source functions -/

/-- The tensors of a batch, and the groups of its samples. -/
structure GroupedBatch (F : Type) [Field F] where
  tokenLevelRewards : List (List F)
  responseMask : List (List F)
  index : List Nat
  length_mask : responseMask.length = tokenLevelRewards.length
  length_index : index.length = tokenLevelRewards.length
  mask_zero_or_one : ∀ row ∈ responseMask, ∀ m ∈ row, m = 0 ∨ m = 1

/-- `token_level_rewards.sum(dim=-1)` -/
def GroupedBatch.scores (batch : GroupedBatch F) : List F := batch.tokenLevelRewards.map List.sum

/-- `torch.mean` -/
def torchMean (scores : List F) : F := scores.sum / scores.length

/-- `torch.std` -/
def torchStd (sqrt : F → F) (scores : List F) : F :=
  sqrt ((scores.map fun score => (score - torchMean scores) * (score - torchMean scores)).sum /
    (scores.length - 1))

/-- The dictionaries `id2mean` and `id2std`. -/
structure Statistics (F : Type) where
  id2mean : Py.Dict Nat F
  id2std : Py.Dict Nat F

/-- The loop over `id2score`. -/
def addStatistics (sqrt : F → F) (statistics : Statistics F) (e : Nat × List F) :
    Except Py.Error (Statistics F) :=
  if e.2.length = 1 then
    .ok ⟨statistics.id2mean.set e.1 0, statistics.id2std.set e.1 1⟩
  else if 1 < e.2.length then
    .ok ⟨statistics.id2mean.set e.1 (torchMean e.2), statistics.id2std.set e.1 (torchStd sqrt e.2)⟩
  else .error (.value s!"no score in prompt index: {e.1}")

/-- `d[k]` -/
def lookup (d : Py.Dict Nat F) (k : Nat) : Except Py.Error F :=
  match d.get? k with
  | some v => .ok v
  | none => .error .key

/-- The loop that overwrites `scores`. -/
def normalize (epsilon : F) (normAdvByStdInGrpo : Bool) (index : List Nat)
    (statistics : Statistics F) (scores : List F) (i : Nat) : Except Py.Error (List F) := do
  let idx ← Py.getItem index i
  let score ← Py.getItem scores i
  let mean ← lookup statistics.id2mean idx
  if normAdvByStdInGrpo then
    let std ← lookup statistics.id2std idx
    Py.setItem scores i ((score - mean) / (std + epsilon))
  else Py.setItem scores i (score - mean)

/-- `scores.unsqueeze(-1) * response_mask` -/
def broadcast (scores : List F) (responseMask : List (List F)) : List (List F) :=
  List.zipWith (fun score row => row.map (score * ·)) scores responseMask

/-- `compute_grpo_outcome_advantage` -/
def computeGrpoOutcomeAdvantage (sqrt : F → F) (epsilon : F) (normAdvByStdInGrpo : Bool)
    (batch : GroupedBatch F) : Except Py.Error (List (List F) × List (List F)) := do
  let scores := batch.scores
  let id2score := groupBy (batch.index.zip scores)
  let statistics ← id2score.entries.foldlM (addStatistics sqrt) ⟨.empty, .empty⟩
  let normalized ← (List.range scores.length).foldlM
    (normalize epsilon normAdvByStdInGrpo batch.index statistics) scores
  let advantages := broadcast normalized batch.responseMask
  return (advantages, advantages)

/-- `torch.zeros(G).index_add_(0, gidx, source)` -/
def indexAdd (G : Nat) (gidx : List Nat) (source : List F) : List F :=
  (gidx.zip source).foldl (fun acc e => acc.modify e.1 (· + e.2)) (List.replicate G 0)

/-- `xs[gidx]` -/
def gather (xs : List F) (gidx : List Nat) : Except Py.Error (List F) :=
  gidx.mapM fun g => Py.getItem xs g

/-- `group_mean_std` -/
def groupMeanStd [LinearOrder F] (sqrt : F → F) (scores : List F) (gidx : List Nat) (eps : F) :
    Except Py.Error (List F × List F × List F) :=
  if scores.length ≠ gidx.length then
    .error (.value s!"scores and gidx length mismatch: {scores.length} vs {gidx.length}")
  else
    let G := if gidx ≠ [] then gidx.foldl max 0 + 1 else 0
    if G = 0 then .ok ([], [], [])
    else do
      let count := indexAdd G gidx (scores.map fun _ => 1)
      let s1 := indexAdd G gidx scores
      let mean := List.zipWith (fun s c => s / max c 1) s1 count
      let centered := List.zipWith (· - ·) scores (← gather mean gidx)
      let varNum := indexAdd G gidx (centered.map fun c => c * c)
      let denom := count.map fun c => max (c - 1) 1
      let var := List.zipWith (· / ·) varNum denom
      let std := var.map fun v => sqrt (max v eps)
      -- without a singleton group the two assignments change nothing
      let mean := List.zipWith (fun m c => if c ≤ 1 then 0 else m) mean count
      let std := List.zipWith (fun s c => if c ≤ 1 then 1 else s) std count
      return (mean, std, count)

/-- `compute_grpo_vectorized_outcome_advantage` -/
def computeGrpoVectorizedOutcomeAdvantage [LinearOrder F] (sqrt : F → F) (epsilon : F)
    (normAdvByStdInGrpo : Bool) (batch : GroupedBatch F) :
    Except Py.Error (List (List F) × List (List F)) := do
  let scores := batch.scores
  let g := batch.index
  let (meanG, stdG, _) ← groupMeanStd sqrt scores g 0
  let centered := List.zipWith (· - ·) scores (← gather meanG g)
  let scalars ←
    if normAdvByStdInGrpo then do
      let stds ← gather stdG g
      .ok (List.zipWith (fun c s => c / (s + epsilon)) centered stds)
    else .ok centered
  let advantages := broadcast scalars batch.responseMask
  return (advantages, advantages)

/-! ## The scalars of the samples -/

/-- The mean that is subtracted: 0 for a group of one. -/
def groupMean (group : List F) : F := if group.length = 1 then 0 else torchMean group

/-- The standard deviation that is divided by: 1 for a group of one. -/
def groupStd (sqrt : F → F) (group : List F) : F :=
  if group.length = 1 then 1 else torchStd sqrt group

/-- The scalar of a sample with this score, in the group `idx` of the labelled scores. -/
def grpoScalar (sqrt : F → F) (epsilon : F) (normAdvByStdInGrpo : Bool)
    (labelled : List (Nat × F)) (idx : Nat) (score : F) : F :=
  if normAdvByStdInGrpo then
    (score - groupMean (valuesOf idx labelled)) / (groupStd sqrt (valuesOf idx labelled) + epsilon)
  else score - groupMean (valuesOf idx labelled)

/-- The scalars of a batch. -/
def grpoScalars (sqrt : F → F) (epsilon : F) (normAdvByStdInGrpo : Bool)
    (batch : GroupedBatch F) : List F :=
  List.zipWith (grpoScalar sqrt epsilon normAdvByStdInGrpo (batch.index.zip batch.scores))
    batch.index batch.scores

variable {sqrt : F → F} {epsilon : F} {normAdvByStdInGrpo : Bool}

/-! ## The loops -/

theorem addStatistics_of_ne_nil {statistics : Statistics F} {e : Nat × List F} (h : e.2 ≠ []) :
    addStatistics sqrt statistics e =
      .ok ⟨statistics.id2mean.set e.1 (groupMean e.2),
        statistics.id2std.set e.1 (groupStd sqrt e.2)⟩ := by
  have hpos := List.length_pos_iff.mpr h
  rw [addStatistics, groupMean, groupStd]
  by_cases hone : e.2.length = 1
  · rw [if_pos hone, if_pos hone, if_pos hone]
  · rw [if_neg hone, if_neg hone, if_neg hone, if_pos (by omega)]

/-- The dictionaries have an entry for every group. -/
theorem foldlM_addStatistics {entries : List (Nat × List F)} (hne : ∀ e ∈ entries, e.2 ≠ [])
    (hnodup : (entries.map Prod.fst).Nodup) (init : Statistics F) :
    ∃ statistics, entries.foldlM (addStatistics sqrt) init = .ok statistics ∧
      (∀ e ∈ entries, statistics.id2mean.get? e.1 = some (groupMean e.2) ∧
        statistics.id2std.get? e.1 = some (groupStd sqrt e.2)) ∧
      ∀ k ∉ entries.map Prod.fst, statistics.id2mean.get? k = init.id2mean.get? k ∧
        statistics.id2std.get? k = init.id2std.get? k := by
  induction entries generalizing init with
  | nil => exact ⟨init, rfl, fun _ h => absurd h List.not_mem_nil, fun _ _ => ⟨rfl, rfl⟩⟩
  | cons e entries ih =>
      rw [List.map_cons, List.nodup_cons] at hnodup
      obtain ⟨statistics, hrun, hentries, hothers⟩ :=
        ih (fun e' he' => hne e' (List.mem_cons_of_mem e he')) hnodup.2
          ⟨init.id2mean.set e.1 (groupMean e.2), init.id2std.set e.1 (groupStd sqrt e.2)⟩
      refine ⟨statistics, ?_, ?_, fun k hk => ?_⟩
      · rw [List.foldlM_cons, addStatistics_of_ne_nil (hne e List.mem_cons_self), Py.ok_bind]
        exact hrun
      · rintro e' (_ | ⟨_, he'⟩)
        · rw [(hothers e.1 hnodup.1).1, (hothers e.1 hnodup.1).2, Py.Dict.get?_set,
            Py.Dict.get?_set, if_pos rfl, if_pos rfl]
          exact ⟨rfl, rfl⟩
        · exact hentries e' he'
      · rw [List.map_cons, List.mem_cons, not_or] at hk
        rw [(hothers k hk.2).1, (hothers k hk.2).2, Py.Dict.get?_set, Py.Dict.get?_set,
          if_neg hk.1, if_neg hk.1]
        exact ⟨rfl, rfl⟩

/-- An entry is overwritten in a list whose first entries have been. -/
theorem set_take_append_drop {α : Type} {new old : List α} {i : Nat} {x : α}
    (hnew : new[i]? = some x) (hold : i < old.length) :
    (new.take i ++ old.drop i).set i x = new.take (i + 1) ++ old.drop (i + 1) := by
  obtain ⟨hi, hx⟩ := List.getElem?_eq_some_iff.mp hnew
  have hlen : (new.take i).length = i := by
    rw [List.length_take]
    omega
  have htake : new.take (i + 1) = new.take i ++ [x] := by
    rw [← hx]
    exact (List.take_append_getElem hi).symm
  rw [List.set_append, if_neg (by omega), hlen, Nat.sub_self, List.drop_eq_getElem_cons hold,
    List.set_cons_zero, htake, List.append_assoc]
  rfl

/-- One round of the loop that overwrites the scores. -/
theorem normalize_eq {labelled : List (Nat × F)} {statistics : Statistics F} {index : List Nat}
    {scores : List F} {i idx : Nat} {score : F} (hidx : index[i]? = some idx)
    (hscore : scores[i]? = some score)
    (hmean : statistics.id2mean.get? idx = some (groupMean (valuesOf idx labelled)))
    (hstd : statistics.id2std.get? idx = some (groupStd sqrt (valuesOf idx labelled))) :
    normalize epsilon normAdvByStdInGrpo index statistics scores i =
      .ok (scores.set i (grpoScalar sqrt epsilon normAdvByStdInGrpo labelled idx score)) := by
  obtain ⟨hlt, -⟩ := List.getElem?_eq_some_iff.mp hscore
  rw [normalize, Py.getItem_of_some hidx, Py.ok_bind, Py.getItem_of_some hscore, Py.ok_bind,
    lookup, hmean, Py.ok_bind]
  cases normAdvByStdInGrpo with
  | true =>
      rw [if_pos rfl, lookup, hstd, Py.ok_bind, Py.setItem_of_lt hlt]
      rfl
  | false =>
      rw [if_neg Bool.false_ne_true, Py.setItem_of_lt hlt]
      rfl

/-- The loop that overwrites the scores, after `n` rounds. -/
theorem foldlM_normalize {labelled : List (Nat × F)} {statistics : Statistics F}
    {index : List Nat} {scores : List F} (hlen : index.length = scores.length)
    (hstatistics : ∀ idx ∈ index,
      statistics.id2mean.get? idx = some (groupMean (valuesOf idx labelled)) ∧
        statistics.id2std.get? idx = some (groupStd sqrt (valuesOf idx labelled)))
    {n : Nat} (hn : n ≤ scores.length) :
    (List.range n).foldlM (normalize epsilon normAdvByStdInGrpo index statistics) scores =
      .ok ((List.zipWith (grpoScalar sqrt epsilon normAdvByStdInGrpo labelled)
        index scores).take n ++ scores.drop n) := by
  induction n with
  | zero => rfl
  | succ n ih =>
      obtain ⟨target, htarget⟩ : ∃ target, target =
        List.zipWith (grpoScalar sqrt epsilon normAdvByStdInGrpo labelled) index scores := ⟨_, rfl⟩
      have hidx := List.getElem?_eq_getElem (show n < index.length by omega)
      have hscore := List.getElem?_eq_getElem (show n < scores.length by omega)
      obtain ⟨hmean, hstd⟩ := hstatistics index[n] (List.getElem_mem _)
      have hscalar : target[n]? =
          some (grpoScalar sqrt epsilon normAdvByStdInGrpo labelled index[n] scores[n]) := by
        rw [htarget, List.getElem?_zipWith, hidx, hscore]
      have htargetLen : target.length = scores.length := by
        rw [htarget, List.length_zipWith, hlen, Nat.min_self]
      have hpartial : (target.take n ++ scores.drop n)[n]? = some scores[n] := by
        have htake : (target.take n).length = n := by
          rw [List.length_take]
          omega
        rw [List.getElem?_append_right (by omega), htake, Nat.sub_self, List.getElem?_drop,
          Nat.add_zero, hscore]
      rw [List.range_succ, List.foldlM_append, ih (by omega), ← htarget, Py.ok_bind,
        List.foldlM_cons, normalize_eq hidx hpartial hmean hstd, Py.ok_bind,
        set_take_append_drop hscalar (by omega)]
      rfl

theorem computeGrpoOutcomeAdvantage_eq (batch : GroupedBatch F) :
    computeGrpoOutcomeAdvantage sqrt epsilon normAdvByStdInGrpo batch =
      .ok (broadcast (grpoScalars sqrt epsilon normAdvByStdInGrpo batch) batch.responseMask,
        broadcast (grpoScalars sqrt epsilon normAdvByStdInGrpo batch) batch.responseMask) := by
  obtain ⟨labelled, hlabelled⟩ : ∃ labelled, labelled = batch.index.zip batch.scores := ⟨_, rfl⟩
  have hlen : batch.index.length = batch.scores.length := by
    rw [batch.length_index, GroupedBatch.scores, List.length_map]
  obtain ⟨statistics, hrun, hentries, -⟩ := @foldlM_addStatistics F _ sqrt
    (groupBy labelled).entries (fun _ he => Py.ne_nil_of_mem_groupBy he) (groupBy labelled).nodup
    ⟨.empty, .empty⟩
  have hstatistics : ∀ idx ∈ batch.index,
      statistics.id2mean.get? idx = some (groupMean (valuesOf idx labelled)) ∧
        statistics.id2std.get? idx = some (groupStd sqrt (valuesOf idx labelled)) := by
    intro idx hidx
    have hmem : idx ∈ labelled.map Prod.fst := by
      rw [hlabelled, List.map_fst_zip hlen.le]
      exact hidx
    have hget := Py.get?_groupBy labelled idx
    rw [if_pos hmem] at hget
    exact hentries (idx, valuesOf idx labelled) (Py.Dict.mem_entries_iff.mpr hget)
  have hloop := @foldlM_normalize F _ sqrt epsilon normAdvByStdInGrpo labelled statistics
    batch.index batch.scores hlen hstatistics batch.scores.length (Nat.le_refl _)
  have htarget : (List.zipWith (grpoScalar sqrt epsilon normAdvByStdInGrpo labelled) batch.index
      batch.scores).length ≤ batch.scores.length := by
    rw [List.length_zipWith]
    exact Nat.min_le_right _ _
  rw [List.take_of_length_le htarget, List.drop_length, List.append_nil] at hloop
  rw [computeGrpoOutcomeAdvantage, grpoScalars, ← hlabelled]
  simp only [hrun, Py.ok_bind, hloop]
  rfl

/-! ## The scatter-adds -/

/-- Entry `g` has the sum of the values with the label `g`. -/
theorem indexAdd_eq {G : Nat} {gidx : List Nat} {source : List F} :
    indexAdd G gidx source =
      (List.range G).map fun g => (valuesOf g (gidx.zip source)).sum := by
  rw [indexAdd]
  induction gidx.zip source using List.reverseRecOn with
  | nil =>
      refine (List.eq_replicate_iff.mpr ⟨?_, fun x hx => ?_⟩).symm
      · rw [List.length_map, List.length_range]
      · obtain ⟨g, -, rfl⟩ := List.mem_map.mp hx
        rfl
  | append_singleton es e ih =>
      rw [List.foldl_append, ih, List.foldl_cons, List.foldl_nil]
      refine List.ext_getElem? fun g => ?_
      rw [List.getElem?_modify, List.getElem?_map, List.getElem?_map, Option.map_eq_map,
        Option.map_map]
      refine Option.map_congr fun g' hg' => ?_
      obtain ⟨hlt, hget⟩ := List.getElem?_eq_some_iff.mp hg'
      obtain rfl : g = g' := by rw [← hget, List.getElem_range]
      rw [Py.valuesOf_append, Py.valuesOf_singleton, List.sum_append]
      by_cases hlabel : e.1 = g
      · simp only [Function.comp_apply, if_pos hlabel, List.sum_singleton]
      · simp only [Function.comp_apply, if_neg hlabel, List.sum_nil, add_zero]

theorem gather_eq {α : Type} {G : Nat} {gidx : List Nat} (hgidx : ∀ g ∈ gidx, g < G)
    (f : Nat → α) :
    gather ((List.range G).map f) gidx = .ok (gidx.map f) := by
  refine Py.mapM_eq_ok fun g hg => Py.getItem_of_some ?_
  rw [List.getElem?_map, List.getElem?_range (hgidx g hg), Option.map_some]

/-- Values that are functions of the label and of another value. -/
theorem valuesOf_zip_zipWith {α β : Type} (g : Nat) (gidx : List Nat) (scores : List α)
    (f : Nat → α → β) :
    valuesOf g (gidx.zip (List.zipWith f gidx scores)) =
      (valuesOf g (gidx.zip scores)).map (f g) := by
  induction gidx generalizing scores with
  | nil => rfl
  | cons label gidx ih =>
      cases scores with
      | nil => rfl
      | cons score scores =>
          rw [List.zipWith_cons_cons, List.zip_cons_cons, List.zip_cons_cons, valuesOf, valuesOf,
            List.filter_cons, List.filter_cons]
          have hrest := ih scores
          rw [valuesOf, valuesOf] at hrest
          by_cases hlabel : label = g
          · rw [if_pos (decide_eq_true hlabel), if_pos (decide_eq_true hlabel), List.map_cons,
              List.map_cons, List.map_cons, hrest, hlabel]
          · rw [if_neg (by simpa using hlabel), if_neg (by simpa using hlabel), hrest]

theorem le_foldl_max_of_mem {gidx : List Nat} {g : Nat} (hg : g ∈ gidx) (start : Nat) :
    g ≤ gidx.foldl max start := by
  have hstart : ∀ (gidx : List Nat) (start : Nat), start ≤ gidx.foldl max start := by
    intro gidx
    induction gidx with
    | nil => exact fun _ => Nat.le_refl _
    | cons g gidx ih => exact fun start => Nat.le_trans (Nat.le_max_left _ _) (ih _)
  induction gidx generalizing start with
  | nil => exact absurd hg List.not_mem_nil
  | cons g' gidx ih =>
      rcases List.mem_cons.mp hg with rfl | hg
      · exact Nat.le_trans (Nat.le_max_right _ _) (hstart gidx _)
      · exact ih hg _

/-! ## The vectorized statistics -/

variable [LinearOrder F] [IsStrictOrderedRing F]

theorem sum_mul_self_nonneg (xs : List F) : 0 ≤ (xs.map fun x => x * x).sum :=
  List.sum_nonneg fun y hy => by
    obtain ⟨x, -, rfl⟩ := List.mem_map.mp hy
    exact mul_self_nonneg x

theorem one_le_length {group : List F} (h : group ≠ []) : (1 : F) ≤ group.length :=
  Nat.one_le_cast.mpr (List.length_pos_iff.mpr h)

theorem length_le_one_iff {group : List F} (h : group ≠ []) :
    (group.length : F) ≤ 1 ↔ group.length = 1 := by
  have hpos := List.length_pos_iff.mpr h
  rw [Nat.cast_le_one]
  omega

/-- The clamps do nothing for the statistics of a group. -/
theorem groupMean_eq {group : List F} (h : group ≠ []) :
    (if (group.length : F) ≤ 1 then 0 else group.sum / max (group.length : F) 1) =
      groupMean group := by
  rw [groupMean, max_eq_left (one_le_length h)]
  by_cases hone : group.length = 1
  · rw [if_pos hone, if_pos ((length_le_one_iff h).mpr hone)]
  · rw [if_neg hone, if_neg fun hle => hone ((length_le_one_iff h).mp hle)]
    rfl

theorem groupStd_eq {group : List F} (h : group ≠ []) :
    (if (group.length : F) ≤ 1 then 1 else
      sqrt (max ((group.map fun score =>
        (score - group.sum / max (group.length : F) 1) *
          (score - group.sum / max (group.length : F) 1)).sum /
            max ((group.length : F) - 1) 1) 0)) = groupStd sqrt group := by
  rw [groupStd]
  by_cases hone : group.length = 1
  · rw [if_pos hone, if_pos ((length_le_one_iff h).mpr hone)]
  · have htwo : (1 : F) ≤ (group.length : F) - 1 := by
      have hpos := List.length_pos_iff.mpr h
      have hcast : ((2 : Nat) : F) ≤ group.length := Nat.cast_le.mpr (by omega)
      rw [Nat.cast_ofNat] at hcast
      linarith
    have hnonneg := sum_mul_self_nonneg (group.map fun score => score - torchMean group)
    rw [List.map_map] at hnonneg
    rw [if_neg hone, if_neg fun hle => hone ((length_le_one_iff h).mp hle),
      max_eq_left (one_le_length h), max_eq_left htwo]
    exact congrArg sqrt (max_eq_left (div_nonneg hnonneg (by linarith)))

theorem zipWith_map_range {α β γ : Type} (G : Nat) (f : α → β → γ) (a : Nat → α) (b : Nat → β) :
    List.zipWith f ((List.range G).map a) ((List.range G).map b) =
      (List.range G).map fun g => f (a g) (b g) := by
  rw [List.zipWith_map, List.zipWith_self]

theorem zipWith_zipWith_map {α β γ δ ε : Type} (f : γ → δ → ε) (g : α → β → γ) (h : α → δ)
    (xs : List α) (ys : List β) :
    List.zipWith f (List.zipWith g xs ys) (xs.map h) =
      List.zipWith (fun x y => f (g x y) (h x)) xs ys := by
  induction xs generalizing ys with
  | nil => rfl
  | cons x xs ih =>
      cases ys with
      | nil => rfl
      | cons y ys => exact congrArg (f (g x y) (h x) :: ·) (ih ys)

/-- The vectors of `group_mean_std` have the statistics of the group `g` at `g`. -/
theorem groupMeanStd_eq {scores : List F} {gidx : List Nat} (hlen : scores.length = gidx.length)
    (hne : gidx ≠ []) :
    ∃ meanG stdG count, groupMeanStd sqrt scores gidx 0 = .ok (meanG, stdG, count) ∧
      gather meanG gidx = .ok (gidx.map fun g => groupMean (valuesOf g (gidx.zip scores))) ∧
      gather stdG gidx =
        .ok (gidx.map fun g => groupStd sqrt (valuesOf g (gidx.zip scores))) := by
  obtain ⟨group, hgroup⟩ : ∃ group : Nat → List F, group = fun g => valuesOf g (gidx.zip scores) :=
    ⟨_, rfl⟩
  obtain ⟨G, hG⟩ : ∃ G, G = gidx.foldl max 0 + 1 := ⟨_, rfl⟩
  have hgidx : ∀ g ∈ gidx, g < G := fun g hg => by
    have hle := le_foldl_max_of_mem hg 0
    omega
  have hgroupNe : ∀ g ∈ gidx, group g ≠ [] := by
    intro g hg
    obtain ⟨i, hi, hget⟩ := List.getElem_of_mem hg
    have hpair : (g, scores[i]) ∈ gidx.zip scores := by
      rw [← hget]
      exact List.mem_iff_getElem?.mpr ⟨i, List.getElem?_zip_eq_some.mpr
        ⟨List.getElem?_eq_getElem hi, List.getElem?_eq_getElem (hlen ▸ hi)⟩⟩
    rw [hgroup]
    exact List.ne_nil_of_mem (Py.mem_valuesOf hpair)
  -- the vectors of the source, as functions of the group
  have hcount : indexAdd G gidx (scores.map fun _ => (1 : F)) =
      (List.range G).map fun g => ((group g).length : F) := by
    have hones : (scores.map fun _ => (1 : F)) = List.zipWith (fun _ _ => 1) gidx scores := by
      refine List.ext_getElem ?_ fun i _ _ => ?_
      · rw [List.length_map, List.length_zipWith, hlen, Nat.min_self]
      · rw [List.getElem_map, List.getElem_zipWith]
    rw [indexAdd_eq, hones]
    simp only [valuesOf_zip_zipWith, hgroup, List.map_const', List.sum_replicate, nsmul_eq_mul,
      mul_one]
  have hs1 : indexAdd G gidx scores = (List.range G).map fun g => (group g).sum := by
    rw [indexAdd_eq, hgroup]
  obtain ⟨mean, hmean⟩ : ∃ mean : Nat → F,
    mean = fun g => (group g).sum / max ((group g).length : F) 1 := ⟨_, rfl⟩
  have hcentered : List.zipWith (· - ·) scores (gidx.map mean) =
      List.zipWith (fun g score => score - mean g) gidx scores := by
    rw [List.zipWith_map_right, List.zipWith_comm]
  have hvarNum : indexAdd G gidx
      ((List.zipWith (fun g score => score - mean g) gidx scores).map fun c => c * c) =
      (List.range G).map fun g =>
        ((group g).map fun score => (score - mean g) * (score - mean g)).sum := by
    rw [indexAdd_eq, List.map_zipWith]
    simp only [valuesOf_zip_zipWith, hgroup]
  have hGpos : ¬ G = 0 := by omega
  have hrun : groupMeanStd sqrt scores gidx 0 = .ok
      ((List.range G).map fun g => if ((group g).length : F) ≤ 1 then 0 else mean g,
        (List.range G).map fun g => if ((group g).length : F) ≤ 1 then 1 else
          sqrt (max (((group g).map fun score => (score - mean g) * (score - mean g)).sum /
            max (((group g).length : F) - 1) 1) 0),
        (List.range G).map fun g => ((group g).length : F)) := by
    have hmeanRun : List.zipWith (fun s c => s / max c 1)
        ((List.range G).map fun g => (group g).sum)
        ((List.range G).map fun g => ((group g).length : F)) = (List.range G).map mean := by
      rw [zipWith_map_range, hmean]
    rw [groupMeanStd, if_neg (not_not.mpr hlen)]
    simp only [ne_eq, hne, not_false_eq_true, if_true, ← hG, hGpos, if_false, hcount, hs1,
      hmeanRun, gather_eq hgidx mean, Py.ok_bind, hcentered, hvarNum, List.map_map,
      zipWith_map_range]
    rfl
  refine ⟨_, _, _, hrun, ?_, ?_⟩
  · rw [gather_eq hgidx]
    refine congrArg Except.ok (List.map_congr_left fun g hg => ?_)
    have hstat := groupMean_eq (hgroupNe g hg)
    rw [hmean, hstat, hgroup]
  · rw [gather_eq hgidx]
    refine congrArg Except.ok (List.map_congr_left fun g hg => ?_)
    have hstat := @groupStd_eq F _ sqrt _ _ _ (hgroupNe g hg)
    rw [hmean, hstat, hgroup]

theorem computeGrpoVectorizedOutcomeAdvantage_eq (batch : GroupedBatch F) :
    computeGrpoVectorizedOutcomeAdvantage sqrt epsilon normAdvByStdInGrpo batch =
      .ok (broadcast (grpoScalars sqrt epsilon normAdvByStdInGrpo batch) batch.responseMask,
        broadcast (grpoScalars sqrt epsilon normAdvByStdInGrpo batch) batch.responseMask) := by
  have hlen : batch.scores.length = batch.index.length := by
    rw [batch.length_index, GroupedBatch.scores, List.length_map]
  by_cases hnil : batch.index = []
  · have hscores : batch.scores = [] := by
      rw [← List.length_eq_zero_iff, hlen, hnil, List.length_nil]
    rw [computeGrpoVectorizedOutcomeAdvantage, grpoScalars, hnil, hscores]
    cases normAdvByStdInGrpo with
    | true => rfl
    | false => rfl
  · obtain ⟨meanG, stdG, count, hrun, hmeans, hstds⟩ :=
      @groupMeanStd_eq F _ sqrt _ _ _ _ hlen hnil
    obtain ⟨labelled, hlabelled⟩ : ∃ labelled, labelled = batch.index.zip batch.scores := ⟨_, rfl⟩
    rw [← hlabelled] at hmeans hstds
    have hcentered : List.zipWith (· - ·) batch.scores
        (batch.index.map fun g => groupMean (valuesOf g labelled)) =
        List.zipWith (fun g score => score - groupMean (valuesOf g labelled)) batch.index
          batch.scores := by
      rw [List.zipWith_map_right, List.zipWith_comm]
    rw [computeGrpoVectorizedOutcomeAdvantage, grpoScalars, ← hlabelled]
    cases normAdvByStdInGrpo with
    | true =>
        have hscalars : List.zipWith (fun c s => c / (s + epsilon))
            (List.zipWith (fun g score => score - groupMean (valuesOf g labelled)) batch.index
              batch.scores) (batch.index.map fun g => groupStd sqrt (valuesOf g labelled)) =
            List.zipWith (grpoScalar sqrt epsilon true labelled) batch.index batch.scores := by
          rw [zipWith_zipWith_map]
          rfl
        simp only [hrun, Py.ok_bind, hmeans, hcentered, if_true, hstds, hscalars]
        rfl
    | false =>
        simp only [hrun, Py.ok_bind, hmeans, hcentered, Bool.false_eq_true, if_false]
        rfl

/-- Both estimators return the same advantages. -/
theorem computeGrpoVectorized_eq_loop (sqrt : F → F) (epsilon : F) (normAdvByStdInGrpo : Bool)
    (batch : GroupedBatch F) :
    ∃ advantages,
      computeGrpoOutcomeAdvantage sqrt epsilon normAdvByStdInGrpo batch =
        .ok (advantages, advantages) ∧
      computeGrpoVectorizedOutcomeAdvantage sqrt epsilon normAdvByStdInGrpo batch =
        .ok (advantages, advantages) :=
  ⟨_, computeGrpoOutcomeAdvantage_eq batch, computeGrpoVectorizedOutcomeAdvantage_eq batch⟩

/-- A group of three samples and a group of one. -/
def threeAndOne : GroupedBatch ℚ where
  tokenLevelRewards := [[0, 0], [1, 2], [7, 0], [0, 6]]
  responseMask := [[1, 0], [1, 1], [1, 0], [1, 1]]
  index := [1, 1, 0, 1]
  length_mask := rfl
  length_index := rfl
  mask_zero_or_one := by decide +kernel

/-- The root of the square of a rational number. -/
def ratSqrt (v : ℚ) : ℚ := Nat.sqrt v.num.toNat / Nat.sqrt v.den

theorem computeGrpoVectorized_eq_loop_threeAndOne :
    ∃ advantages,
      computeGrpoOutcomeAdvantage ratSqrt (1 / 10 ^ 6) true threeAndOne =
        .ok (advantages, advantages) ∧
      computeGrpoVectorizedOutcomeAdvantage ratSqrt (1 / 10 ^ 6) true threeAndOne =
        .ok (advantages, advantages) :=
  computeGrpoVectorized_eq_loop _ _ _ _

end Verl.VectorizedGrpo
