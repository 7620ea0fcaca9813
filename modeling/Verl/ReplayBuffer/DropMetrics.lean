import Mathlib.Data.List.Infix
import Mathlib.Data.Rat.Cast.Order
import Verl.Lib.Dict
import Verl.Lib.Pooling
import Verl.ReplayBuffer.Sample

/-!
# The metrics of dropped prompts

A poll that drops prompts returns their number and the mean, the largest and the
smallest of the version spans.  `sample` adds up the metrics of its polls, where a
metric is known by the end of its name.

After any number of polls the dictionary records all spans (`Records`): under
every name stands the statistic of the spans of all polls together, and nothing if
no prompt was dropped.
-/

namespace Verl

/-! ## The source functions -/

/-- The metrics of a drop. -/
inductive DropMetric where
  | count
  | mean
  | max
  | min
deriving DecidableEq

namespace DropMetric

/-- The end of the name, which `_accumulate_drop_metrics` looks at. -/
def ending : DropMetric → String
  | count => "/dropped_samples"
  | mean => "/dropped_samples_staleness/mean"
  | max => "/dropped_samples_staleness/max"
  | min => "/dropped_samples_staleness/min"

/-- The name of a metric for a partition. -/
def name (partitionId : String) (metric : DropMetric) : String :=
  (if partitionId = "train" then "training" else "validation") ++ "/off_policy" ++ metric.ending

end DropMetric

/-- `np.array(stale_spans, dtype=float)`. -/
def staleness (staleSpans : List Int) : List ℚ := staleSpans.map Int.cast

/-- What `_drop_stale_finished` returns when it drops prompts of these version spans. -/
def dropMetrics (partitionId : String) (staleSpans : List Int) : Nat × Py.Dict String ℚ :=
  if staleSpans = [] then (0, Py.Dict.empty)
  else
    let spans := staleness staleSpans
    (staleSpans.length, Py.Dict.empty.update
      [(DropMetric.count.name partitionId, (staleSpans.length : ℚ)),
        (DropMetric.mean.name partitionId, Pooling.mean spans),
        (DropMetric.max.name partitionId, spans.max?.getD 0),
        (DropMetric.min.name partitionId, spans.min?.getD 0)])

/-- `_drop_stale_finished`, the number and the metrics.  With the `wait` strategy no
prompt is stale. -/
def PartitionMetadata.dropStaleFinished {T : Type} (cfg : ReplayConfig)
    (metadata : PartitionMetadata T) (call : SampleCall) : Nat × Py.Dict String ℚ :=
  dropMetrics call.partitionId
    ((metadata.staleUids cfg call).map fun uid => call.span (metadata.stepsOf uid call.globalSteps))

/-- The loop body of `_accumulate_drop_metrics`. -/
def accumulateEntry (prevTotal : ℚ) (dropped : Nat) (acc : Py.Dict String ℚ) (key : String)
    (value : ℚ) : Py.Dict String ℚ :=
  if DropMetric.count.ending.toList <:+ key.toList then
    acc.set key ((acc.get? key).getD 0 + value)
  else if DropMetric.mean.ending.toList <:+ key.toList then
    let denom := prevTotal + dropped
    acc.set key
      (if denom ≠ 0 then ((acc.get? key).getD 0 * prevTotal + value * dropped) / denom else value)
  else if DropMetric.max.ending.toList <:+ key.toList then
    acc.set key (max ((acc.get? key).getD value) value)
  else if DropMetric.min.ending.toList <:+ key.toList then
    acc.set key (min ((acc.get? key).getD value) value)
  else acc

/-- `_accumulate_drop_metrics`.  The total so far is read before the loop changes it. -/
def accumulateDropMetrics (acc new : Py.Dict String ℚ) (dropped : Nat) : Py.Dict String ℚ :=
  let countKey := new.keys.find? fun key => DropMetric.count.ending.toList <:+ key.toList
  let prevTotal :=
    match countKey with
    | some key => (acc.get? key).getD 0
    | none => 0
  new.entries.foldl (fun acc entry => accumulateEntry prevTotal dropped acc entry.1 entry.2) acc

/-- `drop_metrics` of `sample` after a poll, given what `_drop_stale_finished` returned. -/
def pollDrops (acc : Py.Dict String ℚ) (result : Nat × Py.Dict String ℚ) : Py.Dict String ℚ :=
  if 0 < result.1 then accumulateDropMetrics acc result.2 result.1 else acc

/-- `drop_metrics` of `sample` after polls that dropped prompts of these spans. -/
def sampleDropMetrics (partitionId : String) (polls : List (List Int)) : Py.Dict String ℚ :=
  polls.foldl (fun acc staleSpans => pollDrops acc (dropMetrics partitionId staleSpans))
    Py.Dict.empty

/-! ## Spans -/

theorem staleness_ne_nil {staleSpans : List Int} (h : staleSpans ≠ []) :
    staleness staleSpans ≠ [] := fun hnil => h (List.map_eq_nil_iff.mp hnil)

@[simp] theorem length_staleness (staleSpans : List Int) :
    (staleness staleSpans).length = staleSpans.length := List.length_map _

theorem staleness_append (staleSpans staleSpans' : List Int) :
    staleness (staleSpans ++ staleSpans') = staleness staleSpans ++ staleness staleSpans' :=
  List.map_append

/-! ## Names -/

namespace DropMetric

variable {partitionId : String} {metric metric' : DropMetric}

/-- No ending is the end of another. -/
theorem eq_of_ending_isSuffix (h : metric'.ending.toList <:+ metric.ending.toList) :
    metric = metric' := by
  revert h
  cases metric <;> cases metric' <;> decide

/-- A metric is known by the end of its name. -/
theorem ending_isSuffix_iff :
    metric'.ending.toList <:+ (metric.name partitionId).toList ↔ metric = metric' := by
  have hself (metric : DropMetric) : metric.ending.toList <:+ (metric.name partitionId).toList := by
    rw [name, String.toList_append]
    exact List.suffix_append _ _
  constructor
  · intro h
    obtain hsuffix | hsuffix := List.suffix_or_suffix_of_suffix h (hself metric)
    · exact eq_of_ending_isSuffix hsuffix
    · exact (eq_of_ending_isSuffix hsuffix).symm
  · rintro rfl
    exact hself metric

theorem name_inj : metric.name partitionId = metric'.name partitionId ↔ metric = metric' := by
  constructor
  · intro h
    rw [← @ending_isSuffix_iff partitionId, h]
    exact ending_isSuffix_iff.mpr rfl
  · rintro rfl
    rfl

/-- The statistic of all spans that a metric stands for. -/
def statistic (metric : DropMetric) (spans : List ℚ) : Option ℚ :=
  if spans = [] then none
  else
    match metric with
    | count => some spans.length
    | mean => some (Pooling.mean spans)
    | max => spans.max?
    | min => spans.min?

@[simp] theorem statistic_nil : metric.statistic [] = none := rfl

theorem statistic_count {spans : List ℚ} (h : spans ≠ []) :
    count.statistic spans = some (spans.length : ℚ) := if_neg h

theorem statistic_mean {spans : List ℚ} (h : spans ≠ []) :
    mean.statistic spans = some (Pooling.mean spans) := if_neg h

theorem statistic_max (spans : List ℚ) : max.statistic spans = spans.max? := by
  cases spans with
  | nil => rfl
  | cons span spans => exact if_neg (List.cons_ne_nil span spans)

theorem statistic_min (spans : List ℚ) : min.statistic spans = spans.min? := by
  cases spans with
  | nil => rfl
  | cons span spans => exact if_neg (List.cons_ne_nil span spans)

theorem exists_statistic (metric : DropMetric) {spans : List ℚ} (h : spans ≠ []) :
    ∃ value, metric.statistic spans = some value := by
  cases metric with
  | count => exact ⟨_, statistic_count h⟩
  | mean => exact ⟨_, statistic_mean h⟩
  | max =>
      rw [statistic_max, Pooling.max?_eq_reduce?]
      exact Pooling.isSome_reduce? _ h
  | min =>
      rw [statistic_min, Pooling.min?_eq_reduce?]
      exact Pooling.isSome_reduce? _ h

/-- What `_accumulate_drop_metrics` puts in place of a value, given the totals before and
of the poll. -/
def combine (prevTotal : ℚ) (dropped : Nat) (metric : DropMetric) (old : Option ℚ) (value : ℚ) :
    ℚ :=
  match metric with
  | count => old.getD 0 + value
  | mean =>
      if prevTotal + dropped ≠ 0 then
        (old.getD 0 * prevTotal + value * dropped) / (prevTotal + dropped)
      else value
  | max => Max.max (old.getD value) value
  | min => Min.min (old.getD value) value

/-- The statistic of two parts, the second of which is not empty. -/
theorem combine_statistic (metric : DropMetric) {spans spans' : List ℚ} (h : spans' ≠ [])
    {value : ℚ} (hvalue : metric.statistic spans' = some value) :
    some (combine (spans.length : ℚ) spans'.length metric (metric.statistic spans) value) =
      metric.statistic (spans ++ spans') := by
  have happend : spans ++ spans' ≠ [] := List.append_ne_nil_of_right_ne_nil spans h
  cases metric with
  | count =>
      rw [statistic_count h] at hvalue
      obtain rfl := Option.some.inj hvalue
      rw [statistic_count happend, List.length_append, Nat.cast_add]
      cases spans with
      | nil => rfl
      | cons span spans => rfl
  | mean =>
      rw [statistic_mean h] at hvalue
      obtain rfl := Option.some.inj hvalue
      have hpos : (spans.length : ℚ) + spans'.length ≠ 0 := by
        rw [← Nat.cast_add, ← List.length_append]
        exact Nat.cast_ne_zero.mpr (List.length_pos_of_ne_nil happend).ne'
      have hold : (mean.statistic spans).getD 0 = Pooling.mean spans := by
        cases spans with
        | nil => simp [Pooling.mean]
        | cons span spans => rfl
      rw [statistic_mean happend, ← Pooling.mean_append, combine, if_pos hpos, hold]
  | max =>
      rw [statistic_max, Pooling.max?_eq_reduce?] at hvalue
      rw [statistic_max, statistic_max, Pooling.max?_eq_reduce?, Pooling.max?_eq_reduce?,
        Pooling.reduce?_append, hvalue, combine]
      cases Pooling.reduce? Max.max spans with
      | none => exact congrArg some (max_self value)
      | some largest => rfl
  | min =>
      rw [statistic_min, Pooling.min?_eq_reduce?] at hvalue
      rw [statistic_min, statistic_min, Pooling.min?_eq_reduce?, Pooling.min?_eq_reduce?,
        Pooling.reduce?_append, hvalue, combine]
      cases Pooling.reduce? Min.min spans with
      | none => exact congrArg some (min_self value)
      | some smallest => rfl

end DropMetric

/-! ## One poll -/

section Accumulate

variable {partitionId : String}

theorem accumulateEntry_name (prevTotal : ℚ) (dropped : Nat) (acc : Py.Dict String ℚ)
    (metric : DropMetric) (value : ℚ) :
    accumulateEntry prevTotal dropped acc (metric.name partitionId) value =
      acc.set (metric.name partitionId)
        (metric.combine prevTotal dropped (acc.get? (metric.name partitionId)) value) := by
  cases metric <;>
    simp only [accumulateEntry, DropMetric.ending_isSuffix_iff, reduceCtorEq, if_true, if_false] <;>
    rfl

/-- The loop changes a metric once, by its own entry. -/
theorem get?_foldl_accumulateEntry (prevTotal : ℚ) (dropped : Nat) {metrics : List DropMetric}
    (hnodup : metrics.Nodup) (value : DropMetric → ℚ) (acc : Py.Dict String ℚ)
    (metric : DropMetric) :
    ((metrics.map fun m => (m.name partitionId, value m)).foldl
        (fun acc entry => accumulateEntry prevTotal dropped acc entry.1 entry.2) acc).get?
        (metric.name partitionId) =
      if metric ∈ metrics then
        some (metric.combine prevTotal dropped (acc.get? (metric.name partitionId)) (value metric))
      else acc.get? (metric.name partitionId) := by
  induction metrics generalizing acc with
  | nil => rfl
  | cons first metrics ih =>
      obtain ⟨hfirst, hrest⟩ := List.nodup_cons.mp hnodup
      rw [List.map_cons, List.foldl_cons, ih hrest, accumulateEntry_name]
      simp only [Py.Dict.get?_set, DropMetric.name_inj, List.mem_cons]
      by_cases heq : first = metric
      · subst heq
        rw [if_neg hfirst, if_pos rfl, if_pos (.inl rfl)]
      · simp only [if_false, Ne.symm heq, false_or]

/-- All metrics, in the order of the dictionary. -/
def allMetrics : List DropMetric := [.count, .mean, .max, .min]

theorem mem_allMetrics (metric : DropMetric) : metric ∈ allMetrics := by
  cases metric <;> decide

/-- The entries of a poll that drops prompts are the statistics of their spans. -/
theorem dropMetrics_of_ne_nil {staleSpans : List Int} (h : staleSpans ≠ []) :
    (dropMetrics partitionId staleSpans).1 = staleSpans.length ∧
      (dropMetrics partitionId staleSpans).2.entries = allMetrics.map fun metric =>
        (metric.name partitionId,
          (metric.statistic (staleness staleSpans)).getD 0) := by
  have hspans := staleness_ne_nil h
  have hentries : [(DropMetric.count.name partitionId, (staleSpans.length : ℚ)),
      (DropMetric.mean.name partitionId, Pooling.mean (staleness staleSpans)),
      (DropMetric.max.name partitionId, (staleness staleSpans).max?.getD 0),
      (DropMetric.min.name partitionId, (staleness staleSpans).min?.getD 0)] =
        allMetrics.map fun metric =>
          (metric.name partitionId, (metric.statistic (staleness staleSpans)).getD 0) := by
    simp only [allMetrics, List.map_cons, List.map_nil, DropMetric.statistic_count hspans,
      DropMetric.statistic_mean hspans, DropMetric.statistic_max, DropMetric.statistic_min,
      Option.getD_some, length_staleness]
  have hnames : ((allMetrics.map fun metric =>
      (metric.name partitionId, (metric.statistic (staleness staleSpans)).getD 0)).map
        Prod.fst).Nodup := by
    rw [List.map_map, List.nodup_map_iff_inj_on (by decide)]
    exact fun _ _ _ _ heq => DropMetric.name_inj.mp heq
  rw [dropMetrics, if_neg h]
  dsimp only
  rw [hentries]
  exact ⟨rfl, Py.Dict.entries_update_of_nodup Py.Dict.empty hnames⟩

/-- The number that `_drop_stale_finished` returns is that of the prompts it clears. -/
theorem dropStaleFinished_fst {T : Type} (cfg : ReplayConfig) (metadata : PartitionMetadata T)
    (call : SampleCall) :
    (metadata.dropStaleFinished cfg call).1 = (metadata.staleUids cfg call).length := by
  rw [PartitionMetadata.dropStaleFinished]
  cases metadata.staleUids cfg call with
  | nil => rfl
  | cons uid uids =>
      rw [List.map_cons, (dropMetrics_of_ne_nil (List.cons_ne_nil _ _)).1, List.length_cons,
        List.length_map, List.length_cons]

/-- Under every name stands the statistic of the spans. -/
def Records (partitionId : String) (metrics : Py.Dict String ℚ) (spans : List ℚ) : Prop :=
  ∀ metric : DropMetric, metrics.get? (metric.name partitionId) = metric.statistic spans

theorem Records.pollDrops {acc : Py.Dict String ℚ} {spans : List ℚ}
    (h : Records partitionId acc spans) (staleSpans : List Int) :
    Records partitionId (pollDrops acc (dropMetrics partitionId staleSpans))
      (spans ++ staleness staleSpans) := by
  intro metric
  by_cases hnil : staleSpans = []
  · subst hnil
    rw [staleness, List.map_nil, List.append_nil]
    exact h metric
  · obtain ⟨hcount, hentries⟩ := @dropMetrics_of_ne_nil partitionId staleSpans hnil
    have hne := staleness_ne_nil hnil
    have hkey : (dropMetrics partitionId staleSpans).2.keys.find?
        (fun key => DropMetric.count.ending.toList <:+ key.toList) =
          some (DropMetric.count.name partitionId) := by
      rw [Py.Dict.keys, hentries, List.map_map]
      exact List.find?_cons_of_pos (decide_eq_true (DropMetric.ending_isSuffix_iff.mpr rfl))
    have htotal : (acc.get? (DropMetric.count.name partitionId)).getD 0 = (spans.length : ℚ) := by
      rw [h .count]
      cases spans with
      | nil => rfl
      | cons span spans => rfl
    obtain ⟨value, hvalue⟩ := metric.exists_statistic hne
    have hcombine := @DropMetric.combine_statistic metric spans _ hne _ hvalue
    rw [← hcombine, ← h metric, length_staleness]
    rw [Verl.pollDrops, hcount, if_pos (List.length_pos_of_ne_nil hnil), accumulateDropMetrics,
      hkey, hentries]
    dsimp only
    rw [htotal, get?_foldl_accumulateEntry _ _ (by decide), if_pos (mem_allMetrics metric), hvalue,
      Option.getD_some]

/-- What `sample` returns is about all its drops together. -/
theorem records_sampleDropMetrics (polls : List (List Int)) :
    Records partitionId (sampleDropMetrics partitionId polls)
      (staleness polls.flatten) := by
  induction polls using List.reverseRecOn with
  | nil =>
      intro metric
      rfl
  | append_singleton polls staleSpans ih =>
      rw [sampleDropMetrics, List.foldl_append, List.flatten_append, List.flatten_singleton,
        staleness_append]
      exact ih.pollDrops staleSpans

end Accumulate

end Verl
