import Mathlib.Algebra.BigOperators.Ring.Finset
import Verl.PpoTrainer.MetricsAggregator
import Verl.ReplayBuffer.DropMetrics

/-!
# The metrics of all drops of a step

A step makes several local iterations.  Each of them starts with a call of `sample`,
which puts together the drops of its polls, and the aggregator puts together the
iterations.  The result is about all drops of the step (`stepMetrics_pooled`).

The means of the iterations are weighted by the number of drops, which the
aggregator finds under a name that it makes from the name of the mean.  An iteration
without drops has no entry under any of the names, and so no weight either.
-/

namespace Verl

/-- A local iteration: the version spans of the prompts that each poll dropped, what
`_step_once` puts into its metrics after them, and the number of samples it keeps. -/
structure LocalIteration where
  polls : List (List Int)
  otherMetrics : List (String × MetricValue)
  sampleCount : Int

namespace LocalIteration

/-- The metrics of `_step_once`. -/
def metrics (partitionId : String) (iteration : LocalIteration) : Py.Dict String MetricValue :=
  ((sampleDropMetrics partitionId iteration.polls).mapValues MetricValue.number).update
    iteration.otherMetrics

/-- The spans of all prompts that were dropped. -/
def spans (iteration : LocalIteration) : List ℚ := staleness iteration.polls.flatten

/-- The other metrics have other names. -/
def Separate (partitionId : String) (iteration : LocalIteration) : Prop :=
  ∀ metric : DropMetric, metric.name partitionId ∉ iteration.otherMetrics.map Prod.fst

theorem get?_metrics {partitionId : String} {iteration : LocalIteration}
    (h : iteration.Separate partitionId) (metric : DropMetric) :
    (iteration.metrics partitionId).get? (metric.name partitionId) =
      (metric.statistic iteration.spans).map MetricValue.number := by
  rw [metrics, Py.Dict.get?_update_of_not_mem (h metric), Py.Dict.get?_mapValues,
    records_sampleDropMetrics, spans]

end LocalIteration

/-- The iterations as the aggregator gets them. -/
def stepsOf (partitionId : String) (iterations : List LocalIteration) :
    List (Py.Dict String MetricValue × Int) :=
  iterations.map fun iteration => (iteration.metrics partitionId, iteration.sampleCount)

/-- The aggregated metrics of `step`. -/
def stepMetrics (partitionId : String) (iterations : List LocalIteration) : Py.Dict String ℚ :=
  (MetricsAggregator.new.addSteps (stepsOf partitionId iterations)).getAggregatedMetrics

/-! ## Names -/

namespace DropMetric

/-- The rule of a metric. -/
def rule : DropMetric → AggregationType
  | count => .sum
  | mean => .weightedAvg
  | max => .max
  | min => .min

theorem getAggregationType_name (partitionId : String) (metric : DropMetric) :
    getAggregationType (metric.name partitionId) = metric.rule := by
  rw [name]
  split <;> cases metric <;> decide +kernel

theorem name_ne_minmaxDiff (partitionId : String) (metric : DropMetric) :
    metric.name partitionId ≠ "global_seqlen/minmax_diff" := by
  rw [name]
  split <;> cases metric <;> decide

/-- The name of the weight of the mean. -/
theorem rsplitFirst_name_mean (partitionId : String) :
    Py.rsplitFirst "_staleness/mean" (mean.name partitionId) = count.name partitionId := by
  have hending : mean.ending = count.ending ++ "_staleness/mean" := by decide
  have hname : mean.name partitionId = count.name partitionId ++ "_staleness/mean" := by
    rw [name, name, hending, String.append_assoc, String.append_assoc, String.append_assoc]
  rw [hname, Py.rsplitFirst_append]

theorem isSuffix_name_mean (partitionId : String) :
    "/off_policy/dropped_samples_staleness/mean".toList <:+ (mean.name partitionId).toList := by
  rw [name]
  split <;> decide

end DropMetric

/-! ## The iterations together -/

theorem truncate_natCast (n : Nat) : truncate (n : ℚ) = n := by
  rw [truncate, Rat.num_natCast, Rat.den_natCast, Nat.cast_one, Int.tdiv_one]

section Pool

variable {partitionId : String} {iterations : List LocalIteration}

/-- The values of a metric are the statistics of the iterations that have one. -/
theorem values_stepsOf (hseparate : ∀ iteration ∈ iterations, iteration.Separate partitionId)
    (metric : DropMetric) :
    ((stepsOf partitionId iterations).filterMap fun step =>
        (step.1.get? (metric.name partitionId)).bind MetricValue.scalar) =
      (iterations.map LocalIteration.spans).filterMap metric.statistic := by
  rw [stepsOf, List.filterMap_map, List.filterMap_map]
  refine List.filterMap_congr fun iteration hiteration => ?_
  rw [Function.comp_apply, Function.comp_apply,
    LocalIteration.get?_metrics (hseparate iteration hiteration)]
  cases metric.statistic iteration.spans <;> rfl

/-- The weight of a mean is the number of prompts that it is the mean of. -/
theorem getMetricWeight_mean {iteration : LocalIteration} (h : iteration.Separate partitionId)
    (hdropped : iteration.spans ≠ []) :
    getMetricWeight (DropMetric.mean.name partitionId) (iteration.metrics partitionId)
      iteration.sampleCount = iteration.spans.length := by
  rw [getMetricWeight, if_pos (DropMetric.isSuffix_name_mean partitionId),
    DropMetric.rsplitFirst_name_mean, LocalIteration.get?_metrics h,
    DropMetric.statistic_count hdropped]
  exact truncate_natCast _

theorem weights_stepsOf (hseparate : ∀ iteration ∈ iterations, iteration.Separate partitionId) :
    ((stepsOf partitionId iterations).filterMap fun step =>
        ((step.1.get? (DropMetric.mean.name partitionId)).bind MetricValue.scalar).map fun _ =>
          getMetricWeight (DropMetric.mean.name partitionId) step.1 step.2) =
      (iterations.map LocalIteration.spans).filterMap fun spans =>
        (DropMetric.mean.statistic spans).map fun _ => (spans.length : Int) := by
  rw [stepsOf, List.filterMap_map, List.filterMap_map]
  refine List.filterMap_congr fun iteration hiteration => ?_
  rw [Function.comp_apply, Function.comp_apply,
    LocalIteration.get?_metrics (hseparate iteration hiteration)]
  by_cases hdropped : iteration.spans = []
  · rw [hdropped]
    rfl
  · rw [DropMetric.statistic_mean hdropped,
      getMetricWeight_mean (hseparate iteration hiteration) hdropped]
    rfl

/-- Parts that are not empty. -/
theorem filterMap_parts {γ : Type} (f : List ℚ → γ) (parts : List (List ℚ)) :
    (parts.filterMap fun spans => if spans = [] then none else some (f spans)) =
      (parts.filter (· ≠ [])).map f := by
  induction parts with
  | nil => rfl
  | cons spans parts ih =>
      cases spans with
      | nil => exact ih
      | cons span spans => exact congrArg (List.cons (f (span :: spans))) ih

theorem means_parts (parts : List (List ℚ)) :
    parts.filterMap DropMetric.mean.statistic = (parts.filter (· ≠ [])).map Pooling.mean :=
  filterMap_parts Pooling.mean parts

theorem weights_parts (parts : List (List ℚ)) :
    (parts.filterMap fun spans =>
        (DropMetric.mean.statistic spans).map fun _ => (spans.length : Int)) =
      (parts.filter (· ≠ [])).map fun spans => (spans.length : Int) := by
  rw [← filterMap_parts]
  refine List.filterMap_congr fun spans _ => ?_
  cases spans <;> rfl

/-- If a prompt was dropped, some iteration has every metric. -/
theorem filterMap_statistic_ne_nil (hdropped : (iterations.flatMap LocalIteration.spans) ≠ [])
    (metric : DropMetric) :
    (iterations.map LocalIteration.spans).filterMap metric.statistic ≠ [] := by
  intro hnil
  refine hdropped (List.flatMap_eq_nil_iff.mpr fun iteration hiteration => ?_)
  by_contra hne
  obtain ⟨value, hvalue⟩ := metric.exists_statistic hne
  rw [List.filterMap_eq_nil_iff.mp hnil _ (List.mem_map_of_mem hiteration)] at hvalue
  cases hvalue

/-- What the rule of a metric makes of the iterations is the statistic of all spans. -/
theorem aggregate_stepsOf (hseparate : ∀ iteration ∈ iterations, iteration.Separate partitionId)
    (hdropped : (iterations.flatMap LocalIteration.spans) ≠ []) (metric : DropMetric) :
    some ((MetricsAggregator.new.addSteps (stepsOf partitionId iterations)).aggregateSingleMetric
      (metric.name partitionId)
      ((iterations.map LocalIteration.spans).filterMap metric.statistic)) =
        metric.statistic (iterations.flatMap LocalIteration.spans) := by
  have hvalues := filterMap_statistic_ne_nil hdropped metric
  have hweights := weights_stepsOf hseparate
  rw [← MetricsAggregator.metricWeights_addSteps] at hweights
  rw [List.flatMap_def] at hdropped ⊢
  generalize iterations.map LocalIteration.spans = parts at *
  have hnonempty : (parts.filter (· ≠ [])).flatten = parts.flatten := List.flatten_filter_ne_nil
  have hlength : ((parts.filter (· ≠ [])).map List.length).sum = parts.flatten.length := by
    rw [← List.length_flatten, hnonempty]
  rw [MetricsAggregator.aggregateSingleMetric, if_neg hvalues, DropMetric.getAggregationType_name]
  cases metric with
  | count =>
      have hcounts : parts.filterMap DropMetric.count.statistic =
          (parts.filter (· ≠ [])).map fun spans => (spans.length : ℚ) :=
        filterMap_parts (fun spans => (spans.length : ℚ)) parts
      rw [DropMetric.statistic_count hdropped, hcounts, ← hlength, Nat.cast_list_sum, List.map_map]
      rfl
  | mean =>
      have hsum : ((parts.filter (· ≠ [])).map fun spans => (spans.length : Int)).sum =
          (parts.flatten.length : Int) := by
        rw [← hlength, Nat.cast_list_sum, List.map_map]
        rfl
      have hpositive : ¬ (((parts.filter (· ≠ [])).map Pooling.mean).length ≠
          ((parts.filter (· ≠ [])).map fun spans => (spans.length : Int)).length ∨
            (parts.flatten.length : Int) = 0) := by
        rw [List.length_map, List.length_map, ne_eq, eq_self, not_true, false_or]
        exact Int.natCast_ne_zero.mpr (List.length_pos_of_ne_nil hdropped).ne'
      have hpool := Pooling.mean_flatten (parts.filter (· ≠ []))
      rw [hlength, hnonempty] at hpool
      rw [DropMetric.statistic_mean hdropped, DropMetric.rule]
      dsimp only
      rw [hweights, weights_parts, means_parts, hsum, if_neg hpositive, List.zipWith_map,
        List.zipWith_self, ← hpool]
      simp only [Int.cast_natCast]
  | max =>
      obtain ⟨largest, hlargest⟩ := Pooling.isSome_reduce? Max.max hdropped
      have hstatistic : DropMetric.max.statistic = Pooling.reduce? Max.max := by
        funext spans
        rw [DropMetric.statistic_max, Pooling.max?_eq_reduce?]
      rw [hstatistic, hlargest, DropMetric.rule]
      dsimp only
      rw [Pooling.max?_eq_reduce?, Pooling.reduce?_flatten, hlargest]
      rfl
  | min =>
      obtain ⟨smallest, hsmallest⟩ := Pooling.isSome_reduce? Min.min hdropped
      have hstatistic : DropMetric.min.statistic = Pooling.reduce? Min.min := by
        funext spans
        rw [DropMetric.statistic_min, Pooling.min?_eq_reduce?]
      rw [hstatistic, hsmallest, DropMetric.rule]
      dsimp only
      rw [Pooling.min?_eq_reduce?, Pooling.reduce?_flatten, hsmallest]
      rfl

/-- The metrics of a step are those of all its drops together, whatever the numbers
of samples that the iterations keep. -/
theorem stepMetrics_pooled (hseparate : ∀ iteration ∈ iterations, iteration.Separate partitionId)
    (hdropped : (iterations.flatMap LocalIteration.spans) ≠ []) :
    (stepMetrics partitionId iterations).get? (DropMetric.count.name partitionId) =
        some ((iterations.flatMap LocalIteration.spans).length : ℚ) ∧
      (stepMetrics partitionId iterations).get? (DropMetric.mean.name partitionId) =
        some (Pooling.mean (iterations.flatMap LocalIteration.spans)) ∧
      (stepMetrics partitionId iterations).get? (DropMetric.max.name partitionId) =
        (iterations.flatMap LocalIteration.spans).max? ∧
      (stepMetrics partitionId iterations).get? (DropMetric.min.name partitionId) =
        (iterations.flatMap LocalIteration.spans).min? := by
  have hget (metric : DropMetric) :
      (stepMetrics partitionId iterations).get? (metric.name partitionId) =
        metric.statistic (iterations.flatMap LocalIteration.spans) := by
    have hvalues := values_stepsOf hseparate metric
    have hne := filterMap_statistic_ne_nil hdropped metric
    rw [← hvalues] at hne
    rw [stepMetrics, MetricsAggregator.get?_getAggregatedMetrics
      (DropMetric.name_ne_minmaxDiff partitionId metric) hne, hvalues]
    exact aggregate_stepsOf hseparate hdropped metric
  refine ⟨?_, ?_, ?_, ?_⟩
  · rw [hget, DropMetric.statistic_count hdropped]
  · rw [hget, DropMetric.statistic_mean hdropped]
  · rw [hget, DropMetric.statistic_max]
  · rw [hget, DropMetric.statistic_min]

/-- An iteration with an empty poll, one without drops, and one with a single drop. -/
def threeIterations : List LocalIteration :=
  [⟨[[3, 5], [], [4]], [("actor/lr", .number 1)], 64⟩, ⟨[[]], [], 1⟩,
    ⟨[[7]], [("training/global_step", .number 2)], 8⟩]

theorem stepMetrics_pooled_three :
    (stepMetrics "train" threeIterations).get? "training/off_policy/dropped_samples" = some 4 ∧
      (stepMetrics "train" threeIterations).get?
        "training/off_policy/dropped_samples_staleness/mean" = some (19 / 4) ∧
      (stepMetrics "train" threeIterations).get?
        "training/off_policy/dropped_samples_staleness/max" = some 7 ∧
      (stepMetrics "train" threeIterations).get?
        "training/off_policy/dropped_samples_staleness/min" = some 3 := by
  have hspans : threeIterations.flatMap LocalIteration.spans = [3, 5, 4, 7] := rfl
  have hpooled := @stepMetrics_pooled "train" threeIterations
    (by
      intro iteration hiteration metric
      simp only [threeIterations, List.mem_cons, List.not_mem_nil, or_false] at hiteration
      obtain rfl | rfl | rfl := hiteration <;> cases metric <;> decide)
    (by rw [hspans]; exact List.cons_ne_nil _ _)
  have hmean : Pooling.mean ([3, 5, 4, 7] : List ℚ) = 19 / 4 := by decide +kernel
  rw [hspans, hmean] at hpooled
  exact hpooled

end Pool

end Verl
