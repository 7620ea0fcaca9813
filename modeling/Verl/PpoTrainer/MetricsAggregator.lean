import Mathlib.Algebra.Order.Ring.Rat
import Mathlib.Data.List.Infix
import Verl.Lib.GroupBy
import Verl.Lib.Strings

/-!
# Metrics of the local iterations

`MetricsAggregator` collects the metrics of the local iterations of one step and
reduces each of them by a rule that depends on its name.

The values and the weights are dictionaries of lists.  They are what grouping a
log by name gives (`Logged`), so what is recorded under a name can be read off the
iterations one by one (`valuesOf_logOf`).
-/

namespace Verl

/-! ## The source functions -/

/-- A value of a metric.  A tensor comes with its elements. -/
inductive MetricValue where
  | bool (b : Bool)
  | number (q : ℚ)
  | tensor (elements : List ℚ)
  | other

/-- The values that are recorded. -/
def MetricValue.scalar : MetricValue → Option ℚ
  | bool _ => none
  | number q => some q
  | tensor [q] => some q
  | tensor _ => none
  | other => none

/-- `int(q)`. -/
def truncate (q : ℚ) : Int := q.num.tdiv q.den

/-- `_get_metric_weight`. -/
def getMetricWeight (metricName : String) (metrics : Py.Dict String MetricValue)
    (sampleCount : Int) : Int :=
  if "/off_policy/dropped_samples_staleness/mean".toList <:+ metricName.toList then
    match metrics.get? (Py.rsplitFirst "_staleness/mean" metricName) with
    | none => sampleCount
    | some (.tensor [q]) => truncate q
    | some (.tensor _) => sampleCount
    | some (.number q) => truncate q
    | some (.bool b) => if b then 1 else 0
    | some .other => sampleCount
  else sampleCount

/-- The results of `_get_aggregation_type`. -/
inductive AggregationType where
  | last
  | max
  | min
  | sum
  | timeSum
  | weightedAvg
deriving DecidableEq

/-- `aggregation_rules`. -/
def aggregationRules : List (AggregationType × List String) :=
  [(.sum, ["training/off_policy/dropped_samples", "validation/off_policy/dropped_samples"]),
    (.last, ["training/global_step", "training/rollout_probs_diff_valid"])]

/-- `any(keyword in metric_lower for keyword in keywords)`. -/
def anyKeyword (keywords : List String) (metricLower : List Char) : Bool :=
  keywords.any fun keyword => Py.contains keyword.toList metricLower

/-- `_get_aggregation_type`. -/
def getAggregationType (metricName : String) : AggregationType :=
  match aggregationRules.find? fun rule => metricName ∈ rule.2 with
  | some rule => rule.1
  | none =>
      let metricLower := metricName.toList.map Char.toLower
      if "/lr".toList <:+ metricLower ∨ "_lr".toList <:+ metricLower ∨ metricLower = "lr".toList then
        .last
      else if anyKeyword ["timing_s/", "timing_per_token_ms/"] metricLower then .timeSum
      else if anyKeyword ["max", "maximum"] metricLower then .max
      else if anyKeyword ["min", "minimum"] metricLower then .min
      else if anyKeyword ["sum", "total"] metricLower then .sum
      else .weightedAvg

structure MetricsAggregator where
  metricValues : Py.Dict String (List ℚ)
  metricWeights : Py.Dict String (List Int)
  stepCount : Nat

namespace MetricsAggregator

def new : MetricsAggregator := ⟨Py.Dict.empty, Py.Dict.empty, 0⟩

/-- Both `append`s of `add_step_metrics`. -/
def record (a : MetricsAggregator) (key : String) (value : ℚ) (weight : Int) :
    MetricsAggregator :=
  { a with
    metricValues := a.metricValues.set key ((a.metricValues.get? key).getD [] ++ [value])
    metricWeights := a.metricWeights.set key ((a.metricWeights.get? key).getD [] ++ [weight]) }

def addStepMetrics (a : MetricsAggregator) (metrics : Py.Dict String MetricValue)
    (sampleCount : Int) : MetricsAggregator :=
  metrics.entries.foldl (fun a entry =>
    match entry.2.scalar with
    | some value => a.record entry.1 value (getMetricWeight entry.1 metrics sampleCount)
    | none => a) { a with stepCount := a.stepCount + 1 }

/-- `_aggregate_single_metric`. -/
def aggregateSingleMetric (a : MetricsAggregator) (metricName : String) (values : List ℚ) : ℚ :=
  if values = [] then 0
  else
    match getAggregationType metricName with
    | .last => values.getLastD 0
    | .weightedAvg =>
        let weights := (a.metricWeights.get? metricName).getD []
        if values.length ≠ weights.length ∨ weights.sum = 0 then values.sum / values.length
        else
          (List.zipWith (fun (v : ℚ) (c : Int) => v * (c : ℚ)) values weights).sum /
          (weights.sum : ℚ)
    | .sum => values.sum
    | .timeSum => values.sum
    | .max => values.max?.getD 0
    | .min => values.min?.getD 0

/-- `_special_metrics_aggregate`. -/
def specialMetricsAggregate (aggregated : Py.Dict String ℚ) : Py.Dict String ℚ :=
  match aggregated.get? "global_seqlen/minmax_diff", aggregated.get? "global_seqlen/max",
      aggregated.get? "global_seqlen/min" with
  | some _, some largest, some smallest =>
      aggregated.set "global_seqlen/minmax_diff" (largest - smallest)
  | _, _, _ => aggregated

def getAggregatedMetrics (a : MetricsAggregator) : Py.Dict String ℚ :=
  if a.stepCount = 0 then Py.Dict.empty
  else specialMetricsAggregate (a.metricValues.mapEntries a.aggregateSingleMetric)

/-! ## What is recorded -/

/-- The records of one iteration, names with values and weights. -/
def recordsOf (metrics : Py.Dict String MetricValue) (sampleCount : Int) :
    List (String × ℚ × Int) :=
  metrics.entries.filterMap fun entry => entry.2.scalar.map fun value =>
    (entry.1, value, getMetricWeight entry.1 metrics sampleCount)

/-- The dictionaries group a log by name. -/
structure Logged (a : MetricsAggregator) (log : List (String × ℚ × Int)) : Prop where
  values : a.metricValues = Py.groupBy (log.map fun r => (r.1, r.2.1))
  weights : a.metricWeights = Py.groupBy (log.map fun r => (r.1, r.2.2))

theorem logged_new : new.Logged [] := ⟨rfl, rfl⟩

variable {a : MetricsAggregator} {log : List (String × ℚ × Int)}

theorem Logged.record (h : a.Logged log) (key : String) (value : ℚ) (weight : Int) :
    (a.record key value weight).Logged (log ++ [(key, value, weight)]) := by
  refine ⟨?_, ?_⟩
  · rw [List.map_append, List.map_singleton, Py.groupBy_concat, ← h.values]
    rfl
  · rw [List.map_append, List.map_singleton, Py.groupBy_concat, ← h.weights]
    rfl

/-- The loop over the entries, with the weights as a function of the name. -/
theorem Logged.foldl (h : a.Logged log) (weight : String → Int)
    (entries : List (String × MetricValue)) :
    (entries.foldl (fun a entry =>
      match entry.2.scalar with
      | some value => a.record entry.1 value (weight entry.1)
      | none => a) a).Logged
        (log ++ entries.filterMap fun entry => entry.2.scalar.map fun value =>
          (entry.1, value, weight entry.1)) := by
  induction entries generalizing a log with
  | nil =>
      rw [List.filterMap_nil, List.append_nil]
      exact h
  | cons entry entries ih =>
      rw [List.foldl_cons, List.filterMap_cons]
      cases entry.2.scalar with
      | none => exact ih h
      | some value =>
          have hlog := ih (h.record entry.1 value (weight entry.1))
          rw [List.append_assoc] at hlog
          exact hlog

theorem Logged.addStepMetrics (h : a.Logged log) (metrics : Py.Dict String MetricValue)
    (sampleCount : Int) :
    (a.addStepMetrics metrics sampleCount).Logged (log ++ recordsOf metrics sampleCount) := by
  have hstart : ({ a with stepCount := a.stepCount + 1 } : MetricsAggregator).Logged log :=
    ⟨h.values, h.weights⟩
  exact hstart.foldl (fun key => getMetricWeight key metrics sampleCount) metrics.entries

/-- `add_step_metrics` for every iteration. -/
def addSteps (a : MetricsAggregator) (steps : List (Py.Dict String MetricValue × Int)) :
    MetricsAggregator :=
  steps.foldl (fun a step => a.addStepMetrics step.1 step.2) a

/-- The log of all iterations. -/
def logOf (steps : List (Py.Dict String MetricValue × Int)) : List (String × ℚ × Int) :=
  steps.flatMap fun step => recordsOf step.1 step.2

theorem Logged.addSteps (h : a.Logged log) (steps : List (Py.Dict String MetricValue × Int)) :
    (a.addSteps steps).Logged (log ++ logOf steps) := by
  induction steps generalizing a log with
  | nil =>
      rw [logOf, List.flatMap_nil, List.append_nil]
      exact h
  | cons step steps ih =>
      have hlog := ih (h.addStepMetrics step.1 step.2)
      rw [List.append_assoc] at hlog
      exact hlog

theorem stepCount_foldl (entries : List (String × MetricValue)) (weight : String → Int) :
    (entries.foldl (fun a entry =>
      match entry.2.scalar with
      | some value => a.record entry.1 value (weight entry.1)
      | none => a) a).stepCount = a.stepCount := by
  induction entries generalizing a with
  | nil => rfl
  | cons entry entries ih =>
      rw [List.foldl_cons, ih]
      cases entry.2.scalar with
      | none => rfl
      | some value => rfl

theorem stepCount_addSteps (steps : List (Py.Dict String MetricValue × Int)) :
    (a.addSteps steps).stepCount = a.stepCount + steps.length := by
  induction steps generalizing a with
  | nil => rfl
  | cons step steps ih =>
      have hstep : (a.addStepMetrics step.1 step.2).stepCount = a.stepCount + 1 :=
        stepCount_foldl step.1.entries fun key => getMetricWeight key step.1 step.2
      rw [List.length_cons, ← Nat.add_assoc, Nat.add_right_comm, ← hstep]
      exact ih

/-! ## One name -/

/-- What the entries of one dictionary give to a name. -/
theorem valuesOf_filterMap {γ : Type} {entries : List (String × MetricValue)}
    (hnodup : (entries.map Prod.fst).Nodup) (f : String → ℚ → γ) (name : String) :
    Py.valuesOf name (entries.filterMap fun entry => entry.2.scalar.map fun value =>
        (entry.1, f entry.1 value)) =
      ((((entries.find? (·.1 = name)).map Prod.snd).bind MetricValue.scalar).map
        (f name)).toList := by
  induction entries with
  | nil => rfl
  | cons entry entries ih =>
      obtain ⟨hfirst, hrest⟩ := List.nodup_cons.mp hnodup
      have hsplit : (entry :: entries).filterMap (fun entry => entry.2.scalar.map fun value =>
          (entry.1, f entry.1 value)) =
        (entry.2.scalar.map fun value => (entry.1, f entry.1 value)).toList ++
          entries.filterMap fun entry => entry.2.scalar.map fun value =>
            (entry.1, f entry.1 value) := by
        rw [List.filterMap_cons]
        cases entry.2.scalar <;> rfl
      rw [hsplit, Py.valuesOf_append]
      by_cases heq : entry.1 = name
      · subst heq
        have hnone : Py.valuesOf entry.1 (entries.filterMap fun entry => entry.2.scalar.map
            fun value => (entry.1, f entry.1 value)) = [] := by
          refine Py.valuesOf_eq_nil fun hmem => hfirst ?_
          obtain ⟨_, hmem, hkey⟩ := List.mem_map.mp hmem
          obtain ⟨later, hlater, hsome⟩ := List.mem_filterMap.mp hmem
          obtain ⟨value, -, rfl⟩ := Option.map_eq_some_iff.mp hsome
          exact hkey ▸ List.mem_map_of_mem hlater
        have hfound : (entry :: entries).find? (fun e => decide (e.1 = entry.1)) = some entry :=
          List.find?_cons_of_pos (decide_eq_true rfl)
        rw [hnone, List.append_nil, hfound, Option.map_some, Option.bind_some]
        cases entry.2.scalar with
        | none => rfl
        | some value => exact (Py.valuesOf_singleton _ _).trans (if_pos rfl)
      · rw [List.find?_cons_of_neg (by simpa using heq), ← ih hrest]
        cases entry.2.scalar with
        | none => rfl
        | some value =>
            rw [Option.map_some, Option.toList_some, Py.valuesOf_singleton, if_neg heq,
              List.nil_append]

/-- The values of a name, iteration by iteration. -/
theorem valuesOf_logOf (steps : List (Py.Dict String MetricValue × Int)) (name : String) :
    Py.valuesOf name ((logOf steps).map fun r => (r.1, r.2.1)) =
      steps.filterMap fun step => (step.1.get? name).bind MetricValue.scalar := by
  induction steps with
  | nil => rfl
  | cons step steps ih =>
      have hstep : Py.valuesOf name ((recordsOf step.1 step.2).map fun r => (r.1, r.2.1)) =
          ((step.1.get? name).bind MetricValue.scalar).toList := by
        have h := valuesOf_filterMap step.1.nodup (fun _ value => value) name
        rw [Option.map_id_fun'] at h
        rw [recordsOf, List.map_filterMap]
        simp only [Option.map_map]
        exact h
      rw [logOf, List.flatMap_cons, List.map_append, Py.valuesOf_append, hstep]
      refine (congrArg _ ih).trans ?_
      rw [List.filterMap_cons]
      cases (step.1.get? name).bind MetricValue.scalar <;> rfl

/-- The weights of a name, iteration by iteration. -/
theorem valuesOf_logOf_weights (steps : List (Py.Dict String MetricValue × Int)) (name : String) :
    Py.valuesOf name ((logOf steps).map fun r => (r.1, r.2.2)) =
      steps.filterMap fun step => ((step.1.get? name).bind MetricValue.scalar).map fun _ =>
        getMetricWeight name step.1 step.2 := by
  induction steps with
  | nil => rfl
  | cons step steps ih =>
      have hstep : Py.valuesOf name ((recordsOf step.1 step.2).map fun r => (r.1, r.2.2)) =
          (((step.1.get? name).bind MetricValue.scalar).map fun _ =>
            getMetricWeight name step.1 step.2).toList := by
        have h := valuesOf_filterMap step.1.nodup
          (fun key _ => getMetricWeight key step.1 step.2) name
        rw [recordsOf, List.map_filterMap]
        simp only [Option.map_map]
        exact h
      rw [logOf, List.flatMap_cons, List.map_append, Py.valuesOf_append, hstep]
      refine (congrArg _ ih).trans ?_
      rw [List.filterMap_cons]
      cases (step.1.get? name).bind MetricValue.scalar <;> rfl

/-- The result under a name is made of its values, iteration by iteration. -/
theorem get?_getAggregatedMetrics {steps : List (Py.Dict String MetricValue × Int)}
    {name : String} (hname : name ≠ "global_seqlen/minmax_diff")
    (hvalues : (steps.filterMap fun step => (step.1.get? name).bind MetricValue.scalar) ≠ []) :
    (new.addSteps steps).getAggregatedMetrics.get? name =
      some ((new.addSteps steps).aggregateSingleMetric name
        (steps.filterMap fun step => (step.1.get? name).bind MetricValue.scalar)) := by
  have hlogged := logged_new.addSteps steps
  rw [List.nil_append] at hlogged
  have hcount : (new.addSteps steps).stepCount ≠ 0 := by
    rw [stepCount_addSteps]
    cases steps with
    | nil => exact absurd rfl hvalues
    | cons step steps => exact Nat.succ_ne_zero _
  have hspecial (aggregated : Py.Dict String ℚ) :
      (specialMetricsAggregate aggregated).get? name = aggregated.get? name := by
    rw [specialMetricsAggregate]
    split
    · rw [Py.Dict.get?_set, if_neg hname]
    · rfl
  have hget : (new.addSteps steps).metricValues.get? name =
      some (steps.filterMap fun step => (step.1.get? name).bind MetricValue.scalar) := by
    rw [← valuesOf_logOf] at hvalues ⊢
    rw [hlogged.values, Py.get?_groupBy, if_pos]
    by_contra hnot
    exact hvalues (Py.valuesOf_eq_nil hnot)
  rw [getAggregatedMetrics, if_neg hcount, hspecial, Py.Dict.get?_mapEntries, hget]
  rfl

/-- The weights under a name, iteration by iteration. -/
theorem metricWeights_addSteps (steps : List (Py.Dict String MetricValue × Int)) (name : String) :
    ((new.addSteps steps).metricWeights.get? name).getD [] =
      steps.filterMap fun step => ((step.1.get? name).bind MetricValue.scalar).map fun _ =>
        getMetricWeight name step.1 step.2 := by
  have hlogged := logged_new.addSteps steps
  rw [List.nil_append] at hlogged
  rw [hlogged.weights, Py.getD_get?_groupBy, valuesOf_logOf_weights]

end MetricsAggregator

end Verl
