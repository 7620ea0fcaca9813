import Verl.Balance.MicroBatch
import Verl.Lib.Dict
import Verl.Workers.ForwardStep

/-!
# The router traces of the old policy

`_compute_old_log_prob` runs the old policy on the batch, one part of it on each
data-parallel worker, with the router hooks on.  A worker splits its part into
micro-batches, puts the rows of their traces back into the order of the part and
writes them under the keys of the rows.  The trainer writes them again as the old
traces, in their full length.  The actor update reads them by the keys of its own
micro-batches.
-/

namespace Verl

variable {σ : Type}

/-! ## Rows of nested tensors -/

/-- A row of a nested trace, of shape `(j1, L, K)`. -/
structure TraceRow (σ : Type) where
  numLayers : Nat
  topK : Nat
  tokens : List (Nat → Nat → σ)

namespace NestedTrace

/-- `nt.unbind()`. -/
def unbind (trace : NestedTrace σ) : List (TraceRow σ) :=
  (Jagged.rows trace.tensor.values trace.lengths).map fun tokens =>
    ⟨trace.tensor.numLayers, trace.tensor.topK, tokens⟩

/-- `nested_tensor_from_tensor_list`. -/
def ofRows (rows : List (TraceRow σ)) : Except Py.Error (NestedTrace σ) :=
  match rows with
  | [] => .error (.assertion "Must provide at least one tensor")
  | first :: _ =>
      if ∀ row ∈ rows, row.numLayers = first.numLayers ∧ row.topK = first.topK then
        .ok ⟨⟨first.numLayers, first.topK, rows.flatMap TraceRow.tokens⟩,
          rows.map fun row => row.tokens.length⟩
      else .error (.runtime "Sizes of tensors must match except in dimension 0")

end NestedTrace

/-! ## The store -/

/-- The columns of the partition in the TransferQueue. -/
structure RouterStore (σ : Type) where
  routerScores : Py.Dict String (TraceRow σ)
  routerIndices : Py.Dict String (TraceRow Nat)
  oldRouterScoresNested : Py.Dict String (TraceRow σ)
  oldRouterIndicesNested : Py.Dict String (TraceRow Nat)

def RouterStore.empty : RouterStore σ := ⟨.empty, .empty, .empty, .empty⟩

/-- `kv_batch_put` of one field. -/
def RouterStore.kvBatchPut {α : Type} (column : Py.Dict String α) (keys : List String)
    (field : List α) :
    Py.Dict String α := column.update (keys.zip field)

/-- `kv_batch_get` of one field. -/
def RouterStore.kvBatchGet {α : Type} (column : Py.Dict String α) (keys : List String) :
    Except Py.Error (List α) :=
  keys.mapM fun key =>
    match column.get? key with
    | some row => .ok row
    | none => .error .key

/-! ## The run -/

/-- The rows of a data-parallel worker, and the indices of its micro-batches. -/
structure WorkerPart where
  rows : List BatchRow
  batchIdxList : List (List Nat)

/-- A micro-batch of the actor update. -/
structure UpdateBatch where
  rows : List BatchRow
  layout : ResponseLayout

/-- An old-policy pass and the micro-batches of an actor update.  With `sentinels`
the flags come also as tensors. -/
structure RouterShiftRun (σ : Type) where
  spSize : Nat
  useRemovePadding : Bool
  useDynamicBsz : Bool
  sentinels : Bool
  old : Policy PackedToken σ
  current : Policy PackedToken σ
  workers : List WorkerPart
  updates : List UpdateBatch

namespace RouterShiftRun

variable (run : RouterShiftRun σ)

/-- The rows of the batch. -/
def batch : List BatchRow := run.workers.flatMap WorkerPart.rows

/-- A sentinel for a flag that is on. -/
def sentinel (rows : List BatchRow) : Option (List Bool) :=
  if run.sentinels then some (List.replicate rows.length true) else none

/-- A micro-batch of the old-policy pass. -/
def captureBatch (rows : List BatchRow) : MicroBatch σ where
  rows := rows
  layout := .nested (rows.map BatchRow.prompt) (rows.map BatchRow.response) none
  useRemovePadding := run.useRemovePadding
  captureRouterTrace := true
  computeRouterShift := false
  captureRouterTraceTensor := run.sentinel rows
  computeRouterShiftTensor := none
  oldRouterScoresNested := none
  oldRouterIndicesNested := none

/-- A micro-batch of the actor update, with the old traces of its rows. -/
def shiftBatch (update : UpdateBatch) (oldScores : NestedTrace σ) (oldIndices : NestedTrace Nat) :
    MicroBatch σ where
  rows := update.rows
  layout := update.layout
  useRemovePadding := run.useRemovePadding
  captureRouterTrace := false
  computeRouterShift := true
  captureRouterTraceTensor := none
  computeRouterShiftTensor := run.sentinel update.rows
  oldRouterScoresNested := some oldScores
  oldRouterIndicesNested := some oldIndices

/-- The rows of one output of all micro-batches, in the order of the worker's rows, as
`postprocess_batch_func` returns them. -/
def restoreRows {α : Type} (batchIdxList : List (List Nat)) (outputs : List (NestedTrace α)) :
    Except Py.Error (List (TraceRow α)) :=
  let rows := outputs.flatMap NestedTrace.unbind
  if run.useDynamicBsz then restoreDynamicBatch rows batchIdxList else .ok rows

variable [Zero σ]

/-- `compute_log_prob` on a worker.  The first rank of its group is collected. -/
def computeLogProb (part : WorkerPart) :
    Except Py.Error (List (TraceRow σ) × List (TraceRow Nat)) := do
  let microBatches ← part.batchIdxList.mapM (indexSelectTensorDict part.rows)
  let outputs ← microBatches.mapM fun rows =>
    forwardStep run.spSize run.old (run.captureBatch rows) 0
  let scores ← run.restoreRows part.batchIdxList (outputs.filterMap ForwardOutput.routerScores)
  let indices ← run.restoreRows part.batchIdxList (outputs.filterMap ForwardOutput.routerIndices)
  return (scores, indices)

/-- A worker writes its outputs under the keys of its rows. -/
def workerPass (store : RouterStore σ) (part : WorkerPart) : Except Py.Error (RouterStore σ) := do
  let (scores, indices) ← run.computeLogProb part
  return { store with
    routerScores := RouterStore.kvBatchPut store.routerScores (part.rows.map BatchRow.key) scores
    routerIndices :=
      RouterStore.kvBatchPut store.routerIndices (part.rows.map BatchRow.key) indices }

/-- `_compute_old_log_prob`. -/
def computeOldLogProb : Except Py.Error (RouterStore σ) := do
  let store ← run.workers.foldlM run.workerPass RouterStore.empty
  let keys := run.batch.map BatchRow.key
  let routerScores ← RouterStore.kvBatchGet store.routerScores keys
  let routerIndices ← RouterStore.kvBatchGet store.routerIndices keys
  return { store with
    oldRouterScoresNested := RouterStore.kvBatchPut store.oldRouterScoresNested keys routerScores
    oldRouterIndicesNested :=
      RouterStore.kvBatchPut store.oldRouterIndicesNested keys routerIndices }

/-- A forward step of the actor update, on one rank. -/
def updateStep (store : RouterStore σ) (update : UpdateBatch) (rank : Nat) :
    Except Py.Error (ForwardOutput σ) := do
  let scores ← RouterStore.kvBatchGet store.oldRouterScoresNested (update.rows.map BatchRow.key)
  let indices ← RouterStore.kvBatchGet store.oldRouterIndicesNested (update.rows.map BatchRow.key)
  let oldScores ← NestedTrace.ofRows scores
  let oldIndices ← NestedTrace.ofRows indices
  forwardStep run.spSize run.current (run.shiftBatch update oldScores oldIndices) rank

end RouterShiftRun

end Verl
