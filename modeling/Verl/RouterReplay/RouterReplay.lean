import Verl.Lib.Jagged
import Verl.Lib.Slices
import Verl.RouterReplay.LayerAssignment

/-!
# Recording and replaying routers

Every router of an MoE layer has a `RouterReplay` instance, and a process has the
instances of its chunks in one list.  In a recording pass the top-k indices of a
micro-batch are read off the instances of a chunk, narrowed to bytes and put in the order
of the tokens.  The chunks of a pipeline rank and then the ranks are put together along
the dimension of the layers.  In a replay the rows of a micro-batch are given back to
the instances of a chunk.

The sequence-parallel ranks of a pipeline rank run the same code, so a value that they
have in parts is a function of the rank.
-/

namespace Verl.RouterReplay

/-! ## Instances -/

inductive RouterReplayAction where
  | record
  | replayForward
  | replayBackward
deriving DecidableEq

/-- A row of top-k indices, as `int64` and as `uint8`. -/
abbrev TopkRow (topK : Nat) := Fin topK → Nat

abbrev ByteRow (topK : Nat) := Fin topK → UInt8

/-- `.to(torch.uint8)`. -/
def TopkRow.toByte {topK : Nat} (row : TopkRow topK) : ByteRow topK := fun i => (row i).toUInt8

/-- `.to(torch.int64)`. -/
def ByteRow.toInt {topK : Nat} (row : ByteRow topK) : TopkRow topK := fun i => (row i).toNat

/-- `RouterReplay`.  `layer` is the layer of the router that has the instance. -/
structure RouterInstance (topK : Nat) where
  layer : Nat
  targetTopkIdx : Option (Nat → List (TopkRow topK))
  targetReplayMask : Option (Nat → List Bool)
  recordedTopkIdx : Option (Nat → List (TopkRow topK))
  routerReplayAction : Option RouterReplayAction
  replayBackwardList : List (Nat → List (TopkRow topK))
  replayBackwardMaskList : List (Option (Nat → List Bool))

namespace RouterInstance

variable {topK : Nat}

/-- `RouterReplay.__init__`. -/
def init (layer : Nat) : RouterInstance topK := ⟨layer, none, none, none, none, [], []⟩

def setTargetIndices (router : RouterInstance topK) (topkIndices : Nat → List (TopkRow topK))
    (replayMask : Option (Nat → List Bool)) : RouterInstance topK :=
  { router with
    targetTopkIdx := some topkIndices
    targetReplayMask := replayMask
    replayBackwardList := router.replayBackwardList ++ [topkIndices]
    replayBackwardMaskList := router.replayBackwardMaskList ++ [replayMask] }

def recordIndices (router : RouterInstance topK) (topkIndices : Nat → List (TopkRow topK)) :
    RouterInstance topK :=
  { router with recordedTopkIdx := some topkIndices }

def setRouterReplayAction (router : RouterInstance topK) (action : RouterReplayAction) :
    RouterInstance topK :=
  { router with routerReplayAction := some action }

end RouterInstance

/-! ## The instances of a chunk -/

section Chunk

variable {topK : Nat} (megatron : Megatron) (config : TransformerConfig) (rank : Nat)

/-- The slice of `RouterReplay.router_instances` that `get_micro_batch_router_list` takes:
where it begins and how many instances it has. -/
def microBatchRouterRange (vpRank : Option Nat) : Except Py.Error (Nat × Nat) :=
  match config.virtualPipelineModelParallelSize with
  | some vpSize => do
      let vpRank := vpRank.getD 0
      let before ← ((List.range vpSize).takeWhile (· ≠ vpRank)).mapM fun preVpStage =>
        getMoeNumLayersToBuild megatron config rank (some preVpStage) none
      let numLayersToBuild ← getMoeNumLayersToBuild megatron config rank (some vpRank) none
      return (before.sum, numLayersToBuild)
  | none => do
      let numLayersToBuild ← getMoeNumLayersToBuild megatron config rank vpRank none
      return (0, numLayersToBuild)

/-- `get_micro_batch_router_list`. -/
def getMicroBatchRouterList (vpRank : Option Nat) (routerInstances : List (RouterInstance topK)) :
    Except Py.Error (List (RouterInstance topK)) := do
  let (offset, numLayersToBuild) ← microBatchRouterRange megatron config rank vpRank
  return Slices.slice routerInstances offset numLayersToBuild

/-- `is_r2_record_action`. -/
def isR2RecordAction (vpRank : Option Nat) (routerInstances : List (RouterInstance topK)) :
    Except Py.Error Bool := do
  let routers ← getMicroBatchRouterList megatron config rank vpRank routerInstances
  match routers with
  | [] => return false
  | router :: _ => return decide (router.routerReplayAction = some .record)

end Chunk

/-! ## Nested tensors of indices -/

/-- A nested tensor of shape `[bs, seq_len, layer_num, topk]`: the lengths of the samples,
and the rows of all tokens, each with an entry for every layer. -/
structure LayersTopk (ρ : Type) where
  numLayers : Nat
  lengths : List Nat
  values : List (List ρ)

namespace LayersTopk

variable {ρ : Type}

/-- A sample of a nested tensor. -/
structure Sample (ρ : Type) where
  numLayers : Nat
  rows : List (List ρ)

def unbind (nt : LayersTopk ρ) : List (Sample ρ) :=
  (Jagged.rows nt.values nt.lengths).map fun rows => ⟨nt.numLayers, rows⟩

/-- `torch.nested.as_nested_tensor` with the jagged layout. -/
def asNestedTensor (samples : List (Sample ρ)) : Except Py.Error (LayersTopk ρ) :=
  match samples with
  | [] => .error (.runtime "all tensors in list must have the same dtype")
  | sample :: _ =>
      if ∀ s ∈ samples, s.numLayers = sample.numLayers then
        .ok ⟨sample.numLayers, samples.map fun s => s.rows.length, samples.flatMap Sample.rows⟩
      else .error (.runtime "all components must have the same shape except the ragged dimension")

/-- `torch.cat` of two tensors with `dim=2`.  The result has the lengths of the first. -/
def cat₂ (x y : LayersTopk ρ) : Except Py.Error (LayersTopk ρ) :=
  if x.values.length = y.values.length then
    .ok ⟨x.numLayers + y.numLayers, x.lengths, List.zipWith (· ++ ·) x.values y.values⟩
  else .error (.runtime "Sizes of tensors must match except in dimension 2")

/-- `torch.cat` with `dim=2`. -/
def cat : List (LayersTopk ρ) → Except Py.Error (LayersTopk ρ)
  | [] => .error (.value "expected a non-empty list of Tensors")
  | x :: xs => xs.foldlM cat₂ x

/-- `t[:, start:stop, :]`. -/
def Sample.piece (sample : Sample ρ) (start stop : Nat) : Sample ρ where
  numLayers := min stop sample.numLayers - start
  rows := sample.rows.map fun row => Slices.slice row start (stop - start)

end LayersTopk

/-- The layers of a recording, stacked and permuted, with their number: a tensor of shape
`[dynamic_bs, layer_num, topk]` on every rank. -/
def stackLayers {ρ : Type} (worldSize : Nat) (layers : List (Nat → List ρ)) (zero : ρ) :
    Except Py.Error (Nat × (Nat → List (List ρ))) :=
  match layers with
  | [] => .error (.runtime "stack expects a non-empty TensorList")
  | first :: _ =>
      if ∀ layer ∈ layers, ∀ rank < worldSize, (layer rank).length = (first rank).length then
        .ok (layers.length, fun rank => (List.range (first rank).length).map fun i =>
          layers.map fun layer => (layer rank).getD i zero)
      else .error (.runtime "stack expects each tensor to be equal size")

/-! ## The packed layout -/

/-- The sequence-parallel region, and the packing of `verl.models.mcore.util` with the
alignment of the configuration.  `preprocess` fills the rows without a token. -/
structure PackedLayout where
  worldSize : Nat
  gather : {α : Type} → (Nat → List α) → List α
  scatter : {α : Type} → List α → Nat → List α
  preprocess : {α : Type} → α → List (List α) → List α
  postprocess : {α : Type} → List α → List Nat → List (List α)

/-- The two directions are inverse.  Token `j` of sample `s` is in a row of a rank
(`place`): there the packing puts it, and from there it is read back. -/
structure PackedLayout.Inverse (layout : PackedLayout) (localRows : List Nat → Nat → Nat)
    (place : List Nat → Nat → Nat → Nat × Nat) : Prop where
  place_lt : ∀ (lengths : List Nat) (s j len : Nat), lengths[s]? = some len → j < len →
    (place lengths s j).1 < layout.worldSize ∧
      (place lengths s j).2 < localRows lengths (place lengths s j).1
  postprocess_lengths : ∀ {α : Type} (lengths : List Nat) (parts : Nat → List α),
    (∀ rank < layout.worldSize, (parts rank).length = localRows lengths rank) →
      (layout.postprocess (layout.gather parts) lengths).map List.length = lengths
  postprocess_gather : ∀ {α : Type} (lengths : List Nat) (parts : Nat → List α),
    (∀ rank < layout.worldSize, (parts rank).length = localRows lengths rank) →
      ∀ (s j : Nat) (sample : List α),
        (layout.postprocess (layout.gather parts) lengths)[s]? = some sample →
        j < sample.length →
          sample[j]? = (parts (place lengths s j).1)[(place lengths s j).2]?
  scatter_preprocess : ∀ {α : Type} (pad : α) (samples : List (List α)) (s j : Nat)
    (sample : List α), samples[s]? = some sample → j < sample.length →
      (layout.scatter (layout.preprocess pad samples)
        (place (samples.map List.length) s j).1)[(place (samples.map List.length) s j).2]? =
          sample[j]?

/-! ## Recording -/

section Record

variable {topK : Nat} (megatron : Megatron) (config : TransformerConfig) (layout : PackedLayout)
  (rank : Nat)

/-- `router.recorded_topk_idx.to(torch.uint8)`. -/
def RouterInstance.recordedBytes (router : RouterInstance topK) :
    Except Py.Error (Nat → List (ByteRow topK)) :=
  match router.recordedTopkIdx with
  | some rows => .ok fun spRank => (rows spRank).map TopkRow.toByte
  | none => .error (.type "'NoneType' object has no attribute 'to'")

/-- What `merge_router_topk_indices` appends to the list, for nested `input_ids` with these
lengths. -/
def mergeRouterTopkIndices (lengths : List Nat) (vpRank : Option Nat)
    (routerInstances : List (RouterInstance topK)) :
    Except Py.Error (LayersTopk (ByteRow topK)) := do
  let routers ← getMicroBatchRouterList megatron config rank vpRank routerInstances
  let recorded ← routers.mapM RouterInstance.recordedBytes
  let (numLayers, layersTopkIdx) ← stackLayers layout.worldSize recorded fun _ => 0
  let samples := layout.postprocess (layout.gather layersTopkIdx) lengths
  return ⟨numLayers, samples.map List.length, samples.flatten⟩

/-- `reorder_and_merge_vpp_layers`, for nested tensors. -/
def reorderAndMergeVppLayers (microBatchTensorList : List (LayersTopk (ByteRow topK)))
    (numMicrobatches vppSize microbatchGroupSizePerVpStage : Nat) :
    Except Py.Error (LayersTopk (ByteRow topK)) := do
  let scheduleTable :=
    megatron.getScheduleTable numMicrobatches vppSize microbatchGroupSizePerVpStage
  let entries ← scheduleTable.zipIdx.mapM fun ((_, chunkId), vidx) => do
    let tensor ← Py.getItem microBatchTensorList vidx
    if chunkId < vppSize then .ok (chunkId, tensor) else .error .index
  let miniTensorList ← (List.range vppSize).mapM fun chunkId =>
    LayersTopk.asNestedTensor
      ((entries.filter (·.1 = chunkId)).flatMap fun entry => entry.2.unbind)
  LayersTopk.cat miniTensorList

/-- `torch.distributed.all_gather_object`, which does not end when a rank does not call it. -/
def allGatherObject {α : Type} (parts : List (Option α)) : Except Py.Error (List α) :=
  parts.mapM fun part =>
    match part with
    | some x => .ok x
    | none => .error (.runtime "all_gather_object timed out")

/-- `pp_gather` for nested tensors, where `parts` has the tensor of each pipeline rank that
calls it. -/
def ppGather (parts : List (Option (LayersTopk (ByteRow topK))))
    (localLayersRouterMap : LayersTopk (ByteRow topK)) :
    Except Py.Error (LayersTopk (ByteRow topK)) :=
  if config.pipelineModelParallelSize ≤ 1 then .ok localLayersRouterMap
  else do
    let layersTopkIdxGlobalList ← allGatherObject parts
    match config.virtualPipelineModelParallelSize with
    | none => LayersTopk.cat layersTopkIdxGlobalList
    | some vpSize => do
        let counts ← (List.range config.pipelineModelParallelSize).mapM fun ppStage =>
          (List.range vpSize).mapM fun vpStage =>
            getMoeNumLayersToBuild megatron config rank (some vpStage) (some ppStage)
        let pieces ← ((List.range vpSize).flatMap fun vpStage =>
            (List.range config.pipelineModelParallelSize).map fun ppStage =>
              (vpStage, ppStage)).mapM fun (vpStage, ppStage) => do
          let stageCounts ← Py.getItem counts ppStage
          let tensor ← Py.getItem layersTopkIdxGlobalList ppStage
          LayersTopk.asNestedTensor (tensor.unbind.map fun sample =>
            sample.piece (stageCounts.take vpStage).sum (stageCounts.take (vpStage + 1)).sum)
        LayersTopk.cat pieces

end Record

/-! ## Replaying -/

section Replay

variable {topK : Nat} (megatron : Megatron) (config : TransformerConfig) (layout : PackedLayout)
  (rank : Nat)

/-- The loop of `set_router_replay_data` over the layers of the chunk.  `layersTopkIdx` are
the entries of the first dimension after the permutation. -/
def setTargets (layersTopkIdx : List (Nat → List (TopkRow topK)))
    (replayMask : Option (Nat → List Bool)) (indexByLayer : Bool) :
    List Nat → Nat → Nat → List (RouterInstance topK) →
      Except Py.Error (List (RouterInstance topK))
  | [], _, _, routers => .ok routers
  | layerIdx :: layers, routerOffset, moeIdx, routers => do
      let moe ← isMoeLayer config layerIdx
      if moe then
        let router ← Py.getItem routers routerOffset
        let target ← Py.getItem layersTopkIdx (if indexByLayer then layerIdx else moeIdx)
        setTargets layersTopkIdx replayMask indexByLayer layers (routerOffset + 1) (moeIdx + 1)
          (routers.set routerOffset (router.setTargetIndices target replayMask))
      else setTargets layersTopkIdx replayMask indexByLayer layers routerOffset moeIdx routers

/-- `set_router_replay_data` for nested tensors: `RouterReplay.router_instances` afterwards. -/
def setRouterReplayData (layersTopkIdx : LayersTopk (ByteRow topK)) (vpRank : Option Nat)
    (replayMask : Option (List (List Bool))) (routerInstances : List (RouterInstance topK)) :
    Except Py.Error (List (RouterInstance topK)) := do
  let layersTopkIdxRmpad := layout.preprocess (List.replicate layersTopkIdx.numLayers fun _ => 0)
    (Jagged.rows layersTopkIdx.values layersTopkIdx.lengths)
  let replayMaskRmpadSplit :=
      replayMask.map fun mask => layout.scatter (layout.preprocess false mask)
  let layersTopkIdxRmpadSplit := layout.scatter layersTopkIdxRmpad
  let layersTopkIdxReshape := (List.range layersTopkIdx.numLayers).map fun idx spRank =>
    (layersTopkIdxRmpadSplit spRank).map fun row => ByteRow.toInt (row.getD idx fun _ => 0)
  let (offset, count) ← getCurrentRankLayerInfo megatron config rank vpRank
  let (routerStart, numRouters) ← microBatchRouterRange megatron config rank vpRank
  let indexByLayer := decide (layersTopkIdxReshape.length = config.numLayers)
  let moeIdx ← countMoeLayers config (List.range offset)
  let routers ← setTargets config layersTopkIdxReshape replayMaskRmpadSplit indexByLayer
    (List.range' offset count) 0 moeIdx (Slices.slice routerInstances routerStart numRouters)
  return Slices.write routerInstances routerStart routers

end Replay

end Verl.RouterReplay
