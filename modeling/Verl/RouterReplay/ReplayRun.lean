import Verl.RouterReplay.RouterReplay

/-!
# A recording pass and its replay

The engine records the micro-batches in the order of the schedule, every chunk of a
pipeline rank its own layers.  Each rank assembles its tensors and `pp_gather` makes the
tensor of all MoE layers.  To replay a micro-batch, the rows of its samples are given to
a chunk.
-/

namespace Verl.RouterReplay

/-- What the routers choose in a forward pass: for a micro-batch and a layer, the top-k
indices of the rows on every sequence-parallel rank. -/
structure Recording (layout : PackedLayout) (localRows : List Nat → Nat → Nat) (topK : Nat) where
  /-- The lengths of the samples of each micro-batch. -/
  microBatches : List (List Nat)
  numExperts : Nat
  routing : Nat → Nat → Nat → List (TopkRow topK)
  microBatches_ne_nil : ∀ lengths ∈ microBatches, lengths ≠ []
  length_routing : ∀ (mb : Nat) (lengths : List Nat), microBatches[mb]? = some lengths →
    ∀ layer, ∀ spRank < layout.worldSize,
      (routing mb layer spRank).length = localRows lengths spRank
  routing_lt : ∀ mb layer spRank, ∀ row ∈ routing mb layer spRank, ∀ i, row i < numExperts

variable {layout : PackedLayout} {localRows : List Nat → Nat → Nat} {topK : Nat}
  (megatron : Megatron) (config : TransformerConfig) (stages : Stages)
  (recording : Recording layout localRows topK)

namespace Recording

/-! ## Recording -/

/-- `RouterReplay.router_instances` after the chunks of a pipeline rank are built. -/
def routerInstances (topK : Nat) (rank : Nat) (action : RouterReplayAction) :
    List (RouterInstance topK) :=
  ((List.range config.numChunks).flatMap fun vp => stages.moeLayers config rank vp).map fun layer =>
    (RouterInstance.init layer).setRouterReplayAction action

/-- The forward pass of a micro-batch through a chunk. -/
def forward (rank mb vp : Nat) (routers : List (RouterInstance topK)) :
    List (RouterInstance topK) :=
  routers.map fun router =>
    if router.layer ∈ stages.layers rank vp then
      router.recordIndices (recording.routing mb router.layer)
    else router

/-- The forward step of the engine: the instances, and what is appended to
`mini_layer_topk_idx_list`. -/
def forwardStep (rank mb vp : Nat) (routers : List (RouterInstance topK)) :
    Except Py.Error (List (RouterInstance topK) × List (LayersTopk (ByteRow topK))) := do
  let routers := recording.forward stages rank mb vp routers
  let lengths ← Py.getItem recording.microBatches mb
  let record ← isR2RecordAction megatron config rank (some vp) routers
  if record then
    let merged ← mergeRouterTopkIndices megatron config layout rank lengths (some vp) routers
    return (routers, [merged])
  else return (routers, [])

/-- The micro-batches and chunks in the order of their forward passes. -/
def schedule : List (Nat × Nat) :=
  match config.virtualPipelineModelParallelSize with
  | some vpSize => megatron.getScheduleTable recording.microBatches.length vpSize
      config.microbatchGroupSizePerVpStage
  | none => (List.range recording.microBatches.length).map fun mb => (mb, 0)

/-- The forward steps of a pipeline rank. -/
def forwardSteps (rank : Nat) : List (Nat × Nat) → List (RouterInstance topK) →
    Except Py.Error (List (RouterInstance topK) × List (LayersTopk (ByteRow topK)))
  | [], routers => .ok (routers, [])
  | (mb, vp) :: steps, routers => do
      let (routers, merged) ← recording.forwardStep megatron config stages rank mb vp routers
      let (routers, rest) ← forwardSteps rank steps routers
      return (routers, merged ++ rest)

/-- The tensor that a pipeline rank gives to `pp_gather`, if it calls it. -/
def localRouterMap (rank : Nat) : Except Py.Error (Option (LayersTopk (ByteRow topK))) := do
  let (routers, miniLayerTopkIdxList) ← recording.forwardSteps megatron config stages rank
    (recording.schedule megatron config) (routerInstances config stages topK rank .record)
  let record ← isR2RecordAction megatron config rank none routers
  if record then
    match config.virtualPipelineModelParallelSize with
    | some vpSize => do
        let topkIdx ← reorderAndMergeVppLayers megatron miniLayerTopkIdxList
          recording.microBatches.length vpSize config.microbatchGroupSizePerVpStage
        return some topkIdx
    | none => do
        let topkIdx ← LayersTopk.asNestedTensor (miniLayerTopkIdxList.flatMap LayersTopk.unbind)
        return some topkIdx
  else return none

/-- `routed_experts`, as `pp_gather` returns it on a pipeline rank. -/
def routedExperts (source : Nat) : Except Py.Error (Option (LayersTopk (ByteRow topK))) := do
  let parts ← (List.range config.pipelineModelParallelSize).mapM
    (recording.localRouterMap megatron config stages)
  match parts[source]? with
  | some (some topkIdx) => do
      let layersTopkIdx ← ppGather megatron config source parts topkIdx
      return some layersTopkIdx
  | _ => return none

/-! ## Replaying -/

/-- The samples of a micro-batch. -/
def microBatchSamples (layersTopkIdx : LayersTopk (ByteRow topK)) (mb : Nat) :
    Except Py.Error (LayersTopk (ByteRow topK)) := do
  let lengths ← Py.getItem recording.microBatches mb
  LayersTopk.asNestedTensor (Slices.slice layersTopkIdx.unbind
    ((recording.microBatches.take mb).map List.length).sum lengths.length)

/-- `RouterReplay.router_instances` of a pipeline rank, after the rows of a micro-batch are
given to a chunk. -/
def replay (source rank : Nat) (vpRank : Option Nat) (mb : Nat)
    (replayMask : Option (List (List Bool))) : Except Py.Error (List (RouterInstance topK)) := do
  let routed ← recording.routedExperts megatron config stages source
  match routed with
  | none => .error (.type "'NoneType' object has no attribute 'is_nested'")
  | some layersTopkIdx => do
      let samples ← recording.microBatchSamples layersTopkIdx mb
      setRouterReplayData megatron config layout rank samples vpRank replayMask
        (routerInstances config stages topK rank .replayForward)

/-- In every replay of a micro-batch on a stage, the target of the router of an MoE layer has
for every token the indices that the layer recorded for it. -/
def Replayed (place : List Nat → Nat → Nat → Nat × Nat) : Prop :=
  ∀ source < config.pipelineModelParallelSize, ∀ rank < config.pipelineModelParallelSize,
    ∀ vpRank : Option Nat, vpRank.getD 0 < config.numChunks →
      ∀ (mb : Nat) (lengths : List Nat), recording.microBatches[mb]? = some lengths →
        ∀ replayMask, ∀ layer ∈ stages.moeLayers config rank (vpRank.getD 0),
          ∃ routers,
            recording.replay megatron config stages source rank vpRank mb replayMask =
                .ok routers ∧
              ∃ router ∈ routers, router.layer = layer ∧
                ∃ target, router.targetTopkIdx = some target ∧
                  ∀ s j len, lengths[s]? = some len → j < len →
                    (target (place lengths s j).1)[(place lengths s j).2]? =
                      (recording.routing mb layer (place lengths s j).1)[(place lengths s j).2]?

end Recording

end Verl.RouterReplay
