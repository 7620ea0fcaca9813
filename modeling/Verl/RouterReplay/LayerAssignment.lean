import Verl.Lib.Python

/-!
# The layers of a pipeline stage

A stage is a pipeline rank and one of its virtual chunks.  The number of layers
of a stage and the index of its first layer are computed from the configuration,
and the MoE layers of a stage are counted layer by layer with `moe_layer_freq`.

The functions of Megatron are parameters.  Where one of them asks the process for
its pipeline rank, the rank is the first argument.
-/

namespace Verl.RouterReplay

/-! ## The configuration -/

/-- `moe_layer_freq`. -/
inductive MoeLayerFreq where
  | int (freq : Int)
  | list (pattern : List Int)
  | other (typeName : String)

/-- What is read of the `TransformerConfig`. -/
structure TransformerConfig where
  numLayers : Nat
  moeLayerFreq : MoeLayerFreq
  pipelineModelParallelSize : Nat
  virtualPipelineModelParallelSize : Option Nat
  microbatchGroupSizePerVpStage : Nat
  numLayersInFirstPipelineStage : Option Nat
  numLayersInLastPipelineStage : Option Nat
  accountForEmbeddingInPipelineSplit : Bool
  accountForLossInPipelineSplit : Bool

/-- Megatron.  `layoutNumLayersToBuild` is there when the configuration has a
`pipeline_model_parallel_layout`, and `offsetHasVpStage` and `offsetHasPpRank` say
which parameters `get_transformer_layer_offset` has. -/
structure Megatron where
  layoutNumLayersToBuild : Option (Nat → Option Nat → Nat)
  isVpFirstStage : Option Nat → Option Nat → Bool
  isVpLastStage : Option Nat → Option Nat → Bool
  offsetHasVpStage : Bool
  offsetHasPpRank : Bool
  getTransformerLayerOffset : Nat → Option Nat → Option Nat → Nat
  getScheduleTable : Nat → Nat → Nat → List (Nat × Nat)

variable (megatron : Megatron) (config : TransformerConfig)

/-! ## Counting layers -/

/-- The layers of a pipeline rank when the first or the last one has its own number. -/
def unevenLayersPerPipelineRank (ppRank : Nat) : Except Py.Error Int := do
  Py.check (¬ (config.accountForEmbeddingInPipelineSplit || config.accountForLossInPipelineSplit))
    "             Does not support standalone embedding stage and standalone loss stage with uneven pp"
  let layersToDistribute : Int := config.numLayers -
    config.numLayersInFirstPipelineStage.getD 0 - config.numLayersInLastPipelineStage.getD 0
  let pipelineStagesLeft : Int := config.pipelineModelParallelSize -
    (if config.numLayersInFirstPipelineStage.isSome then 1 else 0) -
    (if config.numLayersInLastPipelineStage.isSome then 1 else 0)
  let numLayersPerPipelineRank ←
    if pipelineStagesLeft > 0 then do
      Py.check (layersToDistribute.fmod pipelineStagesLeft = 0)
        "With uneven pipelineing the left over layers must be divisible by left over stages"
      .ok (layersToDistribute.fdiv pipelineStagesLeft)
    else .ok 0
  let numLayersPerPipelineRank :=
    match config.numLayersInFirstPipelineStage with
    | some first => if ppRank = 0 then (first : Int) else numLayersPerPipelineRank
    | none => numLayersPerPipelineRank
  match config.numLayersInLastPipelineStage with
  | some last =>
      if ppRank + 1 = config.pipelineModelParallelSize then .ok (last : Int)
      else .ok numLayersPerPipelineRank
  | none => .ok numLayersPerPipelineRank

/-- The layers of a pipeline rank, where the embedding and the loss can count as layers. -/
def evenLayersPerPipelineRank : Except Py.Error Int := do
  let numLayers : Int := config.numLayers +
    (if config.accountForEmbeddingInPipelineSplit then 1 else 0) +
    (if config.accountForLossInPipelineSplit then 1 else 0)
  let rest ← Py.intMod numLayers config.pipelineModelParallelSize
  Py.check (rest = 0) "num_layers should be divisible by pipeline_model_parallel_size"
  return numLayers.fdiv config.pipelineModelParallelSize

/-- `get_num_layers_to_build`, on a pipeline rank. -/
def getNumLayersToBuild (rank : Nat) (vpStage ppRank : Option Nat) : Except Py.Error Int :=
  match megatron.layoutNumLayersToBuild with
  | some layout => .ok (layout rank vpStage)
  | none => do
      let ppRank := ppRank.getD rank
      let isFirstPpStage := ppRank = 0
      let isLastPpStage := ppRank + 1 = config.pipelineModelParallelSize
      let numLayersPerPipelineRank ←
        if config.numLayersInFirstPipelineStage.isSome || config.numLayersInLastPipelineStage.isSome
        then unevenLayersPerPipelineRank config ppRank
        else evenLayersPerPipelineRank config
      let vpSize := config.virtualPipelineModelParallelSize
      let numLayersToBuild ←
        match vpSize with
        | some vp =>
            if config.pipelineModelParallelSize > 1 then do
              let rest ← Py.intMod numLayersPerPipelineRank vp
              Py.check (rest = 0) (s!"num_layers_per_pipeline_rank {numLayersPerPipelineRank} " ++
                s!"            should be divisible by vp_size {vp}")
              .ok (numLayersPerPipelineRank.fdiv vp)
            else .ok numLayersPerPipelineRank
        | none => .ok numLayersPerPipelineRank
      let numLayersToBuild ←
        if config.accountForEmbeddingInPipelineSplit ∧ megatron.isVpFirstStage vpStage vpSize ∧
            isFirstPpStage then do
          Py.check (numLayersToBuild - 1 ≥ 0) "Not enough layers in the first virtual pipeline stage"
          .ok (numLayersToBuild - 1)
        else .ok numLayersToBuild
      if config.accountForLossInPipelineSplit ∧ megatron.isVpLastStage vpStage vpSize ∧
          isLastPpStage then do
        Py.check (numLayersToBuild - 1 ≥ 0) "Not enough layers in the last virtual pipeline stage"
        return numLayersToBuild - 1
      else .ok numLayersToBuild

/-- `is_moe_layer`. -/
def isMoeLayer (layerIdx : Nat) : Except Py.Error Bool :=
  match config.moeLayerFreq with
  | .int freq => do
      let rest ← Py.intMod layerIdx freq
      return decide (rest = 0)
  | .list pattern => do
      let entry ← Py.getItem pattern layerIdx
      return decide (entry = 1)
  | .other typeName => .error (.value s!"Unsupported moe_layer_freq type: {typeName}")

/-- `sum(1 for idx in layers if is_moe_layer(config, idx))`. -/
def countMoeLayers (layers : List Nat) : Except Py.Error Nat := do
  let flags ← layers.mapM (isMoeLayer config)
  return flags.count true

/-- The offset that `get_moe_num_layers_to_build` asks for. -/
def moeLayerOffset (rank : Nat) (vpStage ppRank : Option Nat) : Nat :=
  if megatron.offsetHasVpStage && megatron.offsetHasPpRank then
    megatron.getTransformerLayerOffset rank vpStage ppRank
  else if megatron.offsetHasPpRank then megatron.getTransformerLayerOffset rank none ppRank
  else megatron.getTransformerLayerOffset rank none none

/-- `get_moe_num_layers_to_build`, on a pipeline rank. -/
def getMoeNumLayersToBuild (rank : Nat) (vpStage ppRank : Option Nat) : Except Py.Error Nat := do
  let totalLayers ← getNumLayersToBuild megatron config rank vpStage ppRank
  countMoeLayers config
    (List.range' (moeLayerOffset megatron rank vpStage ppRank) totalLayers.toNat)

/-- The offset that `get_current_rank_layer_info` asks for. -/
def currentRankLayerOffset (rank vpRank : Nat) : Nat :=
  if megatron.offsetHasVpStage then megatron.getTransformerLayerOffset rank (some vpRank) none
  else megatron.getTransformerLayerOffset rank none none

/-- `start` and `count` of `get_current_rank_layer_info`, on a pipeline rank. -/
def getCurrentRankLayerInfo (rank : Nat) (vpRank : Option Nat) : Except Py.Error (Nat × Nat) := do
  let vpRank := vpRank.getD 0
  let numLayersToBuild ← getNumLayersToBuild megatron config rank (some vpRank) none
  return (currentRankLayerOffset megatron rank vpRank, numLayersToBuild.toNat)

/-! ## Stages -/

/-- The number of virtual chunks of a pipeline rank. -/
def TransformerConfig.numChunks : Nat := config.virtualPipelineModelParallelSize.getD 1

/-- The first layer and the number of layers of each pipeline rank and chunk. -/
structure Stages where
  start : Nat → Nat → Nat
  count : Nat → Nat → Nat

/-- The layers of a stage. -/
def Stages.layers (stages : Stages) (pp vp : Nat) : List Nat :=
  List.range' (stages.start pp vp) (stages.count pp vp)

/-- The code builds these stages.  Chunk after chunk and rank after rank they have all
layers in order, and `moe_layer_freq` says of every layer whether it is an MoE layer. -/
structure Stages.Tile (stages : Stages) : Prop where
  own : ∀ rank < config.pipelineModelParallelSize, ∀ vp < config.numChunks,
    ∀ vpStage : Option Nat, vpStage = some vp ∨
        (vpStage = none ∧ config.virtualPipelineModelParallelSize = none) →
      getNumLayersToBuild megatron config rank vpStage none = .ok (stages.count rank vp : Int) ∧
        moeLayerOffset megatron rank vpStage none = stages.start rank vp
  current : ∀ rank < config.pipelineModelParallelSize, ∀ vp < config.numChunks,
    currentRankLayerOffset megatron rank vp = stages.start rank vp
  others : config.virtualPipelineModelParallelSize.isSome →
    ∀ rank < config.pipelineModelParallelSize, ∀ pp < config.pipelineModelParallelSize,
      ∀ vp < config.numChunks,
        getNumLayersToBuild megatron config rank (some vp) (some pp) =
            .ok (stages.count pp vp : Int) ∧
          moeLayerOffset megatron rank (some vp) (some pp) = stages.start pp vp
  tile : ((List.range config.numChunks).flatMap fun vp =>
      (List.range config.pipelineModelParallelSize).flatMap fun pp => stages.layers pp vp) =
    List.range config.numLayers
  freq : ∀ layer < config.numLayers, ∃ moe, isMoeLayer config layer = .ok moe

/-- `is_moe_layer` for a layer of the model. -/
def isMoe (layerIdx : Nat) : Bool :=
  match isMoeLayer config layerIdx with
  | .ok moe => moe
  | .error _ => false

/-- The MoE layers of a stage. -/
def Stages.moeLayers (stages : Stages) (pp vp : Nat) : List Nat :=
  (stages.layers pp vp).filter (isMoe config)

/-- The MoE layers of the model. -/
def TransformerConfig.moeLayers : List Nat := (List.range config.numLayers).filter (isMoe config)

variable {megatron config}

theorem isMoeLayer_eq {layer : Nat} (h : ∃ moe, isMoeLayer config layer = .ok moe) :
    isMoeLayer config layer = .ok (isMoe config layer) := by
  obtain ⟨moe, hmoe⟩ := h
  rw [isMoe, hmoe]

theorem countMoeLayers_eq {layers : List Nat}
    (h : ∀ layer ∈ layers, ∃ moe, isMoeLayer config layer = .ok moe) :
    countMoeLayers config layers = .ok (layers.filter (isMoe config)).length := by
  rw [countMoeLayers, Py.mapM_eq_ok fun layer hl => isMoeLayer_eq (h layer hl), Py.ok_bind,
    List.count_eq_countP, List.countP_map, List.countP_eq_length_filter, Py.pure_eq_ok]
  congr 3
  funext layer
  exact beq_true _

section Tile

variable {stages : Stages} (htile : stages.Tile megatron config)

include htile

/-- The MoE layers of the stages, in order, are the MoE layers of the model. -/
theorem flatMap_moeLayers :
    ((List.range config.numChunks).flatMap fun vp =>
      (List.range config.pipelineModelParallelSize).flatMap fun pp =>
        stages.moeLayers config pp vp) = config.moeLayers := by
  rw [TransformerConfig.moeLayers, ← htile.tile, List.filter_flatMap]
  congr 1
  funext vp
  rw [List.filter_flatMap]
  rfl

theorem mem_moeLayers_iff {layer : Nat} :
    layer ∈ config.moeLayers ↔ ∃ vp < config.numChunks,
      ∃ pp < config.pipelineModelParallelSize, layer ∈ stages.moeLayers config pp vp := by
  rw [← flatMap_moeLayers htile]
  simp only [List.mem_flatMap, List.mem_range]

theorem layer_lt {pp vp layer : Nat} (hpp : pp < config.pipelineModelParallelSize)
    (hvp : vp < config.numChunks) (h : layer ∈ stages.layers pp vp) :
    layer < config.numLayers := by
  rw [← List.mem_range, ← htile.tile]
  exact List.mem_flatMap.mpr ⟨vp, List.mem_range.mpr hvp,
    List.mem_flatMap.mpr ⟨pp, List.mem_range.mpr hpp, h⟩⟩

theorem countMoeLayers_stage {pp vp : Nat} (hpp : pp < config.pipelineModelParallelSize)
    (hvp : vp < config.numChunks) :
    countMoeLayers config (List.range' (stages.start pp vp) (stages.count pp vp)) =
      .ok (stages.moeLayers config pp vp).length :=
  countMoeLayers_eq fun layer hl => htile.freq layer (layer_lt htile hpp hvp hl)

/-- A process counts the MoE layers of its own chunks. -/
theorem getMoeNumLayersToBuild_own {rank vp : Nat} {vpStage : Option Nat}
    (hrank : rank < config.pipelineModelParallelSize) (hvp : vp < config.numChunks)
    (hstage : vpStage = some vp ∨
      (vpStage = none ∧ config.virtualPipelineModelParallelSize = none)) :
    getMoeNumLayersToBuild megatron config rank vpStage none =
      .ok (stages.moeLayers config rank vp).length := by
  obtain ⟨hcount, hstart⟩ := htile.own rank hrank vp hvp vpStage hstage
  rw [getMoeNumLayersToBuild, hcount, Py.ok_bind, hstart, Int.toNat_natCast]
  exact countMoeLayers_stage htile hrank hvp

/-- With virtual chunks, a process counts the MoE layers of every stage. -/
theorem getMoeNumLayersToBuild_others {rank pp vp : Nat}
    (hvirtual : config.virtualPipelineModelParallelSize.isSome)
    (hrank : rank < config.pipelineModelParallelSize)
    (hpp : pp < config.pipelineModelParallelSize) (hvp : vp < config.numChunks) :
    getMoeNumLayersToBuild megatron config rank (some vp) (some pp) =
      .ok (stages.moeLayers config pp vp).length := by
  obtain ⟨hcount, hstart⟩ := htile.others hvirtual rank hrank pp hpp vp hvp
  rw [getMoeNumLayersToBuild, hcount, Py.ok_bind, hstart, Int.toNat_natCast]
  exact countMoeLayers_stage htile hpp hvp

theorem getCurrentRankLayerInfo_eq {rank : Nat} {vpRank : Option Nat}
    (hrank : rank < config.pipelineModelParallelSize) (hvp : vpRank.getD 0 < config.numChunks) :
    getCurrentRankLayerInfo megatron config rank vpRank =
      .ok (stages.start rank (vpRank.getD 0), stages.count rank (vpRank.getD 0)) := by
  obtain ⟨hcount, -⟩ := htile.own rank hrank _ hvp _ (.inl rfl)
  rw [getCurrentRankLayerInfo, hcount, Py.ok_bind, htile.current rank hrank _ hvp,
    Int.toNat_natCast, Py.pure_eq_ok]

end Tile

end Verl.RouterReplay
