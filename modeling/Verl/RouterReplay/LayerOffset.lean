import Verl.Lib.Intervals
import Verl.RouterReplay.LayerAssignment

/-!
# The first layer of a pipeline stage

`get_transformer_layer_offset` of `verl/utils/megatron_utils.py`, beside
`get_num_layers_to_build`: the index of the first layer of a stage, that is of a pipeline
rank and one of its virtual chunks.  Any process may ask for the offset of any stage.

The stages tile the layers when the offsets that all processes compute are the ends of the
stages before.  When this is so depends on the configuration only (`tiles_iff`).
-/

namespace Verl.RouterReplay

open Interval

/-! ## The source function -/

namespace TransformerConfig

variable (config : TransformerConfig)

/-- The layers of the first stage, 0 when they are not given. -/
def firstLayers : Int := (config.numLayersInFirstPipelineStage.getD 0 : Nat)

/-- The layers of the last stage, 0 when they are not given. -/
def lastLayers : Int := (config.numLayersInLastPipelineStage.getD 0 : Nat)

/-- `middle_pipeline_stages` -/
def middlePipelineStages : Int := config.pipelineModelParallelSize -
  (if config.numLayersInFirstPipelineStage.isSome then 1 else 0) -
  (if config.numLayersInLastPipelineStage.isSome then 1 else 0)

/-- `middle_num_layers` -/
def middleNumLayers : Int := config.numLayers - config.firstLayers - config.lastLayers

/-- `num_layers` with the embedding and the loss where they are accounted for. -/
def accountedLayers : Int := config.numLayers +
  (if config.accountForEmbeddingInPipelineSplit then 1 else 0) +
  (if config.accountForLossInPipelineSplit then 1 else 0)

/-- The first or the last stage has its own number of layers. -/
def Uneven : Prop :=
  config.numLayersInFirstPipelineStage.isSome ∨ config.numLayersInLastPipelineStage.isSome

instance : Decidable config.Uneven := inferInstanceAs (Decidable (_ ∨ _))

end TransformerConfig

/-- The process that asks for an offset.  `layoutLayerOffset` is there when the
configuration has a `pipeline_model_parallel_layout`. -/
structure AskingProcess where
  layoutLayerOffset : Option (Option Nat → Int)
  isPipelineFirstStage : Option Nat → Bool

variable (process : AskingProcess) (config : TransformerConfig)

/-- `vp_stage`, which virtual chunks need. -/
def providedVpStage (vpStage : Option Nat) : Except Py.Error Int :=
  match vpStage with
  | some vpStage => .ok vpStage
  | none => .error (.assertion
      "vp_stage must be provided if virtual pipeline model parallel size is set")

/-- The layers in a virtual chunk of the first or of the last stage. -/
def endChunkLayers (layers : Option Nat) (vpSize : Nat) : Except Py.Error Int :=
  match layers with
  | some layers => Py.intDiv layers vpSize
  | none => .ok 0

/-- The offset when the first or the last stage has its own number of layers. -/
def unevenLayerOffset (pipelineRank : Nat) (vpStage : Option Nat) : Except Py.Error Int :=
  match config.virtualPipelineModelParallelSize with
  | some vpSize => do
      let vpStage ← providedVpStage vpStage
      let first ← endChunkLayers config.numLayersInFirstPipelineStage vpSize
      let last ← endChunkLayers config.numLayersInLastPipelineStage vpSize
      let middle ← Py.intDiv config.middleNumLayers vpSize
      if pipelineRank = 0 then return vpStage * (first + middle + last)
      else
        let perRank ← Py.intDiv middle config.middlePipelineStages
        return vpStage * (first + middle + last) + first + (pipelineRank - 1) * perRank
  | none =>
      let numLayersPerPipelineRank :=
        if config.middlePipelineStages > 0 then
          config.middleNumLayers.fdiv config.middlePipelineStages
        else 0
      let middlePipelineRank : Int :=
        if config.numLayersInFirstPipelineStage.isNone then pipelineRank else pipelineRank - 1
      if pipelineRank = 0 then .ok 0
      else .ok (middlePipelineRank * numLayersPerPipelineRank + config.firstLayers)

/-- The offset without the embedding layer.  Whether there is one before the stage is asked
of the process. -/
def withoutEmbedding (vpStage : Option Nat) (offset : Int) : Int :=
  if config.accountForEmbeddingInPipelineSplit ∧ ¬ process.isPipelineFirstStage vpStage then
    offset - 1
  else offset

/-- The offset when all stages are of one size, with the embedding and the loss. -/
def evenLayerOffset (pipelineRank : Nat) (vpStage : Option Nat) : Except Py.Error Int := do
  let numLayersPerPipelineRank ←
    Py.intDiv config.accountedLayers config.pipelineModelParallelSize
  match config.virtualPipelineModelParallelSize with
  | some vpSize => do
      let stage ← providedVpStage vpStage
      let numLayersPerVirtualRank ← Py.intDiv numLayersPerPipelineRank vpSize
      let totalVirtualChunks ← Py.intDiv config.accountedLayers vpSize
      return withoutEmbedding process config vpStage
        (stage * totalVirtualChunks + pipelineRank * numLayersPerVirtualRank)
  | none =>
      .ok (withoutEmbedding process config vpStage (pipelineRank * numLayersPerPipelineRank))

/-- `get_transformer_layer_offset` -/
def getTransformerLayerOffset (pipelineRank : Nat) (vpStage : Option Nat) :
    Except Py.Error Int :=
  if config.pipelineModelParallelSize > 1 then
    match process.layoutLayerOffset with
    | some getLayerOffset => .ok (getLayerOffset vpStage)
    | none =>
        if config.Uneven then unevenLayerOffset config pipelineRank vpStage
        else evenLayerOffset process config pipelineRank vpStage
  else .ok 0

/-! ## Tiling -/

/-- The `vp_stage` of a virtual chunk. -/
def TransformerConfig.vpStage (config : TransformerConfig) (vp : Nat) : Option Nat :=
  config.virtualPipelineModelParallelSize.map fun _ => vp

/-- What Megatron says of stages: a process is on the first stage when it has rank 0 and asks
for chunk 0, and there is no custom layout. -/
structure StagesOfMegatron (megatron : Megatron) (processes : Nat → AskingProcess) : Prop where
  noLayout : megatron.layoutNumLayersToBuild = none
  noLayoutOffset : ∀ rank, (processes rank).layoutLayerOffset = none
  isPipelineFirstStage : ∀ rank vpStage,
    (processes rank).isPipelineFirstStage vpStage = decide (rank = 0 ∧ vpStage.getD 0 = 0)
  isVpFirstStage : ∀ vpStage vpSize, megatron.isVpFirstStage vpStage vpSize =
    decide (vpSize.getD 1 ≤ 1 ∨ vpStage = some 0)
  isVpLastStage : ∀ vpStage vpSize, megatron.isVpLastStage vpStage vpSize =
    decide (vpSize.getD 1 ≤ 1 ∨ vpStage.map (· + 1) = vpSize)

/-- Every process computes the same offset of every stage, and the stages in the order of
chunk and rank, each from its offset on, are all layers in order. -/
def Tiles (megatron : Megatron) (processes : Nat → AskingProcess) : Prop :=
  ∃ offset count : Nat → Nat → Int,
    (∀ asking < config.pipelineModelParallelSize, ∀ pp < config.pipelineModelParallelSize,
      ∀ vp < config.numChunks,
        getTransformerLayerOffset (processes asking) config pp (config.vpStage vp) =
          .ok (offset pp vp)) ∧
    (∀ asking < config.pipelineModelParallelSize, ∀ pp < config.pipelineModelParallelSize,
      ∀ vp < config.numChunks,
        getNumLayersToBuild megatron config asking (config.vpStage vp) (some pp) =
          .ok (count pp vp)) ∧
    ((List.range config.numChunks).flatMap fun vp =>
      (List.range config.pipelineModelParallelSize).flatMap fun pp =>
        interval (offset pp vp) (count pp vp)) = interval 0 config.numLayers

/-- The configurations whose stages tile the layers. -/
def TransformerConfig.OffsetsFit : Prop :=
  if config.pipelineModelParallelSize = 1 then
    -- all layers are on one rank, which is not cut into chunks
    (config.numChunks = 1 ∧ (config.numLayersInLastPipelineStage.getD
        (config.numLayersInFirstPipelineStage.getD config.numLayers) = config.numLayers)) ∨
      (config.numLayers = 0 ∧
        config.numLayersInLastPipelineStage.getD
          (config.numLayersInFirstPipelineStage.getD config.numLayers) = 0 ∧
        ¬ config.accountForEmbeddingInPipelineSplit ∧ ¬ config.accountForLossInPipelineSplit)
  else if config.Uneven then
    config.firstLayers + config.lastLayers ≤ config.numLayers ∧
      (config.middlePipelineStages = 0 →
        config.firstLayers + config.lastLayers = config.numLayers ∧
          config.virtualPipelineModelParallelSize = none) ∧
      (config.virtualPipelineModelParallelSize.isSome ∧
          config.numLayersInFirstPipelineStage = none →
        config.lastLayers = config.numLayers ∨
          (config.pipelineModelParallelSize = 2 ∧ config.lastLayers = 0))
  else ¬ config.accountForEmbeddingInPipelineSplit

/-! ## The number of layers of a stage -/

namespace TransformerConfig

variable (config : TransformerConfig)

/-- The layers of a pipeline rank, with the embedding and the loss. -/
def rankLayers (pp : Nat) : Int :=
  if config.Uneven then
    if config.numLayersInLastPipelineStage.isSome ∧ pp + 1 = config.pipelineModelParallelSize then
      config.lastLayers
    else if config.numLayersInFirstPipelineStage.isSome ∧ pp = 0 then config.firstLayers
    else if config.middlePipelineStages > 0 then
      config.middleNumLayers / config.middlePipelineStages
    else 0
  else config.accountedLayers / config.pipelineModelParallelSize

/-- The layers of a virtual chunk, with the embedding and the loss. -/
def chunkLayers (pp : Nat) : Int :=
  if config.pipelineModelParallelSize > 1 then config.rankLayers pp / config.numChunks
  else config.rankLayers pp

/-- The embedding of a stage. -/
def embeddings (pp vp : Nat) : Int :=
  if config.accountForEmbeddingInPipelineSplit ∧ vp = 0 ∧ pp = 0 then 1 else 0

/-- The loss of a stage. -/
def losses (pp vp : Nat) : Int :=
  if config.accountForLossInPipelineSplit ∧ vp + 1 = config.numChunks ∧
    pp + 1 = config.pipelineModelParallelSize then 1 else 0

end TransformerConfig

/-- What `get_num_layers_to_build` has checked when it returns the number of layers of a
stage. -/
structure Counted (config : TransformerConfig) (pp vp : Nat) (count : Int) : Prop where
  flags : config.Uneven →
    ¬ config.accountForEmbeddingInPipelineSplit ∧ ¬ config.accountForLossInPipelineSplit
  even_dvd : ¬ config.Uneven →
    (config.pipelineModelParallelSize : Int) ∣ config.accountedLayers
  middle_dvd : config.Uneven → 0 < config.middlePipelineStages →
    config.middlePipelineStages ∣ config.middleNumLayers
  chunk_dvd : config.pipelineModelParallelSize > 1 →
    (config.numChunks : Int) ∣ config.rankLayers pp
  count_eq : count = config.chunkLayers pp - config.embeddings pp vp - config.losses pp vp
  embedding_le : config.embeddings pp vp ≤ config.chunkLayers pp ∨ config.embeddings pp vp = 0
  loss_le : config.losses pp vp ≤ config.chunkLayers pp - config.embeddings pp vp ∨
    config.losses pp vp = 0

variable {config}

/-- The layers of a rank, from those of a middle stage. -/
def endLayers (config : TransformerConfig) (pp : Nat) (middle : Int) : Int :=
  if config.numLayersInLastPipelineStage.isSome ∧ pp + 1 = config.pipelineModelParallelSize then
    config.lastLayers
  else if config.numLayersInFirstPipelineStage.isSome ∧ pp = 0 then config.firstLayers
  else middle

theorem endLayers_of_ok {pp : Nat} {middle layers : Int}
    (h : (match config.numLayersInLastPipelineStage with
      | some last =>
          if pp + 1 = config.pipelineModelParallelSize then Except.ok (last : Int)
          else Except.ok
            (match config.numLayersInFirstPipelineStage with
            | some first => if pp = 0 then (first : Int) else middle
            | none => middle)
      | none => Except.ok
          (match config.numLayersInFirstPipelineStage with
          | some first => if pp = 0 then (first : Int) else middle
          | none => middle)) = (Except.ok layers : Except Py.Error Int)) :
    layers = endLayers config pp middle := by
  rw [endLayers, TransformerConfig.lastLayers, TransformerConfig.firstLayers]
  cases hfirst : config.numLayersInFirstPipelineStage with
  | none =>
      cases hlast : config.numLayersInLastPipelineStage with
      | none =>
          rw [hfirst, hlast] at h
          exact (Except.ok.inj h).symm
      | some last =>
          rw [hfirst, hlast] at h
          by_cases hpp : pp + 1 = config.pipelineModelParallelSize
          · rw [if_pos ⟨rfl, hpp⟩]
            simp only [hpp, if_true] at h
            exact (Except.ok.inj h).symm
          · rw [if_neg fun hand => hpp hand.2, if_neg fun hand => Bool.false_ne_true hand.1]
            simp only [hpp, if_false] at h
            exact (Except.ok.inj h).symm
  | some first =>
      have hmiddle : (if (some first).isSome = true ∧ pp = 0 then
          (((some first).getD 0 : Nat) : Int) else middle) = if pp = 0 then (first : Int)
          else middle := by
        by_cases hzero : pp = 0
        · rw [if_pos ⟨rfl, hzero⟩, if_pos hzero]
          rfl
        · rw [if_neg fun hand => hzero hand.2, if_neg hzero]
      rw [hmiddle]
      cases hlast : config.numLayersInLastPipelineStage with
      | none =>
          rw [hfirst, hlast] at h
          exact (Except.ok.inj h).symm
      | some last =>
          rw [hfirst, hlast] at h
          by_cases hpp : pp + 1 = config.pipelineModelParallelSize
          · rw [if_pos ⟨rfl, hpp⟩]
            simp only [hpp, if_true] at h
            exact (Except.ok.inj h).symm
          · rw [if_neg fun hand => hpp hand.2]
            simp only [hpp, if_false] at h
            exact (Except.ok.inj h).symm

theorem unevenLayers_of_ok {pp : Nat} {layers : Int}
    (h : unevenLayersPerPipelineRank config pp = .ok layers) :
    (¬ config.accountForEmbeddingInPipelineSplit ∧ ¬ config.accountForLossInPipelineSplit) ∧
      (0 < config.middlePipelineStages →
        config.middlePipelineStages ∣ config.middleNumLayers) ∧
      layers = endLayers config pp (if config.middlePipelineStages > 0 then
        config.middleNumLayers / config.middlePipelineStages else 0) := by
  rw [unevenLayersPerPipelineRank] at h
  obtain ⟨_, hflags, h⟩ := Py.bind_eq_ok.mp h
  have hflags := Py.of_check_eq_ok hflags
  rw [Bool.or_eq_true, not_or] at hflags
  change (if config.middlePipelineStages > 0 then _ else _) = _ at h
  by_cases hm : config.middlePipelineStages > 0
  · rw [if_pos hm] at h
    obtain ⟨_, hcheck, h⟩ := Py.bind_eq_ok.mp h
    have hrest := Py.of_check_eq_ok hcheck
    change config.middleNumLayers.fmod config.middlePipelineStages = 0 at hrest
    rw [Py.ok_bind] at h
    have hlayers := endLayers_of_ok h
    change layers = endLayers config pp
      (config.middleNumLayers.fdiv config.middlePipelineStages) at hlayers
    rw [Int.fdiv_eq_ediv_of_nonneg _ (Int.le_of_lt hm)] at hlayers
    refine ⟨hflags, fun _ => Int.dvd_of_fmod_eq_zero hrest, ?_⟩
    rw [if_pos hm, hlayers]
  · rw [if_neg hm, Py.ok_bind] at h
    refine ⟨hflags, fun hpos => absurd hpos hm, ?_⟩
    rw [if_neg hm]
    exact endLayers_of_ok h

theorem evenLayers_of_ok {layers : Int}
    (h : evenLayersPerPipelineRank config = .ok layers)
    (hpos : 0 < config.pipelineModelParallelSize) :
    (config.pipelineModelParallelSize : Int) ∣ config.accountedLayers ∧
      layers = config.accountedLayers / config.pipelineModelParallelSize := by
  have hpos : (0 : Int) < config.pipelineModelParallelSize := Int.natCast_pos.mpr hpos
  rw [evenLayersPerPipelineRank] at h
  obtain ⟨rest, hmod, h⟩ := Py.bind_eq_ok.mp h
  obtain ⟨_, hcheck, hlayers⟩ := Py.bind_eq_ok.mp h
  rw [Py.intMod_of_pos _ hpos] at hmod
  have hrest := Py.of_check_eq_ok hcheck
  obtain rfl := Except.ok.inj hmod
  refine ⟨Int.dvd_of_emod_eq_zero hrest, ?_⟩
  rw [← Except.ok.inj hlayers, Int.fdiv_eq_ediv_of_nonneg _ (Int.le_of_lt hpos)]
  rfl

theorem rankLayers_eq_endLayers {pp : Nat} (huneven : config.Uneven) :
    config.rankLayers pp = endLayers config pp (if config.middlePipelineStages > 0 then
      config.middleNumLayers / config.middlePipelineStages else 0) := by
  rw [TransformerConfig.rankLayers, if_pos huneven]
  rfl

variable {megatron : Megatron} {processes : Nat → AskingProcess}

/-- The division of the layers of a rank among its virtual chunks. -/
def perChunk (config : TransformerConfig) (layers : Int) : Except Py.Error Int :=
  match config.virtualPipelineModelParallelSize with
  | some vp =>
      if config.pipelineModelParallelSize > 1 then do
        let rest ← Py.intMod layers vp
        Py.check (rest = 0) (s!"num_layers_per_pipeline_rank {layers} " ++
          s!"            should be divisible by vp_size {vp}")
        return layers.fdiv vp
      else return layers
  | none => return layers

/-- One layer less, where this is not a layer of the transformer. -/
def lessOne (condition : Prop) [Decidable condition] (message : String) (layers : Int) :
    Except Py.Error Int :=
  if condition then do
    Py.check (layers - 1 ≥ 0) message
    return layers - 1
  else return layers

theorem lessOne_bind (condition : Prop) [Decidable condition] (message : String) (layers : Int)
    (f : Int → Except Py.Error Int) :
    (if condition then
        Py.check (layers - 1 ≥ 0) message >>= fun _ => Except.ok (layers - 1) >>= f
      else Except.ok layers >>= f) = lessOne condition message layers >>= f := by
  rw [lessOne]
  split
  · cases Py.check (layers - 1 ≥ 0) message <;> rfl
  · rfl

theorem perChunk_bind (layers : Int) (f : Int → Except Py.Error Int) :
    (match config.virtualPipelineModelParallelSize with
      | some vp =>
          if config.pipelineModelParallelSize > 1 then do
            let rest ← Py.intMod layers vp
            Py.check (rest = 0) (s!"num_layers_per_pipeline_rank {layers} " ++
              s!"            should be divisible by vp_size {vp}")
            Except.ok (layers.fdiv vp) >>= f
          else Except.ok layers >>= f
      | none => Except.ok layers >>= f) = perChunk config layers >>= f := by
  rw [perChunk]
  cases config.virtualPipelineModelParallelSize with
  | none => rfl
  | some vp =>
      simp only
      split
      · cases Py.intMod layers vp with
        | error e => rfl
        | ok rest =>
            simp only [Py.ok_bind]
            generalize Py.check (rest = 0) _ = checked
            cases checked <;> rfl
      · rfl

/-- The layers of a pipeline rank. -/
def layersPerPipelineRank (config : TransformerConfig) (pp : Nat) : Except Py.Error Int :=
  if config.Uneven then unevenLayersPerPipelineRank config pp
  else evenLayersPerPipelineRank config

/-- `get_num_layers_to_build` step by step. -/
theorem getNumLayersToBuild_eq (hm : StagesOfMegatron megatron processes) (asking pp : Nat)
    (vpStage : Option Nat) :
    getNumLayersToBuild megatron config asking vpStage (some pp) = (do
      let layers ← layersPerPipelineRank config pp
      let layers ← perChunk config layers
      let layers ← lessOne (config.accountForEmbeddingInPipelineSplit ∧
        megatron.isVpFirstStage vpStage config.virtualPipelineModelParallelSize ∧ pp = 0)
        "Not enough layers in the first virtual pipeline stage" layers
      lessOne (config.accountForLossInPipelineSplit ∧
        megatron.isVpLastStage vpStage config.virtualPipelineModelParallelSize ∧
          pp + 1 = config.pipelineModelParallelSize)
        "Not enough layers in the last virtual pipeline stage" layers) := by
  have huneven : (config.numLayersInFirstPipelineStage.isSome = true ∨
      config.numLayersInLastPipelineStage.isSome = true) = config.Uneven := rfl
  rw [getNumLayersToBuild, hm.noLayout, layersPerPipelineRank]
  simp only [Option.getD_some, Bool.or_eq_true, huneven, lessOne_bind]
  split
  · exact bind_congr fun layers => perChunk_bind layers _
  · exact bind_congr fun layers => perChunk_bind layers _

theorem lessOne_of_ok {condition : Prop} [Decidable condition] {message : String}
    {layers less : Int} (h : lessOne condition message layers = .ok less) :
    less = layers - (if condition then 1 else 0) ∧ (condition → 1 ≤ layers) := by
  rw [lessOne] at h
  split at h
  next hcond =>
    obtain ⟨_, hcheck, hless⟩ := Py.bind_eq_ok.mp h
    have hpos := Py.of_check_eq_ok hcheck
    rw [if_pos hcond]
    exact ⟨(Except.ok.inj hless).symm, fun _ => by omega⟩
  next hcond =>
    rw [if_neg hcond, Int.sub_zero]
    exact ⟨(Except.ok.inj h).symm, fun hc => absurd hc hcond⟩

theorem perChunk_of_ok {pp : Nat} {chunk : Int}
    (hvp : ∀ vpSize, config.virtualPipelineModelParallelSize = some vpSize → 0 < vpSize)
    (h : perChunk config (config.rankLayers pp) = .ok chunk) :
    (config.pipelineModelParallelSize > 1 → (config.numChunks : Int) ∣ config.rankLayers pp) ∧
      chunk = config.chunkLayers pp := by
  rw [perChunk] at h
  rw [TransformerConfig.chunkLayers, TransformerConfig.numChunks]
  cases hsize : config.virtualPipelineModelParallelSize with
  | none =>
      rw [hsize] at h
      rw [Option.getD_none, Int.natCast_one, Int.ediv_one, ite_self]
      exact ⟨fun _ => Int.one_dvd _, (Except.ok.inj h).symm⟩
  | some vp =>
      have hpos : (0 : Int) < vp := Int.natCast_pos.mpr (hvp vp hsize)
      rw [hsize] at h
      simp only at h
      rw [Option.getD_some]
      split at h
      next hp =>
        obtain ⟨rest, hmod, h⟩ := Py.bind_eq_ok.mp h
        obtain ⟨_, hcheck, hchunk⟩ := Py.bind_eq_ok.mp h
        rw [Py.intMod_of_pos _ hpos] at hmod
        have hrest := Py.of_check_eq_ok hcheck
        obtain rfl := Except.ok.inj hmod
        rw [if_pos hp, ← Except.ok.inj hchunk, Int.fdiv_eq_ediv_of_nonneg _ (Int.le_of_lt hpos)]
        exact ⟨fun _ => Int.dvd_of_emod_eq_zero hrest, rfl⟩
      next hp =>
        rw [if_neg hp]
        exact ⟨fun hlt => absurd hlt hp, (Except.ok.inj h).symm⟩

theorem isVpFirstStage_iff (hm : StagesOfMegatron megatron processes) {vp : Nat}
    (hchunk : vp < config.numChunks) :
    megatron.isVpFirstStage (config.vpStage vp) config.virtualPipelineModelParallelSize = true ↔
      vp = 0 := by
  rw [hm.isVpFirstStage, decide_eq_true_eq, TransformerConfig.vpStage]
  rw [TransformerConfig.numChunks] at hchunk
  cases hsize : config.virtualPipelineModelParallelSize with
  | none =>
      rw [hsize, Option.getD_none] at hchunk
      rw [Option.getD_none]
      exact iff_of_true (.inl (Nat.le_refl 1)) (Nat.lt_one_iff.mp hchunk)
  | some vpSize =>
      rw [hsize, Option.getD_some] at hchunk
      rw [Option.getD_some]
      rw [Option.map_some, Option.some.injEq]
      omega

theorem isVpLastStage_iff (hm : StagesOfMegatron megatron processes) {vp : Nat}
    (hchunk : vp < config.numChunks) :
    megatron.isVpLastStage (config.vpStage vp) config.virtualPipelineModelParallelSize = true ↔
      vp + 1 = config.numChunks := by
  rw [hm.isVpLastStage, decide_eq_true_eq, TransformerConfig.vpStage]
  rw [TransformerConfig.numChunks] at hchunk ⊢
  cases hsize : config.virtualPipelineModelParallelSize with
  | none =>
      rw [hsize, Option.getD_none] at hchunk
      rw [Option.getD_none]
      exact iff_of_true (.inl (Nat.le_refl 1)) (by omega)
  | some vpSize =>
      rw [hsize, Option.getD_some] at hchunk
      rw [Option.getD_some]
      rw [Option.map_some, Option.map_some, Option.some.injEq]
      omega

theorem counted_of_ok (hm : StagesOfMegatron megatron processes)
    (hpos : 0 < config.pipelineModelParallelSize)
    (hvp : ∀ vpSize, config.virtualPipelineModelParallelSize = some vpSize → 0 < vpSize)
    {asking pp vp : Nat} (hchunk : vp < config.numChunks) {count : Int}
    (h : getNumLayersToBuild megatron config asking (config.vpStage vp) (some pp) = .ok count) :
    Counted config pp vp count := by
  rw [getNumLayersToBuild_eq hm] at h
  obtain ⟨layers, hlayers, h⟩ := Py.bind_eq_ok.mp h
  obtain ⟨chunk, hperChunk, h⟩ := Py.bind_eq_ok.mp h
  obtain ⟨less, hfirst, hlast⟩ := Py.bind_eq_ok.mp h
  obtain ⟨hfirst, hembedding⟩ := lessOne_of_ok hfirst
  obtain ⟨hlast, hloss⟩ := lessOne_of_ok hlast
  have hisFirst := isVpFirstStage_iff hm hchunk
  have hisLast := isVpLastStage_iff hm hchunk
  simp only [hisFirst, hisLast] at hfirst hlast hembedding hloss
  have hrank : layers = config.rankLayers pp ∧
      (config.Uneven → ¬ config.accountForEmbeddingInPipelineSplit ∧
        ¬ config.accountForLossInPipelineSplit) ∧
      (¬ config.Uneven → (config.pipelineModelParallelSize : Int) ∣ config.accountedLayers) ∧
      (config.Uneven → 0 < config.middlePipelineStages →
        config.middlePipelineStages ∣ config.middleNumLayers) := by
    rw [layersPerPipelineRank] at hlayers
    split at hlayers
    next huneven =>
      obtain ⟨hflags, hmiddle, heq⟩ := unevenLayers_of_ok hlayers
      exact ⟨heq.trans (rankLayers_eq_endLayers huneven).symm, fun _ => hflags,
        fun heven => absurd huneven heven, fun _ => hmiddle⟩
    next heven =>
      obtain ⟨hdvd, heq⟩ := evenLayers_of_ok hlayers hpos
      refine ⟨?_, fun huneven => absurd huneven heven, fun _ => hdvd,
        fun huneven => absurd huneven heven⟩
      rw [heq, TransformerConfig.rankLayers, if_neg heven]
  obtain ⟨rfl, hflags, heven, hmiddle⟩ := hrank
  obtain ⟨hdvd, rfl⟩ := perChunk_of_ok hvp hperChunk
  refine ⟨hflags, heven, hmiddle, hdvd, ?_, ?_, ?_⟩
  · rw [hlast, hfirst]
    rfl
  · rw [TransformerConfig.embeddings]
    split
    next hcond => exact .inl (hembedding hcond)
    next => exact .inr rfl
  · rw [TransformerConfig.losses]
    split
    next hcond =>
      have hle := hloss hcond
      rw [hfirst] at hle
      exact .inl hle
    next => exact .inr rfl

end Verl.RouterReplay
