import Mathlib.Tactic.Linarith
import Mathlib.Tactic.Ring
import Verl.RouterReplay.LayerOffset

/-!
# Pipeline stages tile the layers

When `get_num_layers_to_build` returns for every stage, the offsets of the stages fit their
numbers of layers exactly for the configurations of `OffsetsFit`.
-/

namespace Verl.RouterReplay

open Interval

variable {config : TransformerConfig} {megatron : Megatron} {processes : Nat → AskingProcess}

/-! ## The layers of the stages -/

/-- The layers of a stage. -/
def TransformerConfig.stageLayers (config : TransformerConfig) (pp vp : Nat) : Int :=
  config.chunkLayers pp - config.embeddings pp vp - config.losses pp vp

/-- All stages, in the order of chunk and rank, each from its offset on. -/
def TransformerConfig.stages (config : TransformerConfig) (offset : Nat → Nat → Int) : List Int :=
  (List.range config.numChunks).flatMap fun vp =>
    (List.range config.pipelineModelParallelSize).flatMap fun pp =>
      interval (offset pp vp) (config.stageLayers pp vp)

/-- The assertions of `get_num_layers_to_build` pass for every stage. -/
def AllCounted (megatron : Megatron) (config : TransformerConfig) : Prop :=
  ∀ pp < config.pipelineModelParallelSize, ∀ vp < config.numChunks,
    ∃ count, getNumLayersToBuild megatron config pp (config.vpStage vp) (some pp) = .ok count

section Counts

variable (hm : StagesOfMegatron megatron processes) (hpos : 0 < config.pipelineModelParallelSize)
  (hvp : ∀ vpSize, config.virtualPipelineModelParallelSize = some vpSize → 0 < vpSize)
  (hcounts : AllCounted megatron config)

include hm hpos hvp hcounts

theorem counted {pp vp : Nat} (hpp : pp < config.pipelineModelParallelSize)
    (hchunk : vp < config.numChunks) : Counted config pp vp (config.stageLayers pp vp) := by
  obtain ⟨count, hcount⟩ := hcounts pp hpp vp hchunk
  have h := counted_of_ok hm hpos hvp hchunk hcount
  rwa [h.count_eq] at h

theorem getNumLayersToBuild_stage {asking pp vp : Nat}
    (hpp : pp < config.pipelineModelParallelSize) (hchunk : vp < config.numChunks) :
    getNumLayersToBuild megatron config asking (config.vpStage vp) (some pp) =
      .ok (config.stageLayers pp vp) := by
  obtain ⟨count, hcount⟩ := hcounts pp hpp vp hchunk
  have h := counted_of_ok hm hpos hvp hchunk hcount
  rw [getNumLayersToBuild_eq hm asking, ← getNumLayersToBuild_eq hm pp, hcount, h.count_eq]
  rfl

/-- Offsets on which all processes agree tile when the stages from them are the layers. -/
theorem tiles_iff_stages {offset : Nat → Nat → Int}
    (hoffset : ∀ asking < config.pipelineModelParallelSize,
      ∀ pp < config.pipelineModelParallelSize, ∀ vp < config.numChunks,
        getTransformerLayerOffset (processes asking) config pp (config.vpStage vp) =
          .ok (offset pp vp)) :
    Tiles config megatron processes ↔ config.stages offset = interval 0 config.numLayers := by
  constructor
  · rintro ⟨offset', count, hoffset', hcount, htile⟩
    rw [← htile, TransformerConfig.stages]
    refine List.flatMap_congr fun vp hchunk => List.flatMap_congr fun pp hpp => ?_
    rw [List.mem_range] at hchunk hpp
    have hsame := (hoffset pp hpp pp hpp vp hchunk).symm.trans (hoffset' pp hpp pp hpp vp hchunk)
    have hlayers := (getNumLayersToBuild_stage hm hpos hvp hcounts hpp hchunk).symm.trans
      (hcount pp hpp pp hpp vp hchunk)
    rw [Except.ok.inj hsame, Except.ok.inj hlayers]
  · intro htile
    exact ⟨offset, config.stageLayers, hoffset,
      fun _ _ _ hpp _ hchunk => getNumLayersToBuild_stage hm hpos hvp hcounts hpp hchunk, htile⟩

end Counts

theorem numChunks_pos
    (hvp : ∀ vpSize, config.virtualPipelineModelParallelSize = some vpSize → 0 < vpSize) :
    0 < config.numChunks := by
  rw [TransformerConfig.numChunks]
  cases hsize : config.virtualPipelineModelParallelSize with
  | none => exact Nat.one_pos
  | some vpSize => exact hvp vpSize hsize

/-! ## One rank -/

/-- The layers of the only rank. -/
def TransformerConfig.soleLayers (config : TransformerConfig) : Nat :=
  config.numLayersInLastPipelineStage.getD
    (config.numLayersInFirstPipelineStage.getD config.numLayers)

theorem chunkLayers_sole (hone : config.pipelineModelParallelSize = 1) :
    config.chunkLayers 0 =
      if config.Uneven then (config.soleLayers : Int) else config.accountedLayers := by
  rw [TransformerConfig.chunkLayers, hone, if_neg (Nat.lt_irrefl 1),
    TransformerConfig.rankLayers]
  split
  next huneven =>
    rw [TransformerConfig.soleLayers, hone]
    cases hlast : config.numLayersInLastPipelineStage with
    | some last =>
        rw [if_pos ⟨rfl, rfl⟩, TransformerConfig.lastLayers, hlast]
        rfl
    | none =>
        rw [if_neg fun h => Bool.false_ne_true h.1]
        cases hfirst : config.numLayersInFirstPipelineStage with
        | some first =>
            rw [if_pos ⟨rfl, rfl⟩, TransformerConfig.firstLayers, hfirst]
            rfl
        | none =>
            rw [TransformerConfig.Uneven, hfirst, hlast] at huneven
            exact absurd huneven (by decide)
  next => rw [hone, Int.natCast_one, Int.ediv_one]

theorem stageLayers_sole (hone : config.pipelineModelParallelSize = 1) (vp : Nat) :
    config.stageLayers 0 vp =
      (if config.Uneven then (config.soleLayers : Int) else config.accountedLayers) -
        (if config.accountForEmbeddingInPipelineSplit ∧ vp = 0 then 1 else 0) -
        (if config.accountForLossInPipelineSplit ∧ vp + 1 = config.numChunks then 1 else 0) := by
  rw [TransformerConfig.stageLayers, chunkLayers_sole hone, TransformerConfig.embeddings,
    TransformerConfig.losses, hone]
  simp only [and_true, Nat.zero_add]

theorem stages_sole (hone : config.pipelineModelParallelSize = 1) :
    config.stages (fun _ _ => 0) =
      (List.range config.numChunks).flatMap fun vp => interval 0 (config.stageLayers 0 vp) := by
  rw [TransformerConfig.stages, hone]
  refine List.flatMap_congr fun vp _ => ?_
  rw [List.range_one, List.flatMap_singleton]

/-- Two chunks of one rank begin at the same layer. -/
theorem stageLayers_nonpos_or (h : (List.range config.numChunks).flatMap
    (fun vp => interval 0 (config.stageLayers 0 vp)) = interval 0 config.numLayers)
    (hchunks : 1 < config.numChunks) :
    config.stageLayers 0 0 ≤ 0 ∨ config.stageLayers 0 1 ≤ 0 := by
  by_contra hnot
  rw [not_or] at hnot
  have hnodup := nodup_interval 0 (config.numLayers : Int)
  rw [← h] at hnodup
  refine not_nodup_flatMap Nat.zero_lt_one
    (List.getElem?_range (Nat.lt_of_succ_lt hchunks)) (List.getElem?_range hchunks)
    (y := 0) ?_ ?_ hnodup
  · rw [mem_interval]
    omega
  · rw [mem_interval]
    omega

/-- All chunks of one rank begin at layer 0. -/
theorem stages_one_iff (hone : config.pipelineModelParallelSize = 1)
    (hchunks : 0 < config.numChunks)
    (hflags : config.Uneven → ¬ config.accountForEmbeddingInPipelineSplit ∧
      ¬ config.accountForLossInPipelineSplit) :
    config.stages (fun _ _ => 0) = interval 0 config.numLayers ↔ config.OffsetsFit := by
  have heven : ¬ config.Uneven → config.soleLayers = config.numLayers := by
    intro h
    rw [TransformerConfig.Uneven, not_or, Option.not_isSome_iff_eq_none,
      Option.not_isSome_iff_eq_none] at h
    rw [TransformerConfig.soleLayers, h.1, h.2]
    rfl
  have hstage := stageLayers_sole hone
  rw [TransformerConfig.OffsetsFit, if_pos hone, ← TransformerConfig.soleLayers,
    stages_sole hone]
  constructor
  · intro h
    obtain hsingle | hmany := Nat.lt_or_eq_of_le (Nat.succ_le_of_lt hchunks)
    · right
      have hempty : config.numLayers = 0 → ∀ vp < config.numChunks,
          config.stageLayers 0 vp ≤ 0 := by
        intro hzero vp hvp
        by_contra hlt
        have hmem : (0 : Int) ∈ (List.range config.numChunks).flatMap
            fun vp => interval 0 (config.stageLayers 0 vp) :=
          List.mem_flatMap.mpr ⟨vp, List.mem_range.mpr hvp, mem_interval.mpr (by omega)⟩
        rw [h, mem_interval] at hmem
        omega
      have hends := stageLayers_nonpos_or h hsingle
      have hfirst := hstage 0
      have hsecond := hstage 1
      have hlast := hstage (config.numChunks - 1)
      have hlt : config.numChunks - 1 < config.numChunks := Nat.sub_lt hchunks Nat.one_pos
      have hne : ¬ 0 + 1 = config.numChunks := by omega
      have hpred : config.numChunks - 1 + 1 = config.numChunks := Nat.sub_add_cancel hchunks
      have hpred_ne : ¬ config.numChunks - 1 = 0 := by omega
      by_cases huneven : config.Uneven
      · obtain ⟨he, hl⟩ := hflags huneven
        have hall : ∀ vp, config.stageLayers 0 vp = config.soleLayers := by
          intro vp
          rw [hstage, if_pos huneven, if_neg fun hand => he hand.1, if_neg fun hand => hl hand.1,
            Int.sub_zero, Int.sub_zero]
        rw [hall, hall] at hends
        refine ⟨?_, by omega, he, hl⟩
        by_contra hpos
        have hmem : (0 : Int) ∈ interval 0 config.numLayers := mem_interval.mpr (by omega)
        rw [← h] at hmem
        obtain ⟨vp, -, hvp⟩ := List.mem_flatMap.mp hmem
        rw [mem_interval, hall] at hvp
        omega
      · rw [if_neg huneven, TransformerConfig.accountedLayers] at hfirst hsecond hlast
        rw [hpred] at hlast
        by_cases he : config.accountForEmbeddingInPipelineSplit <;>
          by_cases hl : config.accountForLossInPipelineSplit <;>
          simp only [he, hl, hne, hpred_ne, true_and, false_and, and_true, and_false, if_true,
            if_false, Nat.one_ne_zero, Bool.false_eq_true] at hfirst hsecond hlast ⊢
        · split at hsecond <;> have := hempty (by omega) _ hlt <;> omega
        · have := hempty (by omega) _ hlt
          omega
        · split at hsecond <;> have := hempty (by omega) _ hchunks <;> omega
        · have := heven huneven
          exact ⟨by omega, by omega, not_false, not_false⟩
    · left
      rw [← hmany, List.range_one, List.flatMap_singleton] at h
      have hlength := congrArg List.length h
      rw [length_interval, length_interval, Int.toNat_natCast] at hlength
      refine ⟨hmany.symm, ?_⟩
      by_cases huneven : config.Uneven
      · obtain ⟨he, hl⟩ := hflags huneven
        have hsole := hstage 0
        rw [if_pos huneven, if_neg fun hand => he hand.1, if_neg fun hand => hl hand.1] at hsole
        omega
      · exact heven huneven
  · rintro (⟨hsingle, hsole⟩ | ⟨hzero, hsole, he, hl⟩)
    · have hlayers : config.stageLayers 0 0 = config.numLayers := by
        rw [hstage, hsingle]
        by_cases huneven : config.Uneven
        · obtain ⟨he, hl⟩ := hflags huneven
          rw [if_pos huneven, if_neg fun hand => he hand.1, if_neg fun hand => hl hand.1, hsole]
          omega
        · rw [if_neg huneven, TransformerConfig.accountedLayers]
          simp only [and_true]
          omega
      rw [hsingle, List.range_one, List.flatMap_singleton, hlayers]
    · have hlayers : ∀ vp, config.stageLayers 0 vp = 0 := by
        intro vp
        have haccounted : config.accountedLayers = 0 := by
          rw [TransformerConfig.accountedLayers, hzero, if_neg he, if_neg hl]
          rfl
        rw [hstage, hsole, haccounted, Int.natCast_zero, ite_self, if_neg fun hand => he hand.1,
          if_neg fun hand => hl hand.1]
        rfl
      simp only [hlayers, hzero, Int.natCast_zero, interval_of_nonpos (Int.le_refl 0)]
      exact List.flatMap_eq_nil_iff.mpr fun _ _ => rfl

/-! ## Even stages -/

/-- With stages of one size all chunks have the same number of layers, with the embedding
and the loss. -/
theorem even_layers (hm : StagesOfMegatron megatron processes)
    (hp : config.pipelineModelParallelSize > 1)
    (hvp : ∀ vpSize, config.virtualPipelineModelParallelSize = some vpSize → 0 < vpSize)
    (hcounts : AllCounted megatron config) (heven : ¬ config.Uneven) :
    ∃ w : Int, config.accountedLayers =
        config.pipelineModelParallelSize * (config.numChunks * w) ∧
      ∀ pp, config.chunkLayers pp = w := by
  have hpos := Nat.lt_of_succ_lt hp
  have hcounted := counted hm hpos hvp hcounts hpos (numChunks_pos hvp)
  obtain ⟨rank, hrank⟩ := hcounted.even_dvd heven
  have hP : (0 : Int) < config.pipelineModelParallelSize := Int.natCast_pos.mpr hpos
  have hn : (0 : Int) < config.numChunks := Int.natCast_pos.mpr (numChunks_pos hvp)
  have hlayers : ∀ pp, config.rankLayers pp = rank := by
    intro pp
    rw [TransformerConfig.rankLayers, if_neg heven, hrank,
      Int.mul_ediv_cancel_left _ (Int.ne_of_gt hP)]
  obtain ⟨w, hw⟩ := hcounted.chunk_dvd hp
  rw [hlayers] at hw
  refine ⟨w, by rw [hrank, hw], fun pp => ?_⟩
  rw [TransformerConfig.chunkLayers, if_pos hp, hlayers, hw,
    Int.mul_ediv_cancel_left _ (Int.ne_of_gt hn)]

theorem evenLayerOffset_eq {process : AskingProcess} (hp : 0 < config.pipelineModelParallelSize)
    (hvp : ∀ vpSize, config.virtualPipelineModelParallelSize = some vpSize → 0 < vpSize)
    {w : Int} (hw : config.accountedLayers =
      config.pipelineModelParallelSize * (config.numChunks * w)) {pp vp : Nat}
    (hchunk : vp < config.numChunks) :
    evenLayerOffset process config pp (config.vpStage vp) =
      .ok (withoutEmbedding process config (config.vpStage vp)
        ((vp * config.pipelineModelParallelSize + pp) * w)) := by
  have hP : (0 : Int) < config.pipelineModelParallelSize := Int.natCast_pos.mpr hp
  rw [evenLayerOffset, hw, Py.intDiv_of_pos _ hP, Py.ok_bind,
    Int.mul_ediv_cancel_left _ (Int.ne_of_gt hP), TransformerConfig.vpStage]
  rw [TransformerConfig.numChunks] at hchunk ⊢
  cases hsize : config.virtualPipelineModelParallelSize with
  | none =>
      rw [hsize, Option.getD_none] at hchunk
      obtain rfl := Nat.lt_one_iff.mp hchunk
      simp only [Option.map_none, Option.getD_none]
      congr 2
      push_cast
      ring
  | some vpSize =>
      have hv : (0 : Int) < vpSize := Int.natCast_pos.mpr (hvp vpSize hsize)
      have htotal : (config.pipelineModelParallelSize : Int) * (vpSize * w) / vpSize =
          config.pipelineModelParallelSize * w := by
        rw [Int.mul_left_comm, Int.mul_ediv_cancel_left _ (Int.ne_of_gt hv)]
      simp only [Option.map_some, Option.getD_some, providedVpStage, Py.ok_bind]
      rw [Py.intDiv_of_pos _ hv, Py.intDiv_of_pos _ hv, htotal,
        Int.mul_ediv_cancel_left _ (Int.ne_of_gt hv)]
      simp only [Py.ok_bind, Py.pure_eq_ok]
      congr 2
      ring

/-- Chunks of one size follow each other, without the embedding. -/
theorem stages_even (hm : StagesOfMegatron megatron processes)
    (hp : config.pipelineModelParallelSize > 1)
    (hvp : ∀ vpSize, config.virtualPipelineModelParallelSize = some vpSize → 0 < vpSize)
    (hcounts : AllCounted megatron config)
    (hembedding : ¬ config.accountForEmbeddingInPipelineSplit) {w : Int}
    (hw : config.accountedLayers = config.pipelineModelParallelSize * (config.numChunks * w))
    (hchunk : ∀ pp, config.chunkLayers pp = w) :
    config.stages (fun pp vp => (vp * config.pipelineModelParallelSize + pp) * w) =
      interval 0 config.numLayers := by
  have hpos := Nat.lt_of_succ_lt hp
  have hstage : ∀ pp vp, config.stageLayers pp vp = w - config.losses pp vp := by
    intro pp vp
    rw [TransformerConfig.stageLayers, hchunk, TransformerConfig.embeddings,
      if_neg fun hand => hembedding hand.1, Int.sub_zero]
  have hnonneg : ∀ pp < config.pipelineModelParallelSize, ∀ vp < config.numChunks,
      0 ≤ config.stageLayers pp vp := by
    intro pp hpp vp hvpn
    have hw0 : 0 ≤ w := by
      by_contra hneg
      have hn : (0 : Int) < config.numChunks := Int.natCast_pos.mpr (numChunks_pos hvp)
      have hP : (0 : Int) < config.pipelineModelParallelSize := Int.natCast_pos.mpr hpos
      have hlt := Int.mul_neg_of_pos_of_neg hP (Int.mul_neg_of_pos_of_neg hn (not_le.mp hneg))
      rw [← hw, TransformerConfig.accountedLayers] at hlt
      split at hlt <;> split at hlt <;> omega
    have hloss := (counted hm hpos hvp hcounts hpp hvpn).loss_le
    rw [hchunk, TransformerConfig.embeddings, if_neg fun hand => hembedding hand.1,
      Int.sub_zero] at hloss
    rw [hstage]
    omega
  have hinner : ∀ vp < config.numChunks,
      ((List.range config.pipelineModelParallelSize).flatMap fun pp : Nat =>
        interval ((vp * config.pipelineModelParallelSize + pp) * w)
          (config.stageLayers pp vp)) =
        interval (vp * (config.pipelineModelParallelSize * w))
          (config.pipelineModelParallelSize * w -
            if config.accountForLossInPipelineSplit ∧ vp + 1 = config.numChunks then 1 else 0) ∧
      0 ≤ config.pipelineModelParallelSize * w -
        if config.accountForLossInPipelineSplit ∧ vp + 1 = config.numChunks then 1 else 0 := by
    intro vp hvpn
    have htile := @flatMap_interval
      (fun pp => (vp * config.pipelineModelParallelSize + pp) * w -
        if config.accountForLossInPipelineSplit ∧ vp + 1 = config.numChunks ∧
          pp = config.pipelineModelParallelSize then 1 else 0)
      (fun pp => (vp * config.pipelineModelParallelSize + pp) * w)
      (fun pp => config.stageLayers pp vp) config.pipelineModelParallelSize fun pp hpp => by
        have hne : ¬ (config.accountForLossInPipelineSplit ∧ vp + 1 = config.numChunks ∧
            pp = config.pipelineModelParallelSize) := fun hand => Nat.ne_of_lt hpp hand.2.2
        refine ⟨?_, hnonneg pp hpp vp hvpn, .inr ?_⟩
        · rw [hstage, TransformerConfig.losses, if_neg hne]
          push_cast
          ring
        · rw [if_neg hne, Int.sub_zero]
    have hzero : ¬ (config.accountForLossInPipelineSplit ∧ vp + 1 = config.numChunks ∧
        0 = config.pipelineModelParallelSize) := fun hand => Nat.ne_of_lt hpos hand.2.2
    simp only [if_neg hzero, and_true] at htile
    have hstart : ((vp : Int) * config.pipelineModelParallelSize + ((0 : Nat) : Int)) * w - 0 =
        vp * (config.pipelineModelParallelSize * w) := by
      push_cast
      ring
    have hcount : ∀ x : Int, (vp * config.pipelineModelParallelSize +
        config.pipelineModelParallelSize) * w - x -
        vp * (config.pipelineModelParallelSize * w) =
          config.pipelineModelParallelSize * w - x := by
      intro x
      ring
    rw [hstart, hcount] at htile
    refine ⟨htile.1, ?_⟩
    have hle := htile.2
    have hsum := hcount (if config.accountForLossInPipelineSplit ∧ vp + 1 = config.numChunks
      then 1 else 0)
    omega
  rw [TransformerConfig.stages, List.flatMap_congr fun vp hvpn =>
    (hinner vp (List.mem_range.mp hvpn)).1]
  have htile := @flatMap_interval
    (fun vp => vp * (config.pipelineModelParallelSize * w) -
      if config.accountForLossInPipelineSplit ∧ vp = config.numChunks then 1 else 0)
    (fun vp => vp * (config.pipelineModelParallelSize * w))
    (fun vp => config.pipelineModelParallelSize * w -
      if config.accountForLossInPipelineSplit ∧ vp + 1 = config.numChunks then 1 else 0)
    config.numChunks fun vp hvpn => by
      have hne : ¬ (config.accountForLossInPipelineSplit ∧ vp = config.numChunks) :=
        fun hand => Nat.ne_of_lt hvpn hand.2
      refine ⟨?_, (hinner vp hvpn).2, .inr ?_⟩
      · rw [if_neg hne]
        push_cast
        ring
      · rw [if_neg hne, Int.sub_zero]
  rw [htile.1]
  have hzero : ¬ (config.accountForLossInPipelineSplit ∧ 0 = config.numChunks) :=
    fun hand => Nat.ne_of_lt (numChunks_pos hvp) hand.2
  rw [TransformerConfig.accountedLayers, if_neg hembedding] at hw
  simp only [if_neg hzero, and_true, Int.natCast_zero, Int.zero_mul, Int.sub_zero]
  congr 1
  have hcomm : (config.numChunks : Int) * (config.pipelineModelParallelSize * w) =
      config.pipelineModelParallelSize * (config.numChunks * w) := by ring
  rw [hcomm, ← hw]
  omega

theorem getTransformerLayerOffset_of_lt (hm : StagesOfMegatron megatron processes)
    (hp : config.pipelineModelParallelSize > 1) (asking pp : Nat) (vpStage : Option Nat) :
    getTransformerLayerOffset (processes asking) config pp vpStage =
      if config.Uneven then unevenLayerOffset config pp vpStage
      else evenLayerOffset (processes asking) config pp vpStage := by
  rw [getTransformerLayerOffset, if_pos hp, hm.noLayoutOffset]

theorem tiles_iff_even (hm : StagesOfMegatron megatron processes)
    (hp : config.pipelineModelParallelSize > 1)
    (hvp : ∀ vpSize, config.virtualPipelineModelParallelSize = some vpSize → 0 < vpSize)
    (hcounts : AllCounted megatron config) (heven : ¬ config.Uneven) :
    Tiles config megatron processes ↔ ¬ config.accountForEmbeddingInPipelineSplit := by
  have hpos := Nat.lt_of_succ_lt hp
  obtain ⟨w, hw, hchunk⟩ := even_layers hm hp hvp hcounts heven
  have hoffset : ∀ asking pp vp, vp < config.numChunks →
      getTransformerLayerOffset (processes asking) config pp (config.vpStage vp) =
        .ok (withoutEmbedding (processes asking) config (config.vpStage vp)
          ((vp * config.pipelineModelParallelSize + pp) * w)) := by
    intro asking pp vp hvpn
    rw [getTransformerLayerOffset_of_lt hm hp, if_neg heven, evenLayerOffset_eq hpos hvp hw hvpn]
  constructor
  · rintro ⟨offset, count, hsame, -, -⟩ hembedding
    -- the first two ranks disagree on the first stage
    have hchunks := numChunks_pos hvp
    have hasked := (hsame 0 hpos 0 hpos 0 hchunks).trans (hsame 1 hp 0 hpos 0 hchunks).symm
    have hstage : (config.vpStage 0).getD 0 = 0 := by
      rw [TransformerConfig.vpStage]
      cases config.virtualPipelineModelParallelSize <;> rfl
    rw [hoffset 0 0 0 hchunks, hoffset 1 0 0 hchunks, withoutEmbedding, withoutEmbedding,
      hm.isPipelineFirstStage, hm.isPipelineFirstStage, hstage, if_neg (by simp),
      if_pos ⟨hembedding, by decide⟩] at hasked
    have heq := Except.ok.inj hasked
    omega
  · intro hembedding
    have hsame := fun asking (_ : asking < config.pipelineModelParallelSize) pp
        (_ : pp < config.pipelineModelParallelSize) vp (hvpn : vp < config.numChunks) => by
      have hasked := hoffset asking pp vp hvpn
      rwa [withoutEmbedding, if_neg fun hand => hembedding hand.1] at hasked
    rw [tiles_iff_stages hm hpos hvp hcounts hsame]
    exact stages_even hm hp hvp hcounts hembedding hw hchunk

end Verl.RouterReplay
