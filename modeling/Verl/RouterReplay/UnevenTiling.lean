import Verl.RouterReplay.LayerTiling

/-!
# Uneven pipeline stages

When the first or the last stage has its own number of layers, the offsets of the stages
in between are computed from the layers that are left (`unevenOffset`).  With the cases of
one rank and of even stages this says for every configuration whether the stages tile the
layers (`tiles_iff`).
-/

namespace Verl.RouterReplay

open Interval

variable {config : TransformerConfig} {megatron : Megatron} {processes : Nat → AskingProcess}

/-! ## The chunks of uneven stages -/

/-- The numbers of layers in a chunk of the first, the last and a middle stage. -/
structure UnevenChunks (config : TransformerConfig) (first last middle : Int) : Prop where
  firstLayers : config.firstLayers = config.numChunks * first
  lastLayers : config.lastLayers = config.numChunks * last
  middleNumLayers : 0 < config.middlePipelineStages →
    config.middleNumLayers = config.middlePipelineStages * (config.numChunks * middle)
  noMiddle : ¬ 0 < config.middlePipelineStages → middle = 0
  chunk : ∀ pp < config.pipelineModelParallelSize, config.chunkLayers pp =
    if config.numLayersInLastPipelineStage.isSome ∧ pp + 1 = config.pipelineModelParallelSize then
      last
    else if config.numLayersInFirstPipelineStage.isSome ∧ pp = 0 then first
    else middle
  stage : ∀ pp vp, config.stageLayers pp vp = config.chunkLayers pp

theorem exists_middle_rank (huneven : config.Uneven) (hp : config.pipelineModelParallelSize > 1)
    (hmiddle : 0 < config.middlePipelineStages) : ∃ pp < config.pipelineModelParallelSize,
      config.rankLayers pp = config.middleNumLayers / config.middlePipelineStages := by
  rw [TransformerConfig.middlePipelineStages] at hmiddle
  cases hfirst : config.numLayersInFirstPipelineStage with
  | none =>
      refine ⟨0, Nat.lt_of_succ_lt hp, ?_⟩
      rw [rankLayers_eq_endLayers huneven, endLayers, if_neg fun hand => Nat.ne_of_lt hp hand.2,
        hfirst, if_neg fun hand => Bool.false_ne_true hand.1]
      exact if_pos hmiddle
  | some first =>
      refine ⟨1, hp, ?_⟩
      have hlast : ¬ (config.numLayersInLastPipelineStage.isSome ∧
          1 + 1 = config.pipelineModelParallelSize) := by
        rintro ⟨hset, htwo⟩
        rw [hfirst, if_pos hset, ← htwo, Option.isSome_some, if_pos rfl] at hmiddle
        omega
      rw [rankLayers_eq_endLayers huneven, endLayers, if_neg hlast,
        if_neg fun hand => Nat.one_ne_zero hand.2]
      exact if_pos hmiddle

theorem unevenChunks (hm : StagesOfMegatron megatron processes)
    (hp : config.pipelineModelParallelSize > 1)
    (hvp : ∀ vpSize, config.virtualPipelineModelParallelSize = some vpSize → 0 < vpSize)
    (hcounts : AllCounted megatron config) (huneven : config.Uneven) :
    ∃ first last middle, UnevenChunks config first last middle := by
  have hpos := Nat.lt_of_succ_lt hp
  have hchunks := numChunks_pos hvp
  have hn : (config.numChunks : Int) ≠ 0 := Int.natCast_ne_zero.mpr (Nat.ne_of_gt hchunks)
  have hcounted : ∀ pp < config.pipelineModelParallelSize,
      Counted config pp 0 (config.stageLayers pp 0) :=
    fun pp hpp => counted hm hpos hvp hcounts hpp hchunks
  have hdvd : ∀ pp < config.pipelineModelParallelSize,
      (config.numChunks : Int) ∣ config.rankLayers pp :=
      fun pp hpp => (hcounted pp hpp).chunk_dvd hp
  obtain ⟨he, hl⟩ := (hcounted 0 hpos).flags huneven
  have hfirst : (config.numChunks : Int) ∣ config.firstLayers := by
    by_cases hset : config.numLayersInFirstPipelineStage.isSome
    · have hrank := hdvd 0 hpos
      rwa [rankLayers_eq_endLayers huneven, endLayers, if_neg fun hand => Nat.ne_of_lt hp hand.2,
        if_pos ⟨hset, rfl⟩] at hrank
    · rw [TransformerConfig.firstLayers, Option.not_isSome_iff_eq_none.mp hset]
      exact Int.dvd_zero _
  have hlast : (config.numChunks : Int) ∣ config.lastLayers := by
    by_cases hset : config.numLayersInLastPipelineStage.isSome
    · have hrank := hdvd (config.pipelineModelParallelSize - 1) (Nat.sub_lt hpos Nat.one_pos)
      rwa [rankLayers_eq_endLayers huneven, endLayers,
        if_pos ⟨hset, Nat.sub_add_cancel hpos⟩] at hrank
    · rw [TransformerConfig.lastLayers, Option.not_isSome_iff_eq_none.mp hset]
      exact Int.dvd_zero _
  obtain ⟨first, hfirst⟩ := hfirst
  obtain ⟨last, hlast⟩ := hlast
  refine ⟨first, last, (if config.middlePipelineStages > 0 then
    config.middleNumLayers / config.middlePipelineStages else 0) / config.numChunks,
    hfirst, hlast, fun hmiddle => ?_, fun hmiddle => ?_, fun pp hpp => ?_, fun pp vp => ?_⟩
  · obtain ⟨pp, hpp, hrank⟩ := exists_middle_rank huneven hp hmiddle
    have hmiddleDvd := hdvd pp hpp
    rw [hrank] at hmiddleDvd
    rw [if_pos hmiddle, Int.mul_ediv_cancel' hmiddleDvd,
      Int.mul_ediv_cancel' ((hcounted 0 hpos).middle_dvd huneven hmiddle)]
  · rw [if_neg hmiddle, Int.zero_ediv]
  · rw [TransformerConfig.chunkLayers, if_pos hp, rankLayers_eq_endLayers huneven, endLayers,
      hfirst, hlast]
    split
    · exact Int.mul_ediv_cancel_left _ hn
    · split
      · exact Int.mul_ediv_cancel_left _ hn
      · rfl
  · rw [TransformerConfig.stageLayers, TransformerConfig.embeddings, TransformerConfig.losses,
      if_neg fun hand => he hand.1, if_neg fun hand => hl hand.1, Int.sub_zero, Int.sub_zero]

section Uneven

variable {first last middle : Int} (h : UnevenChunks config first last middle)
  (hp : config.pipelineModelParallelSize > 1) (hn : 0 < config.numChunks)

include h hn

theorem first_of_none (hfirst : config.numLayersInFirstPipelineStage = none) : first = 0 := by
  have hzero := h.firstLayers
  rw [TransformerConfig.firstLayers, hfirst] at hzero
  exact (Int.mul_eq_zero.mp hzero.symm).resolve_left
    (Int.natCast_ne_zero.mpr (Nat.ne_of_gt hn))

theorem last_of_none (hlast : config.numLayersInLastPipelineStage = none) : last = 0 := by
  have hzero := h.lastLayers
  rw [TransformerConfig.lastLayers, hlast] at hzero
  exact (Int.mul_eq_zero.mp hzero.symm).resolve_left
    (Int.natCast_ne_zero.mpr (Nat.ne_of_gt hn))

theorem first_nonneg : 0 ≤ first := by
  have hpos : (0 : Int) < config.numChunks := Int.natCast_pos.mpr hn
  have hlayers : 0 ≤ config.firstLayers := Int.natCast_nonneg _
  rw [h.firstLayers] at hlayers
  exact Int.nonneg_of_mul_nonneg_right hlayers hpos

theorem last_nonneg : 0 ≤ last := by
  have hpos : (0 : Int) < config.numChunks := Int.natCast_pos.mpr hn
  have hlayers : 0 ≤ config.lastLayers := Int.natCast_nonneg _
  rw [h.lastLayers] at hlayers
  exact Int.nonneg_of_mul_nonneg_right hlayers hpos

include hp

/-- The first and the last stage alone have no more than all layers. -/
theorem ends_le {offset : Nat → Nat → Int}
    (htile : config.stages offset = interval 0 config.numLayers) :
    config.firstLayers + config.lastLayers ≤ config.numLayers := by
  have hlength := congrArg List.length htile
  rw [length_interval, Int.toNat_natCast] at hlength
  obtain ⟨ranks, hranks⟩ := Nat.exists_eq_add_of_lt hp
  have hranks : config.pipelineModelParallelSize = ranks + 2 := by omega
  have hinner : ∀ vp < config.numChunks, first.toNat + last.toNat ≤
      ((List.range config.pipelineModelParallelSize).flatMap fun pp =>
        interval (offset pp vp) (config.stageLayers pp vp)).length := by
    intro vp _
    have hle := add_le_length_flatMap_range (n := ranks) fun pp =>
      interval (offset pp vp) (config.stageLayers pp vp)
    rw [hranks]
    refine Nat.le_trans (Nat.add_le_add ?_ ?_) hle
    · rw [length_interval, h.stage, h.chunk 0 (by omega), if_neg (by omega)]
      cases hfirst : config.numLayersInFirstPipelineStage with
      | none => rw [first_of_none h hn hfirst]; exact Nat.zero_le _
      | some _ => rw [if_pos ⟨rfl, rfl⟩]
    · rw [length_interval, h.stage, h.chunk (ranks + 1) (by omega)]
      cases hlast : config.numLayersInLastPipelineStage with
      | none => rw [last_of_none h hn hlast]; exact Nat.zero_le _
      | some _ => rw [if_pos ⟨rfl, hranks.symm⟩]
  have hle := le_length_flatMap_range hinner
  change _ ≤ (config.stages offset).length at hle
  rw [hlength] at hle
  have hfirst := Int.toNat_of_nonneg (first_nonneg h hn)
  have hlast := Int.toNat_of_nonneg (last_nonneg h hn)
  rw [h.firstLayers, h.lastLayers, ← Int.mul_add, ← hfirst, ← hlast]
  exact_mod_cast hle

end Uneven

/-! ## The offsets of uneven stages -/

/-- The layers of a chunk of all ranks. -/
def totalLayers (config : TransformerConfig) (first last middle : Int) : Int :=
  first + config.middlePipelineStages * middle + last

/-- The offset of an uneven stage. -/
def unevenOffset (config : TransformerConfig) (first last middle : Int) (pp vp : Nat) : Int :=
  vp * totalLayers config first last middle +
    if pp = 0 then 0
    else first + (pp - (if config.numLayersInFirstPipelineStage.isSome ∨
      config.virtualPipelineModelParallelSize.isSome then 1 else 0)) * middle

/-- The end of the ranks before a rank. -/
def rankBound (config : TransformerConfig) (first last middle : Int) (pp : Nat) : Int :=
  if pp = 0 then 0
  else if pp = config.pipelineModelParallelSize then totalLayers config first last middle
  else first + (pp - (if config.numLayersInFirstPipelineStage.isSome then 1 else 0)) * middle

theorem endChunkLayers_eq {layers : Option Nat} {vpSize : Nat} {chunk : Int} (hv : 0 < vpSize)
    (hlayers : ((layers.getD 0 : Nat) : Int) = vpSize * chunk) :
    endChunkLayers layers vpSize = .ok chunk := by
  have hpos : (0 : Int) < vpSize := Int.natCast_pos.mpr hv
  cases layers with
  | none =>
      rw [endChunkLayers, (Int.mul_eq_zero.mp hlayers.symm).resolve_left (Int.ne_of_gt hpos)]
  | some layers =>
      rw [Option.getD_some] at hlayers
      rw [endChunkLayers, Py.intDiv_of_pos _ hpos, hlayers,
        Int.mul_ediv_cancel_left _ (Int.ne_of_gt hpos)]

section UnevenOffsets

variable {first last middle : Int} (h : UnevenChunks config first last middle)

include h

theorem numChunks_mul_totalLayers :
    config.numChunks * totalLayers config first last middle =
      config.firstLayers + config.lastLayers +
        if config.middlePipelineStages > 0 then config.middleNumLayers else 0 := by
  rw [totalLayers, h.firstLayers, h.lastLayers]
  split
  next hmiddle =>
    rw [h.middleNumLayers hmiddle]
    ring
  next hmiddle =>
    rw [h.noMiddle hmiddle]
    ring

theorem unevenLayerOffset_none (hsize : config.virtualPipelineModelParallelSize = none)
    {pp vp : Nat} (hchunk : vp < config.numChunks) :
    unevenLayerOffset config pp (config.vpStage vp) =
      .ok (unevenOffset config first last middle pp vp) := by
  have hone : config.numChunks = 1 := by rw [TransformerConfig.numChunks, hsize]; rfl
  have hfirst := h.firstLayers
  have hmiddle := h.middleNumLayers
  rw [hone, Int.natCast_one, Int.one_mul] at hfirst
  rw [hone, Int.natCast_one, Int.one_mul] at hmiddle
  rw [hone] at hchunk
  obtain rfl := Nat.lt_one_iff.mp hchunk
  have hperRank : (if config.middlePipelineStages > 0 then
      config.middleNumLayers.fdiv config.middlePipelineStages else 0) = middle := by
    split
    next hpos =>
      rw [hmiddle hpos, Int.fdiv_eq_ediv_of_nonneg _ (Int.le_of_lt hpos),
        Int.mul_ediv_cancel_left _ (Int.ne_of_gt hpos)]
    next hnone => exact (h.noMiddle hnone).symm
  rw [unevenLayerOffset, hsize, unevenOffset, hsize]
  simp only [hperRank, hfirst, Int.natCast_zero, Int.zero_mul, Int.zero_add]
  by_cases hpp : pp = 0
  · rw [if_pos hpp, if_pos hpp]
  · rw [if_neg hpp, if_neg hpp, Int.add_comm]
    cases config.numLayersInFirstPipelineStage with
    | none => simp only [Option.isNone_none, Option.isSome_none, if_true, Bool.false_eq_true,
        or_self, if_false, Int.sub_zero]
    | some first => simp only [Option.isNone_some, Option.isSome_some, Bool.false_eq_true,
        if_false, true_or, if_true]

theorem unevenLayerOffset_some {vpSize : Nat}
    (hsize : config.virtualPipelineModelParallelSize = some vpSize) (hv : 0 < vpSize)
    (hmiddle : 0 < config.middlePipelineStages) (pp vp : Nat) :
    unevenLayerOffset config pp (config.vpStage vp) =
      .ok (unevenOffset config first last middle pp vp) := by
  have hpos : (0 : Int) < vpSize := Int.natCast_pos.mpr hv
  have hsome : config.numChunks = vpSize := by rw [TransformerConfig.numChunks, hsize]; rfl
  have hfirst := h.firstLayers
  have hlast := h.lastLayers
  have hlayers := h.middleNumLayers hmiddle
  rw [hsome] at hfirst hlast hlayers
  have hfirst := endChunkLayers_eq hv hfirst
  have hlast := endChunkLayers_eq hv hlast
  have hchunk : config.middleNumLayers / vpSize = config.middlePipelineStages * middle := by
    rw [hlayers, Int.mul_left_comm, Int.mul_ediv_cancel_left _ (Int.ne_of_gt hpos)]
  rw [unevenLayerOffset, TransformerConfig.vpStage, hsize, unevenOffset, hsize]
  simp only [Option.map_some, providedVpStage, Py.ok_bind, hfirst, hlast, Py.intDiv_of_pos _ hpos,
    Py.intDiv_of_pos _ hmiddle, hchunk,
    Int.mul_ediv_cancel_left _ (Int.ne_of_gt hmiddle), totalLayers, Py.pure_eq_ok,
    Option.isSome_some, or_true, if_true]
  by_cases hpp : pp = 0
  · rw [if_pos hpp, if_pos hpp, Int.add_zero]
  · rw [if_neg hpp, if_neg hpp, Int.add_assoc (vp * _)]

/-- The interleaved offset divides by the number of middle stages. -/
theorem unevenLayerOffset_ne_ok {vpSize : Nat}
    (hsize : config.virtualPipelineModelParallelSize = some vpSize) (hv : 0 < vpSize)
    (hmiddle : config.middlePipelineStages = 0) {pp : Nat} (hpp : pp ≠ 0) (vp : Nat)
    (offset : Int) : unevenLayerOffset config pp (config.vpStage vp) ≠ .ok offset := by
  have hpos : (0 : Int) < vpSize := Int.natCast_pos.mpr hv
  have hsome : config.numChunks = vpSize := by rw [TransformerConfig.numChunks, hsize]; rfl
  have hfirst := h.firstLayers
  have hlast := h.lastLayers
  rw [hsome] at hfirst hlast
  have hfirst := endChunkLayers_eq hv hfirst
  have hlast := endChunkLayers_eq hv hlast
  rw [unevenLayerOffset, TransformerConfig.vpStage, hsize]
  simp only [Option.map_some, providedVpStage, Py.ok_bind, hfirst, hlast, Py.intDiv_of_pos _ hpos]
  rw [if_neg hpp, hmiddle, Py.intDiv, if_pos rfl]
  intro herror
  cases herror

theorem middle_nonneg (hn : 0 < config.numChunks)
    (hle : config.firstLayers + config.lastLayers ≤ config.numLayers) : 0 ≤ middle := by
  by_cases hmiddle : 0 < config.middlePipelineStages
  · have hpos : (0 : Int) < config.numChunks := Int.natCast_pos.mpr hn
    have hlayers := h.middleNumLayers hmiddle
    rw [TransformerConfig.middleNumLayers] at hlayers
    have hprod : 0 ≤ config.middlePipelineStages * (config.numChunks * middle) := by omega
    exact Int.nonneg_of_mul_nonneg_right (Int.nonneg_of_mul_nonneg_right hprod hmiddle) hpos
  · exact Int.le_of_eq (h.noMiddle hmiddle).symm

/-- The ranks of one chunk follow each other. -/
theorem chunkLayers_eq_sub (hn : 0 < config.numChunks)
    (hp : config.pipelineModelParallelSize > 1) {pp : Nat}
    (hpp : pp < config.pipelineModelParallelSize) : config.chunkLayers pp =
      rankBound config first last middle (pp + 1) - rankBound config first last middle pp := by
  have hfirst := first_of_none h hn
  have hlast := last_of_none h hn
  rw [h.chunk pp hpp, rankBound, rankBound, if_neg (Nat.succ_ne_zero pp), if_neg (Nat.ne_of_lt hpp),
    totalLayers, TransformerConfig.middlePipelineStages]
  by_cases hend : pp + 1 = config.pipelineModelParallelSize
  · have hzero : pp ≠ 0 := by omega
    rw [← hend, if_pos rfl, if_neg hzero]
    cases hset : config.numLayersInLastPipelineStage with
    | none =>
        rw [hlast hset]
        simp only [Option.isSome_none, Bool.false_eq_true, false_and, if_false, hzero, and_false]
        push_cast
        ring
    | some _ =>
        simp only [Option.isSome_some, true_and, if_true]
        push_cast
        ring
  · rw [if_neg hend, if_neg fun hand => hend hand.2]
    by_cases hzero : pp = 0
    · subst hzero
      rw [if_pos rfl]
      cases hset : config.numLayersInFirstPipelineStage with
      | none =>
          rw [hfirst hset]
          simp only [Option.isSome_none, Bool.false_eq_true, false_and, if_false]
          push_cast
          ring
      | some _ =>
          simp only [Option.isSome_some, true_and, if_true]
          push_cast
          ring
    · rw [if_neg hzero, if_neg fun hand => hzero hand.2]
      push_cast
      ring

theorem chunkLayers_nonneg (hn : 0 < config.numChunks) (hmiddle : 0 ≤ middle) {pp : Nat}
    (hpp : pp < config.pipelineModelParallelSize) : 0 ≤ config.chunkLayers pp := by
  rw [h.chunk pp hpp]
  split
  · exact last_nonneg h hn
  · split
    · exact first_nonneg h hn
    · exact hmiddle

omit h in
theorem unevenOffset_eq_rankBound {pp : Nat} (hpp : pp < config.pipelineModelParallelSize)
    (hshift : config.numLayersInFirstPipelineStage.isSome ∨
      config.virtualPipelineModelParallelSize = none ∨ middle = 0) :
    unevenOffset config first last middle pp 0 = rankBound config first last middle pp := by
  rw [unevenOffset, rankBound, if_neg (Nat.ne_of_lt hpp), Int.natCast_zero, Int.zero_mul,
    Int.zero_add]
  rcases hshift with hset | hsize | hmiddle
  · simp only [hset, true_or]
  · simp only [hsize, Option.isSome_none, Bool.false_eq_true, or_false]
  · simp only [hmiddle, Int.mul_zero]

/-- Uneven stages tile all chunks when the offset of every rank with layers is the end of the
ranks before. -/
theorem stages_uneven (hn : 0 < config.numChunks) (hp : config.pipelineModelParallelSize > 1)
    (hmiddle : 0 ≤ middle)
    (hstart : ∀ pp < config.pipelineModelParallelSize, config.chunkLayers pp = 0 ∨
      unevenOffset config first last middle pp 0 = rankBound config first last middle pp) :
    config.stages (unevenOffset config first last middle) =
      interval 0 (config.numChunks * totalLayers config first last middle) := by
  have hzero : rankBound config first last middle 0 = 0 := if_pos rfl
  have hend : rankBound config first last middle config.pipelineModelParallelSize =
      totalLayers config first last middle := by
    rw [rankBound, if_neg (Nat.ne_of_gt (Nat.lt_of_succ_lt hp)), if_pos rfl]
  have hoffset : ∀ pp vp, unevenOffset config first last middle pp vp =
      vp * totalLayers config first last middle +
        unevenOffset config first last middle pp 0 := by
    intro pp vp
    rw [unevenOffset, unevenOffset, Int.natCast_zero, Int.zero_mul, Int.zero_add]
  have hinner : ∀ vp : Nat, ((List.range config.pipelineModelParallelSize).flatMap fun pp =>
      interval (unevenOffset config first last middle pp vp) (config.stageLayers pp vp)) =
        interval (vp * totalLayers config first last middle)
          (totalLayers config first last middle) ∧
      0 ≤ totalLayers config first last middle := by
    intro vp
    have htile := @flatMap_interval
      (fun pp => vp * totalLayers config first last middle +
        rankBound config first last middle pp)
      (fun pp => unevenOffset config first last middle pp vp)
      (fun pp => config.stageLayers pp vp) config.pipelineModelParallelSize fun pp hpp => by
        rw [h.stage]
        refine ⟨?_, chunkLayers_nonneg h hn hmiddle hpp, ?_⟩
        · rw [chunkLayers_eq_sub h hn hp hpp]
          omega
        · rw [hoffset]
          exact (hstart pp hpp).imp_right fun heq => congrArg _ heq
    rw [hzero, hend, Int.add_zero, add_sub_cancel_left] at htile
    exact ⟨htile.1, by have := htile.2; omega⟩
  have htile := @flatMap_interval
    (fun vp => vp * totalLayers config first last middle)
    (fun vp => vp * totalLayers config first last middle)
    (fun _ => totalLayers config first last middle) config.numChunks fun vp _ => by
      refine ⟨?_, (hinner vp).2, .inr rfl⟩
      push_cast
      ring
  rw [TransformerConfig.stages, List.flatMap_congr fun vp _ => (hinner vp).1, htile.1,
    Int.natCast_zero, Int.zero_mul, Int.sub_zero]

end UnevenOffsets

/-! ## Tiling -/

/-- Two stages that begin with the same layer. -/
theorem not_stages_of_same_start {offset : Nat → Nat → Int} (hn : 0 < config.numChunks)
    (hp : config.pipelineModelParallelSize > 1) (hsame : offset 0 0 = offset 1 0)
    (hfirst : 0 < config.stageLayers 0 0) (hsecond : 0 < config.stageLayers 1 0) :
    config.stages offset ≠ interval 0 config.numLayers := by
  intro htile
  have hnodup := nodup_interval 0 (config.numLayers : Int)
  rw [← htile, TransformerConfig.stages] at hnodup
  have hchunk := (List.nodup_flatMap.mp hnodup).1 0 (List.mem_range.mpr hn)
  refine not_nodup_flatMap Nat.zero_lt_one (List.getElem?_range (Nat.lt_of_succ_lt hp))
    (List.getElem?_range hp) (y := offset 0 0) ?_ ?_ hchunk
  · rw [mem_interval]
    omega
  · rw [mem_interval]
    omega

theorem middle_eq_zero_iff {first last middle : Int} (h : UnevenChunks config first last middle)
    (hn : 0 < config.numChunks) (hmiddle : 0 < config.middlePipelineStages) :
    middle = 0 ↔ config.firstLayers + config.lastLayers = config.numLayers := by
  have hlayers := h.middleNumLayers hmiddle
  rw [TransformerConfig.middleNumLayers] at hlayers
  constructor
  · intro hzero
    rw [hzero, Int.mul_zero, Int.mul_zero] at hlayers
    omega
  · intro hall
    have hprod : config.middlePipelineStages * (config.numChunks * middle) = 0 := by omega
    exact (Int.mul_eq_zero.mp ((Int.mul_eq_zero.mp hprod).resolve_left
      (Int.ne_of_gt hmiddle))).resolve_left (Int.natCast_ne_zero.mpr (Nat.ne_of_gt hn))

theorem firstLayers_of_none (hfirst : config.numLayersInFirstPipelineStage = none) :
    config.firstLayers = 0 := by
  rw [TransformerConfig.firstLayers, hfirst]
  rfl

/-- When the first stage has no number of layers of its own, the interleaved offset of the
second rank is that of the first. -/
theorem eq_of_stages_of_none {first last middle : Int} (h : UnevenChunks config first last middle)
    (hn : 0 < config.numChunks) (hp : config.pipelineModelParallelSize > 1)
    (hmiddle : 0 < config.middlePipelineStages)
    (hsize : config.virtualPipelineModelParallelSize.isSome)
    (hfirst : config.numLayersInFirstPipelineStage = none) (hnonneg : 0 ≤ middle)
    (htile : config.stages (unevenOffset config first last middle) =
      interval 0 config.numLayers) :
    config.lastLayers = config.numLayers ∨
      (config.pipelineModelParallelSize = 2 ∧ config.lastLayers = 0) := by
  by_contra hnot
  rw [not_or, not_and] at hnot
  have hzero := first_of_none h hn hfirst
  have hpositive : 0 < middle := by
    refine lt_of_le_of_ne hnonneg fun heq => hnot.1 ?_
    have hall := (middle_eq_zero_iff h hn hmiddle).mp heq.symm
    rwa [firstLayers_of_none hfirst, Int.zero_add] at hall
  refine not_stages_of_same_start hn hp ?_ ?_ ?_ htile
  · rw [unevenOffset, unevenOffset, if_pos rfl, if_neg Nat.one_ne_zero, if_pos (.inr hsize), hzero,
      Nat.cast_one, Int.sub_self, Int.zero_mul]
    rfl
  · rw [h.stage, h.chunk 0 (Nat.lt_of_succ_lt hp), if_neg fun hand => Nat.ne_of_lt hp hand.2,
      hfirst, if_neg fun hand => Bool.false_ne_true hand.1]
    exact hpositive
  · rw [h.stage, h.chunk 1 hp]
    split
    next hand =>
      refine lt_of_le_of_ne (last_nonneg h hn) fun heq => hnot.2 hand.2.symm ?_
      rw [h.lastLayers, ← heq, Int.mul_zero]
    next =>
      rw [if_neg fun hand => Nat.one_ne_zero hand.2]
      exact hpositive

/-- Of two ranks the second has no layers, so that it does not matter where it begins. -/
theorem chunkLayers_eq_zero_or {first last middle : Int}
    (h : UnevenChunks config first last middle) (hn : 0 < config.numChunks)
    (huneven : config.Uneven) (hfirst : config.numLayersInFirstPipelineStage = none)
    (htwo : config.pipelineModelParallelSize = 2) (hlast : config.lastLayers = 0) {pp : Nat}
    (hpp : pp < config.pipelineModelParallelSize) : config.chunkLayers pp = 0 ∨
      unevenOffset config first last middle pp 0 = rankBound config first last middle pp := by
  by_cases hzero : pp = 0
  · right
    rw [unevenOffset, rankBound, if_pos hzero, if_pos hzero, Int.natCast_zero, Int.zero_mul,
      Int.zero_add]
  · left
    have hset := huneven.resolve_left fun hset => by
      rw [hfirst] at hset
      exact Bool.false_ne_true hset
    rw [h.chunk pp hpp, if_pos ⟨hset, by omega⟩]
    rw [h.lastLayers] at hlast
    exact (Int.mul_eq_zero.mp hlast).resolve_left (Int.natCast_ne_zero.mpr (Nat.ne_of_gt hn))

theorem middlePipelineStages_nonneg (hp : config.pipelineModelParallelSize > 1) :
    0 ≤ config.middlePipelineStages := by
  rw [TransformerConfig.middlePipelineStages]
  split <;> split <;> omega

section Tiling

variable (hm : StagesOfMegatron megatron processes)
  (hvp : ∀ vpSize, config.virtualPipelineModelParallelSize = some vpSize → 0 < vpSize)
  (hcounts : AllCounted megatron config)

include hm hvp hcounts

theorem tiles_iff_noMiddle (hp : config.pipelineModelParallelSize > 1)
    (huneven : config.Uneven) (hmiddle : config.middlePipelineStages = 0) :
    Tiles config megatron processes ↔
      config.firstLayers + config.lastLayers = config.numLayers ∧
        config.virtualPipelineModelParallelSize = none := by
  have hpos := Nat.lt_of_succ_lt hp
  have hn := numChunks_pos hvp
  obtain ⟨first, last, middle, h⟩ := unevenChunks hm hp hvp hcounts huneven
  have hnone : ¬ 0 < config.middlePipelineStages := Int.not_lt.mpr (Int.le_of_eq hmiddle)
  have htotal := numChunks_mul_totalLayers h
  rw [if_neg hnone, Int.add_zero] at htotal
  have hasked := fun asking pp vp =>
    getTransformerLayerOffset_of_lt hm hp asking pp (config.vpStage vp)
  simp only [if_pos huneven] at hasked
  cases hsize : config.virtualPipelineModelParallelSize with
  | some vpSize =>
      refine iff_of_false ?_ fun hand => Option.some_ne_none _ hand.2
      rintro ⟨offset, -, hsame, -, -⟩
      have hone := hsame 0 hpos 1 hp 0 hn
      rw [hasked] at hone
      exact unevenLayerOffset_ne_ok h hsize (hvp vpSize hsize) hmiddle Nat.one_ne_zero 0 _ hone
  | none =>
      have hoffset : ∀ asking < config.pipelineModelParallelSize,
          ∀ pp < config.pipelineModelParallelSize, ∀ vp < config.numChunks,
          getTransformerLayerOffset (processes asking) config pp (config.vpStage vp) =
            .ok (unevenOffset config first last middle pp vp) := by
        intro asking _ pp _ vp hchunk
        rw [hasked, unevenLayerOffset_none h hsize hchunk]
      have hstages := stages_uneven h hn hp (Int.le_of_eq (h.noMiddle hnone).symm)
        fun pp hpp => .inr (unevenOffset_eq_rankBound hpp (.inr (.inr (h.noMiddle hnone))))
      rw [tiles_iff_stages hm hpos hvp hcounts hoffset, hstages, htotal]
      constructor
      · intro heq
        refine ⟨eq_of_interval_eq ?_ (Int.natCast_nonneg _) heq, rfl⟩
        exact Int.add_nonneg (Int.natCast_nonneg _) (Int.natCast_nonneg _)
      · rintro ⟨heq, -⟩
        rw [heq]

theorem tiles_iff_middle (hp : config.pipelineModelParallelSize > 1)
    (huneven : config.Uneven) (hmiddle : 0 < config.middlePipelineStages) :
    Tiles config megatron processes ↔
      config.firstLayers + config.lastLayers ≤ config.numLayers ∧
        (config.virtualPipelineModelParallelSize.isSome ∧
            config.numLayersInFirstPipelineStage = none →
          config.lastLayers = config.numLayers ∨
            (config.pipelineModelParallelSize = 2 ∧ config.lastLayers = 0)) := by
  have hpos := Nat.lt_of_succ_lt hp
  have hn := numChunks_pos hvp
  obtain ⟨first, last, middle, h⟩ := unevenChunks hm hp hvp hcounts huneven
  have htotal : config.numChunks * totalLayers config first last middle = config.numLayers := by
    rw [numChunks_mul_totalLayers h, if_pos hmiddle, TransformerConfig.middleNumLayers]
    omega
  have hoffset : ∀ asking < config.pipelineModelParallelSize,
      ∀ pp < config.pipelineModelParallelSize, ∀ vp < config.numChunks,
      getTransformerLayerOffset (processes asking) config pp (config.vpStage vp) =
        .ok (unevenOffset config first last middle pp vp) := by
    intro asking _ pp _ vp hchunk
    rw [getTransformerLayerOffset_of_lt hm hp, if_pos huneven]
    cases hsize : config.virtualPipelineModelParallelSize with
    | none => exact unevenLayerOffset_none h hsize hchunk
    | some vpSize => exact unevenLayerOffset_some h hsize (hvp vpSize hsize) hmiddle pp vp
  rw [tiles_iff_stages hm hpos hvp hcounts hoffset]
  constructor
  · intro htile
    have hle := ends_le h hp hn htile
    exact ⟨hle, fun ⟨hsize, hfirst⟩ =>
      eq_of_stages_of_none h hn hp hmiddle hsize hfirst (middle_nonneg h hn hle) htile⟩
  · rintro ⟨hle, hshift⟩
    rw [stages_uneven h hn hp (middle_nonneg h hn hle) ?_, htotal]
    intro pp hpp
    cases hfirst : config.numLayersInFirstPipelineStage with
    | some first => exact .inr (unevenOffset_eq_rankBound hpp (.inl (by rw [hfirst]; rfl)))
    | none =>
        cases hsize : config.virtualPipelineModelParallelSize with
        | none => exact .inr (unevenOffset_eq_rankBound hpp (.inr (.inl hsize)))
        | some vpSize =>
            rw [hsize] at hshift
            rcases hshift ⟨rfl, hfirst⟩ with hall | ⟨htwo, hlast⟩
            · refine .inr (unevenOffset_eq_rankBound hpp (.inr (.inr ?_)))
              rw [middle_eq_zero_iff h hn hmiddle, firstLayers_of_none hfirst, hall, Int.zero_add]
            · exact chunkLayers_eq_zero_or h hn huneven hfirst htwo hlast hpp

/-- When the assertions of `get_num_layers_to_build` pass, the stages tile the layers for the
configurations of `OffsetsFit` and for no others. -/
theorem tiles_iff (hpos : 0 < config.pipelineModelParallelSize) :
    Tiles config megatron processes ↔ config.OffsetsFit := by
  rcases Nat.lt_or_eq_of_le (Nat.succ_le_of_lt hpos) with hp | hone
  · have hne : config.pipelineModelParallelSize ≠ 1 := Nat.ne_of_gt hp
    rw [TransformerConfig.OffsetsFit, if_neg hne]
    by_cases huneven : config.Uneven
    · rw [if_pos huneven]
      rcases (middlePipelineStages_nonneg hp).lt_or_eq with hmiddle | hmiddle
      · rw [tiles_iff_middle hm hvp hcounts hp huneven hmiddle]
        have hne : config.middlePipelineStages ≠ 0 := Int.ne_of_gt hmiddle
        simp only [hne, false_implies, true_and]
      · rw [tiles_iff_noMiddle hm hvp hcounts hp huneven hmiddle.symm]
        constructor
        · rintro ⟨hall, hsize⟩
          refine ⟨Int.le_of_eq hall, fun _ => ⟨hall, hsize⟩, fun hand => ?_⟩
          rw [hsize] at hand
          exact absurd hand.1 Bool.false_ne_true
        · rintro ⟨-, hboth, -⟩
          exact hboth hmiddle.symm
    · rw [if_neg huneven]
      exact tiles_iff_even hm hp hvp hcounts huneven
  · have hoffset : ∀ asking < config.pipelineModelParallelSize,
        ∀ pp < config.pipelineModelParallelSize, ∀ vp < config.numChunks,
        getTransformerLayerOffset (processes asking) config pp (config.vpStage vp) = .ok 0 :=
      fun _ _ _ _ _ _ => if_neg (Nat.not_lt.mpr (Nat.le_of_eq hone.symm))
    have hn := numChunks_pos hvp
    rw [tiles_iff_stages hm hpos hvp hcounts hoffset]
    exact stages_one_iff hone.symm hn (counted hm hpos hvp hcounts hpos hn).flags

end Tiling

/-! ## Configurations that do and do not fit -/

/-- Megatron without a custom layout. -/
def plainMegatron : Megatron where
  layoutNumLayersToBuild := none
  isVpFirstStage vpStage vpSize := decide (vpSize.getD 1 ≤ 1 ∨ vpStage = some 0)
  isVpLastStage vpStage vpSize := decide (vpSize.getD 1 ≤ 1 ∨ vpStage.map (· + 1) = vpSize)
  offsetHasVpStage := true
  offsetHasPpRank := true
  getTransformerLayerOffset _ _ _ := 0
  getScheduleTable _ _ _ := []

/-- The processes of `plainMegatron`. -/
def plainProcesses (rank : Nat) : AskingProcess where
  layoutLayerOffset := none
  isPipelineFirstStage vpStage := decide (rank = 0 ∧ vpStage.getD 0 = 0)

theorem stagesOfMegatron_plain : StagesOfMegatron plainMegatron plainProcesses where
  noLayout := rfl
  noLayoutOffset _ := rfl
  isPipelineFirstStage _ _ := rfl
  isVpFirstStage _ _ := rfl
  isVpLastStage _ _ := rfl

/-- A configuration without its own sizes at the ends. -/
def evenConfig (numLayers pipelineSize : Nat) (vpSize : Option Nat) : TransformerConfig where
  numLayers := numLayers
  moeLayerFreq := .int 1
  pipelineModelParallelSize := pipelineSize
  virtualPipelineModelParallelSize := vpSize
  microbatchGroupSizePerVpStage := pipelineSize
  numLayersInFirstPipelineStage := none
  numLayersInLastPipelineStage := none
  accountForEmbeddingInPipelineSplit := false
  accountForLossInPipelineSplit := false

/-- Four ranks of two chunks, with 2, 4, 4 and 4 layers. -/
def smallFirstConfig : TransformerConfig :=
  { evenConfig 14 4 (some 2) with
    numLayersInFirstPipelineStage := some 2, numLayersInLastPipelineStage := some 4 }

/-- Two ranks of two chunks, with 4 and 2 layers. -/
def smallLastConfig : TransformerConfig :=
  { evenConfig 6 2 (some 2) with numLayersInLastPipelineStage := some 2 }

/-- Two ranks with 1 and 2 layers, the embedding on the first. -/
def embeddingConfig : TransformerConfig :=
  { evenConfig 3 2 none with accountForEmbeddingInPipelineSplit := true }

theorem allCounted_of_isOk (h : ∀ pp < config.pipelineModelParallelSize,
    ∀ vp < config.numChunks, (getNumLayersToBuild megatron config pp (config.vpStage vp)
      (some pp)).toBool = true) : AllCounted megatron config := by
  intro pp hpp vp hvp
  have hok := h pp hpp vp hvp
  cases hcount : getNumLayersToBuild megatron config pp (config.vpStage vp) (some pp) with
  | error _ =>
      rw [hcount] at hok
      exact absurd hok Bool.false_ne_true
  | ok count => exact ⟨count, rfl⟩

theorem tiles_iff_smallFirst : Tiles smallFirstConfig plainMegatron plainProcesses := by
  refine (tiles_iff stagesOfMegatron_plain ?_ (allCounted_of_isOk ?_) ?_).mpr ?_
  · intro vpSize hsize
    obtain rfl := Option.some.inj hsize
    exact Nat.two_pos
  · decide
  · decide
  · rw [TransformerConfig.OffsetsFit, if_neg (by decide), if_pos (by decide)]
    exact ⟨by decide, fun hzero => absurd hzero (by decide),
      fun hand => absurd hand.2 (by decide)⟩

theorem not_tiles_smallLast_embedding :
    (AllCounted plainMegatron smallLastConfig ∧
      ¬ Tiles smallLastConfig plainMegatron plainProcesses) ∧
    (AllCounted plainMegatron embeddingConfig ∧
      ¬ Tiles embeddingConfig plainMegatron plainProcesses) := by
  have hlast : AllCounted plainMegatron smallLastConfig := allCounted_of_isOk (by decide)
  have hembedding : AllCounted plainMegatron embeddingConfig := allCounted_of_isOk (by decide)
  refine ⟨⟨hlast, ?_⟩, hembedding, ?_⟩
  · rw [tiles_iff_middle stagesOfMegatron_plain ?_ hlast (by decide) (by decide) (by decide)]
    · rintro ⟨-, hshift⟩
      exact absurd (hshift (by decide)) (by decide)
    · intro vpSize hsize
      obtain rfl := Option.some.inj hsize
      exact Nat.two_pos
  · rw [tiles_iff_even stagesOfMegatron_plain (by decide) ?_ hembedding (by decide)]
    · exact not_not.mpr rfl
    · intro vpSize hsize
      cases hsize

end Verl.RouterReplay
