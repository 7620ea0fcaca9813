import Verl.RouterReplay.Assembly

/-!
# What is replayed is what was recorded

Given the tensor of all MoE layers, `set_router_replay_data` finds the entry of a layer by
its number or by the number of MoE layers before it, and either way it is the entry of
this layer (`setRouterReplayData_eq`).  What arrives is what was recorded, up to the bytes
in between.  When a stage has no MoE layer, the tensor of all MoE layers is never made
(`routedExperts_incomplete`).
-/

namespace Verl.RouterReplay

variable {topK : Nat} {megatron : Megatron} {config : TransformerConfig} {stages : Stages}

/-- A row comes back from bytes when all of its indices fit into a byte. -/
theorem toInt_toByte_iff (row : TopkRow topK) : row.toByte.toInt = row ↔ ∀ i, row i < 256 := by
  have hentry : ∀ i, row.toByte.toInt i = row i % 256 := fun i => UInt8.toNat_ofNat'
  constructor
  · intro h i
    rw [← h, hentry]
    exact Nat.mod_lt _ (by decide)
  · intro h
    funext i
    rw [hentry, Nat.mod_eq_of_lt (h i)]

/-! ## The loop over the layers of a chunk -/

theorem setTargets_eq {layersTopkIdx : List (Nat → List (TopkRow topK))}
    {replayMask : Option (Nat → List Bool)} {indexByLayer : Bool}
    {target : Nat → Nat → List (TopkRow topK)} {layers : List Nat} {moeIdx : Nat}
    {before chunk : List (RouterInstance topK)}
    (hfreq : ∀ layer ∈ layers, ∃ moe, isMoeLayer config layer = .ok moe)
    (hchunk : chunk.map RouterInstance.layer = layers.filter (isMoe config))
    (htarget : ∀ k layer, (layers.filter (isMoe config))[k]? = some layer →
      layersTopkIdx[if indexByLayer then layer else moeIdx + k]? = some (target layer)) :
    setTargets config layersTopkIdx replayMask indexByLayer layers before.length moeIdx
        (before ++ chunk) =
      .ok (before ++ chunk.map fun router =>
        router.setTargetIndices (target router.layer) replayMask) := by
  induction layers generalizing moeIdx before chunk with
  | nil =>
      obtain rfl := List.map_eq_nil_iff.mp hchunk
      rfl
  | cons layer layers ih =>
      have hrest : ∀ layer ∈ layers, ∃ moe, isMoeLayer config layer = .ok moe :=
        fun l hl => hfreq l (List.mem_cons_of_mem _ hl)
      rw [setTargets, isMoeLayer_eq (hfreq layer List.mem_cons_self), Py.ok_bind]
      by_cases hmoe : isMoe config layer = true
      · rw [List.filter_cons_of_pos hmoe] at hchunk htarget
        cases chunk with
        | nil => cases hchunk
        | cons router rest =>
            obtain ⟨hlayer, hmap⟩ := List.cons_eq_cons.mp hchunk
            have hget : (before ++ router :: rest)[before.length]? = some router := by
              rw [List.getElem?_append_right (Nat.le_refl _), Nat.sub_self]
              rfl
            have hfirst := htarget 0 layer rfl
            rw [Nat.add_zero] at hfirst
            rw [if_pos hmoe, Py.getItem_of_some hget, Py.ok_bind, Py.getItem_of_some hfirst,
              Py.ok_bind, List.set_append_right _ _ (Nat.le_refl _), Nat.sub_self,
              List.set_cons_zero, List.append_cons]
            have hnext := @ih (moeIdx + 1)
              (before ++ [router.setTargetIndices (target layer) replayMask]) rest hrest hmap
              fun k l hk => by
                have hk := htarget (k + 1) l hk
                rwa [← Nat.add_assoc, Nat.add_right_comm] at hk
            rw [List.length_append, List.length_singleton] at hnext
            rw [hnext, List.map_cons, List.append_assoc, List.singleton_append]
            congr 3
            exact congrArg (fun l => router.setTargetIndices (target l) replayMask) hlayer.symm
      · rw [List.filter_cons_of_neg hmoe] at hchunk htarget
        rw [if_neg hmoe]
        exact ih hrest hchunk htarget

/-! ## The entry of a layer -/

/-- The layers of a stage that has one are layers of the model. -/
theorem stage_le (htile : stages.Tile megatron config) {pp vp : Nat}
    (hpp : pp < config.pipelineModelParallelSize) (hvp : vp < config.numChunks)
    (hpos : 0 < stages.count pp vp) :
    stages.start pp vp + stages.count pp vp ≤ config.numLayers := by
  have hlast : stages.start pp vp + (stages.count pp vp - 1) ∈ stages.layers pp vp :=
    List.mem_range'_1.mpr ⟨Nat.le_add_right _ _, by omega⟩
  have hlt := layer_lt htile hpp hvp hlast
  omega

theorem nodup_moeLayers : config.moeLayers.Nodup := List.nodup_range.filter _

/-- The MoE layers of the model: those before a stage, those of the stage, and the others. -/
theorem moeLayers_split {pp vp : Nat}
    (hle : stages.start pp vp + stages.count pp vp ≤ config.numLayers) :
    ∃ rest, config.moeLayers = (List.range (stages.start pp vp)).filter (isMoe config) ++
      (stages.moeLayers config pp vp ++ rest) := by
  obtain ⟨more, hmore⟩ := Nat.exists_eq_add_of_le hle
  refine ⟨(List.range' (stages.start pp vp + stages.count pp vp) more).filter (isMoe config), ?_⟩
  have hbefore := @List.range'_append_1 0 (stages.start pp vp) (stages.count pp vp + more)
  rw [Nat.zero_add, ← List.range_eq_range', ← List.range_eq_range', ← Nat.add_assoc, ← hmore,
    ← List.range'_append_1] at hbefore
  rw [TransformerConfig.moeLayers, Stages.moeLayers, Stages.layers, ← List.filter_append,
    ← List.filter_append, hbefore]

/-- An MoE layer is found by its number, if all layers are MoE layers, and else by the number
of MoE layers before it. -/
theorem idx_eq {pp vp k layer : Nat}
    (hle : stages.start pp vp + stages.count pp vp ≤ config.numLayers)
    (hk : (stages.moeLayers config pp vp)[k]? = some layer) :
    (if config.moeLayers.length = config.numLayers then layer
      else ((List.range (stages.start pp vp)).filter (isMoe config)).length + k) =
        config.moeLayers.idxOf layer := by
  by_cases hall : config.moeLayers.length = config.numLayers
  · have hrange : config.moeLayers = List.range config.numLayers := by
      refine List.filter_eq_self.mpr ?_
      rw [TransformerConfig.moeLayers] at hall
      exact List.length_filter_eq_length_iff.mp (hall.trans List.length_range.symm)
    have hlt : layer < config.numLayers := by
      have hmem := (List.mem_filter.mp (List.mem_of_getElem? hk)).1
      rw [Stages.layers, List.mem_range'_1] at hmem
      omega
    rw [if_pos hall, hrange]
    have hidx := List.nodup_range.idxOf_getElem layer (by rw [List.length_range]; exact hlt)
    rw [List.getElem_range] at hidx
    exact hidx.symm
  · obtain ⟨rest, hsplit⟩ := @moeLayers_split config stages pp vp hle
    obtain ⟨hlength, hget⟩ := List.getElem?_eq_some_iff.mp hk
    rw [if_neg hall]
    have hat : config.moeLayers[((List.range (stages.start pp vp)).filter
        (isMoe config)).length + k]? = some layer := by
      rw [hsplit, List.getElem?_append_right (Nat.le_add_right _ _), Nat.add_sub_cancel_left,
        List.getElem?_append_left hlength, hk]
    obtain ⟨hin, hat⟩ := List.getElem?_eq_some_iff.mp hat
    rw [← hat]
    exact (nodup_moeLayers.idxOf_getElem _ hin).symm

/-! ## Replaying a micro-batch -/

section Replay

variable {layout : PackedLayout} {ρ τ : Type}

/-- The entries of a layer on the sequence-parallel ranks. -/
def layerRows (layout : PackedLayout) (nt : LayersTopk (ByteRow topK)) (idx spRank : Nat) :
    List (TopkRow topK) :=
  (layout.scatter (layout.preprocess (List.replicate nt.numLayers fun _ => 0)
    (Jagged.rows nt.values nt.lengths)) spRank).map fun row =>
      ByteRow.toInt (row.getD idx fun _ => 0)

/-- The instances of a chunk get the entries of their layers. -/
theorem setRouterReplayData_eq (htile : stages.Tile megatron config) {rank : Nat}
    {vpRank : Option Nat} (hrank : rank < config.pipelineModelParallelSize)
    (hvp : vpRank.getD 0 < config.numChunks)
    (hpos : 0 < stages.count rank (vpRank.getD 0)) {nt : LayersTopk (ByteRow topK)}
    (hnt : nt.numLayers = config.moeLayers.length) (replayMask : Option (List (List Bool)))
    {routers : List (RouterInstance topK)}
    (hlayers : routers.map RouterInstance.layer = stages.rankLayers config rank) :
    ∃ (result : List (RouterInstance topK)) (mask : Option (Nat → List Bool)) (start : Nat)
        (chunk : List (RouterInstance topK)),
      setRouterReplayData megatron config layout rank nt vpRank replayMask routers = .ok result ∧
      result = Slices.write routers start (chunk.map fun router => router.setTargetIndices
        (layerRows layout nt (config.moeLayers.idxOf router.layer)) mask) ∧
      chunk.map RouterInstance.layer = stages.moeLayers config rank (vpRank.getD 0) := by
  have hle := stage_le htile hrank hvp hpos
  have hbefore : ∀ layer ∈ List.range (stages.start rank (vpRank.getD 0)),
      ∃ moe, isMoeLayer config layer = .ok moe := by
    intro layer hlayer
    have hlt := List.mem_range.mp hlayer
    exact htile.freq layer (by omega)
  have hstage : ∀ layer ∈ stages.layers rank (vpRank.getD 0),
      ∃ moe, isMoeLayer config layer = .ok moe :=
    fun layer hlayer => htile.freq layer (layer_lt htile hrank hvp hlayer)
  have hmap := map_layer_slice hlayers hvp
  refine ⟨_, replayMask.map fun mask => layout.scatter (layout.preprocess false mask),
    ((List.range (vpRank.getD 0)).map fun vp => (stages.moeLayers config rank vp).length).sum, _,
    ?_, rfl, hmap⟩
  rw [setRouterReplayData]
  simp only
  rw [getCurrentRankLayerInfo_eq htile hrank hvp, Py.ok_bind]
  simp only
  rw [microBatchRouterRange_eq htile hrank hvp, Py.ok_bind]
  simp only
  rw [countMoeLayers_eq hbefore, Py.ok_bind]
  have htargets := @setTargets_eq topK config
    ((List.range nt.numLayers).map (layerRows layout nt))
    (replayMask.map fun mask => layout.scatter (layout.preprocess false mask))
    (decide (((List.range nt.numLayers).map (layerRows layout nt)).length = config.numLayers))
    (fun layer => layerRows layout nt (config.moeLayers.idxOf layer))
    (stages.layers rank (vpRank.getD 0))
    ((List.range (stages.start rank (vpRank.getD 0))).filter (isMoe config)).length [] _ hstage
    hmap ?targets
  case targets =>
    intro k layer hk
    have hidx := idx_eq hle hk
    have hmem : layer ∈ config.moeLayers := (mem_moeLayers_iff htile).mpr
      ⟨_, hvp, _, hrank, List.mem_of_getElem? hk⟩
    rw [List.length_map, List.length_range, hnt]
    simp only [decide_eq_true_eq]
    rw [hidx, List.getElem?_map, List.getElem?_range (List.idxOf_lt_length_of_mem hmem)]
    rfl
  exact Py.bind_eq_ok.mpr ⟨_, htargets, rfl⟩

end Replay

namespace Recording

variable {layout : PackedLayout} {localRows : List Nat → Nat → Nat}
  {place : List Nat → Nat → Nat → Nat × Nat} {recording : Recording layout localRows topK}

theorem getElem?_tokens {mb s j len : Nat} {lengths : List Nat}
    (hmb : recording.microBatches[mb]? = some lengths) (hs : lengths[s]? = some len)
    (hj : j < len) :
    ∃ sample, (recording.tokens mb)[s]? = some sample ∧ j < sample.length ∧
      sample[j]? = some (mb, s, j) := by
  refine ⟨(List.range len).map fun j => (mb, s, j), ?_, ?_, ?_⟩
  · rw [tokens, List.getD_eq_getElem?_getD, hmb, Option.getD_some, List.getElem?_mapIdx, hs]
    rfl
  · rw [List.length_map, List.length_range]
    exact hj
  · rw [List.getElem?_map, List.getElem?_range hj]
    rfl

/-- A layer's row of a token, as it was recorded. -/
theorem getElem?_routing (hinverse : layout.Inverse localRows place) {mb s j len : Nat}
    {lengths : List Nat} (hmb : recording.microBatches[mb]? = some lengths)
    (hs : lengths[s]? = some len) (hj : j < len) (layer : Nat) :
    (recording.routing mb layer (place lengths s j).1)[(place lengths s j).2]? =
      some (recording.entry place (mb, s, j) layer) := by
  obtain ⟨hrank, hrow⟩ := hinverse.place_lt lengths s j len hs hj
  rw [← recording.length_routing mb lengths hmb layer _ hrank] at hrow
  have hget : recording.microBatches.getD mb [] = lengths := by
    rw [List.getD_eq_getElem?_getD, hmb, Option.getD_some]
  rw [entry]
  simp only
  rw [hget, List.getD_eq_getElem?_getD, List.getElem?_eq_getElem hrow, Option.getD_some]

/-- A layer's row of a token, as it is replayed. -/
theorem getElem?_layerRows (hinverse : layout.Inverse localRows place) {mb s j len : Nat}
    {lengths : List Nat} (hmb : recording.microBatches[mb]? = some lengths)
    (hs : lengths[s]? = some len) (hj : j < len) {layer : Nat} (hlayer : layer ∈ config.moeLayers) :
    (layerRows layout
        (LayersTopk.ofTokens (recording.byteEntry place) config.moeLayers (recording.tokens mb))
        (config.moeLayers.idxOf layer) (place lengths s j).1)[(place lengths s j).2]? =
      some (recording.byteEntry place (mb, s, j) layer).toInt := by
  obtain ⟨sample, hsample, hlt, hat⟩ := getElem?_tokens hmb hs hj
  have hscatter := hinverse.scatter_preprocess
    (List.replicate config.moeLayers.length fun _ => (0 : UInt8))
    ((recording.tokens mb).map fun sample =>
      sample.map fun token => config.moeLayers.map (recording.byteEntry place token)) s j _
    (by rw [List.getElem?_map, hsample, Option.map_some])
    (by rw [List.length_map]; exact hlt)
  have hlengths : ((recording.tokens mb).map fun sample =>
      sample.map fun token => config.moeLayers.map (recording.byteEntry place token)).map
        List.length = lengths := by
    rw [List.map_map, ← map_length_tokens hmb]
    refine List.map_congr_left fun sample _ => ?_
    exact List.length_map _
  rw [hlengths, List.getElem?_map, hat, Option.map_some] at hscatter
  rw [layerRows, LayersTopk.rows_ofTokens, List.getElem?_map]
  refine (congrArg (Option.map _) hscatter).trans ?_
  rw [Option.map_some, List.getD_eq_getElem?_getD, List.getElem?_map, List.getElem?_idxOf hlayer]
  rfl

/-! ## A stage without an MoE layer -/

/-- The steps of a chunk without an MoE layer append nothing. -/
theorem length_flatMap_appended {rank vp : Nat} {table : List (Nat × Nat)}
    {numMicrobatches numChunks : Nat} (htable : IsScheduleTable table numMicrobatches numChunks)
    (hmicro : 0 < numMicrobatches) (hvp : vp < numChunks)
    (hempty : stages.moeLayers config rank vp = []) :
    (table.flatMap (appended config stages place recording rank)).length < table.length := by
  have hlength : ∀ steps : List (Nat × Nat),
      (steps.flatMap (appended config stages place recording rank)).length =
        (steps.filter fun step => stages.moeLayers config rank step.2 ≠ []).length := by
    intro steps
    induction steps with
    | nil => rfl
    | cons step steps ih =>
        rw [List.flatMap_cons, List.length_append, ih, appended]
        by_cases hstep : stages.moeLayers config rank step.2 = []
        · rw [if_pos hstep, List.filter_cons_of_neg (by simp [hstep]), List.length_nil,
            Nat.zero_add]
        · rw [if_neg hstep, List.filter_cons_of_pos (by simp [hstep]), List.length_singleton,
            List.length_cons, Nat.add_comm]
  obtain ⟨step, hstep, -⟩ : ∃ step, step ∈ table.filter (fun step => step.2 = vp) ∧ step.1 = 0 := by
    have hzero : 0 ∈ (table.filter fun step => step.2 = vp).map Prod.fst := by
      rw [htable.order vp hvp]
      exact List.mem_range.mpr hmicro
    exact List.mem_map.mp hzero
  obtain ⟨hmem, hchunk⟩ := List.mem_filter.mp hstep
  rw [hlength]
  refine List.length_filter_lt_length_iff_exists.mpr ⟨step, hmem, ?_⟩
  rw [of_decide_eq_true hchunk, hempty]
  simp

/-- Then a pipeline rank gives nothing to `pp_gather`. -/
theorem localRouterMap_incomplete (hinverse : layout.Inverse localRows place)
    (htile : stages.Tile megatron config)
    (hschedule : ∀ vpSize, config.virtualPipelineModelParallelSize = some vpSize →
      IsScheduleTable (megatron.getScheduleTable recording.microBatches.length vpSize
        config.microbatchGroupSizePerVpStage) recording.microBatches.length vpSize)
    (hmicro : 0 < recording.microBatches.length) {rank vp : Nat}
    (hrank : rank < config.pipelineModelParallelSize) (hvp : vp < config.numChunks)
    (hempty : stages.moeLayers config rank vp = []) (topkIdx : LayersTopk (ByteRow topK)) :
    recording.localRouterMap megatron config stages rank ≠ .ok (some topkIdx) := by
  intro h
  have hchunks : 0 < config.numChunks := Nat.zero_lt_of_lt hvp
  have htable := isScheduleTable_schedule hschedule
  obtain ⟨routers, hready, hsteps⟩ := forwardSteps_eq hinverse htile hrank
    (fun step hstep => ⟨htable.microBatch_lt hstep, htable.chunk_lt step hstep⟩)
    (@recorders_routerInstances topK config stages rank)
  have hrecord := @isR2RecordAction_eq _ _ _ _ _ htile hrank none hchunks _ hready.layers
    hready.actions
  rw [Option.getD_none] at hrecord
  rw [localRouterMap, hsteps, Py.ok_bind] at h
  simp only at h
  rw [hrecord, Py.ok_bind] at h
  by_cases hfirst : stages.moeLayers config rank 0 = []
  · rw [hfirst] at h
    cases h
  rw [decide_eq_true hfirst, if_pos rfl] at h
  cases hvirtual : config.virtualPipelineModelParallelSize with
  | none =>
      have hsize : config.numChunks = 1 := by
        rw [TransformerConfig.numChunks, hvirtual, Option.getD_none]
      obtain rfl : vp = 0 := by omega
      exact hfirst hempty
  | some vpSize =>
      have hlength := @length_flatMap_appended _ _ _ _ _ place recording _ _ _ _ _ htable hmicro
        hvp hempty
      simp only [schedule, hvirtual] at h hlength
      rw [Py.bind_eq_ok] at h
      obtain ⟨merged, hmerged, -⟩ := h
      rw [reorderAndMergeVppLayers, Py.bind_eq_ok] at hmerged
      obtain ⟨entries, hentries, -⟩ := hmerged
      -- The last entry of the schedule has no tensor.
      generalize megatron.getScheduleTable recording.microBatches.length vpSize
        config.microbatchGroupSizePerVpStage = table at hlength hentries
      have hlast : table.length - 1 < table.length := by omega
      obtain ⟨entry, hentry, -⟩ := Py.getElem?_of_mapM_eq_ok hentries
        (show table.zipIdx[table.length - 1]? = some (table[table.length - 1], table.length - 1) by
          rw [List.getElem?_zipIdx, List.getElem?_eq_getElem hlast, Nat.zero_add]
          rfl)
      simp only at hentry
      rw [Py.bind_eq_ok] at hentry
      obtain ⟨tensor, htensor, -⟩ := hentry
      rw [Py.getItem, List.getElem?_eq_none (by omega)] at htensor
      cases htensor

/-- Then no rank gets the tensor of all MoE layers. -/
theorem routedExperts_incomplete (hinverse : layout.Inverse localRows place)
    (htile : stages.Tile megatron config)
    (hschedule : ∀ vpSize, config.virtualPipelineModelParallelSize = some vpSize →
      IsScheduleTable (megatron.getScheduleTable recording.microBatches.length vpSize
        config.microbatchGroupSizePerVpStage) recording.microBatches.length vpSize)
    (hmicro : 0 < recording.microBatches.length) {rank vp : Nat}
    (hrank : rank < config.pipelineModelParallelSize) (hvp : vp < config.numChunks)
    (hempty : stages.moeLayers config rank vp = []) {source : Nat}
    (hsource : source < config.pipelineModelParallelSize) (nt : LayersTopk (ByteRow topK)) :
    recording.routedExperts megatron config stages source ≠ .ok (some nt) := by
  intro h
  rw [routedExperts, Py.bind_eq_ok] at h
  obtain ⟨parts, hparts, h⟩ := h
  obtain ⟨part, hpart, hat⟩ := Py.getElem?_of_mapM_eq_ok hparts (List.getElem?_range hrank)
  have hnone : part = none := by
    cases part with
    | none => rfl
    | some topkIdx =>
        exact absurd hpart
          (localRouterMap_incomplete hinverse htile hschedule hmicro hrank hvp hempty topkIdx)
  rw [hnone] at hat
  split at h
  next topkIdx hown =>
    rw [Py.bind_eq_ok] at h
    obtain ⟨gathered, hgathered, -⟩ := h
    rw [ppGather] at hgathered
    by_cases hsingle : config.pipelineModelParallelSize ≤ 1
    · -- The only rank is the one without a tensor.
      obtain rfl : source = rank := by omega
      rw [hat] at hown
      cases hown
    · rw [if_neg hsingle, Py.bind_eq_ok] at hgathered
      obtain ⟨tensors, htensors, -⟩ := hgathered
      rw [allGatherObject] at htensors
      obtain ⟨tensor, htensor, -⟩ := Py.getElem?_of_mapM_eq_ok htensors hat
      cases htensor
  next => cases h

/-! ## The replay of a run -/

/-- Every stage has an MoE layer, and every index that an MoE layer records for a token fits
into a byte.  Without a micro-batch or an MoE layer there is nothing to replay. -/
def Faithful (config : TransformerConfig) (stages : Stages)
    (place : List Nat → Nat → Nat → Nat × Nat) (recording : Recording layout localRows topK) :
    Prop :=
  recording.microBatches ≠ [] → config.moeLayers ≠ [] →
    (∀ rank < config.pipelineModelParallelSize, ∀ vp < config.numChunks,
      stages.moeLayers config rank vp ≠ []) ∧
    ∀ (mb : Nat) (lengths : List Nat), recording.microBatches[mb]? = some lengths →
      ∀ s j len, lengths[s]? = some len → j < len → ∀ layer ∈ config.moeLayers, ∀ i,
        recording.entry place (mb, s, j) layer i < 256

section Run

variable (hinverse : layout.Inverse localRows place) (htile : stages.Tile megatron config)
  (hschedule : ∀ vpSize, config.virtualPipelineModelParallelSize = some vpSize →
    IsScheduleTable (megatron.getScheduleTable recording.microBatches.length vpSize
      config.microbatchGroupSizePerVpStage) recording.microBatches.length vpSize)

include hinverse htile hschedule

/-- When every stage has an MoE layer, a replay sets the targets of the chunk to the rows of
the recorded bytes, and leaves the other targets empty. -/
theorem replay_eq
    (hcomplete : ∀ rank < config.pipelineModelParallelSize, ∀ vp < config.numChunks,
      stages.moeLayers config rank vp ≠ []) {source rank mb : Nat} {vpRank : Option Nat}
    (hsource : source < config.pipelineModelParallelSize)
    (hrank : rank < config.pipelineModelParallelSize) (hvp : vpRank.getD 0 < config.numChunks)
    (hmb : mb < recording.microBatches.length) (replayMask : Option (List (List Bool))) :
    ∃ routers,
      recording.replay megatron config stages source rank vpRank mb replayMask = .ok routers ∧
        (∀ layer ∈ stages.moeLayers config rank (vpRank.getD 0), ∃ router ∈ routers,
          router.layer = layer ∧ router.targetTopkIdx = some (layerRows layout
            (LayersTopk.ofTokens (recording.byteEntry place) config.moeLayers
              (recording.tokens mb)) (config.moeLayers.idxOf layer))) ∧
        ∀ router ∈ routers, ∀ target, router.targetTopkIdx = some target →
          target = layerRows layout
            (LayersTopk.ofTokens (recording.byteEntry place) config.moeLayers
              (recording.tokens mb)) (config.moeLayers.idxOf router.layer) := by
  have hpos : 0 < stages.count rank (vpRank.getD 0) := by
    refine Nat.pos_of_ne_zero fun hzero => hcomplete rank hrank _ hvp ?_
    rw [Stages.moeLayers, Stages.layers, hzero]
    rfl
  obtain ⟨routers, mask, start, chunk, hset, hrouters, hmap⟩ :=
    @setRouterReplayData_eq topK megatron config
    stages layout htile rank vpRank hrank hvp hpos
    (LayersTopk.ofTokens (recording.byteEntry place) config.moeLayers (recording.tokens mb)) rfl
    replayMask _ (map_layer_routerInstances rank .replayForward)
  refine ⟨routers, ?_, ?_, ?_⟩
  · rw [replay, routedExperts_eq hinverse htile hschedule hcomplete hsource
      (Nat.zero_lt_of_lt hmb) (Nat.zero_lt_of_lt hvp), Py.ok_bind]
    simp only
    rw [microBatchSamples_eq hmb, Py.ok_bind, hset]
  · intro layer hlayer
    rw [← hmap] at hlayer
    obtain ⟨router, hrouter, rfl⟩ := List.mem_map.mp hlayer
    refine ⟨router.setTargetIndices (layerRows layout
      (LayersTopk.ofTokens (recording.byteEntry place) config.moeLayers (recording.tokens mb))
        (config.moeLayers.idxOf router.layer)) mask, ?_, rfl, rfl⟩
    rw [hrouters]
    exact List.mem_append_left _ (List.mem_append_right _ (List.mem_map.mpr ⟨router, hrouter, rfl⟩))
  · intro router' hrouter' target htarget
    -- The instances outside of the chunk are as they were built.
    have hinit : ∀ router ∈ routerInstances config stages topK rank .replayForward,
        router.targetTopkIdx = none := by
      intro router hrouter
      obtain ⟨layer, -, rfl⟩ := List.mem_map.mp hrouter
      rfl
    rw [hrouters, Slices.write] at hrouter'
    rcases List.mem_append.mp hrouter' with hleft | hright
    · rcases List.mem_append.mp hleft with hbefore | hchunk
      · rw [hinit _ (List.mem_of_mem_take hbefore)] at htarget
        cases htarget
      · obtain ⟨router, -, rfl⟩ := List.mem_map.mp hchunk
        exact (Option.some.inj htarget).symm
    · rw [hinit _ (List.mem_of_mem_drop hright)] at htarget
      cases htarget

theorem replayed_of_faithful (h : Faithful config stages place recording) :
    recording.Replayed megatron config stages place := by
  intro source hsource rank hrank vpRank hvp mb lengths hmb replayMask layer hlayer
  have hlt := (List.getElem?_eq_some_iff.mp hmb).1
  have hmoe : layer ∈ config.moeLayers :=
    (mem_moeLayers_iff htile).mpr ⟨_, hvp, _, hrank, hlayer⟩
  obtain ⟨hcomplete, hbytes⟩ := h (List.ne_nil_of_length_pos (Nat.zero_lt_of_lt hlt))
    (List.ne_nil_of_mem hmoe)
  obtain ⟨routers, hreplay, htargets, -⟩ := replay_eq hinverse htile hschedule hcomplete hsource
    hrank hvp hlt replayMask
  obtain ⟨router, hrouter, hrouterLayer, htarget⟩ := htargets layer hlayer
  refine ⟨routers, hreplay, router, hrouter, hrouterLayer, _, htarget, ?_⟩
  intro s j len hs hj
  rw [getElem?_layerRows hinverse hmb hs hj hmoe, getElem?_routing hinverse hmb hs hj, byteEntry,
    (toInt_toByte_iff _).mpr (hbytes mb lengths hmb s j len hs hj layer hmoe)]

theorem complete_of_replayed (h : recording.Replayed megatron config stages place)
    (hmicro : recording.microBatches ≠ []) (hmoe : config.moeLayers ≠ []) :
    ∀ rank < config.pipelineModelParallelSize, ∀ vp < config.numChunks,
      stages.moeLayers config rank vp ≠ [] := by
  intro rank hrank vp hvp hempty
  obtain ⟨layer, hlayer⟩ := List.exists_mem_of_ne_nil _ hmoe
  obtain ⟨vp', hvp', rank', hrank', hstage⟩ := (mem_moeLayers_iff htile).mp hlayer
  have hpos := List.length_pos_of_ne_nil hmicro
  obtain ⟨routers, hreplay, -⟩ := h rank' hrank' rank' hrank' (some vp') hvp' 0 _
    (List.getElem?_eq_getElem hpos) none layer hstage
  rw [replay, Py.bind_eq_ok] at hreplay
  obtain ⟨routed, hrouted, hreplay⟩ := hreplay
  cases routed with
  | none => cases hreplay
  | some nt =>
      exact routedExperts_incomplete hinverse htile hschedule hpos hrank hvp hempty hrank' nt
        hrouted

theorem faithful_of_replayed (h : recording.Replayed megatron config stages place) :
    Faithful config stages place recording := by
  intro hmicro hmoe
  have hcomplete := complete_of_replayed hinverse htile hschedule h hmicro hmoe
  refine ⟨hcomplete, fun mb lengths hmb s j len hs hj layer hlayer => ?_⟩
  obtain ⟨vp, hvp, rank, hrank, hstage⟩ := (mem_moeLayers_iff htile).mp hlayer
  obtain ⟨routers, hreplay, router, hrouter, hrouterLayer, target, htarget, hrows⟩ :=
    h rank hrank rank hrank (some vp) hvp mb lengths hmb none layer hstage
  obtain ⟨routers', hreplay', -, hall⟩ := @replay_eq _ _ _ _ _ _ place _ hinverse htile hschedule
    hcomplete rank rank mb (some vp) hrank hrank hvp (List.getElem?_eq_some_iff.mp hmb).1 none
  obtain rfl := Except.ok.inj (hreplay.symm.trans hreplay')
  have hrow := hrows s j len hs hj
  rw [hall router hrouter target htarget, hrouterLayer,
    getElem?_layerRows hinverse hmb hs hj hlayer, getElem?_routing hinverse hmb hs hj] at hrow
  exact (toInt_toByte_iff _).mp (Option.some.inj hrow)

/-- The recorded routing is replayed exactly when every stage has an MoE layer and the indices
fit into bytes. -/
theorem replayed_iff :
    recording.Replayed megatron config stages place ↔ Faithful config stages place recording :=
  ⟨faithful_of_replayed hinverse htile hschedule, replayed_of_faithful hinverse htile hschedule⟩

end Run

end Recording

/-! ## One rank that packs without padding -/

/-- One sequence-parallel rank, and samples one after the other. -/
def flatLayout : PackedLayout where
  worldSize := 1
  gather := fun parts => parts 0
  scatter := fun rows _ => rows
  preprocess := fun _ samples => samples.flatten
  postprocess := fun rows lengths => Jagged.rows rows lengths

theorem getElem?_flatten {α : Type} {xss : List (List α)} {s j : Nat} {xs : List α}
    (hs : xss[s]? = some xs) (hj : j < xs.length) :
    xss.flatten[((xss.map List.length).take s).sum + j]? = xs[j]? := by
  obtain ⟨hlt, rfl⟩ := List.getElem?_eq_some_iff.mp hs
  have hpart := congrArg (·[j]?) (Slices.slice_flatten hlt)
  rw [Slices.slice, List.getElem?_take_of_lt hj, List.getElem?_drop] at hpart
  exact hpart

theorem sum_take_succ_le {lengths : List Nat} {s : Nat} (hs : s < lengths.length) :
    (lengths.take s).sum + lengths[s] ≤ lengths.sum := by
  have hsplit := congrArg List.sum (List.take_append_drop (s + 1) lengths)
  rw [List.sum_append, List.sum_take_succ lengths s hs] at hsplit
  omega

theorem flatLayout_inverse : flatLayout.Inverse (fun lengths _ => lengths.sum)
    fun lengths s j => (0, (lengths.take s).sum + j) where
  place_lt := by
    intro lengths s j len hs hj
    refine ⟨Nat.one_pos, ?_⟩
    obtain ⟨hlt, rfl⟩ := List.getElem?_eq_some_iff.mp hs
    have hle := sum_take_succ_le hlt
    change (lengths.take s).sum + j < lengths.sum
    omega
  postprocess_lengths := by
    intro α lengths parts hparts
    have hlength := hparts 0 Nat.one_pos
    refine List.ext_getElem ?_ fun s hs hs' => ?_
    · rw [List.length_map]
      exact (List.length_map _).trans List.length_range
    · have hle := sum_take_succ_le hs'
      have hrow : s < ((Jagged.rows (parts 0) lengths).map List.length).length := hs
      change ((Jagged.rows (parts 0) lengths).map List.length)[s] = _
      simp only [Jagged.rows, List.map_map, List.getElem_map, List.getElem_range,
        Function.comp_apply]
      rw [List.getD_eq_getElem?_getD, List.getElem?_eq_getElem hs', Option.getD_some,
        Slices.length_slice (by omega)]
  postprocess_gather := by
    intro α lengths parts hparts s j sample hs hj
    change (Jagged.rows (parts 0) lengths)[s]? = some sample at hs
    obtain ⟨hlt, hsample⟩ := List.getElem?_eq_some_iff.mp hs
    simp only [Jagged.rows, List.getElem_map, List.getElem_range] at hsample
    change sample[j]? = (parts 0)[(lengths.take s).sum + j]?
    rw [← hsample, Slices.slice, List.length_take] at hj
    rw [← hsample, Slices.slice, List.getElem?_take_of_lt (by omega), List.getElem?_drop]
  scatter_preprocess := by
    intro α pad samples s j sample hs hj
    exact getElem?_flatten hs hj

/-! ## Two stages of one MoE layer -/

def twoStageConfig : TransformerConfig where
  numLayers := 2
  moeLayerFreq := .int 1
  pipelineModelParallelSize := 2
  virtualPipelineModelParallelSize := none
  microbatchGroupSizePerVpStage := 2
  numLayersInFirstPipelineStage := none
  numLayersInLastPipelineStage := none
  accountForEmbeddingInPipelineSplit := false
  accountForLossInPipelineSplit := false

def twoStageMegatron : Megatron where
  layoutNumLayersToBuild := none
  isVpFirstStage := fun _ _ => true
  isVpLastStage := fun _ _ => true
  offsetHasVpStage := true
  offsetHasPpRank := true
  getTransformerLayerOffset := fun rank _ ppRank => ppRank.getD rank
  getScheduleTable := fun _ _ _ => []

def twoStages : Stages where
  start := fun pp _ => pp
  count := fun _ _ => 1

theorem twoStages_tile : twoStages.Tile twoStageMegatron twoStageConfig where
  own := by
    intro rank hrank vp _ vpStage _
    refine ⟨?_, rfl⟩
    rfl
  current := fun _ _ _ _ => rfl
  others := fun h => nomatch h
  tile := by decide
  freq := fun layer _ => ⟨_, rfl⟩

/-- One micro-batch of one token, whose routers choose `expert`. -/
def oneToken (expert : Nat) :
    Recording flatLayout (fun lengths _ => lengths.sum) 1 where
  microBatches := [[1]]
  numExperts := expert + 1
  routing := fun _ _ _ => [fun _ => expert]
  microBatches_ne_nil := by
    intro lengths h
    obtain rfl := List.mem_singleton.mp h
    exact List.cons_ne_nil _ _
  length_routing := by
    intro mb lengths h _ _ _
    obtain rfl := List.mem_singleton.mp (List.mem_of_getElem? h)
    rfl
  routing_lt := by
    intro _ _ _ row h _
    obtain rfl := List.mem_singleton.mp h
    exact Nat.lt_succ_self _

theorem entry_oneToken {expert mb s j len : Nat} {lengths : List Nat}
    (h : (oneToken expert).microBatches[mb]? = some lengths) (hs : lengths[s]? = some len)
    (hj : j < len) (layer : Nat) (i : Fin 1) :
    (oneToken expert).entry (fun lengths s j => (0, (lengths.take s).sum + j)) (mb, s, j) layer i =
      expert := by
  have hrow := Recording.getElem?_routing flatLayout_inverse h hs hj layer
  exact congrFun (List.mem_singleton.mp (List.mem_of_getElem? hrow)) i

theorem replayed_iff_two : (oneToken 7).Replayed twoStageMegatron twoStageConfig twoStages
    fun lengths s j => (0, (lengths.take s).sum + j) := by
  refine (Recording.replayed_iff flatLayout_inverse twoStages_tile fun _ h => nomatch h).mpr ?_
  intro _ _
  refine ⟨by decide, ?_⟩
  intro mb lengths h s j len hs hj layer _ i
  rw [entry_oneToken h hs hj]
  decide

/-- Expert 256 comes back as expert 0. -/
theorem not_replayed_two : ¬ (oneToken 256).Replayed twoStageMegatron twoStageConfig twoStages
    fun lengths s j => (0, (lengths.take s).sum + j) := by
  intro h
  obtain ⟨-, hbytes⟩ := Recording.faithful_of_replayed flatLayout_inverse twoStages_tile
    (fun _ h => nomatch h) h (List.cons_ne_nil _ _) (by decide)
  have hlt := hbytes 0 [1] rfl 0 0 1 rfl Nat.one_pos 0 (by decide) 0
  rw [entry_oneToken rfl rfl Nat.one_pos] at hlt
  exact Nat.lt_irrefl _ hlt

end Verl.RouterReplay
