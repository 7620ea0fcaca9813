import Mathlib.Data.List.GetD
import Verl.RouterReplay.ReplayRun

/-!
# Assembling the layers

A tensor of indices is described by its layers, its tokens and the entry of each token
and layer (`LayersTopk.ofTokens`).  Concatenating micro-batches concatenates the tokens,
and concatenating chunks or ranks concatenates the layers, so that at the end every rank
has the tensor of the MoE layers of the model in order (`routedExperts_eq`).
-/

namespace Verl.RouterReplay

/-! ## Tensors by tokens and layers -/

namespace LayersTopk

variable {ρ τ : Type} (f : τ → Nat → ρ)

/-- The sample of these tokens. -/
def sampleOf (layers : List Nat) (tokens : List τ) : Sample ρ :=
  ⟨layers.length, tokens.map fun token => layers.map (f token)⟩

/-- The tensor of these tokens. -/
def ofTokens (layers : List Nat) (tokens : List (List τ)) : LayersTopk ρ :=
  ⟨layers.length, tokens.map List.length, tokens.flatten.map fun token => layers.map (f token)⟩

theorem rows_ofTokens (layers : List Nat) (tokens : List (List τ)) :
    Jagged.rows (ofTokens f layers tokens).values (ofTokens f layers tokens).lengths =
      tokens.map fun sample => sample.map fun token => layers.map (f token) := by
  have hrows := Jagged.rows_flatten
    (tokens.map fun sample => sample.map fun token => layers.map (f token))
  rw [List.map_map] at hrows
  refine Eq.trans ?_ hrows
  congr 1
  · exact List.map_flatten
  · refine List.map_congr_left fun sample _ => ?_
    exact (List.length_map _).symm

theorem unbind_ofTokens (layers : List Nat) (tokens : List (List τ)) :
    (ofTokens f layers tokens).unbind = tokens.map (sampleOf f layers) := by
  rw [unbind, rows_ofTokens, List.map_map]
  rfl

theorem asNestedTensor_sampleOf {layers : List Nat} {tokens : List (List τ)} (h : tokens ≠ []) :
    asNestedTensor (tokens.map (sampleOf f layers)) = .ok (ofTokens f layers tokens) := by
  cases tokens with
  | nil => exact absurd rfl h
  | cons sample rest =>
      have hlayers : ∀ s ∈ (sample :: rest).map (sampleOf f layers),
          s.numLayers = (sampleOf f layers sample).numLayers := by
        intro s hs
        obtain ⟨tokens, -, rfl⟩ := List.mem_map.mp hs
        rfl
      rw [List.map_cons] at hlayers ⊢
      rw [asNestedTensor, if_pos hlayers, ← List.map_cons, List.map_map, List.flatMap_map]
      congr 2
      · refine List.map_congr_left fun tokens _ => ?_
        exact List.length_map _
      · rw [List.map_flatten]
        rfl

/-- Two ranges of layers beside each other. -/
theorem cat₂_ofTokens (layers layers' : List Nat) (tokens : List (List τ)) :
    cat₂ (ofTokens f layers tokens) (ofTokens f layers' tokens) =
      .ok (ofTokens f (layers ++ layers') tokens) := by
  have hlength : (ofTokens f layers tokens).values.length =
      (ofTokens f layers' tokens).values.length :=
    (List.length_map _).trans (List.length_map _).symm
  rw [cat₂, if_pos hlength]
  simp only [ofTokens, List.length_append, List.zipWith_map, List.zipWith_self, List.map_append]

theorem foldlM_cat₂ (layers : List Nat) (rest : List (List Nat)) (tokens : List (List τ)) :
    (rest.map fun layers => ofTokens f layers tokens).foldlM cat₂ (ofTokens f layers tokens) =
      .ok (ofTokens f (layers ++ rest.flatten) tokens) := by
  induction rest generalizing layers with
  | nil =>
      rw [List.flatten_nil, List.append_nil]
      rfl
  | cons layers' rest ih =>
      rw [List.map_cons, List.foldlM_cons, cat₂_ofTokens, Py.ok_bind, ih, List.flatten_cons,
        List.append_assoc]

/-- Ranges of layers beside each other. -/
theorem cat_ofTokens {parts : List (List Nat)} (tokens : List (List τ)) (h : parts ≠ []) :
    cat (parts.map fun layers => ofTokens f layers tokens) =
      .ok (ofTokens f parts.flatten tokens) := by
  cases parts with
  | nil => exact absurd rfl h
  | cons layers rest => exact foldlM_cat₂ f layers rest tokens

/-- A piece of a sample has the piece of its layers. -/
theorem piece_sampleOf (layers : List Nat) (tokens : List τ) {start stop : Nat}
    (h : start ≤ stop) :
    (sampleOf f layers tokens).piece start stop =
      sampleOf f (Slices.slice layers start (stop - start)) tokens := by
  rw [Sample.piece, sampleOf, sampleOf, List.map_map]
  congr 1
  · rw [Slices.slice, List.length_take, List.length_drop]
    simp only
    omega
  · refine List.map_congr_left fun token _ => ?_
    simp only [Function.comp_apply, Slices.slice, List.map_take, List.map_drop]

end LayersTopk

/-! ## The instances of a chunk -/

section Chunk

variable {megatron : Megatron} {config : TransformerConfig} {stages : Stages} {topK : Nat}
  {rank : Nat}

/-- The MoE layers of a pipeline rank, chunk after chunk. -/
def Stages.rankLayers (stages : Stages) (config : TransformerConfig) (rank : Nat) : List Nat :=
  (List.range config.numChunks).flatMap fun vp => stages.moeLayers config rank vp

theorem takeWhile_ne_range {i n : Nat} (h : i < n) :
    (List.range n).takeWhile (fun j => decide (j ≠ i)) = List.range i := by
  obtain ⟨more, rfl⟩ : ∃ more, n = i + (1 + more) := ⟨n - i - 1, by omega⟩
  rw [List.range_add, List.takeWhile_append_of_pos]
  · rw [Nat.add_comm 1, List.range_succ_eq_map, List.map_cons, List.takeWhile_cons_of_neg,
      List.append_nil]
    rw [Nat.add_zero, decide_eq_true_iff]
    exact fun hne => hne rfl
  · intro j hj
    exact decide_eq_true (Nat.ne_of_lt (List.mem_range.mp hj))

/-- The slice of a chunk begins after the instances of the chunks before. -/
theorem microBatchRouterRange_eq (htile : stages.Tile megatron config) {vpRank : Option Nat}
    (hrank : rank < config.pipelineModelParallelSize) (hvp : vpRank.getD 0 < config.numChunks) :
    microBatchRouterRange megatron config rank vpRank =
      .ok (((List.range (vpRank.getD 0)).map fun vp =>
        (stages.moeLayers config rank vp).length).sum,
        (stages.moeLayers config rank (vpRank.getD 0)).length) := by
  have hchunks : config.numChunks = config.virtualPipelineModelParallelSize.getD 1 := rfl
  cases hvirtual : config.virtualPipelineModelParallelSize with
  | some vpSize =>
      rw [hvirtual, Option.getD_some] at hchunks
      rw [microBatchRouterRange, hvirtual]
      simp only
      rw [takeWhile_ne_range (hchunks ▸ hvp), Py.mapM_eq_ok fun vp hmem =>
          getMoeNumLayersToBuild_own htile hrank ((List.mem_range.mp hmem).trans hvp) (.inl rfl),
        Py.ok_bind, getMoeNumLayersToBuild_own htile hrank hvp (.inl rfl), Py.ok_bind]
      rfl
  | none =>
      rw [hvirtual, Option.getD_none] at hchunks
      have hzero : vpRank.getD 0 = 0 := by omega
      have hstage : vpRank = some 0 ∨
          (vpRank = none ∧ config.virtualPipelineModelParallelSize = none) := by
        cases vpRank with
        | none => exact .inr ⟨rfl, hvirtual⟩
        | some vp => exact .inl (congrArg some hzero)
      rw [microBatchRouterRange, hvirtual, hzero]
      simp only
      rw [getMoeNumLayersToBuild_own htile hrank (hzero ▸ hvp) hstage, Py.ok_bind]
      rfl

/-- The slice of a chunk has the instances of its MoE layers. -/
theorem map_layer_slice {routers : List (RouterInstance topK)}
    (hlayers : routers.map RouterInstance.layer = stages.rankLayers config rank) {vp : Nat}
    (hvp : vp < config.numChunks) :
    (Slices.slice routers ((List.range vp).map fun v => (stages.moeLayers config rank v).length).sum
      (stages.moeLayers config rank vp).length).map RouterInstance.layer =
        stages.moeLayers config rank vp := by
  have hpart := @Slices.slice_flatten _
    ((List.range config.numChunks).map (stages.moeLayers config rank)) vp
    (by rw [List.length_map, List.length_range]; exact hvp)
  rw [List.map_map, ← List.map_take, List.take_range, Nat.min_eq_left hvp.le, List.getElem_map,
    List.getElem_range, ← List.flatMap_def] at hpart
  rw [Slices.slice, List.map_take, List.map_drop, hlayers]
  exact hpart

theorem getMicroBatchRouterList_eq (htile : stages.Tile megatron config)
    (hrank : rank < config.pipelineModelParallelSize) {vpRank : Option Nat}
    (hvp : vpRank.getD 0 < config.numChunks) {routers : List (RouterInstance topK)}
    (hlayers : routers.map RouterInstance.layer = stages.rankLayers config rank) :
    ∃ chunk, getMicroBatchRouterList megatron config rank vpRank routers = .ok chunk ∧
      chunk.map RouterInstance.layer = stages.moeLayers config rank (vpRank.getD 0) ∧
        chunk ⊆ routers := by
  rw [getMicroBatchRouterList, microBatchRouterRange_eq htile hrank hvp]
  refine ⟨_, rfl, map_layer_slice hlayers hvp, fun router hmem => ?_⟩
  exact List.mem_of_mem_drop (List.mem_of_mem_take hmem)

/-- A chunk records when it has an MoE layer. -/
theorem isR2RecordAction_eq (htile : stages.Tile megatron config)
    (hrank : rank < config.pipelineModelParallelSize) {vpRank : Option Nat}
    (hvp : vpRank.getD 0 < config.numChunks) {routers : List (RouterInstance topK)}
    (hlayers : routers.map RouterInstance.layer = stages.rankLayers config rank)
    (haction : ∀ router ∈ routers, router.routerReplayAction = some .record) :
    isR2RecordAction megatron config rank vpRank routers =
      .ok (decide (stages.moeLayers config rank (vpRank.getD 0) ≠ [])) := by
  obtain ⟨chunk, hchunk, hmap, hsub⟩ := getMicroBatchRouterList_eq htile hrank hvp hlayers
  rw [isR2RecordAction, hchunk, Py.ok_bind, ← hmap]
  cases chunk with
  | nil => rfl
  | cons router rest =>
      simp only [haction router (hsub List.mem_cons_self), List.map_cons, ne_eq, reduceCtorEq,
        not_false_eq_true, decide_true, Py.pure_eq_ok]

end Chunk

/-! ## The tensor of a chunk -/

namespace Recording

variable {layout : PackedLayout} {localRows : List Nat → Nat → Nat} {topK : Nat}
  {megatron : Megatron} {config : TransformerConfig} {stages : Stages}
  (place : List Nat → Nat → Nat → Nat × Nat) (recording : Recording layout localRows topK)

/-- The tokens of a micro-batch, each with its micro-batch, sample and position. -/
def tokens (mb : Nat) : List (List (Nat × Nat × Nat)) :=
  (recording.microBatches.getD mb []).mapIdx fun s len => (List.range len).map fun j => (mb, s, j)

/-- The indices that a layer records for a token. -/
def entry (token : Nat × Nat × Nat) (layer : Nat) : TopkRow topK :=
  let at_ := place (recording.microBatches.getD token.1 []) token.2.1 token.2.2
  (recording.routing token.1 layer at_.1).getD at_.2 fun _ => 0

/-- The indices in bytes. -/
def byteEntry (token : Nat × Nat × Nat) (layer : Nat) : ByteRow topK :=
  (recording.entry place token layer).toByte

variable {place recording}

theorem map_length_tokens {mb : Nat} {lengths : List Nat}
    (hmb : recording.microBatches[mb]? = some lengths) :
    (recording.tokens mb).map List.length = lengths := by
  rw [tokens, List.getD_eq_getElem?_getD, hmb, Option.getD_some]
  refine List.ext_getElem ?_ fun s hs hs' => ?_
  · rw [List.length_map, List.length_mapIdx]
  · rw [List.getElem_map, List.getElem_mapIdx, List.length_map, List.length_range]

/-- The rows of a rank, when every layer has recorded. -/
theorem stackLayers_eq {layers : List Nat} (hne : layers ≠ []) {mb : Nat} {lengths : List Nat}
    (hmb : recording.microBatches[mb]? = some lengths) :
    ∃ parts : Nat → List (List (ByteRow topK)),
      stackLayers layout.worldSize
          (layers.map fun layer spRank => (recording.routing mb layer spRank).map TopkRow.toByte)
          (fun _ => 0) = .ok (layers.length, parts) ∧
        (∀ spRank < layout.worldSize, (parts spRank).length = localRows lengths spRank) ∧
        ∀ spRank < layout.worldSize, ∀ i < localRows lengths spRank,
          (parts spRank)[i]? = some (layers.map fun layer =>
            ((recording.routing mb layer spRank).getD i fun _ => 0).toByte) := by
  cases layers with
  | nil => exact absurd rfl hne
  | cons first rest =>
      have hsizes : ∀ layer ∈ (first :: rest).map fun layer spRank =>
          (recording.routing mb layer spRank).map TopkRow.toByte,
          ∀ spRank < layout.worldSize, (layer spRank).length =
            ((recording.routing mb first spRank).map TopkRow.toByte).length := by
        intro rows hrows spRank hspRank
        obtain ⟨layer, -, rfl⟩ := List.mem_map.mp hrows
        simp only [List.length_map]
        rw [recording.length_routing mb lengths hmb layer spRank hspRank,
          recording.length_routing mb lengths hmb first spRank hspRank]
      have hfirst : ∀ spRank < layout.worldSize,
          ((recording.routing mb first spRank).map TopkRow.toByte).length =
            localRows lengths spRank := by
        intro spRank hspRank
        rw [List.length_map, recording.length_routing mb lengths hmb first spRank hspRank]
      rw [List.map_cons] at hsizes ⊢
      rw [stackLayers, if_pos hsizes, List.length_cons, List.length_map]
      refine ⟨_, rfl, fun spRank hspRank => ?_, fun spRank hspRank i hi => ?_⟩
      · rw [List.length_map, List.length_range, hfirst spRank hspRank]
      · rw [List.getElem?_map, List.getElem?_range (by rw [hfirst spRank hspRank]; exact hi),
          Option.map_some]
        change some (((first :: rest).map fun layer spRank =>
          (recording.routing mb layer spRank).map TopkRow.toByte).map fun layer =>
            (layer spRank).getD i fun _ => 0) = _
        rw [List.map_map]
        refine congrArg some (List.map_congr_left fun layer _ => ?_)
        exact List.getD_map _ _ TopkRow.toByte

/-- Gathered and unpacked, the rows of the ranks are the rows of the tokens. -/
theorem postprocess_eq (hinverse : layout.Inverse localRows place) {layers : List Nat} {mb : Nat}
    {lengths : List Nat} (hmb : recording.microBatches[mb]? = some lengths)
    {parts : Nat → List (List (ByteRow topK))}
    (hparts : ∀ spRank < layout.worldSize, (parts spRank).length = localRows lengths spRank)
    (hrows : ∀ spRank < layout.worldSize, ∀ i < localRows lengths spRank,
      (parts spRank)[i]? = some (layers.map fun layer =>
        ((recording.routing mb layer spRank).getD i fun _ => 0).toByte)) :
    layout.postprocess (layout.gather parts) lengths =
      (recording.tokens mb).map fun sample =>
        sample.map fun token => layers.map (recording.byteEntry place token) := by
  have hlengths := hinverse.postprocess_lengths lengths parts hparts
  have htokens := map_length_tokens hmb
  have hget : recording.microBatches.getD mb [] = lengths := by
    rw [List.getD_eq_getElem?_getD, hmb, Option.getD_some]
  have hcount := congrArg List.length hlengths
  rw [List.length_map] at hcount
  refine List.ext_getElem ?_ fun s hs hs' => ?_
  · rw [List.length_map, hcount, ← htokens, List.length_map]
  · have hsample_lt : s < lengths.length := hcount ▸ hs
    have hsample : (layout.postprocess (layout.gather parts) lengths)[s].length = lengths[s] := by
      have hat := congrArg (·[s]?) hlengths
      simp only [List.getElem?_map, List.getElem?_eq_getElem hs, Option.map_some] at hat
      rw [List.getElem?_eq_getElem hsample_lt] at hat
      exact Option.some.inj hat
    refine List.ext_getElem? fun j => ?_
    rw [List.getElem_map]
    simp only [tokens, hget, List.getElem_mapIdx, List.map_map]
    rcases Nat.lt_or_ge j lengths[s] with hj | hj
    · obtain ⟨hrank, hrow⟩ := hinverse.place_lt lengths s j _
        (List.getElem?_eq_getElem hsample_lt) hj
      rw [hinverse.postprocess_gather lengths parts hparts s j _ (List.getElem?_eq_getElem hs)
        (hsample ▸ hj), hrows _ hrank _ hrow, List.getElem?_map, List.getElem?_range hj,
        Option.map_some, Function.comp_apply]
      refine congrArg some (List.map_congr_left fun layer _ => ?_)
      rw [byteEntry, entry, hget]
    · rw [List.getElem?_eq_none (hsample ▸ hj), List.getElem?_eq_none]
      rw [List.length_map, List.length_range]
      exact hj

/-- What a chunk appends for a micro-batch. -/
theorem mergeRouterTopkIndices_eq (hinverse : layout.Inverse localRows place)
    (htile : stages.Tile megatron config) {rank vp mb : Nat} {lengths : List Nat}
    (hrank : rank < config.pipelineModelParallelSize) (hvp : vp < config.numChunks)
    (hmb : recording.microBatches[mb]? = some lengths) {routers : List (RouterInstance topK)}
    (hlayers : routers.map RouterInstance.layer = stages.rankLayers config rank)
    (hrecorded : ∀ router ∈ routers, router.layer ∈ stages.layers rank vp →
      router.recordedTopkIdx = some (recording.routing mb router.layer))
    (hne : stages.moeLayers config rank vp ≠ []) :
    mergeRouterTopkIndices megatron config layout rank lengths (some vp) routers =
      .ok (LayersTopk.ofTokens (recording.byteEntry place) (stages.moeLayers config rank vp)
        (recording.tokens mb)) := by
  obtain ⟨chunk, hchunk, hmap, hsub⟩ :=
    @getMicroBatchRouterList_eq _ _ _ _ _ htile hrank (some vp) hvp routers hlayers
  rw [Option.getD_some] at hmap
  have hbytes : chunk.mapM RouterInstance.recordedBytes =
      .ok ((stages.moeLayers config rank vp).map fun layer spRank =>
        (recording.routing mb layer spRank).map TopkRow.toByte) := by
    rw [← hmap, List.map_map]
    refine Py.mapM_eq_ok fun router hmem => ?_
    have hlayer : router.layer ∈ stages.layers rank vp := by
      have hmoe := List.mem_map_of_mem (f := RouterInstance.layer) hmem
      rw [hmap] at hmoe
      exact (List.mem_filter.mp hmoe).1
    rw [RouterInstance.recordedBytes, hrecorded router (hsub hmem) hlayer]
    rfl
  obtain ⟨parts, hstack, hparts, hrows⟩ := stackLayers_eq hne hmb
  have hsamples := postprocess_eq hinverse hmb hparts hrows
  rw [mergeRouterTopkIndices, hchunk, Py.ok_bind, hbytes, Py.ok_bind, hstack, Py.ok_bind]
  simp only
  rw [hinverse.postprocess_lengths lengths parts hparts, hsamples, ← map_length_tokens hmb,
    ← List.map_flatten]
  rfl

/-! ## The forward steps of a pipeline rank -/

/-- The instances of a pipeline rank, which record. -/
structure Recorders (config : TransformerConfig) (stages : Stages) (rank : Nat)
    (routers : List (RouterInstance topK)) : Prop where
  layers : routers.map RouterInstance.layer = stages.rankLayers config rank
  actions : ∀ router ∈ routers, router.routerReplayAction = some .record

theorem map_layer_routerInstances (rank : Nat) (action : RouterReplayAction) :
    (routerInstances config stages topK rank action).map RouterInstance.layer =
      stages.rankLayers config rank := by
  rw [routerInstances, List.map_map]
  exact List.map_id _

theorem recorders_routerInstances (rank : Nat) :
    Recorders config stages rank (routerInstances config stages topK rank .record) := by
  refine ⟨map_layer_routerInstances rank .record, fun router hmem => ?_⟩
  obtain ⟨layer, -, rfl⟩ := List.mem_map.mp hmem
  rfl

theorem recorders_forward {rank mb vp : Nat} {routers : List (RouterInstance topK)}
    (h : Recorders config stages rank routers) :
    Recorders config stages rank (recording.forward stages rank mb vp routers) := by
  constructor
  · rw [← h.layers, forward, List.map_map]
    refine List.map_congr_left fun router _ => ?_
    rw [Function.comp_apply]
    split
    · rfl
    · rfl
  · intro router' hmem
    obtain ⟨router, hrouter, rfl⟩ := List.mem_map.mp hmem
    have haction := h.actions router hrouter
    split
    · exact haction
    · exact haction

/-- After the forward pass of a chunk its instances have the indices of the micro-batch. -/
theorem recorded_forward {rank mb vp : Nat} {routers : List (RouterInstance topK)} :
    ∀ router ∈ recording.forward stages rank mb vp routers,
      router.layer ∈ stages.layers rank vp →
        router.recordedTopkIdx = some (recording.routing mb router.layer) := by
  intro router' hmem hlayer
  obtain ⟨router, -, rfl⟩ := List.mem_map.mp hmem
  split at hlayer
  next hin =>
    rw [if_pos hin]
    rfl
  next hout => exact absurd hlayer hout

variable (place recording config stages)

/-- The tensor of a forward step. -/
def stepTensor (rank : Nat) (step : Nat × Nat) : LayersTopk (ByteRow topK) :=
  LayersTopk.ofTokens (recording.byteEntry place) (stages.moeLayers config rank step.2)
    (recording.tokens step.1)

/-- What a forward step appends: nothing, if the chunk has no MoE layer. -/
def appended (rank : Nat) (step : Nat × Nat) : List (LayersTopk (ByteRow topK)) :=
  if stages.moeLayers config rank step.2 = [] then []
  else [stepTensor config stages place recording rank step]

variable {place recording config stages}

theorem forwardStep_eq (hinverse : layout.Inverse localRows place)
    (htile : stages.Tile megatron config) {rank vp mb : Nat}
    (hrank : rank < config.pipelineModelParallelSize) (hvp : vp < config.numChunks)
    (hmb : mb < recording.microBatches.length) {routers : List (RouterInstance topK)}
    (h : Recorders config stages rank routers) :
    recording.forwardStep megatron config stages rank mb vp routers =
      .ok (recording.forward stages rank mb vp routers,
        appended config stages place recording rank (mb, vp)) := by
  have hlengths := List.getElem?_eq_getElem hmb
  have hforward := @recorders_forward _ _ _ _ _ recording rank mb vp routers h
  have hrecord := @isR2RecordAction_eq _ _ _ _ _ htile hrank (some vp) hvp _ hforward.layers
    hforward.actions
  rw [Option.getD_some] at hrecord
  rw [forwardStep, Py.getItem_of_some hlengths, Py.ok_bind, hrecord, Py.ok_bind, appended]
  by_cases hne : stages.moeLayers config rank vp = []
  · simp only [hne, ne_eq, not_true_eq_false, decide_false, Bool.false_eq_true, if_false, if_true,
      Py.pure_eq_ok]
  · simp only [hne, ne_eq, not_false_eq_true, decide_true, if_true, if_false]
    rw [mergeRouterTopkIndices_eq hinverse htile hrank hvp hlengths hforward.layers
      recorded_forward hne]
    rfl

theorem forwardSteps_eq (hinverse : layout.Inverse localRows place)
    (htile : stages.Tile megatron config) {rank : Nat}
    (hrank : rank < config.pipelineModelParallelSize) {steps : List (Nat × Nat)}
    (hsteps : ∀ step ∈ steps, step.1 < recording.microBatches.length ∧ step.2 < config.numChunks)
    {routers : List (RouterInstance topK)} (h : Recorders config stages rank routers) :
    ∃ routers', Recorders config stages rank routers' ∧
      recording.forwardSteps megatron config stages rank steps routers =
        .ok (routers', steps.flatMap (appended config stages place recording rank)) := by
  induction steps generalizing routers with
  | nil => exact ⟨routers, h, rfl⟩
  | cons step steps ih =>
      obtain ⟨mb, vp⟩ := step
      obtain ⟨hmb, hvp⟩ := hsteps _ List.mem_cons_self
      have hforward := @recorders_forward _ _ _ _ _ recording rank mb vp routers h
      obtain ⟨routers', hready, hrest⟩ :=
        ih (fun step hmem => hsteps step (List.mem_cons_of_mem _ hmem)) hforward
      refine ⟨routers', hready, ?_⟩
      rw [forwardSteps, forwardStep_eq hinverse htile hrank hvp hmb h, Py.ok_bind]
      simp only
      rw [hrest, Py.ok_bind, List.flatMap_cons]
      rfl

/-! ## The tensor of a pipeline rank -/

/-- Every micro-batch and chunk is in the table once, and the micro-batches of a chunk are in
order. -/
structure IsScheduleTable (table : List (Nat × Nat)) (numMicrobatches numChunks : Nat) : Prop where
  chunk_lt : ∀ step ∈ table, step.2 < numChunks
  order : ∀ chunk < numChunks,
    (table.filter fun step => step.2 = chunk).map Prod.fst = List.range numMicrobatches

theorem isScheduleTable_schedule
    (hschedule : ∀ vpSize, config.virtualPipelineModelParallelSize = some vpSize →
      IsScheduleTable (megatron.getScheduleTable recording.microBatches.length vpSize
        config.microbatchGroupSizePerVpStage) recording.microBatches.length vpSize) :
    IsScheduleTable (recording.schedule megatron config) recording.microBatches.length
      config.numChunks := by
  rw [schedule, TransformerConfig.numChunks]
  cases hvirtual : config.virtualPipelineModelParallelSize with
  | some vpSize => exact hschedule vpSize hvirtual
  | none =>
      constructor
      · intro step hstep
        obtain ⟨mb, -, rfl⟩ := List.mem_map.mp hstep
        exact Nat.one_pos
      · intro chunk hchunk
        obtain rfl := Nat.lt_one_iff.mp hchunk
        have hall : ((List.range recording.microBatches.length).map fun mb => (mb, 0)).filter
            (fun step => step.2 = 0) =
              (List.range recording.microBatches.length).map fun mb => (mb, 0) := by
          refine List.filter_eq_self.mpr fun step hstep => ?_
          obtain ⟨mb, -, rfl⟩ := List.mem_map.mp hstep
          exact decide_eq_true rfl
        rw [hall, List.map_map]
        exact List.map_id _

theorem IsScheduleTable.microBatch_lt {table : List (Nat × Nat)} {numMicrobatches numChunks : Nat}
    (h : IsScheduleTable table numMicrobatches numChunks) {step : Nat × Nat}
    (hstep : step ∈ table) : step.1 < numMicrobatches := by
  rw [← List.mem_range, ← h.order step.2 (h.chunk_lt step hstep)]
  exact List.mem_map_of_mem (List.mem_filter.mpr ⟨hstep, decide_eq_true rfl⟩)

/-- The tokens of all micro-batches. -/
def allTokens (recording : Recording layout localRows topK) : List (List (Nat × Nat × Nat)) :=
  (List.range recording.microBatches.length).flatMap recording.tokens

theorem allTokens_ne_nil (h : 0 < recording.microBatches.length) : recording.allTokens ≠ [] := by
  obtain ⟨sample, hsample⟩ : ∃ sample, sample ∈ recording.tokens 0 := by
    refine List.exists_mem_of_ne_nil _ fun hnil => ?_
    have hlengths := map_length_tokens (List.getElem?_eq_getElem h)
    rw [hnil] at hlengths
    exact recording.microBatches_ne_nil _ (List.getElem_mem h) hlengths.symm
  intro hnil
  have hmem : sample ∈ recording.allTokens :=
    List.mem_flatMap.mpr ⟨0, List.mem_range.mpr h, hsample⟩
  rw [hnil] at hmem
  cases hmem

/-- The tensors of a chunk have the samples of all micro-batches. -/
theorem flatMap_unbind (layers : List Nat) :
    ((List.range recording.microBatches.length).flatMap fun mb =>
        (LayersTopk.ofTokens (recording.byteEntry place) layers (recording.tokens mb)).unbind) =
      recording.allTokens.map (LayersTopk.sampleOf (recording.byteEntry place) layers) := by
  rw [allTokens, List.map_flatMap]
  congr 1
  funext mb
  exact LayersTopk.unbind_ofTokens _ _ _

section Complete

variable {rank : Nat}
  (hcomplete : ∀ vp < config.numChunks, stages.moeLayers config rank vp ≠ [])

include hcomplete

theorem flatMap_appended {table : List (Nat × Nat)}
    (hchunks : ∀ step ∈ table, step.2 < config.numChunks) :
    table.flatMap (appended config stages place recording rank) =
      table.map (stepTensor config stages place recording rank) := by
  rw [List.map_eq_flatMap]
  refine List.flatMap_congr fun step hstep => ?_
  exact if_neg (hcomplete step.2 (hchunks step hstep))

omit hcomplete in
/-- The samples of a chunk, of the tensors in the order of the schedule. -/
theorem filter_stepTensor {table : List (Nat × Nat)} {numChunks chunk : Nat}
    (htable : IsScheduleTable table recording.microBatches.length numChunks)
    (hchunk : chunk < numChunks) :
    (((table.map fun step => (step.2, stepTensor config stages place recording rank step)).filter
        fun entry => entry.1 = chunk).flatMap fun entry => entry.2.unbind) =
      recording.allTokens.map (LayersTopk.sampleOf (recording.byteEntry place)
        (stages.moeLayers config rank chunk)) := by
  rw [← flatMap_unbind, ← htable.order chunk hchunk, List.filter_map, List.flatMap_map,
    List.flatMap_map]
  refine List.flatMap_congr fun step hstep => ?_
  have hstep : step.2 = chunk := of_decide_eq_true (List.mem_filter.mp hstep).2
  rw [stepTensor, hstep]

/-- The chunks, regrouped from the order of the schedule. -/
theorem reorderAndMergeVppLayers_eq {vpSize : Nat}
    (hvirtual : config.virtualPipelineModelParallelSize = some vpSize)
    (htable : IsScheduleTable (megatron.getScheduleTable recording.microBatches.length vpSize
      config.microbatchGroupSizePerVpStage) recording.microBatches.length vpSize)
    (hmicro : 0 < recording.microBatches.length) (hchunks : 0 < vpSize) :
    reorderAndMergeVppLayers megatron
        ((megatron.getScheduleTable recording.microBatches.length vpSize
          config.microbatchGroupSizePerVpStage).flatMap
            (appended config stages place recording rank))
        recording.microBatches.length vpSize config.microbatchGroupSizePerVpStage =
      .ok (LayersTopk.ofTokens (recording.byteEntry place) (stages.rankLayers config rank)
        recording.allTokens) := by
  have hsize : config.numChunks = vpSize := by
    rw [TransformerConfig.numChunks, hvirtual, Option.getD_some]
  rw [reorderAndMergeVppLayers]
  simp only
  generalize megatron.getScheduleTable recording.microBatches.length vpSize
    config.microbatchGroupSizePerVpStage = table at htable
  rw [flatMap_appended hcomplete fun step hstep => hsize ▸ htable.chunk_lt step hstep,
    @Py.mapM_eq_ok _ _ _
      (fun entry => (entry.1.2, stepTensor config stages place recording rank entry.1))
      table.zipIdx ?entry]
  case entry =>
    intro entry hentry
    have hstep : table[entry.2]? = some entry.1 := List.mem_zipIdx_iff_getElem?.mp hentry
    have htensor : (table.map (stepTensor config stages place recording rank))[entry.2]? =
        some (stepTensor config stages place recording rank entry.1) := by
      rw [List.getElem?_map, hstep, Option.map_some]
    rw [Py.getItem_of_some htensor, Py.ok_bind,
      if_pos (htable.chunk_lt _ (List.mem_of_getElem? hstep))]
  have hzip : (table.zipIdx.map fun entry =>
      (entry.1.2, stepTensor config stages place recording rank entry.1)) =
        table.map fun step => (step.2, stepTensor config stages place recording rank step) := by
    have hfst := List.zipIdx_map_fst 0 table
    conv_rhs => rw [← hfst, List.map_map]
    rfl
  rw [Py.ok_bind, hzip, Py.mapM_eq_ok fun chunk hchunk => by
      rw [filter_stepTensor htable (List.mem_range.mp hchunk)]
      exact LayersTopk.asNestedTensor_sampleOf _ (allTokens_ne_nil hmicro),
    Py.ok_bind]
  have hcat := @LayersTopk.cat_ofTokens _ _ (recording.byteEntry place)
    ((List.range vpSize).map (stages.moeLayers config rank)) recording.allTokens
    (by rw [ne_eq, List.map_eq_nil_iff, List.range_eq_nil]; exact hchunks.ne')
  rw [List.map_map] at hcat
  rw [Stages.rankLayers, hsize, List.flatMap_def]
  exact hcat

/-- The tensor of a pipeline rank has its layers, chunk after chunk. -/
theorem localRouterMap_eq (hinverse : layout.Inverse localRows place)
    (htile : stages.Tile megatron config) (hrank : rank < config.pipelineModelParallelSize)
    (hschedule : ∀ vpSize, config.virtualPipelineModelParallelSize = some vpSize →
      IsScheduleTable (megatron.getScheduleTable recording.microBatches.length vpSize
        config.microbatchGroupSizePerVpStage) recording.microBatches.length vpSize)
    (hmicro : 0 < recording.microBatches.length) (hchunks : 0 < config.numChunks) :
    recording.localRouterMap megatron config stages rank =
      .ok (some (LayersTopk.ofTokens (recording.byteEntry place)
        (stages.rankLayers config rank) recording.allTokens)) := by
  have htable := isScheduleTable_schedule hschedule
  have hrecorders := @recorders_routerInstances topK config stages rank
  obtain ⟨routers, hready, hsteps⟩ := forwardSteps_eq hinverse htile hrank
    (fun step hstep => ⟨htable.microBatch_lt hstep, htable.chunk_lt step hstep⟩) hrecorders
  have hrecord := @isR2RecordAction_eq _ _ _ _ _ htile hrank none hchunks _ hready.layers
    hready.actions
  rw [Option.getD_none, decide_eq_true (hcomplete 0 hchunks)] at hrecord
  rw [localRouterMap, hsteps, Py.ok_bind]
  simp only
  rw [hrecord, Py.ok_bind, if_pos rfl]
  cases hvirtual : config.virtualPipelineModelParallelSize with
  | some vpSize =>
      have hsize : config.numChunks = vpSize := by
        rw [TransformerConfig.numChunks, hvirtual, Option.getD_some]
      simp only [schedule, hvirtual]
      rw [reorderAndMergeVppLayers_eq hcomplete hvirtual (hschedule vpSize hvirtual) hmicro
        (hsize ▸ hchunks), Py.ok_bind]
      rfl
  | none =>
      have hsize : config.numChunks = 1 := by
        rw [TransformerConfig.numChunks, hvirtual, Option.getD_none]
      have hlayers : stages.rankLayers config rank = stages.moeLayers config rank 0 := by
        rw [Stages.rankLayers, hsize]
        exact List.append_nil _
      rw [flatMap_appended hcomplete htable.chunk_lt]
      simp only [schedule, hvirtual]
      rw [List.map_map, List.flatMap_map, hlayers]
      have hsamples := @flatMap_unbind _ _ _ place recording (stages.moeLayers config rank 0)
      have hnested := @LayersTopk.asNestedTensor_sampleOf _ _ (recording.byteEntry place)
        (stages.moeLayers config rank 0) _ (allTokens_ne_nil hmicro)
      rw [← hsamples] at hnested
      exact congrArg (· >>= fun topkIdx => .ok (some topkIdx)) hnested

end Complete

/-! ## The tensor of the model -/

/-- The piece of a chunk in the layers of its pipeline rank. -/
theorem slice_rankLayers {pp vp : Nat} (hvp : vp < config.numChunks) {counts : List Nat}
    (hcounts : counts = (List.range config.numChunks).map fun v =>
      (stages.moeLayers config pp v).length) :
    (counts.take vp).sum ≤ (counts.take (vp + 1)).sum ∧
      Slices.slice (stages.rankLayers config pp) (counts.take vp).sum
        ((counts.take (vp + 1)).sum - (counts.take vp).sum) = stages.moeLayers config pp vp := by
  have hlength : vp < counts.length := by
    rw [hcounts, List.length_map, List.length_range]
    exact hvp
  have hget : counts[vp] = (stages.moeLayers config pp vp).length := by
    simp only [hcounts, List.getElem_map, List.getElem_range]
  have hsucc : (counts.take (vp + 1)).sum =
      (counts.take vp).sum + (stages.moeLayers config pp vp).length := by
    rw [List.take_succ_eq_append_getElem hlength, List.sum_append, List.sum_singleton, hget]
  have hpart := @Slices.slice_flatten _
    ((List.range config.numChunks).map (stages.moeLayers config pp)) vp
    (by rw [List.length_map, List.length_range]; exact hvp)
  rw [List.map_map, List.getElem_map, List.getElem_range, ← List.flatMap_def] at hpart
  refine ⟨by omega, ?_⟩
  rw [hsucc, Nat.add_sub_cancel_left, hcounts]
  exact hpart

theorem allGatherObject_map_some {α : Type} (xs : List α) :
    allGatherObject (xs.map some) = .ok xs := by
  rw [allGatherObject, @Py.mapM_map_eq_ok _ _ _ _ some id _ fun x _ => rfl, List.map_id]

/-- The pieces of the ranks, chunk after chunk, are the layers of the model. -/
theorem ppGather_eq (htile : stages.Tile megatron config) {source : Nat}
    (hsource : source < config.pipelineModelParallelSize)
    (hmicro : 0 < recording.microBatches.length) (hchunks : 0 < config.numChunks) :
    ppGather megatron config source
        (((List.range config.pipelineModelParallelSize).map fun rank =>
          LayersTopk.ofTokens (recording.byteEntry place) (stages.rankLayers config rank)
            recording.allTokens).map some)
        (LayersTopk.ofTokens (recording.byteEntry place) (stages.rankLayers config source)
          recording.allTokens) =
      .ok (LayersTopk.ofTokens (recording.byteEntry place) config.moeLayers
        recording.allTokens) := by
  have hmodel := flatMap_moeLayers htile
  have htokens := allTokens_ne_nil hmicro
  rw [ppGather]
  by_cases hsingle : config.pipelineModelParallelSize ≤ 1
  · obtain rfl : source = 0 := by omega
    have hone : config.pipelineModelParallelSize = 1 := by omega
    rw [if_pos hsingle, ← hmodel, hone, Stages.rankLayers]
    simp only [List.range_one, List.flatMap_cons, List.flatMap_nil, List.append_nil]
  rw [if_neg hsingle, allGatherObject_map_some, Py.ok_bind]
  cases hvirtual : config.virtualPipelineModelParallelSize with
  | none =>
      have hsize : config.numChunks = 1 := by
        rw [TransformerConfig.numChunks, hvirtual, Option.getD_none]
      have hcat := @LayersTopk.cat_ofTokens _ _ (recording.byteEntry place)
        ((List.range config.pipelineModelParallelSize).map (stages.rankLayers config))
        recording.allTokens
        (by rw [ne_eq, List.map_eq_nil_iff, List.range_eq_nil]; omega)
      rw [List.map_map, ← List.flatMap_def] at hcat
      have hrank : stages.rankLayers config = fun pp => stages.moeLayers config pp 0 := by
        funext pp
        rw [Stages.rankLayers, hsize]
        exact List.append_nil _
      refine hcat.trans ?_
      rw [← hmodel, hrank, hsize, List.range_one, List.flatMap_cons, List.flatMap_nil,
        List.append_nil]
  | some vpSize =>
      have hsize : config.numChunks = vpSize := by
        rw [TransformerConfig.numChunks, hvirtual, Option.getD_some]
      have hcounts : (List.range config.pipelineModelParallelSize).mapM (fun ppStage =>
          (List.range vpSize).mapM fun vpStage =>
            getMoeNumLayersToBuild megatron config source (some vpStage) (some ppStage)) =
          .ok ((List.range config.pipelineModelParallelSize).map fun pp =>
            (List.range config.numChunks).map fun v => (stages.moeLayers config pp v).length) := by
        refine Py.mapM_eq_ok fun pp hpp => ?_
        rw [hsize]
        refine Py.mapM_eq_ok fun vp hvp => ?_
        exact getMoeNumLayersToBuild_others htile (Option.isSome_of_mem hvirtual) hsource
          (List.mem_range.mp hpp) (hsize ▸ List.mem_range.mp hvp)
      simp only
      rw [hcounts, Py.ok_bind, @Py.mapM_eq_ok _ _ _ (fun stage =>
        LayersTopk.ofTokens (recording.byteEntry place) (stages.moeLayers config stage.2 stage.1)
          recording.allTokens) _ ?pieces]
      case pieces =>
        rintro ⟨vp, pp⟩ hstage
        obtain ⟨v, hv, hpair⟩ := List.mem_flatMap.mp hstage
        obtain ⟨p, hp, hpair⟩ := List.mem_map.mp hpair
        obtain ⟨rfl, rfl⟩ := Prod.mk.inj hpair
        have hvp : v < config.numChunks := hsize ▸ List.mem_range.mp hv
        obtain ⟨hle, hslice⟩ := @slice_rankLayers _ _ p v hvp _ rfl
        simp only
        rw [Py.getItem_of_some (by rw [List.getElem?_map,
            List.getElem?_range (List.mem_range.mp hp), Option.map_some]), Py.ok_bind,
          Py.getItem_of_some (by rw [List.getElem?_map,
            List.getElem?_range (List.mem_range.mp hp), Option.map_some]), Py.ok_bind,
          LayersTopk.unbind_ofTokens, List.map_map]
        refine Eq.trans (congrArg _ (List.map_congr_left fun sample _ => ?_))
          (LayersTopk.asNestedTensor_sampleOf (recording.byteEntry place) htokens)
        rw [Function.comp_apply, LayersTopk.piece_sampleOf _ _ _ hle, hslice]
      have hcat := @LayersTopk.cat_ofTokens _ _ (recording.byteEntry place)
        (((List.range vpSize).flatMap fun vp =>
          (List.range config.pipelineModelParallelSize).map fun pp => (vp, pp)).map fun stage =>
            stages.moeLayers config stage.2 stage.1) recording.allTokens ?nonempty
      case nonempty =>
        rw [ne_eq, List.map_eq_nil_iff, List.flatMap_eq_nil_iff]
        intro hnil
        have hzero := hnil 0 (List.mem_range.mpr (hsize ▸ hchunks))
        rw [List.map_eq_nil_iff, List.range_eq_nil] at hzero
        omega
      rw [List.map_map] at hcat
      rw [Py.ok_bind]
      refine hcat.trans ?_
      rw [← hmodel, ← List.flatMap_def, List.flatMap_assoc, hsize]
      simp only [List.flatMap_map]

/-- When every stage has an MoE layer, `pp_gather` returns on every rank the indices of the
MoE layers of the model, in order. -/
theorem routedExperts_eq (hinverse : layout.Inverse localRows place)
    (htile : stages.Tile megatron config)
    (hschedule : ∀ vpSize, config.virtualPipelineModelParallelSize = some vpSize →
      IsScheduleTable (megatron.getScheduleTable recording.microBatches.length vpSize
        config.microbatchGroupSizePerVpStage) recording.microBatches.length vpSize)
    (hcomplete : ∀ rank < config.pipelineModelParallelSize, ∀ vp < config.numChunks,
      stages.moeLayers config rank vp ≠ []) {source : Nat}
    (hsource : source < config.pipelineModelParallelSize)
    (hmicro : 0 < recording.microBatches.length) (hchunks : 0 < config.numChunks) :
    recording.routedExperts megatron config stages source =
      .ok (some (LayersTopk.ofTokens (recording.byteEntry place) config.moeLayers
        recording.allTokens)) := by
  rw [routedExperts, @Py.mapM_eq_ok _ _ _ (fun rank => some (LayersTopk.ofTokens
    (recording.byteEntry place) (stages.rankLayers config rank) recording.allTokens)) _
      fun rank hrank => localRouterMap_eq (hcomplete rank (List.mem_range.mp hrank)) hinverse htile
        (List.mem_range.mp hrank) hschedule hmicro hchunks, Py.ok_bind]
  rw [List.getElem?_map, List.getElem?_range hsource, Option.map_some]
  have hgather := @ppGather_eq _ _ _ _ _ _ place recording htile source hsource hmicro hchunks
  rw [List.map_map] at hgather
  exact congrArg (· >>= fun layersTopkIdx => .ok (some layersTopkIdx)) hgather

/-- The samples of a micro-batch are those of its tokens. -/
theorem microBatchSamples_eq {mb : Nat} (hmb : mb < recording.microBatches.length)
    (layers : List Nat) :
    recording.microBatchSamples
        (LayersTopk.ofTokens (recording.byteEntry place) layers recording.allTokens) mb =
      .ok (LayersTopk.ofTokens (recording.byteEntry place) layers (recording.tokens mb)) := by
  have hlengths := List.getElem?_eq_getElem hmb
  have hlength : ∀ i (hi : i < recording.microBatches.length),
      (recording.tokens i).length = recording.microBatches[i].length := by
    intro i hi
    have htokens := congrArg List.length (map_length_tokens (List.getElem?_eq_getElem hi))
    rw [List.length_map] at htokens
    exact htokens
  have hpart := @Slices.slice_flatten _
    ((List.range recording.microBatches.length).map recording.tokens) mb
    (by rw [List.length_map, List.length_range]; exact hmb)
  rw [List.getElem_map, List.getElem_range, ← List.flatMap_def, List.map_map, hlength mb hmb]
    at hpart
  have hbefore : (List.range recording.microBatches.length).map
      (List.length ∘ recording.tokens) = recording.microBatches.map List.length := by
    refine List.ext_getElem ?_ fun i hi hi' => ?_
    · rw [List.length_map, List.length_map, List.length_range]
    · rw [List.length_map] at hi'
      rw [List.getElem_map, List.getElem_map, List.getElem_range, Function.comp_apply,
        hlength i hi']
  rw [hbefore, ← List.map_take] at hpart
  have hne : recording.tokens mb ≠ [] := by
    intro hnil
    have hzero := hlength mb hmb
    rw [hnil, List.length_nil] at hzero
    exact recording.microBatches_ne_nil _ (List.getElem_mem hmb)
      (List.length_eq_zero_iff.mp hzero.symm)
  rw [microBatchSamples, Py.getItem_of_some hlengths, Py.ok_bind, LayersTopk.unbind_ofTokens,
    Slices.slice, ← List.map_drop, ← List.map_take]
  have hslice :
      (recording.allTokens.drop ((recording.microBatches.take mb).map List.length).sum).take
      recording.microBatches[mb].length = recording.tokens mb := hpart
  rw [hslice]
  exact LayersTopk.asNestedTensor_sampleOf _ hne

end Recording

end Verl.RouterReplay
