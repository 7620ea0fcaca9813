import Mathlib.Algebra.Notation.Pi.Basic
import Verl.Lib.Jagged
import Verl.Lib.Python

/-!
# Capturing router traces

`RouterTraceCapture` hooks the router of every MoE layer, so that a forward pass
over packed tokens leaves one trace for each layer.  A tensor is the list of its
rows, and a row is a function of the remaining indices.
-/

namespace Verl

open Jagged (index)

variable {τ σ : Type}

/-! ## Tensors -/

/-- A tensor of shape `(total_nnz, L, K)`. -/
structure RouterTensor (σ : Type) where
  numLayers : Nat
  topK : Nat
  values : List (Nat → Nat → σ)

/-- `torch.gather` along the last dimension.  Out of the others, the index must
not be larger than the input. -/
def torchGather (numExperts topK : Nat) (input : List (Nat → σ)) (indices : List (Nat → Nat)) :
    Except Py.Error (List (Nat → σ)) :=
  if input.length < indices.length then
    .error (.runtime "Size does not match at dimension 0")
  else if ∃ idx ∈ indices, ∃ k < topK, numExperts ≤ idx k then
    .error (.runtime "index out of bounds")
  else .ok (List.zipWith (fun scores idx k => scores (idx k)) input indices)

/-- `torch.stack` of tensors of shape `(total_nnz, K)`, each with its `K`, where
the layers become the second dimension. -/
def torchStack [Zero σ] (layers : List (Nat × List (Nat → σ))) :
    Except Py.Error (RouterTensor σ) :=
  match layers with
  | [] => .error (.runtime "stack expects a non-empty TensorList")
  | (topK, rows) :: _ =>
      if ∀ layer ∈ layers, layer.1 = topK ∧ layer.2.length = rows.length then
        .ok ⟨layers.length, topK,
          (List.range rows.length).map fun i l => (layers.getD l (0, [])).2.getD i 0⟩
      else .error (.runtime "stack expects each tensor to be equal size")

/-! ## Hooks -/

/-- The modules that can be hooked. -/
inductive RouterKind where
  | gptOssRouter
  | gemma4Router
  | olmoeBlock
  | qwen3MoeBlock

/-- What a hook appends to `_layer_traces`. -/
structure LayerTrace (σ : Type) where
  numExperts : Nat
  topK : Nat
  scores : List (Nat → σ)
  indices : List (Nat → Nat)
  routerScoresFull : List (Nat → σ)

/-- The policy as its routers show it: at every token and layer the score of each
expert, and the indices of the top-k experts.  The block hooks convert the scores
to the type of the hidden states. -/
structure Policy (τ σ : Type) where
  kind : RouterKind
  toDtype : σ → σ
  numLayers : Nat
  numExperts : Nat
  topK : Nat
  numLayers_pos : 0 < numLayers
  routerScores : τ → Nat → Nat → σ
  topKIndices : τ → Nat → Nat → Nat
  topKIndices_lt : ∀ token l k, k < topK → topKIndices token l k < numExperts

namespace Policy

/-- The hook of a layer, in a forward pass over these tokens. -/
def hook (policy : Policy τ σ) (tokens : List τ) (l : Nat) : Except Py.Error (LayerTrace σ) :=
  let full := tokens.map fun token => policy.routerScores token l
  let indices := tokens.map fun token => policy.topKIndices token l
  match policy.kind with
  | .gptOssRouter | .gemma4Router => do
      let scores ← torchGather policy.numExperts policy.topK full indices
      return ⟨policy.numExperts, policy.topK, scores, indices, full⟩
  | .olmoeBlock | .qwen3MoeBlock =>
      -- The values of `torch.topk` are the scores at its indices.
      let weights := tokens.map fun token k =>
        policy.routerScores token l (policy.topKIndices token l k)
      .ok ⟨policy.numExperts, policy.topK, weights.map fun row k => policy.toDtype (row k), indices,
        full.map fun row e => policy.toDtype (row e)⟩

/-- `_layer_traces` after a forward pass over these tokens. -/
def forward (policy : Policy τ σ) (tokens : List τ) : Except Py.Error (List (LayerTrace σ)) :=
  (List.range policy.numLayers).mapM (policy.hook tokens)

end Policy

/-! ## Reading the traces -/

namespace RouterTraceCapture

/-- `stack_layer_traces`. -/
def stackLayerTraces [Zero σ] (layerTraces : List (LayerTrace σ)) :
    Except Py.Error (RouterTensor σ × RouterTensor Nat) :=
  if layerTraces = [] then .error (.value "No router traces captured.")
  else do
    let scores ← torchStack (layerTraces.map fun t => (t.topK, t.scores))
    let indices ← torchStack (layerTraces.map fun t => (t.topK, t.indices))
    return (scores, indices)

def getTrace [Zero σ] (layerTraces : List (LayerTrace σ)) :
    Except Py.Error (Option (RouterTensor σ × RouterTensor Nat)) :=
  if layerTraces = [] then .ok none else some <$> stackLayerTraces layerTraces

/-- The rows of one tensor of a trace, in `select_token_rows`. -/
def selectRows {α : Type} (rowIndices : List Nat) (layerIdx : Nat) (key : String)
    (value : List α) : Except Py.Error (List α) :=
  if rowIndices ≠ [] ∧ value.length ≤ rowIndices.foldr max 0 then
    .error (.value (s!"Router row selection exceeds layer {layerIdx} {key} rows: " ++
      s!"max_index={rowIndices.foldr max 0}, rows={value.length}"))
  else .ok (index value rowIndices)

def selectTokenRows (layerTraces : List (LayerTrace σ)) (rowIndices : List Nat) :
    Except Py.Error (List (LayerTrace σ)) :=
  layerTraces.zipIdx.mapM fun (trace, layerIdx) => do
    let scores ← selectRows rowIndices layerIdx "scores" trace.scores
    let indices ← selectRows rowIndices layerIdx "indices" trace.indices
    let full ← selectRows rowIndices layerIdx "router_scores_full" trace.routerScoresFull
    return { trace with scores := scores, indices := indices, routerScoresFull := full }

def getCurrentScoresAtOldIndices [Zero σ] (layerTraces : List (LayerTrace σ))
    (oldIndices : RouterTensor Nat) : Except Py.Error (RouterTensor σ) :=
  if layerTraces.length ≠ oldIndices.numLayers then
    .error (.value (s!"Layer count mismatch: captured {layerTraces.length} layers, " ++
      s!"old_indices has {oldIndices.numLayers}."))
  else do
    let gathered ← layerTraces.zipIdx.mapM fun (trace, layerIdx) =>
      torchGather trace.numExperts oldIndices.topK trace.routerScoresFull
        (oldIndices.values.map fun idx => idx layerIdx)
    torchStack (gathered.map fun scores => (oldIndices.topK, scores))

end RouterTraceCapture

/-! ## The traces of a policy -/

namespace Policy

/-- The score of an expert, as the hooks record it. -/
def score (policy : Policy τ σ) (token : τ) (l expert : Nat) : σ :=
  match policy.kind with
  | .gptOssRouter | .gemma4Router => policy.routerScores token l expert
  | .olmoeBlock | .qwen3MoeBlock => policy.toDtype (policy.routerScores token l expert)

/-- The trace of a layer. -/
def layerTrace (policy : Policy τ σ) (tokens : List τ) (l : Nat) : LayerTrace σ where
  numExperts := policy.numExperts
  topK := policy.topK
  scores := tokens.map fun token k => policy.score token l (policy.topKIndices token l k)
  indices := tokens.map fun token => policy.topKIndices token l
  routerScoresFull := tokens.map fun token => policy.score token l

def layerTraces (policy : Policy τ σ) (tokens : List τ) : List (LayerTrace σ) :=
  (List.range policy.numLayers).map (policy.layerTrace tokens)

/-- The scores at the own top-k experts. -/
def tokenScores [Zero σ] (policy : Policy τ σ) (token : τ) (l : Nat) : Nat → σ :=
  if l < policy.numLayers then fun k => policy.score token l (policy.topKIndices token l k) else 0

/-- The own top-k experts. -/
def tokenIndices (policy : Policy τ σ) (token : τ) (l : Nat) : Nat → Nat :=
  if l < policy.numLayers then policy.topKIndices token l else 0

/-- The scores at the experts of another policy. -/
def scoresAt [Zero σ] (policy : Policy τ σ) (token : τ) (experts : Nat → Nat → Nat) (l : Nat) :
    Nat → σ :=
  if l < policy.numLayers then fun k => policy.score token l (experts l k) else 0

end Policy

/-! ## What the capture returns -/

theorem torchGather_ok {numExperts topK : Nat} {input : List (Nat → σ)}
    {indices : List (Nat → Nat)} (hrows : indices.length ≤ input.length)
    (hlt : ∀ idx ∈ indices, ∀ k < topK, idx k < numExperts) :
    torchGather numExperts topK input indices =
      .ok (List.zipWith (fun scores idx k => scores (idx k)) input indices) := by
  rw [torchGather, if_neg (Nat.not_lt.mpr hrows), if_neg]
  rintro ⟨idx, hidx, k, hk, hle⟩
  exact Nat.not_le.mpr (hlt idx hidx k hk) hle

theorem torchGather_rows {numExperts topK : Nat} {input : List (Nat → σ)}
    {indices : List (Nat → Nat)} (hrows : input.length < indices.length) :
    torchGather numExperts topK input indices =
      .error (.runtime "Size does not match at dimension 0") := if_pos hrows

/-- Stacking layers that read the same rows. -/
theorem torchStack_map [Zero σ] {ι : Type} {numLayers : Nat} (hpos : 0 < numLayers) (topK : Nat)
    (xs : List ι) (f : Nat → ι → Nat → σ) :
    torchStack ((List.range numLayers).map fun l => (topK, xs.map (f l))) =
      .ok ⟨numLayers, topK, xs.map fun x l => if l < numLayers then f l x else 0⟩ := by
  obtain ⟨rest, rfl⟩ : ∃ rest, numLayers = rest + 1 := ⟨numLayers - 1, by omega⟩
  have hlayers : (List.range (rest + 1)).map (fun l => (topK, xs.map (f l))) =
      (topK, xs.map (f 0)) :: (List.range rest).map fun l => (topK, xs.map (f (l + 1))) := by
    rw [List.range_succ_eq_map, List.map_cons, List.map_map]
    rfl
  have hsizes : ∀ layer ∈ (topK, xs.map (f 0)) ::
      (List.range rest).map (fun l => (topK, xs.map (f (l + 1)))),
      layer.1 = topK ∧ layer.2.length = (xs.map (f 0)).length := by
    rw [← hlayers]
    intro layer hlayer
    obtain ⟨l, -, rfl⟩ := List.mem_map.mp hlayer
    exact ⟨rfl, by rw [List.length_map, List.length_map]⟩
  have hlookup (l : Nat) :
      ((List.range (rest + 1)).map fun l => (topK, xs.map (f l))).getD l (0, []) =
        if l < rest + 1 then (topK, xs.map (f l)) else (0, []) := by
    rw [List.getD_eq_getElem?_getD, List.getElem?_map]
    split
    next hl => rw [List.getElem?_range hl, Option.map_some, Option.getD_some]
    next hl =>
      rw [List.getElem?_eq_none (by rw [List.length_range]; omega), Option.map_none,
        Option.getD_none]
  rw [hlayers, torchStack, if_pos hsizes, ← hlayers, List.length_map, List.length_range,
    List.length_map]
  simp only [hlookup]
  congr 2
  refine List.ext_getElem ?_ fun i hi hi' => ?_
  · rw [List.length_map, List.length_range, List.length_map]
  · rw [List.length_map] at hi'
    rw [List.getElem_map, List.getElem_map, List.getElem_range]
    funext l
    split
    · rw [List.getD_eq_getElem?_getD, List.getElem?_map, List.getElem?_eq_getElem hi',
        Option.map_some, Option.getD_some]
    · rw [List.getD_nil]

namespace Policy

variable (policy : Policy τ σ) (tokens : List τ)

theorem hook_eq (l : Nat) : policy.hook tokens l = .ok (policy.layerTrace tokens l) := by
  have hlt : ∀ idx ∈ tokens.map (fun token => policy.topKIndices token l),
      ∀ k < policy.topK, idx k < policy.numExperts := by
    intro idx hidx k hk
    obtain ⟨token, -, rfl⟩ := List.mem_map.mp hidx
    exact policy.topKIndices_lt token l k hk
  have hgather := @torchGather_ok _ _ _ (tokens.map fun token => policy.routerScores token l) _
    (by rw [List.length_map, List.length_map]) hlt
  rw [List.zipWith_map, List.zipWith_self] at hgather
  unfold hook layerTrace score
  cases policy.kind with
  | gptOssRouter => simp only [hgather, Py.ok_bind, Py.pure_eq_ok]
  | gemma4Router => simp only [hgather, Py.ok_bind, Py.pure_eq_ok]
  | olmoeBlock => simp only [List.map_map, Function.comp_def]
  | qwen3MoeBlock => simp only [List.map_map, Function.comp_def]

theorem forward_eq : policy.forward tokens = .ok (policy.layerTraces tokens) :=
  Py.mapM_eq_ok fun l _ => policy.hook_eq tokens l

theorem layerTraces_ne_nil : policy.layerTraces tokens ≠ [] := by
  rw [layerTraces, Ne, List.map_eq_nil_iff, List.range_eq_nil]
  exact policy.numLayers_pos.ne'

theorem zipIdx_layerTraces : (policy.layerTraces tokens).zipIdx =
    (List.range policy.numLayers).map fun l => (policy.layerTrace tokens l, l) := by
  refine List.ext_getElem ?_ fun i _ _ => ?_
  · rw [List.length_zipIdx, layerTraces, List.length_map, List.length_map]
  · simp only [layerTraces, List.getElem_zipIdx, List.getElem_map, List.getElem_range,
      Nat.zero_add]

end Policy

namespace RouterTraceCapture

variable (policy : Policy τ σ) (tokens : List τ)

theorem getTrace_eq [Zero σ] : getTrace (policy.layerTraces tokens) =
    .ok (some (⟨policy.numLayers, policy.topK, tokens.map policy.tokenScores⟩,
      ⟨policy.numLayers, policy.topK, tokens.map policy.tokenIndices⟩)) := by
  have hscores := torchStack_map policy.numLayers_pos policy.topK tokens
    fun l token k => policy.score token l (policy.topKIndices token l k)
  have hindices := torchStack_map policy.numLayers_pos policy.topK tokens
    fun l token => policy.topKIndices token l
  rw [getTrace, if_neg (policy.layerTraces_ne_nil tokens), stackLayerTraces,
    if_neg (policy.layerTraces_ne_nil tokens), Policy.layerTraces, List.map_map, List.map_map]
  simp only [Function.comp_def, Policy.layerTrace]
  rw [hscores, hindices]
  rfl

theorem selectRows_map {α : Type} {f : τ → α} {rowIndices : List Nat}
    (hrows : ∀ i ∈ rowIndices, i < tokens.length) (layerIdx : Nat) (key : String) :
    selectRows rowIndices layerIdx key (tokens.map f) = .ok ((index tokens rowIndices).map f) := by
  have hmax (rows : List Nat) (hlt : ∀ i ∈ rows, i < tokens.length) (hne : rows ≠ []) :
      rows.foldr max 0 < tokens.length := by
    induction rows with
    | nil => exact absurd rfl hne
    | cons row rows ih =>
        have hrow := hlt row List.mem_cons_self
        cases rows with
        | nil => simpa using hrow
        | cons next rest =>
            exact max_lt hrow (ih (fun i hi => hlt i (List.mem_cons_of_mem row hi))
              (List.cons_ne_nil _ _))
  rw [selectRows, if_neg, index, index, List.map_filterMap]
  · simp only [List.getElem?_map]
  · rintro ⟨hne, hle⟩
    rw [List.length_map] at hle
    exact Nat.not_le.mpr (hmax rowIndices hrows hne) hle

/-- Selecting rows leaves the traces of the selected tokens. -/
theorem selectTokenRows_eq {rowIndices : List Nat}
    (hrows : ∀ i ∈ rowIndices, i < tokens.length) :
    selectTokenRows (policy.layerTraces tokens) rowIndices =
      .ok (policy.layerTraces (index tokens rowIndices)) := by
  rw [selectTokenRows, policy.zipIdx_layerTraces, List.mapM_map]
  refine Py.mapM_eq_ok fun l _ => ?_
  simp only [Function.comp_def, Policy.layerTrace, selectRows_map tokens hrows, Py.ok_bind,
    Py.pure_eq_ok]

variable {old : RouterTensor Nat}

/-- Every layer gathers its scores at the old indices. -/
theorem getCurrentScores_eq [Zero σ] (hlayers : old.numLayers = policy.numLayers) :
    getCurrentScoresAtOldIndices (policy.layerTraces tokens) old = (do
      let gathered ← (List.range policy.numLayers).mapM fun l =>
        torchGather policy.numExperts old.topK (tokens.map fun token => policy.score token l)
          (old.values.map fun experts => experts l)
      torchStack (gathered.map fun scores => (old.topK, scores))) := by
  have hcount : ¬ (policy.layerTraces tokens).length ≠ old.numLayers := by
    rw [Policy.layerTraces, List.length_map, List.length_range, hlayers]
    exact not_not_intro rfl
  rw [getCurrentScoresAtOldIndices, if_neg hcount, policy.zipIdx_layerTraces, List.mapM_map]
  rfl

/-- With more old tokens than current ones the gather raises. -/
theorem getCurrentScores_error [Zero σ] (hlayers : old.numLayers = policy.numLayers)
    (hrows : tokens.length < old.values.length) :
    getCurrentScoresAtOldIndices (policy.layerTraces tokens) old =
      .error (.runtime "Size does not match at dimension 0") := by
  obtain ⟨rest, hrest⟩ : ∃ rest, policy.numLayers = rest + 1 :=
    ⟨policy.numLayers - 1, by have := policy.numLayers_pos; omega⟩
  rw [getCurrentScores_eq policy tokens hlayers, hrest, List.range_succ_eq_map, List.mapM_cons,
    torchGather_rows (by rw [List.length_map, List.length_map]; exact hrows)]
  rfl

theorem getCurrentScores_ok [Zero σ] (hlayers : old.numLayers = policy.numLayers)
    (hrows : old.values.length ≤ tokens.length)
    (hlt : ∀ experts ∈ old.values, ∀ l < policy.numLayers, ∀ k < old.topK,
      experts l k < policy.numExperts) :
    getCurrentScoresAtOldIndices (policy.layerTraces tokens) old =
      .ok ⟨policy.numLayers, old.topK, List.zipWith policy.scoresAt tokens old.values⟩ := by
  have hgather (l : Nat) (hl : l ∈ List.range policy.numLayers) :
      torchGather policy.numExperts old.topK (tokens.map fun token => policy.score token l)
        (old.values.map fun experts => experts l) =
      .ok ((tokens.zip old.values).map fun x k => policy.score x.1 l (x.2 l k)) := by
    have hexperts : ∀ idx ∈ old.values.map (fun experts => experts l), ∀ k < old.topK,
        idx k < policy.numExperts := by
      intro idx hidx k hk
      obtain ⟨experts, hexperts, rfl⟩ := List.mem_map.mp hidx
      exact hlt experts hexperts l (List.mem_range.mp hl) k hk
    rw [torchGather_ok (by rw [List.length_map, List.length_map]; exact hrows) hexperts,
      List.zipWith_map, ← List.map_uncurry_zip_eq_zipWith]
    rfl
  have hstack := torchStack_map policy.numLayers_pos old.topK (tokens.zip old.values)
    fun l x k => policy.score x.1 l (x.2 l k)
  rw [getCurrentScores_eq policy tokens hlayers, Py.mapM_eq_ok hgather, Py.ok_bind, List.map_map]
  simp only [Function.comp_def]
  rw [hstack, ← List.map_uncurry_zip_eq_zipWith]
  rfl

end RouterTraceCapture

end Verl
