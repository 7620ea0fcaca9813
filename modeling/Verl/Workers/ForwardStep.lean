import Verl.Lib.Shards
import Verl.Workers.Padding
import Verl.Workers.RouterTraceCapture

/-!
# The forward step of the FSDP engine

A forward step runs the model on a micro-batch and hands the router traces to the
loss.  With Ulysses sequence parallelism the packed tokens are padded and every
rank of the group runs on its shard, so that its hooks see the shard only; the
results of all ranks are gathered and unpadded.  Without packing the batch is
padded on the right, and the rows of the padding are taken out of the traces.

The traces of the old policy come with the micro-batch.  The log-probabilities
and the loss are left out.
-/

namespace Verl

open Jagged (nonzero)

variable {σ : Type}

/-! ## Micro-batches -/

/-- A sample under its key. -/
structure BatchRow where
  key : String
  prompt : List Int
  response : List Int

/-- A token of the model input: the token at a position of a sample, or one of
the paddings. -/
inductive PackedToken where
  | token (row : BatchRow) (position : Nat)
  | padding (position : Nat)

namespace BatchRow

def seqLen (row : BatchRow) : Nat := row.prompt.length + row.response.length

def packed (row : BatchRow) : List PackedToken := (List.range row.seqLen).map (.token row)

end BatchRow

/-- A nested tensor of shape `(batch, j1, L, K)`: its values and the lengths
between its offsets. -/
structure NestedTrace (σ : Type) where
  tensor : RouterTensor σ
  lengths : List Nat

/-- A tensor of shape `(batch, max_response_len, L, K)`. -/
structure PaddedTrace (σ : Type) where
  numLayers : Nat
  topK : Nat
  rows : List (List (Nat → Nat → σ))

/-- The fields of a micro-batch that the router traces need. -/
structure MicroBatch (σ : Type) where
  rows : List BatchRow
  layout : ResponseLayout
  useRemovePadding : Bool
  captureRouterTrace : Bool
  computeRouterShift : Bool
  captureRouterTraceTensor : Option (List Bool)
  computeRouterShiftTensor : Option (List Bool)
  oldRouterScoresNested : Option (NestedTrace σ)
  oldRouterIndicesNested : Option (NestedTrace Nat)

namespace MicroBatch

/-- `input_ids.values()`. -/
def packed (mb : MicroBatch σ) : List PackedToken := mb.rows.flatMap BatchRow.packed

/-- `input_ids.offsets().diff()`. -/
def seqLengths (mb : MicroBatch σ) : List Nat := mb.rows.map BatchRow.seqLen

end MicroBatch

/-! ## Sequence parallelism -/

/-- `ulysses_pad`, with the size of the padding. -/
def ulyssesPad (spSize : Nat) (tokens : List PackedToken) : List PackedToken × Nat :=
  if spSize ≤ 1 then (tokens, 0)
  else
    let padSize := Shards.padSize spSize tokens.length
    (tokens ++ (List.range padSize).map .padding, padSize)

/-- `ulysses_pad_and_slice_inputs`, on one rank of the group. -/
def ulyssesPadAndSliceInputs (spSize rank : Nat) (tokens : List PackedToken) :
    List PackedToken × Nat :=
  let (padded, padSize) := ulyssesPad spSize tokens
  (Shards.shard spSize padded rank, padSize)

/-- `gather_outputs_and_unpad`, from the tensors of all ranks. -/
def gatherOutputsAndUnpad {α : Type} (parts : List (List α)) (paddingSize : Nat) : List α :=
  if paddingSize = 0 then parts.flatten else Py.dropEnd parts.flatten paddingSize

/-! ## The model -/

/-- `input_ids` of shape `(batch, width)`, and the size of the padding if there is
sequence parallelism. -/
structure ModelInputs where
  inputIds : List (List PackedToken)
  width : Nat
  padSize : Option Nat

/-- `prepare_model_inputs`, on one rank of the group.  A model that slices its
inputs after the embedding routes the same shard. -/
def prepareModelInputs (spSize rank : Nat) (mb : MicroBatch σ) : Except Py.Error ModelInputs :=
  if mb.useRemovePadding then
    if 1 < spSize then
      let (inputIds, padSize) := ulyssesPadAndSliceInputs spSize rank mb.packed
      .ok ⟨[inputIds], inputIds.length, some padSize⟩
    else .ok ⟨[mb.packed], mb.packed.length, none⟩
  else
    match mb.seqLengths.max? with
    | none => .error (.runtime "max(): Expected reduction dim to be specified for input.numel() == 0")
    | some maxSeqLen =>
        .ok ⟨mb.rows.map fun row =>
          row.packed ++ (List.range (maxSeqLen - row.seqLen)).map .padding, maxSeqLen, none⟩

/-- `valid_rows.nonzero()`, the rows of a right-padded batch that are tokens. -/
def validRowIndices (seqLengths : List Nat) (denseWidth : Nat) : List Nat :=
  nonzero (seqLengths.map fun seqLen =>
    (List.range denseWidth).map fun i => if i < seqLen then (1 : Int) else 0).flatten

/-- The layer traces on one rank, after the rows of the padding are taken out. -/
def rankTraces (spSize : Nat) (policy : Policy PackedToken σ) (mb : MicroBatch σ) (rank : Nat) :
    Except Py.Error (List (LayerTrace σ)) := do
  let inputs ← prepareModelInputs spSize rank mb
  let layerTraces ← policy.forward inputs.inputIds.flatten
  if mb.useRemovePadding then return layerTraces
  else
    RouterTraceCapture.selectTokenRows layerTraces (validRowIndices mb.seqLengths inputs.width)

/-! ## The step -/

/-- A scalar flag, or the sentinel tensor in its place. -/
def routerFlag (sentinelKey : String) (sentinel : Option (List Bool)) (currentValue : Bool) :
    Except Py.Error Bool :=
  match sentinel with
  | none => .ok currentValue
  | some flags =>
      match flags with
      | [] => .error (.runtime s!"RSPO flag sentinel {sentinelKey} is empty or inconsistent")
      | flag :: rest =>
          if ∀ other ∈ rest, other = flag then .ok flag
          else .error (.runtime s!"RSPO flag sentinel {sentinelKey} is empty or inconsistent")

/-- What a forward step adds to `model_output` and to the micro-batch. -/
structure ForwardOutput (σ : Type) where
  routerScores : Option (NestedTrace σ)
  routerIndices : Option (NestedTrace Nat)
  currentRouterScores : Option (PaddedTrace σ)
  oldRouterScores : Option (PaddedTrace σ)
  oldRouterIndices : Option (PaddedTrace Nat)

/-- `get_trace`, which must not be `None`. -/
def requireTrace [Zero σ] (layerTraces : List (LayerTrace σ)) :
    Except Py.Error (RouterTensor σ × RouterTensor Nat) := do
  match ← RouterTraceCapture.getTrace layerTraces with
  | some trace => return trace
  | none => .error (.runtime ("RSPO router trace capture was requested, but no router forward " ++
      "hook fired. The active model execution path does not match the registered router modules."))

/-- What a rank goes on with: the gathered tensor if there is sequence parallelism,
else its own. -/
def gatherTensor (padSize : Option Nat) (rank : Nat) (parts : List (RouterTensor σ)) :
    Except Py.Error (RouterTensor σ) := do
  let own ← Py.getItem parts rank
  match padSize with
  | none => return own
  | some padSize =>
      return { own with values := gatherOutputsAndUnpad (parts.map RouterTensor.values) padSize }

/-- `no_padding_2_padding` of a nested trace. -/
def NestedTrace.toPadded [Zero σ] (trace : NestedTrace σ) (layout : ResponseLayout) :
    Except Py.Error (PaddedTrace σ) := do
  let rows ← layout.noPadding2Padding trace.tensor.values
  return ⟨trace.tensor.numLayers, trace.tensor.topK, rows⟩

/-- The keys of the old traces that a micro-batch lacks. -/
def MicroBatch.missingOld (mb : MicroBatch σ) : List String :=
  (if mb.oldRouterScoresNested.isNone then ["old_router_scores_nested"] else []) ++
    (if mb.oldRouterIndicesNested.isNone then ["old_router_indices_nested"] else [])

/-- The traces of `forward_step` on one rank of the group. -/
def forwardStep [Zero σ] (spSize : Nat) (policy : Policy PackedToken σ) (mb : MicroBatch σ)
    (rank : Nat) : Except Py.Error (ForwardOutput σ) := do
  let inputs ← prepareModelInputs spSize rank mb
  let captureRouter ← routerFlag "_capture_router_trace_tensor" mb.captureRouterTraceTensor
    mb.captureRouterTrace
  let computeRouterShift ← routerFlag "_compute_router_shift_tensor" mb.computeRouterShiftTensor
    mb.computeRouterShift
  if ¬ (captureRouter ∨ computeRouterShift) then return ⟨none, none, none, none, none⟩
  else
    let traces ← (List.range spSize).mapM (rankTraces spSize policy mb)
    let parts ← traces.mapM requireTrace
    let scores ← gatherTensor inputs.padSize rank (parts.map Prod.fst)
    let indices ← gatherTensor inputs.padSize rank (parts.map Prod.snd)
    let routerScores := some ⟨scores, mb.seqLengths⟩
    let routerIndices := some ⟨indices, mb.seqLengths⟩
    if ¬ computeRouterShift then return ⟨routerScores, routerIndices, none, none, none⟩
    else
      match mb.oldRouterScoresNested, mb.oldRouterIndicesNested with
      | some oldScores, some oldIdx => do
          let currentParts ← traces.mapM fun layerTraces =>
            RouterTraceCapture.getCurrentScoresAtOldIndices layerTraces oldIdx.tensor
          let currentScores ← gatherTensor inputs.padSize rank currentParts
          let oldRouterScores ← oldScores.toPadded mb.layout
          let oldRouterIndices ← oldIdx.toPadded mb.layout
          let current ← NestedTrace.toPadded ⟨currentScores, mb.seqLengths⟩ mb.layout
          return ⟨routerScores, routerIndices, some current, some oldRouterScores,
            some oldRouterIndices⟩
      | _, _ => .error (.runtime ("RSPO current-policy capture is enabled but the V1/legacy batch " ++
          "is missing " ++ ", ".intercalate mb.missingOld))

/-! ## The tokens of a rank -/

namespace MicroBatch

/-- The tokens that the routers of a rank see, without the padding of rows. -/
def localTokens (mb : MicroBatch σ) (spSize rank : Nat) : List PackedToken :=
  if 1 < spSize then (ulyssesPadAndSliceInputs spSize rank mb.packed).1 else mb.packed

/-- The size of the padding of the inputs. -/
def padSize (mb : MicroBatch σ) (spSize : Nat) : Option Nat :=
  if 1 < spSize then some (Shards.padSize spSize mb.packed.length) else none

/-- A micro-batch as the engine gets it: there is a sample, and without packing
there is no sequence parallelism. -/
structure Fits (mb : MicroBatch σ) (spSize : Nat) : Prop where
  sp_pos : 1 ≤ spSize
  no_sp : mb.useRemovePadding = false → spSize = 1
  nonempty : mb.rows ≠ []

end MicroBatch

variable {mb : MicroBatch σ} {spSize rank : Nat} {policy : Policy PackedToken σ}

theorem length_packed (row : BatchRow) : row.packed.length = row.seqLen := by
  rw [BatchRow.packed, List.length_map, List.length_range]

theorem seqLengths_eq (mb : MicroBatch σ) :
    mb.seqLengths = (mb.rows.map BatchRow.packed).map List.length := by
  rw [MicroBatch.seqLengths, List.map_map]
  exact List.map_congr_left fun row _ => (length_packed row).symm

/-- Ulysses pads to a multiple of the group. -/
theorem ulyssesPad_eq (h : 1 < spSize) (tokens : List PackedToken) :
    ulyssesPad spSize tokens =
      (tokens ++ (List.range (Shards.padSize spSize tokens.length)).map .padding,
        Shards.padSize spSize tokens.length) := if_neg (Nat.not_le.mpr h)

theorem dvd_length_ulyssesPad (h : 1 < spSize) (tokens : List PackedToken) :
    spSize ∣ (ulyssesPad spSize tokens).1.length := by
  rw [ulyssesPad_eq h, List.length_append, List.length_map, List.length_range]
  exact Shards.dvd_add_padSize (by omega) tokens.length

theorem length_localTokens (h : 1 < spSize) (hrank : rank < spSize) :
    (mb.localTokens spSize rank).length =
      (mb.packed.length + Shards.padSize spSize mb.packed.length) / spSize := by
  have hshard := Shards.length_shard hrank (ulyssesPad spSize mb.packed).1
  rw [MicroBatch.localTokens, if_pos h, ulyssesPadAndSliceInputs, hshard, ulyssesPad_eq h,
    List.length_append, List.length_map, List.length_range]

/-- The rows of a right-padded batch that are tokens. -/
theorem index_validRowIndices {α : Type} (xss : List (List α)) (width : Nat) (pad : Nat → List α)
    (hpad : ∀ xs ∈ xss, xs.length + (pad xs.length).length = width) :
    Jagged.index (xss.flatMap fun xs => xs ++ pad xs.length)
      (validRowIndices (xss.map List.length) width) = xss.flatten := by
  have hmask (xs : List α) (hxs : xs ∈ xss) :
      (List.range width).map (fun i => if i < xs.length then (1 : Int) else 0) =
        List.replicate xs.length 1 ++ List.replicate (pad xs.length).length 0 := by
    refine List.ext_getElem ?_ fun i hi _ => ?_
    · rw [List.length_map, List.length_range, List.length_append, List.length_replicate,
        List.length_replicate, hpad xs hxs]
    · simp only [List.getElem_map, List.getElem_range, List.getElem_append, List.length_replicate,
        List.getElem_replicate, dite_eq_ite]
  have hmasks : (xss.map List.length).map (fun seqLen =>
      (List.range width).map fun i => if i < seqLen then (1 : Int) else 0) =
        xss.map fun xs => List.replicate xs.length 1 ++
          List.replicate (pad xs.length).length 0 := by
    rw [List.map_map]
    exact List.map_congr_left hmask
  have hrows : List.Forall₂ (fun (mask : List Int) (xs : List α) => mask.length = xs.length)
      (xss.map fun xs => List.replicate xs.length 1 ++ List.replicate (pad xs.length).length 0)
      (xss.map fun xs => xs ++ pad xs.length) := by
    rw [List.forall₂_map_left_iff, List.forall₂_map_right_iff, List.forall₂_same]
    intro xs _
    rw [List.length_append, List.length_append, List.length_replicate, List.length_replicate]
  have hselect (xs : List α) : Jagged.select
      (List.replicate xs.length 1 ++ List.replicate (pad xs.length).length 0)
      (xs ++ pad xs.length) = xs := by
    rw [Jagged.select_append List.length_replicate, Jagged.select_ones, Jagged.select_zeros,
      List.append_nil]
  have hflat : (xss.map fun xs => List.replicate xs.length (1 : Int) ++
      List.replicate (pad xs.length).length 0).flatten.length =
        (xss.map fun xs => xs ++ pad xs.length).flatten.length := by
    rw [List.length_flatten, List.length_flatten]
    congr 1
    rw [List.map_map, List.map_map]
    refine List.map_congr_left fun xs _ => ?_
    simp only [Function.comp_apply, List.length_append, List.length_replicate]
  rw [validRowIndices, hmasks, List.flatMap_def, Jagged.index_nonzero hflat,
    Jagged.select_flatten hrows, List.zipWith_map, List.zipWith_self]
  simp only [hselect, List.map_id']

namespace MicroBatch.Fits

variable (h : mb.Fits spSize)

/-- The longest sequence of a batch that is not empty. -/
theorem exists_max (h : mb.Fits spSize) : ∃ maxSeqLen, mb.seqLengths.max? = some maxSeqLen ∧
    ∀ row ∈ mb.rows, row.seqLen ≤ maxSeqLen := by
  have hne : mb.seqLengths ≠ [] := fun hnil => h.nonempty (List.map_eq_nil_iff.mp hnil)
  obtain ⟨maxSeqLen, hmax⟩ := Option.ne_none_iff_exists'.mp
    fun hnone => hne (List.max?_eq_none_iff.mp hnone)
  refine ⟨maxSeqLen, hmax, fun row hrow => ?_⟩
  exact (List.max?_eq_some_iff.mp hmax).2 _ (List.mem_map_of_mem hrow)

theorem prepareModelInputs (h : mb.Fits spSize) (rank : Nat) :
    ∃ inputs, Verl.prepareModelInputs spSize rank mb = .ok inputs ∧
      inputs.padSize = mb.padSize spSize := by
  unfold Verl.prepareModelInputs MicroBatch.padSize
  cases hpacking : mb.useRemovePadding with
  | true =>
      by_cases hsp : 1 < spSize
      · refine ⟨_, by rw [if_pos rfl, if_pos hsp], ?_⟩
        rw [if_pos hsp, ulyssesPadAndSliceInputs, ulyssesPad_eq hsp]
      · refine ⟨_, by rw [if_pos rfl, if_neg hsp], ?_⟩
        rw [if_neg hsp]
  | false =>
      obtain ⟨maxSeqLen, hmax, -⟩ := h.exists_max
      have hsp : ¬ 1 < spSize := by
        have := h.no_sp hpacking
        omega
      refine ⟨_, by rw [if_neg Bool.false_ne_true, hmax], ?_⟩
      rw [if_neg hsp]

/-- With every layout of the inputs the traces are those of the packed tokens of the
rank. -/
theorem rankTraces (h : mb.Fits spSize) (policy : Policy PackedToken σ) (rank : Nat) :
    Verl.rankTraces spSize policy mb rank =
      .ok (policy.layerTraces (mb.localTokens spSize rank)) := by
  unfold Verl.rankTraces Verl.prepareModelInputs MicroBatch.localTokens
  cases hpacking : mb.useRemovePadding with
  | true =>
      by_cases hsp : 1 < spSize
      · rw [if_pos rfl, if_pos hsp, if_pos hsp, Py.ok_bind, policy.forward_eq, Py.ok_bind,
          if_pos rfl, List.flatten_singleton, Py.pure_eq_ok]
      · rw [if_pos rfl, if_neg hsp, if_neg hsp, Py.ok_bind, policy.forward_eq, Py.ok_bind,
          if_pos rfl, List.flatten_singleton, Py.pure_eq_ok]
  | false =>
      obtain ⟨maxSeqLen, hmax, hle⟩ := h.exists_max
      have hsp : ¬ 1 < spSize := by
        have := h.no_sp hpacking
        omega
      have hrows : mb.rows.map (fun row =>
          row.packed ++ (List.range (maxSeqLen - row.seqLen)).map PackedToken.padding) =
            (mb.rows.map BatchRow.packed).map fun tokens => tokens ++
              (List.range (maxSeqLen - tokens.length)).map PackedToken.padding := by
        rw [List.map_map]
        refine List.map_congr_left fun row _ => ?_
        rw [Function.comp_apply, length_packed]
      have hwidth : ∀ tokens ∈ mb.rows.map BatchRow.packed, tokens.length +
          ((List.range (maxSeqLen - tokens.length)).map PackedToken.padding).length =
            maxSeqLen := by
        intro tokens htokens
        obtain ⟨row, hrow, rfl⟩ := List.mem_map.mp htokens
        have := hle row hrow
        rw [length_packed, List.length_map, List.length_range]
        omega
      have hindex := index_validRowIndices (mb.rows.map BatchRow.packed) maxSeqLen
        (fun n => (List.range (maxSeqLen - n)).map PackedToken.padding) hwidth
      rw [← seqLengths_eq, List.flatMap_def, ← hrows] at hindex
      have hmask : ∀ mask ∈ mb.seqLengths.map (fun seqLen =>
          (List.range maxSeqLen).map fun i => if i < seqLen then (1 : Int) else 0),
          mask.length = maxSeqLen := by
        intro mask hmask
        obtain ⟨seqLen, -, rfl⟩ := List.mem_map.mp hmask
        rw [List.length_map, List.length_range]
      have hpadded : ∀ tokens ∈ mb.rows.map (fun row =>
          row.packed ++ (List.range (maxSeqLen - row.seqLen)).map PackedToken.padding),
          tokens.length = maxSeqLen := by
        rw [hrows]
        intro tokens htokens
        obtain ⟨xs, hxs, rfl⟩ := List.mem_map.mp htokens
        rw [List.length_append]
        exact hwidth xs hxs
      have hvalid : ∀ i ∈ validRowIndices mb.seqLengths maxSeqLen, i < (mb.rows.map fun row =>
          row.packed ++ (List.range (maxSeqLen - row.seqLen)).map
            PackedToken.padding).flatten.length := by
        intro i hi
        have hlt := Jagged.lt_of_mem_nonzero hi
        rw [Jagged.length_flatten_of_forall hmask, List.length_map, seqLengths_eq, List.length_map,
          List.length_map] at hlt
        rw [Jagged.length_flatten_of_forall hpadded, List.length_map]
        exact hlt
      rw [if_neg Bool.false_ne_true, hmax, if_neg hsp, Py.ok_bind, policy.forward_eq, Py.ok_bind,
        if_neg Bool.false_ne_true,
        RouterTraceCapture.selectTokenRows_eq policy _ hvalid, hindex, ← List.flatMap_def]
      rfl

end MicroBatch.Fits

/-- What the ranks compute from their tokens is gathered in the order of the packed
tokens. -/
theorem gatherTensor_map {α : Type} (hrank : rank < spSize) (numLayers topK : Nat)
    (f : PackedToken → Nat → Nat → α) :
    gatherTensor (mb.padSize spSize) rank ((List.range spSize).map fun r =>
        ⟨numLayers, topK, (mb.localTokens spSize r).map f⟩) =
      .ok ⟨numLayers, topK, mb.packed.map f⟩ := by
  have hown : Py.getItem ((List.range spSize).map fun r => (⟨numLayers, topK,
      (mb.localTokens spSize r).map f⟩ : RouterTensor α)) rank =
        .ok ⟨numLayers, topK, (mb.localTokens spSize rank).map f⟩ := by
    refine Py.getItem_of_some ?_
    rw [List.getElem?_map, List.getElem?_range hrank, Option.map_some]
  rw [gatherTensor, hown, Py.ok_bind]
  by_cases hsp : 1 < spSize
  · have hparts : (List.range spSize).flatMap
        (fun r => (Shards.shard spSize (ulyssesPad spSize mb.packed).1 r).map f) =
          (ulyssesPad spSize mb.packed).1.map f :=
      Shards.allGather_map_shard (dvd_length_ulyssesPad hsp _) f
    have hlocal (r : Nat) : mb.localTokens spSize r =
        Shards.shard spSize (ulyssesPad spSize mb.packed).1 r := if_pos hsp
    simp only [MicroBatch.padSize, if_pos hsp, gatherOutputsAndUnpad, Py.dropEnd_unless_zero,
      List.map_map, Function.comp_def, hlocal, ← List.flatMap_def, hparts, Py.pure_eq_ok]
    rw [ulyssesPad_eq hsp, List.map_append, List.length_append, List.length_map, List.length_map,
      List.length_map, List.length_range, Nat.add_sub_cancel,
      List.take_left' (by rw [List.length_map])]
  · simp only [MicroBatch.padSize, MicroBatch.localTokens, if_neg hsp, Py.pure_eq_ok]

/-- A rank has a row for every old token only if there is one rank or at most one
token. -/
theorem packed_le_localTokens_iff (hrank : rank < spSize) :
    mb.packed.length ≤ (mb.localTokens spSize rank).length ↔
      spSize = 1 ∨ mb.packed.length ≤ 1 := by
  by_cases hsp : 1 < spSize
  · rw [length_localTokens hsp hrank, Shards.le_padded_div_iff (by omega)]
  · rw [MicroBatch.localTokens, if_neg hsp]
    omega

/-! ## What a step returns -/

/-- The traces of all ranks. -/
def MicroBatch.groupTraces (mb : MicroBatch σ) (spSize : Nat) (policy : Policy PackedToken σ) :
    List (List (LayerTrace σ)) :=
  (List.range spSize).map fun rank => policy.layerTraces (mb.localTokens spSize rank)

/-- The own traces of a policy on a micro-batch. -/
def MicroBatch.ownScores [Zero σ] (mb : MicroBatch σ) (policy : Policy PackedToken σ) :
    NestedTrace σ :=
  ⟨⟨policy.numLayers, policy.topK, mb.packed.map policy.tokenScores⟩, mb.seqLengths⟩

def MicroBatch.ownIndices (mb : MicroBatch σ) (policy : Policy PackedToken σ) : NestedTrace Nat :=
  ⟨⟨policy.numLayers, policy.topK, mb.packed.map policy.tokenIndices⟩, mb.seqLengths⟩

variable [Zero σ] {captureRouter computeRouterShift : Bool}

/-- A step up to the old traces. -/
theorem forwardStep_eq (h : mb.Fits spSize) (hrank : rank < spSize)
    (hcapture : routerFlag "_capture_router_trace_tensor" mb.captureRouterTraceTensor
      mb.captureRouterTrace = .ok captureRouter)
    (hshift : routerFlag "_compute_router_shift_tensor" mb.computeRouterShiftTensor
      mb.computeRouterShift = .ok computeRouterShift)
    (hflags : captureRouter ∨ computeRouterShift) :
    forwardStep spSize policy mb rank =
      if ¬ computeRouterShift then
        .ok ⟨mb.ownScores policy, mb.ownIndices policy, none, none, none⟩
      else
        match mb.oldRouterScoresNested, mb.oldRouterIndicesNested with
        | some oldScores, some oldIdx => do
            let currentParts ← (mb.groupTraces spSize policy).mapM fun layerTraces =>
              RouterTraceCapture.getCurrentScoresAtOldIndices layerTraces oldIdx.tensor
            let currentScores ← gatherTensor (mb.padSize spSize) rank currentParts
            let oldRouterScores ← oldScores.toPadded mb.layout
            let oldRouterIndices ← oldIdx.toPadded mb.layout
            let current ← NestedTrace.toPadded ⟨currentScores, mb.seqLengths⟩ mb.layout
            return ⟨mb.ownScores policy, mb.ownIndices policy, some current, some oldRouterScores,
              some oldRouterIndices⟩
        | _, _ => .error (.runtime ("RSPO current-policy capture is enabled but the V1/legacy " ++
            "batch is missing " ++ ", ".intercalate mb.missingOld)) := by
  obtain ⟨inputs, hinputs, hpad⟩ := h.prepareModelInputs rank
  have htraces : (List.range spSize).mapM (rankTraces spSize policy mb) =
      .ok (mb.groupTraces spSize policy) := Py.mapM_eq_ok fun r _ => h.rankTraces policy r
  have hparts : (mb.groupTraces spSize policy).mapM requireTrace =
      .ok ((List.range spSize).map fun r =>
        ((⟨policy.numLayers, policy.topK, (mb.localTokens spSize r).map policy.tokenScores⟩ :
          RouterTensor σ),
        (⟨policy.numLayers, policy.topK, (mb.localTokens spSize r).map policy.tokenIndices⟩ :
          RouterTensor Nat))) := by
    rw [MicroBatch.groupTraces, List.mapM_map]
    refine Py.mapM_eq_ok fun r _ => ?_
    rw [Function.comp_apply, requireTrace, RouterTraceCapture.getTrace_eq]
    rfl
  rw [forwardStep, hinputs, Py.ok_bind, hcapture, Py.ok_bind, hshift, Py.ok_bind,
    if_neg (not_not_intro hflags), htraces, Py.ok_bind, hparts, Py.ok_bind, hpad, List.map_map,
    List.map_map]
  simp only [Function.comp_def]
  rw [gatherTensor_map hrank, Py.ok_bind, gatherTensor_map hrank, Py.ok_bind]
  rfl

/-! ## The scores at the old experts -/

/-- There every rank maps its own tokens, as far as they are packed tokens. -/
theorem exists_scoresAt (hrows : spSize = 1 ∨ mb.packed.length ≤ 1)
    (experts : PackedToken → Nat → Nat → Nat) :
    ∃ f : PackedToken → Nat → Nat → σ,
      (∀ r < spSize, List.zipWith policy.scoresAt (mb.localTokens spSize r)
        (mb.packed.map experts) = (mb.localTokens spSize r).map f) ∧
      mb.packed.map f = mb.packed.map fun token => policy.scoresAt token (experts token) := by
  by_cases hsp : 1 < spSize
  · have hlength (r : Nat) (hr : r < spSize) : (mb.localTokens spSize r).length =
        (mb.packed.length + Shards.padSize spSize mb.packed.length) / spSize :=
      length_localTokens hsp hr
    cases hpacked : mb.packed with
    | nil =>
        refine ⟨fun token => policy.scoresAt token (experts token), fun r hr => ?_, rfl⟩
        have hempty := hlength r hr
        rw [hpacked, List.length_nil, Nat.zero_add,
          Nat.div_eq_of_lt (Shards.padSize_lt (by omega) 0)] at hempty
        rw [List.length_eq_zero_iff.mp hempty]
        rfl
    | cons token rest =>
        -- A rank above the first one has a padding where the first one has the token.
        obtain rfl : rest = [] := by
          rw [hpacked, List.length_cons] at hrows
          exact List.length_eq_zero_iff.mp (by omega)
        refine ⟨fun t => policy.scoresAt t (experts token), fun r hr => ?_, rfl⟩
        have hone := hlength r hr
        have hpad : Shards.padSize spSize 1 = spSize - 1 := by
          rw [Shards.padSize, Nat.mod_eq_of_lt hsp, Nat.mod_eq_of_lt (by omega)]
        rw [hpacked, List.length_singleton, hpad, Nat.add_sub_cancel' (by omega),
          Nat.div_self (by omega)] at hone
        obtain ⟨own, hown⟩ := List.length_eq_one_iff.mp hone
        rw [hown]
        rfl
  · refine ⟨fun token => policy.scoresAt token (experts token), fun r _ => ?_, rfl⟩
    rw [MicroBatch.localTokens, if_neg hsp, List.zipWith_map_right, List.zipWith_self]

/-- With the flag for the router shift and the old traces of the same tokens. -/
structure MicroBatch.Shifts (mb : MicroBatch σ) (policy : Policy PackedToken σ)
    (oldScores : PackedToken → Nat → Nat → σ) (experts : PackedToken → Nat → Nat → Nat) : Prop where
  capture : ∃ captureRouter, routerFlag "_capture_router_trace_tensor" mb.captureRouterTraceTensor
    mb.captureRouterTrace = .ok captureRouter
  shift : routerFlag "_compute_router_shift_tensor" mb.computeRouterShiftTensor
    mb.computeRouterShift = .ok true
  scores : mb.oldRouterScoresNested =
    some ⟨⟨policy.numLayers, policy.topK, mb.packed.map oldScores⟩, mb.seqLengths⟩
  indices : mb.oldRouterIndicesNested =
    some ⟨⟨policy.numLayers, policy.topK, mb.packed.map experts⟩, mb.seqLengths⟩
  experts_lt : ∀ token, ∀ l < policy.numLayers, ∀ k < policy.topK,
    experts token l k < policy.numExperts

variable {oldScores : PackedToken → Nat → Nat → σ} {experts : PackedToken → Nat → Nat → Nat}

/-- With one rank, or one token, the current scores are gathered at the experts of
the same tokens. -/
theorem forwardStep_shift (h : mb.Fits spSize) (hrank : rank < spSize)
    (hs : mb.Shifts policy oldScores experts) (hrows : spSize = 1 ∨ mb.packed.length ≤ 1) :
    forwardStep spSize policy mb rank = (do
      let oldRouterScores ← NestedTrace.toPadded
        ⟨⟨policy.numLayers, policy.topK, mb.packed.map oldScores⟩, mb.seqLengths⟩ mb.layout
      let oldRouterIndices ← NestedTrace.toPadded
        ⟨⟨policy.numLayers, policy.topK, mb.packed.map experts⟩, mb.seqLengths⟩ mb.layout
      let current ← NestedTrace.toPadded ⟨⟨policy.numLayers, policy.topK,
        mb.packed.map fun token => policy.scoresAt token (experts token)⟩, mb.seqLengths⟩ mb.layout
      return ⟨mb.ownScores policy, mb.ownIndices policy, some current, some oldRouterScores,
        some oldRouterIndices⟩) := by
  obtain ⟨captureRouter, hcapture⟩ := hs.capture
  obtain ⟨f, hlocal, hpacked⟩ := @exists_scoresAt _ mb spSize policy _ hrows experts
  have hparts : (mb.groupTraces spSize policy).mapM (fun layerTraces =>
      RouterTraceCapture.getCurrentScoresAtOldIndices layerTraces
        ⟨policy.numLayers, policy.topK, mb.packed.map experts⟩) =
      .ok ((List.range spSize).map fun r =>
        ⟨policy.numLayers, policy.topK, (mb.localTokens spSize r).map f⟩) := by
    rw [MicroBatch.groupTraces, List.mapM_map]
    refine Py.mapM_eq_ok fun r hr => ?_
    have hr := List.mem_range.mp hr
    rw [Function.comp_apply, RouterTraceCapture.getCurrentScores_ok policy _ rfl, hlocal r hr]
    · rw [List.length_map]
      exact (packed_le_localTokens_iff hr).mpr hrows
    · intro idx hidx l hl k hk
      obtain ⟨token, -, rfl⟩ := List.mem_map.mp hidx
      exact hs.experts_lt token l hl k hk
  rw [forwardStep_eq h hrank hcapture hs.shift (Or.inr rfl), if_neg (not_not_intro rfl), hs.scores,
    hs.indices]
  simp only [hparts, Py.ok_bind, gatherTensor_map hrank, hpacked]

/-- With more ranks and tokens the gather at the old experts raises. -/
theorem forwardStep_shift_error (h : mb.Fits spSize) (hrank : rank < spSize)
    (hs : mb.Shifts policy oldScores experts) (hrows : ¬ (spSize = 1 ∨ mb.packed.length ≤ 1)) :
    forwardStep spSize policy mb rank =
      .error (.runtime "Size does not match at dimension 0") := by
  obtain ⟨captureRouter, hcapture⟩ := hs.capture
  obtain ⟨others, rfl⟩ : ∃ others, spSize = others + 1 := ⟨spSize - 1, by have := h.sp_pos; omega⟩
  have hfirst : RouterTraceCapture.getCurrentScoresAtOldIndices
      (policy.layerTraces (mb.localTokens (others + 1) 0))
      ⟨policy.numLayers, policy.topK, mb.packed.map experts⟩ =
        .error (.runtime "Size does not match at dimension 0") := by
    refine RouterTraceCapture.getCurrentScores_error policy _ rfl ?_
    rw [List.length_map]
    exact Nat.not_le.mp fun hle => hrows ((packed_le_localTokens_iff (by omega)).mp hle)
  rw [forwardStep_eq h hrank hcapture hs.shift (Or.inr rfl), if_neg (not_not_intro rfl), hs.scores,
    hs.indices]
  simp only [MicroBatch.groupTraces, List.range_succ_eq_map, List.map_cons, List.mapM_cons, hfirst,
    Py.error_bind]

end Verl
