import Verl.PpoTrainer.OldRouterTraces

/-!
# Router traces are aligned

In the full-sequence store a row has one entry for each of its tokens, whatever
micro-batch it was computed in.  The actor update cuts the responses out of the
old and of the current traces with the same lengths, so that with one rank both
are about the same token.  With more ranks the hooks see a shard, while the old
indices are those of all tokens, and the gather raises.
-/

namespace Verl

variable {σ : Type}

/-! ## Runs of an engine -/

/-- Micro-batches that hold every row of the part once.  Without dynamic batching
they are chunks. -/
structure WorkerPart.Ok (part : WorkerPart) (useDynamicBsz : Bool) : Prop where
  perm : part.batchIdxList.flatten.Perm (List.range part.rows.length)
  nonempty : [] ∉ part.batchIdxList
  chunks : useDynamicBsz = false → part.batchIdxList.flatten = List.range part.rows.length

/-- Rows of the batch in any order, and their layout. -/
structure UpdateBatch.Ok (update : UpdateBatch) (batch : List BatchRow) : Prop where
  nonempty : update.rows ≠ []
  subset : ∀ row ∈ update.rows, row ∈ batch
  promptLens : update.layout.promptLens = update.rows.map fun row => row.prompt.length
  responseLens : update.layout.responseLens = update.rows.map fun row => row.response.length
  response_le : ∀ row ∈ update.rows, row.response.length ≤ update.layout.maxResponseLen

namespace RouterShiftRun

/-- The policies are of one model, and every sample has a prompt. -/
structure Ok (run : RouterShiftRun σ) : Prop where
  sp_pos : 1 ≤ run.spSize
  no_sp : run.useRemovePadding = false → run.spSize = 1
  numLayers : run.current.numLayers = run.old.numLayers
  topK : run.current.topK = run.old.topK
  numExperts : run.current.numExperts = run.old.numExperts
  keys_nodup : (run.batch.map BatchRow.key).Nodup
  prompt_ne : ∀ row ∈ run.batch, row.prompt ≠ []
  workers : ∀ part ∈ run.workers, part.Ok run.useDynamicBsz
  updates : ∀ update ∈ run.updates, update.Ok run.batch

end RouterShiftRun

/-! ## Rows of nested traces -/

/-- The trace of a row under a function of its tokens. -/
def BatchRow.traceRow {α : Type} (row : BatchRow) (numLayers topK : Nat)
    (f : PackedToken → Nat → Nat → α) : TraceRow α :=
  ⟨numLayers, topK, row.packed.map f⟩

theorem map_packed {α : Type} (mb : MicroBatch σ) (f : PackedToken → Nat → Nat → α) :
    mb.packed.map f = (mb.rows.map fun row => row.packed.map f).flatten := by
  rw [MicroBatch.packed, List.map_flatMap, List.flatMap_def]

theorem unbind_packed {α : Type} (mb : MicroBatch σ) (numLayers topK : Nat)
    (f : PackedToken → Nat → Nat → α) :
    NestedTrace.unbind ⟨⟨numLayers, topK, mb.packed.map f⟩, mb.seqLengths⟩ =
      mb.rows.map fun row => row.traceRow numLayers topK f := by
  have hlengths : mb.seqLengths = (mb.rows.map fun row => row.packed.map f).map List.length := by
    rw [seqLengths_eq, List.map_map, List.map_map]
    exact List.map_congr_left fun row _ => (List.length_map _).symm
  rw [NestedTrace.unbind, map_packed, hlengths, Jagged.rows_flatten, List.map_map]
  rfl

/-- The rows of a micro-batch are one nested tensor again. -/
theorem ofRows_traceRow {α : Type} (mb : MicroBatch σ) (hne : mb.rows ≠ []) (numLayers topK : Nat)
    (f : PackedToken → Nat → Nat → α) :
    NestedTrace.ofRows (mb.rows.map fun row => row.traceRow numLayers topK f) =
      .ok ⟨⟨numLayers, topK, mb.packed.map f⟩, mb.seqLengths⟩ := by
  have hvalues : (mb.rows.map fun row => row.traceRow numLayers topK f).flatMap TraceRow.tokens =
      mb.packed.map f := by
    rw [map_packed, List.flatMap_def, List.map_map]
    rfl
  have hlengths : (mb.rows.map fun row => row.traceRow numLayers topK f).map
      (fun row => row.tokens.length) = mb.seqLengths := by
    rw [seqLengths_eq, List.map_map, List.map_map]
    exact List.map_congr_left fun row _ => List.length_map _
  have hshapes : ∀ row ∈ mb.rows.map (fun row => row.traceRow numLayers topK f),
      row.numLayers = numLayers ∧ row.topK = topK := by
    intro row hrow
    obtain ⟨row, -, rfl⟩ := List.mem_map.mp hrow
    exact ⟨rfl, rfl⟩
  obtain ⟨row, rows, hrows⟩ := List.exists_cons_of_ne_nil hne
  rw [← hvalues, ← hlengths]
  rw [hrows, List.map_cons] at hshapes ⊢
  exact if_pos hshapes

/-! ## The old-policy pass -/

/-- What a worker writes. -/
theorem RouterStore.kvBatchPut_rows {α : Type} (column : Py.Dict String α) (rows : List BatchRow)
    (f : BatchRow → α) :
    RouterStore.kvBatchPut column (rows.map BatchRow.key) (rows.map f) =
      column.update (rows.map fun row => (row.key, f row)) := by
  rw [RouterStore.kvBatchPut, List.zip_map']

namespace RouterShiftRun

variable {run : RouterShiftRun σ}

/-- The row of the old scores. -/
def oldScoresRow [Zero σ] (run : RouterShiftRun σ) (row : BatchRow) : TraceRow σ :=
  row.traceRow run.old.numLayers run.old.topK run.old.tokenScores

/-- The row of the old indices. -/
def oldIndicesRow (run : RouterShiftRun σ) (row : BatchRow) : TraceRow Nat :=
  row.traceRow run.old.numLayers run.old.topK run.old.tokenIndices

/-- The sentinel reads as the flag. -/
theorem routerFlag_sentinel (run : RouterShiftRun σ) {rows : List BatchRow} (hne : rows ≠ [])
    (key : String) : routerFlag key (run.sentinel rows) true = .ok true := by
  obtain ⟨row, rest, rfl⟩ := List.exists_cons_of_ne_nil hne
  rw [sentinel]
  split
  · rw [List.length_cons, List.replicate_succ, routerFlag]
    exact if_pos fun other hother => List.eq_of_mem_replicate hother
  · rfl

/-- A step of the old-policy pass. -/
theorem Ok.captureStep [Zero σ] (h : run.Ok) {rows : List BatchRow} (hne : rows ≠ []) :
    forwardStep run.spSize run.old (run.captureBatch rows) 0 =
      .ok ⟨(run.captureBatch rows).ownScores run.old, (run.captureBatch rows).ownIndices run.old,
        none, none, none⟩ := by
  have hfits : (run.captureBatch rows).Fits run.spSize := ⟨h.sp_pos, h.no_sp, hne⟩
  refine (forwardStep_eq hfits h.sp_pos (run.routerFlag_sentinel hne _) rfl (Or.inl rfl)).trans ?_
  exact if_pos Bool.false_ne_true

/-- The rows come back in the order of the part. -/
theorem restoreRows_eq {part : WorkerPart} (hpart : part.Ok run.useDynamicBsz) {α : Type}
    (numLayers topK : Nat) (f : PackedToken → Nat → Nat → α) (default : BatchRow) :
    run.restoreRows part.batchIdxList (part.batchIdxList.map fun idxs =>
        ⟨⟨numLayers, topK,
        (run.captureBatch (idxs.map fun i => part.rows.getD i default)).packed.map
          f⟩, (run.captureBatch (idxs.map fun i => part.rows.getD i default)).seqLengths⟩) =
      .ok (part.rows.map fun row => row.traceRow numLayers topK f) := by
  have hunbind : (part.batchIdxList.map fun idxs => (⟨⟨numLayers, topK,
      (run.captureBatch (idxs.map fun i => part.rows.getD i default)).packed.map f⟩,
      (run.captureBatch (idxs.map fun i => part.rows.getD i default)).seqLengths⟩ :
        NestedTrace α)).flatMap NestedTrace.unbind =
      part.batchIdxList.flatMap fun idxs => idxs.map fun i =>
        (part.rows.getD i default).traceRow numLayers topK f := by
    rw [List.flatMap_map]
    refine List.flatMap_congr fun idxs _ => ?_
    rw [unbind_packed, captureBatch, List.map_map]
    rfl
  have hall : (List.range part.rows.length).map (fun i =>
      (part.rows.getD i default).traceRow numLayers topK f) =
        part.rows.map fun row => row.traceRow numLayers topK f := by
    conv_rhs => rw [← Py.map_getD_range part.rows default, List.map_map]
    rfl
  rw [restoreRows, hunbind]
  split
  · rw [restoreDynamicBatch_map hpart.perm, hall]
  next hchunks =>
    rw [List.flatMap_def, ← List.map_flatten, hpart.chunks (Bool.eq_false_iff.mpr hchunks), hall]

/-- The rows of the batch are told apart by their keys. -/
theorem Ok.key_inj (h : run.Ok) : ∀ row ∈ run.batch, ∀ row' ∈ run.batch,
    row.key = row'.key → row = row' := fun _ hrow _ hrow' heq =>
  List.inj_on_of_nodup_map h.keys_nodup hrow hrow' heq

/-- Rows of the batch are read back under their keys. -/
theorem Ok.kvBatchGet {α : Type} (h : run.Ok) (f : BatchRow → α) {rows : List BatchRow}
    (hrows : ∀ row ∈ rows, row ∈ run.batch) :
    RouterStore.kvBatchGet (Py.Dict.empty.update (run.batch.map fun row => (row.key, f row)))
      (rows.map BatchRow.key) = .ok (rows.map f) := by
  rw [RouterStore.kvBatchGet, List.mapM_map]
  refine Py.mapM_eq_ok fun row hrow => ?_
  rw [Function.comp_apply, Py.Dict.get?_update_map h.key_inj _ (hrows row hrow)]

variable [Zero σ]

theorem Ok.computeLogProb (h : run.Ok) {part : WorkerPart} (hpart : part.Ok run.useDynamicBsz) :
    run.computeLogProb part =
      .ok (part.rows.map run.oldScoresRow, part.rows.map run.oldIndicesRow) := by
  have hlt : ∀ idxs ∈ part.batchIdxList, ∀ i ∈ idxs, i < part.rows.length :=
    fun idxs hidxs i hi => List.mem_range.mp
      (hpart.perm.mem_iff.mp (List.mem_flatten.mpr ⟨idxs, hidxs, hi⟩))
  have hselect := mapM_indexSelectTensorDict hlt ⟨"", [], []⟩
  have hsteps : (part.batchIdxList.map fun idxs =>
      idxs.map fun i => part.rows.getD i ⟨"", [], []⟩).mapM (fun rows =>
        forwardStep run.spSize run.old (run.captureBatch rows) 0) =
      .ok ((part.batchIdxList.map fun idxs =>
        idxs.map fun i => part.rows.getD i ⟨"", [], []⟩).map fun rows =>
          ⟨(run.captureBatch rows).ownScores run.old, (run.captureBatch rows).ownIndices run.old,
            none, none, none⟩) := by
    refine Py.mapM_eq_ok fun rows hrows => h.captureStep ?_
    obtain ⟨idxs, hidxs, rfl⟩ := List.mem_map.mp hrows
    intro hnil
    obtain rfl := List.map_eq_nil_iff.mp hnil
    exact hpart.nonempty hidxs
  have hscores := restoreRows_eq hpart run.old.numLayers run.old.topK run.old.tokenScores
    ⟨"", [], []⟩
  have hindices := restoreRows_eq hpart run.old.numLayers run.old.topK run.old.tokenIndices
    ⟨"", [], []⟩
  rw [RouterShiftRun.computeLogProb, hselect, Py.ok_bind, hsteps, Py.ok_bind, List.map_map,
    List.filterMap_map, List.filterMap_map]
  simp only [Function.comp_def, List.filterMap_eq_map', MicroBatch.ownScores, MicroBatch.ownIndices]
  rw [hscores, Py.ok_bind, hindices, Py.ok_bind]
  rfl

theorem Ok.workerPass (h : run.Ok) {part : WorkerPart} (hpart : part.Ok run.useDynamicBsz)
    (store : RouterStore σ) :
    run.workerPass store part = .ok { store with
      routerScores := store.routerScores.update
        (part.rows.map fun row => (row.key, run.oldScoresRow row))
      routerIndices := store.routerIndices.update
        (part.rows.map fun row => (row.key, run.oldIndicesRow row)) } := by
  rw [RouterShiftRun.workerPass, h.computeLogProb hpart, Py.ok_bind, ← RouterStore.kvBatchPut_rows,
    ← RouterStore.kvBatchPut_rows]
  rfl

/-- After the workers the columns have an entry for every row. -/
theorem Ok.workers_foldlM (h : run.Ok) {parts : List WorkerPart}
    (hparts : ∀ part ∈ parts, part.Ok run.useDynamicBsz) (store : RouterStore σ) :
    parts.foldlM run.workerPass store = .ok { store with
      routerScores := store.routerScores.update
        ((parts.flatMap WorkerPart.rows).map fun row => (row.key, run.oldScoresRow row))
      routerIndices := store.routerIndices.update
        ((parts.flatMap WorkerPart.rows).map fun row => (row.key, run.oldIndicesRow row)) } := by
  induction parts generalizing store with
  | nil => rfl
  | cons part parts ih =>
      have hpart := hparts part List.mem_cons_self
      have hrest := ih fun part' hpart' => hparts part' (List.mem_cons_of_mem part hpart')
      rw [List.foldlM_cons, h.workerPass hpart, Py.ok_bind, hrest]
      simp only [List.flatMap_cons, List.map_append, Py.Dict.update_append]

/-- The store after the old-policy pass. -/
def oldStore (run : RouterShiftRun σ) : RouterStore σ where
  routerScores := Py.Dict.empty.update (run.batch.map fun row => (row.key, run.oldScoresRow row))
  routerIndices := Py.Dict.empty.update (run.batch.map fun row => (row.key, run.oldIndicesRow row))
  oldRouterScoresNested :=
    Py.Dict.empty.update (run.batch.map fun row => (row.key, run.oldScoresRow row))
  oldRouterIndicesNested :=
    Py.Dict.empty.update (run.batch.map fun row => (row.key, run.oldIndicesRow row))

/-- The old-policy pass stores the traces of every row, whatever the micro-batches and
the sequence parallelism. -/
theorem Ok.computeOldLogProb (h : run.Ok) : run.computeOldLogProb = .ok run.oldStore := by
  have hscores := h.kvBatchGet run.oldScoresRow fun row hrow => hrow
  have hindices := h.kvBatchGet run.oldIndicesRow fun row hrow => hrow
  rw [RouterShiftRun.computeOldLogProb, h.workers_foldlM h.workers, Py.ok_bind]
  simp only [RouterStore.empty]
  rw [← batch, hscores, Py.ok_bind, hindices, Py.ok_bind, RouterStore.kvBatchPut_rows,
    RouterStore.kvBatchPut_rows]
  rfl

end RouterShiftRun

/-! ## The response slices -/

/-- The entries of a row from the last token of its prompt on, then zeros. -/
def BatchRow.responseTrace {α : Type} [Zero α] (row : BatchRow) (f : PackedToken → α) (j : Nat) :
    α :=
  if j < row.response.length then f (.token row (row.prompt.length + j - 1)) else 0

theorem BatchRow.responseOf_packed {α : Type} [Zero α] (row : BatchRow)
    (f : PackedToken → α) (hprompt : row.prompt ≠ []) (width j : Nat) :
    (padTo width (responseOf row.prompt.length row.response.length (row.packed.map f))).getD j 0 =
      if j < width then row.responseTrace f j else 0 := by
  have hpos : 1 ≤ row.prompt.length := List.length_pos_iff.mpr hprompt
  have hlength : (row.packed.map f).length = row.prompt.length + row.response.length := by
    rw [List.length_map, length_packed, seqLen]
  split
  next hj =>
    rw [List.getD_eq_getElem?_getD, getElem?_padTo hj, Option.getD_some,
      getD_responseOf hpos hlength, responseTrace]
    split
    next hresponse =>
      have htoken : row.prompt.length + j - 1 < row.seqLen := by
        rw [seqLen]
        omega
      rw [packed, List.map_map, List.getD_eq_getElem?_getD, List.getElem?_map,
        List.getElem?_range htoken]
      rfl
    · rfl
  next hj =>
    rw [List.getD_eq_getElem?_getD, List.getElem?_eq_none, Option.getD_none]
    rw [length_padTo]
    omega

/-- The element of a padded trace. -/
def PaddedTrace.entry {α : Type} [Zero α] (trace : PaddedTrace α) (i j l k : Nat) : α :=
  ((trace.rows.getD i []).getD j 0) l k

/-- The responses of the rows of an update. -/
def UpdateBatch.responses {α : Type} [Zero α] (update : UpdateBatch) (numLayers topK : Nat)
    (f : PackedToken → Nat → Nat → α) : PaddedTrace α :=
  ⟨numLayers, topK, update.rows.map fun row => padTo update.layout.maxResponseLen
    (responseOf row.prompt.length row.response.length (row.packed.map f))⟩

namespace UpdateBatch.Ok

variable {update : UpdateBatch} {batch : List BatchRow}

theorem toPadded (h : update.Ok batch) (hprompts : ∀ row ∈ batch, row.prompt ≠ [])
    {mb : MicroBatch σ} (hrows : mb.rows = update.rows) {α : Type} [Zero α] (numLayers topK : Nat)
    (f : PackedToken → Nat → Nat → α) :
    NestedTrace.toPadded ⟨⟨numLayers, topK, mb.packed.map f⟩, mb.seqLengths⟩ update.layout =
      .ok (update.responses numLayers topK f) := by
  have hlength : ∀ row ∈ update.rows, (row.packed.map f).length =
      row.prompt.length + row.response.length := by
    intro row _
    rw [List.length_map, length_packed, BatchRow.seqLen]
  have hpos : ∀ row ∈ update.rows, row.prompt.length ≠ 0 := fun row hrow hzero =>
    hprompts row (h.subset row hrow) (List.length_eq_zero_iff.mp hzero)
  have hslices := sliceResponses_map h.nonempty hlength hpos update.layout.maxResponseLen
  rw [NestedTrace.toPadded, ResponseLayout.noPadding2Padding_eq, h.promptLens, h.responseLens,
    map_packed, hrows, hslices]
  rfl

theorem entry_responses (h : update.Ok batch) (hprompts : ∀ row ∈ batch, row.prompt ≠ [])
    {α : Type} [Zero α] (numLayers topK : Nat) (f : PackedToken → Nat → Nat → α) {i : Nat}
    {row : BatchRow} (hrow : update.rows[i]? = some row) (j l k : Nat) :
    (update.responses numLayers topK f).entry i j l k = row.responseTrace f j l k := by
  have hmem := List.mem_of_getElem? hrow
  have hle := h.response_le row hmem
  have hget : (update.rows.map fun row => padTo update.layout.maxResponseLen
      (responseOf row.prompt.length row.response.length (row.packed.map f))).getD i [] =
        padTo update.layout.maxResponseLen
          (responseOf row.prompt.length row.response.length (row.packed.map f)) := by
    rw [List.getD_eq_getElem?_getD, List.getElem?_map, hrow]
    rfl
  rw [PaddedTrace.entry, UpdateBatch.responses, hget,
    row.responseOf_packed f (hprompts row (h.subset row hmem))]
  split
  · rfl
  next hj => rw [BatchRow.responseTrace, if_neg (by omega)]

end UpdateBatch.Ok

/-! ## Alignment -/

/-- The scores of both policies at the old top-k experts of the token before each
response token, then zeros. -/
structure AlignedScores [Zero σ] (old current : Policy PackedToken σ) (update : UpdateBatch)
    (oldScores currentScores : PaddedTrace σ) : Prop where
  oldShape : oldScores.numLayers = old.numLayers ∧ oldScores.topK = old.topK ∧
    oldScores.rows.map List.length =
      List.replicate update.rows.length update.layout.maxResponseLen
  currentShape : currentScores.numLayers = old.numLayers ∧ currentScores.topK = old.topK ∧
    currentScores.rows.map List.length =
      List.replicate update.rows.length update.layout.maxResponseLen
  oldRouterScores : ∀ (i : Nat) row, update.rows[i]? = some row → ∀ j < row.response.length,
    ∀ l < old.numLayers, ∀ k < old.topK,
      oldScores.entry i j l k = old.score (.token row (row.prompt.length + j - 1)) l
        (old.topKIndices (.token row (row.prompt.length + j - 1)) l k)
  currentRouterScores : ∀ (i : Nat) row, update.rows[i]? = some row → ∀ j < row.response.length,
    ∀ l < old.numLayers, ∀ k < old.topK,
      currentScores.entry i j l k = current.score (.token row (row.prompt.length + j - 1)) l
        (old.topKIndices (.token row (row.prompt.length + j - 1)) l k)
  padding : ∀ (i : Nat) row, update.rows[i]? = some row → ∀ j, row.response.length ≤ j →
    ∀ l k, oldScores.entry i j l k = 0 ∧ currentScores.entry i j l k = 0

/-- What `ppo_loss` gets. -/
def TracesAligned [Zero σ] (old current : Policy PackedToken σ) (update : UpdateBatch)
    (out : ForwardOutput σ) : Prop :=
  ∃ oldScores currentScores, out.oldRouterScores = some oldScores ∧
    out.currentRouterScores = some currentScores ∧
      AlignedScores old current update oldScores currentScores

/-- No step of the run raises, and the traces are aligned on every rank. -/
def RouterShiftRun.Aligned [Zero σ] (run : RouterShiftRun σ) : Prop :=
  ∃ store, run.computeOldLogProb = .ok store ∧
    ∀ update ∈ run.updates, ∀ rank < run.spSize,
      ∃ out, run.updateStep store update rank = .ok out ∧
        TracesAligned run.old run.current update out

namespace RouterShiftRun

variable [Zero σ] {run : RouterShiftRun σ} {update : UpdateBatch}

/-- A micro-batch of the actor update, with the traces of the old-policy pass. -/
def oldShiftBatch (run : RouterShiftRun σ) (update : UpdateBatch) : MicroBatch σ :=
  run.shiftBatch update ((run.captureBatch update.rows).ownScores run.old)
    ((run.captureBatch update.rows).ownIndices run.old)

/-- Rows of the batch are nested again, in the order of the update. -/
theorem Ok.updateStep (h : run.Ok) (hupdate : update ∈ run.updates) (rank : Nat) :
    run.updateStep run.oldStore update rank =
      forwardStep run.spSize run.current (run.oldShiftBatch update) rank := by
  have hok := h.updates update hupdate
  have hscores := h.kvBatchGet run.oldScoresRow hok.subset
  have hindices := h.kvBatchGet run.oldIndicesRow hok.subset
  have hnested : NestedTrace.ofRows (update.rows.map run.oldScoresRow) =
      .ok ((run.captureBatch update.rows).ownScores run.old) :=
    ofRows_traceRow (run.captureBatch update.rows) hok.nonempty _ _ run.old.tokenScores
  have hnested' : NestedTrace.ofRows (update.rows.map run.oldIndicesRow) =
      .ok ((run.captureBatch update.rows).ownIndices run.old) :=
    ofRows_traceRow (run.captureBatch update.rows) hok.nonempty _ _ run.old.tokenIndices
  rw [RouterShiftRun.updateStep, oldStore, hscores, Py.ok_bind, hindices, Py.ok_bind, hnested,
    Py.ok_bind, hnested', Py.ok_bind]
  rfl

theorem Ok.shifts (h : run.Ok) (hupdate : update ∈ run.updates) :
    (run.oldShiftBatch update).Shifts run.current run.old.tokenScores run.old.tokenIndices where
  capture := ⟨false, rfl⟩
  shift := run.routerFlag_sentinel (h.updates update hupdate).nonempty _
  scores := by
    rw [h.numLayers, h.topK]
    rfl
  indices := by
    rw [h.numLayers, h.topK]
    rfl
  experts_lt := by
    intro token l hl k hk
    rw [h.numLayers] at hl
    rw [h.topK] at hk
    rw [Policy.tokenIndices, if_pos hl, h.numExperts]
    exact run.old.topKIndices_lt token l k hk

/-- Where the step returns, the slices are those of the claimed tokens. -/
theorem Ok.alignedScores (h : run.Ok) (hupdate : update ∈ run.updates) :
    AlignedScores run.old run.current update
      (update.responses run.current.numLayers run.current.topK run.old.tokenScores)
      (update.responses run.current.numLayers run.current.topK fun token =>
        run.current.scoresAt token (run.old.tokenIndices token)) := by
  have hok := h.updates update hupdate
  have hwidths (f : PackedToken → Nat → Nat → σ) :
      (update.responses run.current.numLayers run.current.topK f).rows.map List.length =
        List.replicate update.rows.length update.layout.maxResponseLen := by
    rw [UpdateBatch.responses, List.map_map, List.eq_replicate_iff, List.length_map]
    refine ⟨rfl, fun n hn => ?_⟩
    obtain ⟨row, -, rfl⟩ := List.mem_map.mp hn
    exact length_padTo _ _
  refine ⟨⟨h.numLayers, h.topK, hwidths _⟩, ⟨h.numLayers, h.topK, hwidths _⟩, ?_, ?_, ?_⟩
  · intro i row hrow j hj l hl k _
    rw [hok.entry_responses h.prompt_ne _ _ _ hrow, BatchRow.responseTrace, if_pos hj,
      Policy.tokenScores, if_pos hl]
  · intro i row hrow j hj l hl k _
    rw [hok.entry_responses h.prompt_ne _ _ _ hrow, BatchRow.responseTrace, if_pos hj,
      Policy.scoresAt, if_pos (h.numLayers ▸ hl), Policy.tokenIndices, if_pos hl]
  · intro i row hrow j hj l k
    rw [hok.entry_responses h.prompt_ne _ _ _ hrow, hok.entry_responses h.prompt_ne _ _ _ hrow,
      BatchRow.responseTrace, BatchRow.responseTrace, if_neg (Nat.not_lt.mpr hj),
      if_neg (Nat.not_lt.mpr hj)]
    exact ⟨rfl, rfl⟩

theorem length_packed_rows (run : RouterShiftRun σ) (update : UpdateBatch) :
    (run.oldShiftBatch update).packed.length = (update.rows.map BatchRow.seqLen).sum := by
  rw [MicroBatch.packed, List.length_flatMap]
  exact congrArg List.sum (List.map_congr_left fun row _ => length_packed row)

theorem Ok.fits (h : run.Ok) (hupdate : update ∈ run.updates) :
    (run.oldShiftBatch update).Fits run.spSize :=
  ⟨h.sp_pos, h.no_sp, (h.updates update hupdate).nonempty⟩

/-- On more than one rank a micro-batch of two tokens makes the gather raise. -/
theorem Ok.not_aligned (h : run.Ok) (hsp : run.spSize ≠ 1) (hupdate : update ∈ run.updates)
    (htokens : 1 < (update.rows.map BatchRow.seqLen).sum) : ¬ run.Aligned := by
  rintro ⟨store, hstore, hsteps⟩
  obtain rfl := Except.ok.inj (h.computeOldLogProb.symm.trans hstore)
  obtain ⟨out, hout, -⟩ := hsteps update hupdate 0 h.sp_pos
  have hrows : ¬ (run.spSize = 1 ∨ (run.oldShiftBatch update).packed.length ≤ 1) := by
    rw [length_packed_rows]
    omega
  rw [h.updateStep hupdate,
    forwardStep_shift_error (h.fits hupdate) h.sp_pos (h.shifts hupdate) hrows] at hout
  cases hout

/-- On one rank, or one token, every step returns the aligned slices. -/
theorem Ok.aligned (h : run.Ok)
    (hone : run.spSize = 1 ∨ ∀ update ∈ run.updates, (update.rows.map BatchRow.seqLen).sum ≤ 1) :
    run.Aligned := by
  refine ⟨run.oldStore, h.computeOldLogProb, fun update hupdate rank hrank => ?_⟩
  have hok := h.updates update hupdate
  have hrows : run.spSize = 1 ∨ (run.oldShiftBatch update).packed.length ≤ 1 := by
    rw [length_packed_rows]
    exact hone.imp_right fun hall => hall update hupdate
  have hbatch : (run.oldShiftBatch update).rows = update.rows := rfl
  have hlayout : (run.oldShiftBatch update).layout = update.layout := rfl
  have hpadded {α : Type} [Zero α] (f : PackedToken → Nat → Nat → α) :=
    hok.toPadded h.prompt_ne hbatch run.current.numLayers run.current.topK f
  rw [h.updateStep hupdate, forwardStep_shift (h.fits hupdate) hrank (h.shifts hupdate) hrows,
    hlayout, hpadded, Py.ok_bind, hpadded, Py.ok_bind, hpadded, Py.ok_bind]
  exact ⟨_, rfl, _, _, rfl, rfl, h.alignedScores hupdate⟩

/-- The traces are aligned exactly in the runs on one rank and in those of single
tokens. -/
theorem router_traces_aligned_iff (h : run.Ok) :
    run.Aligned ↔ run.spSize = 1 ∨
      ∀ update ∈ run.updates, (update.rows.map BatchRow.seqLen).sum ≤ 1 := by
  constructor
  · intro haligned
    by_contra hneither
    rw [not_or] at hneither
    obtain ⟨hsp, hlong⟩ := hneither
    push Not at hlong
    obtain ⟨update, hupdate, htokens⟩ := hlong
    exact h.not_aligned hsp hupdate htokens haligned
  · exact h.aligned

end RouterShiftRun

/-! ## Two samples -/

/-- A policy with one layer of two experts that always selects the first one. -/
def firstExpert (score : ℚ) : Policy PackedToken ℚ where
  kind := .qwen3MoeBlock
  toDtype := id
  numLayers := 1
  numExperts := 2
  topK := 1
  numLayers_pos := Nat.one_pos
  routerScores := fun _ _ expert => if expert = 0 then score else 1 - score
  topKIndices := fun _ _ _ => 0
  topKIndices_lt := fun _ _ _ _ => by decide

def twoSamples : List BatchRow := [⟨"first", [1], [2, 3]⟩, ⟨"second", [4, 5], [6]⟩]

/-- Two samples that the update takes in the other order. -/
def twoSampleRun (spSize : Nat) (useRemovePadding : Bool) : RouterShiftRun ℚ where
  spSize := spSize
  useRemovePadding := useRemovePadding
  useDynamicBsz := true
  sentinels := false
  old := firstExpert (1 / 2)
  current := firstExpert (2 / 3)
  workers := [⟨twoSamples, [[1], [0]]⟩]
  updates := [⟨twoSamples.reverse, .nested [[4, 5], [1]] [[6], [2, 3]] none⟩]

theorem twoSampleRun_ok {spSize : Nat} {useRemovePadding : Bool} (hpos : 1 ≤ spSize)
    (hsp : useRemovePadding = false → spSize = 1) : (twoSampleRun spSize useRemovePadding).Ok where
  sp_pos := hpos
  no_sp := hsp
  numLayers := rfl
  topK := rfl
  numExperts := rfl
  keys_nodup := show (twoSamples.map BatchRow.key).Nodup by decide
  prompt_ne := show ∀ row ∈ twoSamples, row.prompt ≠ [] by decide
  workers := by
    intro part hpart
    obtain rfl := List.mem_singleton.mp hpart
    exact ⟨by decide, by decide, fun h => by cases h⟩
  updates := by
    intro update hupdate
    obtain rfl := List.mem_singleton.mp hupdate
    exact ⟨by decide, fun row hrow => List.mem_reverse.mp hrow, rfl, rfl, by decide⟩

theorem router_traces_aligned_two : (twoSampleRun 1 false).Aligned :=
  (RouterShiftRun.router_traces_aligned_iff (twoSampleRun_ok (by decide) fun _ => rfl)).mpr
    (Or.inl rfl)

/-- On two ranks the six tokens have six old indices and a shard three rows. -/
theorem not_router_traces_aligned : (twoSampleRun 2 true).Ok ∧ ¬ (twoSampleRun 2 true).Aligned := by
  have hok : (twoSampleRun 2 true).Ok := twoSampleRun_ok (by decide) fun h => by cases h
  exact ⟨hok, hok.not_aligned (by decide) List.mem_cons_self (by decide)⟩

end Verl
