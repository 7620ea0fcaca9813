import Mathlib.Data.List.Sort
import Mathlib.Tactic.IntervalCases
import Verl.SingleController.AutoPadding
import Verl.SingleController.MetaInfo

/-!
# Dispatch and collect on a device mesh

The ranks of a mesh are grouped by their data-parallel rank.  `dispatch_nd_compute` gives
every rank the chunk of its data-parallel rank, and `collect_nd_compute` keeps the output of
one rank of each group.  The kept ranks are in the order of their data-parallel ranks, so the
concatenation of their outputs has the rows in the order of the arguments
(`meshCall_preserves_order`).

Two calls fail.  The number of threads is taken from the first positional argument, so a
call must have one; and the metrics of all workers must have the keys of the first one.
-/

namespace Verl

/-! ## The source functions -/

/-- A `DataProto` with its `meta_info`. -/
structure MetaProto (τ ν ι μ : Type) where
  data : DataProto τ ν
  metaInfo : MetaInfo ι μ

/-- What `DataProto.concat` returns, with its `meta_info`. -/
structure MergedProto (τ ν ι μ : Type) where
  data : DataProto τ ν
  metaInfo : MergedMetaInfo ι μ

section Source

variable {τ ν ι μ α ω : Type}

/-- `chunk`.  The `meta_info` is passed to every chunk. -/
def MetaProto.chunk (autoPadding : Bool) (chunks : Nat) (d : MetaProto τ ν ι μ) :
    Except Py.Error (List (MetaProto τ ν ι μ)) := do
  let parts ← d.data.chunk autoPadding chunks
  return parts.map fun part => ⟨part, d.metaInfo⟩

/-- `concat`. -/
def MetaProto.concat [DecidableEq ι] (data : List (MetaProto τ ν ι μ)) :
    Except Py.Error (MergedProto τ ν ι μ) := do
  let batch ← DataProto.catBatches (data.map fun d => d.data.batch)
  let nonTensorBatch ← DataProto.catNonTensors (data.map fun d => d.data.nonTensorBatch)
  let metaInfo ← mergeMetaInfo (data.map MetaProto.metaInfo)
  let merged ← DataProto.checkConsistency
    ⟨batch, nonTensorBatch, data.any fun d => d.data.autoPadding⟩
  return ⟨merged, metaInfo⟩

/-- The same for every value of `kwargs`. -/
def mapKwargs {β : Type} (f : α → Except Py.Error β) (kwargs : List (String × α)) :
    Except Py.Error (List (String × β)) :=
  kwargs.mapM fun kwarg => do
    let val ← f kwarg.2
    return (kwarg.1, val)

/-- `chunk` of an argument, in `_split_args_kwargs_data_proto`. -/
def splitArg (autoPadding : Bool) (chunks : Nat) (arg : MetaProto τ ν ι μ) :
    Except Py.Error (List (MetaProto τ ν ι μ)) := do
  let chunked ← arg.chunk autoPadding chunks
  Py.check (chunked.length = chunks) ""
  return chunked

/-- `parallel_put`.  It keeps the order, and a reference stands for its object. -/
def parallelPut (dataList : List α) : Except Py.Error (List α) := do
  Py.check (dataList ≠ []) "data_list must not be empty"
  return dataList

/-- The loop over the ranks for one argument. -/
def transformArg (dpRankMapping : List Nat) (dpSize worldSize : Nat) (arg : List α) :
    Except Py.Error (List α) := do
  Py.check (arg.length = dpSize) ""
  (List.range worldSize).mapM fun i => do
    let localDpRank ← Py.getItem dpRankMapping i
    Py.getItem arg localDpRank

/-- `dispatch_nd_compute`.  `len(args[0])` is taken before anything else. -/
def dispatchNdCompute (dpRankMapping : List Nat) (dpSize worldSize : Nat) (args : List (List α))
    (kwargs : List (String × List α)) :
    Except Py.Error (List (List α) × List (String × List α)) := do
  let _ ← Py.getItem args 0
  let args ← args.mapM parallelPut
  let kwargs ← mapKwargs parallelPut kwargs
  let allArgs ← args.mapM (transformArg dpRankMapping dpSize worldSize)
  let allKwargs ← mapKwargs (transformArg dpRankMapping dpSize worldSize) kwargs
  return (allArgs, allKwargs)

/-- `dispatch_nd_compute_dataproto`. -/
def dispatchNdComputeDataproto (autoPadding : Bool) (dpRankMapping : List Nat)
    (dpSize worldSize : Nat) (args : List (MetaProto τ ν ι μ))
    (kwargs : List (String × MetaProto τ ν ι μ)) :
    Except Py.Error (List (List (MetaProto τ ν ι μ)) × List (String × List (MetaProto τ ν ι μ))) :=
  do
  let splittedArgs ← args.mapM (splitArg autoPadding dpSize)
  let splittedKwargs ← mapKwargs (splitArg autoPadding dpSize) kwargs
  dispatchNdCompute dpRankMapping dpSize worldSize splittedArgs splittedKwargs

/-- `execute_all`: a rank gets its element of every argument. -/
def executeRanks (worldSize : Nat) (worker : Nat → List α → List (String × α) → ω)
    (allArgs : List (List α)) (allKwargs : List (String × List α)) : Except Py.Error (List ω) :=
  (List.range worldSize).mapM fun rank => do
    let args ← allArgs.mapM fun arg => Py.getItem arg rank
    let kwargs ← mapKwargs (fun kwarg => Py.getItem kwarg rank) allKwargs
    return worker rank args kwargs

/-- `collect_nd_compute`. -/
def collectNdCompute (collectMask : List Bool) (worldSize : Nat) (output : List ω) :
    Except Py.Error (List ω) := do
  Py.check (output.length = worldSize) ""
  let outputInDp ← (List.range worldSize).mapM fun globalRank => do
    let collectDpRank ← Py.getItem collectMask globalRank
    let out ← Py.getItem output globalRank
    return if collectDpRank then [out] else []
  return outputInDp.flatten

/-- `collect_nd_compute_dataproto`. -/
def collectNdComputeDataproto [DecidableEq ι] (collectMask : List Bool) (worldSize : Nat)
    (output : List (MetaProto τ ν ι μ)) : Except Py.Error (MergedProto τ ν ι μ) := do
  let output ← collectNdCompute collectMask worldSize output
  Py.check (output ≠ []) "expecting concatable output, but got element type empty"
  MetaProto.concat output

/-- A call: dispatch, execution on every rank, and collect. -/
def meshCall {τ' ν' ι' μ' : Type} [DecidableEq ι'] (autoPadding : Bool) (dpRankMapping : List Nat)
    (dpSize : Nat) (collectMask : List Bool) (worldSize : Nat)
    (worker : Nat → List (MetaProto τ ν ι μ) → List (String × MetaProto τ ν ι μ) →
      MetaProto τ' ν' ι' μ')
    (args : List (MetaProto τ ν ι μ)) (kwargs : List (String × MetaProto τ ν ι μ)) :
    Except Py.Error (MergedProto τ' ν' ι' μ') := do
  let (allArgs, allKwargs) ←
    dispatchNdComputeDataproto autoPadding dpRankMapping dpSize worldSize args kwargs
  let output ← executeRanks worldSize worker allArgs allKwargs
  collectNdComputeDataproto collectMask worldSize output

/-- The `WorkerGroup`, with what it has learnt of its meshes. -/
structure WorkerGroup where
  worldSize : Nat
  dispatchInfo : Py.Dict String (List Nat)
  collectInfo : Py.Dict String (List Bool)

/-- `if mesh_name not in info: info[mesh_name] = query(mesh_name)`, and the assertion on
its length. -/
def queryOnce (worldSize : Nat) (query : List α) (meshName : String)
    (info : Py.Dict String (List α)) : Except Py.Error (List α) × Py.Dict String (List α) :=
  match info.get? meshName with
  | some known => (.ok known, info)
  | none =>
      (if query.length = worldSize then .ok query else .error (.assertion ""),
        info.set meshName query)

/-- `max(dp_rank_mapping) + 1`. -/
def dpSizeOf (dpRankMapping : List Nat) : Except Py.Error Nat :=
  match dpRankMapping.max? with
  | some largest => .ok (largest + 1)
  | none => .error (.value "max() iterable argument is empty")

/-- A call with `dispatch_lazy_compute_data_proto` and `collect_lazy_compute_data_proto`, and
the worker group afterwards.  The two lists are what the workers have registered. -/
def lazyCall {τ' ν' ι' μ' : Type} [DecidableEq ι'] (autoPadding : Bool) (meshName : String)
    (registeredRanks : List Nat) (registeredMask : List Bool)
    (worker : Nat → List (MetaProto τ ν ι μ) → List (String × MetaProto τ ν ι μ) →
      MetaProto τ' ν' ι' μ')
    (args : List (MetaProto τ ν ι μ)) (kwargs : List (String × MetaProto τ ν ι μ))
    (group : WorkerGroup) : Except Py.Error (MergedProto τ' ν' ι' μ') × WorkerGroup :=
  let (dpRankMapping, dispatchInfo) :=
    queryOnce group.worldSize registeredRanks meshName group.dispatchInfo
  let group := { group with dispatchInfo }
  let output := do
    let dpRankMapping ← dpRankMapping
    let dpSize ← dpSizeOf dpRankMapping
    let (allArgs, allKwargs) ←
      dispatchNdComputeDataproto autoPadding dpRankMapping dpSize group.worldSize args kwargs
    executeRanks group.worldSize worker allArgs allKwargs
  match output with
  | .error e => (.error e, group)
  | .ok output =>
      let (collectMask, collectInfo) :=
        queryOnce group.worldSize registeredMask meshName group.collectInfo
      (collectMask >>= fun collectMask =>
        collectNdComputeDataproto collectMask group.worldSize output, { group with collectInfo })

end Source

/-! ## Meshes -/

/-- The ranks of a mesh as the engines register them: every data-parallel rank has a rank,
and one marked rank, and the marked ranks are in the order of their data-parallel ranks. -/
structure Mesh where
  worldSize : Nat
  dpSize : Nat
  dpRankMapping : List Nat
  collectMask : List Bool
  dpSize_pos : 0 < dpSize
  length_mapping : dpRankMapping.length = worldSize
  length_mask : collectMask.length = worldSize
  mem_mapping : ∀ r, r ∈ dpRankMapping ↔ r < dpSize
  marked : ∀ r < dpSize, ∃! rank : Nat, dpRankMapping[rank]? = some r ∧
    collectMask[rank]? = some true
  increasing : ∀ rank rank' r r' : Nat, rank < rank' →
    dpRankMapping[rank]? = some r → collectMask[rank]? = some true →
    dpRankMapping[rank']? = some r' → collectMask[rank']? = some true → r < r'

namespace Mesh

variable (mesh : Mesh)

/-- The data-parallel rank of a rank. -/
def dpRank (rank : Nat) : Nat := mesh.dpRankMapping.getD rank 0

/-- The ranks whose output is collected. -/
def markedRanks : List Nat :=
  (List.range mesh.worldSize).filter fun rank => mesh.collectMask.getD rank false

variable {mesh} {rank : Nat}

theorem getElem?_dpRankMapping (h : rank < mesh.worldSize) :
    mesh.dpRankMapping[rank]? = some (mesh.dpRank rank) := by
  have hlt : rank < mesh.dpRankMapping.length := mesh.length_mapping.symm ▸ h
  rw [dpRank, List.getD_eq_getElem?_getD, List.getElem?_eq_getElem hlt, Option.getD_some]

theorem dpRank_lt (h : rank < mesh.worldSize) : mesh.dpRank rank < mesh.dpSize :=
  (mesh.mem_mapping _).mp (List.mem_of_getElem? (getElem?_dpRankMapping h))

theorem mem_markedRanks :
    rank ∈ mesh.markedRanks ↔ rank < mesh.worldSize ∧ mesh.collectMask[rank]? = some true := by
  rw [markedRanks, List.mem_filter, List.mem_range]
  refine and_congr_right fun h => ?_
  have hlt : rank < mesh.collectMask.length := mesh.length_mask.symm ▸ h
  rw [List.getD_eq_getElem?_getD, List.getElem?_eq_getElem hlt, Option.getD_some, Option.some_inj]

/-- The marked ranks have the data-parallel ranks in their order. -/
theorem map_dpRank_markedRanks : mesh.markedRanks.map mesh.dpRank = List.range mesh.dpSize := by
  have hincreasing : (mesh.markedRanks.map mesh.dpRank).Pairwise (· < ·) := by
    rw [List.pairwise_map]
    refine List.Pairwise.imp_of_mem (fun {rank rank'} hrank hrank' hlt => ?_)
      (List.pairwise_lt_range.filter _)
    obtain ⟨hin, hmark⟩ := mem_markedRanks.mp hrank
    obtain ⟨hin', hmark'⟩ := mem_markedRanks.mp hrank'
    exact mesh.increasing rank rank' _ _ hlt (getElem?_dpRankMapping hin) hmark
      (getElem?_dpRankMapping hin') hmark'
  refine hincreasing.eq_of_mem_iff List.pairwise_lt_range fun r => ?_
  rw [List.mem_range, List.mem_map]
  constructor
  · rintro ⟨rank, hrank, rfl⟩
    exact dpRank_lt (mem_markedRanks.mp hrank).1
  · intro hr
    obtain ⟨rank, ⟨hrank, hmark⟩, -⟩ := mesh.marked r hr
    have hlt : rank < mesh.worldSize :=
      mesh.length_mapping ▸ (List.getElem?_eq_some_iff.mp hrank).1
    refine ⟨rank, mem_markedRanks.mpr ⟨hlt, hmark⟩, ?_⟩
    exact Option.some.inj ((getElem?_dpRankMapping hlt).symm.trans hrank)

theorem dpSizeOf_dpRankMapping : dpSizeOf mesh.dpRankMapping = .ok mesh.dpSize := by
  have hpos := mesh.dpSize_pos
  have hlargest : mesh.dpRankMapping.max? = some (mesh.dpSize - 1) := by
    refine List.max?_eq_some_iff.mpr ⟨(mesh.mem_mapping _).mpr (by omega), fun r hr => ?_⟩
    have hlt := (mesh.mem_mapping r).mp hr
    omega
  rw [dpSizeOf, hlargest]
  exact congrArg Except.ok (Nat.sub_add_cancel hpos)

end Mesh

/-! ## Dispatch -/

section Dispatch

variable {τ ν ι μ α ω : Type} {mesh : Mesh} {autoPadding : Bool} {size : Nat}

/-- Chunk `r` of `size` rows. -/
def MetaProto.part (size r : Nat) (d : MetaProto τ ν ι μ) : MetaProto τ ν ι μ :=
  ⟨d.data.part size r, d.metaInfo⟩

theorem mapKwargs_eq_ok {β γ : Type} {f : β → Except Py.Error γ} {g : α → β} {h : α → γ}
    {kwargs : List (String × α)} (hok : ∀ e ∈ kwargs, f (g e.2) = .ok (h e.2)) :
    mapKwargs f (kwargs.map fun e => (e.1, g e.2)) = .ok (kwargs.map fun e => (e.1, h e.2)) := by
  refine Py.mapM_map_eq_ok fun e he => ?_
  rw [hok e he]
  rfl

theorem splitArg_eq {arg : MetaProto τ ν ι μ} (h : arg.data.Aligned (mesh.dpSize * size)) :
    splitArg autoPadding mesh.dpSize arg =
      .ok ((List.range mesh.dpSize).map fun r => arg.part size r) := by
  have hchunk : arg.chunk autoPadding mesh.dpSize =
      .ok ((List.range mesh.dpSize).map fun r => arg.part size r) := by
    rw [MetaProto.chunk, DataProto.chunk_eq h mesh.dpSize_pos, Py.ok_bind, Py.pure_eq_ok,
      List.map_map]
    rfl
  have hlength : ((List.range mesh.dpSize).map fun r => arg.part size r).length = mesh.dpSize := by
    rw [List.length_map, List.length_range]
  rw [splitArg, hchunk, Py.ok_bind, Py.check_of_true hlength]
  rfl

theorem parallelPut_range (part : Nat → α) :
    parallelPut ((List.range mesh.dpSize).map part) = .ok ((List.range mesh.dpSize).map part) := by
  have hne : (List.range mesh.dpSize).map part ≠ [] := by
    rw [ne_eq, List.map_eq_nil_iff, List.range_eq_nil]
    exact mesh.dpSize_pos.ne'
  rw [parallelPut, Py.check_of_true hne]
  rfl

/-- A rank gets the chunk of its data-parallel rank. -/
theorem transformArg_eq (part : Nat → α) :
    transformArg mesh.dpRankMapping mesh.dpSize mesh.worldSize
        ((List.range mesh.dpSize).map part) =
      .ok ((List.range mesh.worldSize).map fun rank => part (mesh.dpRank rank)) := by
  have hlength : ((List.range mesh.dpSize).map part).length = mesh.dpSize := by
    rw [List.length_map, List.length_range]
  rw [transformArg, Py.check_of_true hlength, Py.ok_bind]
  refine Py.mapM_eq_ok fun rank hrank => ?_
  have hrank := List.mem_range.mp hrank
  rw [Py.getItem_of_some (Mesh.getElem?_dpRankMapping hrank), Py.ok_bind]
  refine Py.getItem_of_some ?_
  rw [List.getElem?_map, List.getElem?_range (Mesh.dpRank_lt hrank)]
  rfl

theorem dispatchNdCompute_eq {positional : List (Nat → α)}
    {byKeyword : List (String × (Nat → α))} (hne : positional ≠ []) :
    dispatchNdCompute mesh.dpRankMapping mesh.dpSize mesh.worldSize
        (positional.map fun part => (List.range mesh.dpSize).map part)
        (byKeyword.map fun e => (e.1, (List.range mesh.dpSize).map e.2)) =
      .ok (positional.map fun part =>
          (List.range mesh.worldSize).map fun rank => part (mesh.dpRank rank),
        byKeyword.map fun e =>
          (e.1, (List.range mesh.worldSize).map fun rank => e.2 (mesh.dpRank rank))) := by
  have hputArgs := @Py.mapM_map_eq_ok _ _ _ parallelPut
    (fun part : Nat → α => (List.range mesh.dpSize).map part) _ positional
    fun part _ => parallelPut_range part
  have hputKwargs := @mapKwargs_eq_ok _ _ _ parallelPut
    (fun part : Nat → α => (List.range mesh.dpSize).map part)
    (fun part => (List.range mesh.dpSize).map part) byKeyword fun e _ => parallelPut_range e.2
  have hargs := @Py.mapM_map_eq_ok _ _ _
    (transformArg mesh.dpRankMapping mesh.dpSize mesh.worldSize)
    (fun part : Nat → α => (List.range mesh.dpSize).map part) _ positional
    fun part _ => transformArg_eq part
  have hkwargs := @mapKwargs_eq_ok _ _ _
    (transformArg mesh.dpRankMapping mesh.dpSize mesh.worldSize)
    (fun part : Nat → α => (List.range mesh.dpSize).map part)
    (fun part => (List.range mesh.worldSize).map fun rank => part (mesh.dpRank rank)) byKeyword
    fun e _ => transformArg_eq e.2
  obtain ⟨first, rest, hcons⟩ := List.exists_cons_of_ne_nil hne
  have hfirst : Py.getItem (positional.map fun part => (List.range mesh.dpSize).map part) 0 =
      .ok ((List.range mesh.dpSize).map first) := Py.getItem_of_some (by rw [hcons]; rfl)
  rw [dispatchNdCompute, hfirst, Py.ok_bind, hputArgs, Py.ok_bind, hputKwargs, Py.ok_bind, hargs,
    Py.ok_bind, hkwargs, Py.ok_bind]
  rfl

/-- The chunks of every argument, for every rank. -/
theorem dispatchNdComputeDataproto_eq {args : List (MetaProto τ ν ι μ)}
    {kwargs : List (String × MetaProto τ ν ι μ)} (hne : args ≠ [])
    (hargs : ∀ arg ∈ args ++ kwargs.map Prod.snd, arg.data.Aligned (mesh.dpSize * size)) :
    dispatchNdComputeDataproto autoPadding mesh.dpRankMapping mesh.dpSize mesh.worldSize args
        kwargs =
      .ok (args.map fun arg =>
          (List.range mesh.worldSize).map fun rank => arg.part size (mesh.dpRank rank),
        kwargs.map fun kwarg => (kwarg.1,
          (List.range mesh.worldSize).map fun rank => kwarg.2.part size (mesh.dpRank rank))) := by
  have hsplitArgs : args.mapM (splitArg autoPadding mesh.dpSize) =
      .ok (args.map fun arg => (List.range mesh.dpSize).map fun r => arg.part size r) :=
    Py.mapM_eq_ok fun arg harg => splitArg_eq (hargs arg (List.mem_append_left _ harg))
  have hsplitKwargs := @mapKwargs_eq_ok _ _ _ (splitArg autoPadding mesh.dpSize) (fun arg => arg)
    (fun arg => (List.range mesh.dpSize).map fun r => arg.part size r) kwargs
    fun kwarg hkwarg =>
      splitArg_eq (hargs kwarg.2 (List.mem_append_right _ (List.mem_map_of_mem hkwarg)))
  have hpositional : (args.map fun arg r => arg.part size r) ≠ [] := by
    rwa [ne_eq, List.map_eq_nil_iff]
  have hdispatch := @dispatchNdCompute_eq _ mesh _
    (kwargs.map fun kwarg => (kwarg.1, fun r => kwarg.2.part size r)) hpositional
  simp only [List.map_map, Function.comp_def] at hdispatch
  rw [List.map_id'] at hsplitKwargs
  rw [dispatchNdComputeDataproto, hsplitArgs, Py.ok_bind, hsplitKwargs, Py.ok_bind]
  exact hdispatch

/-! ## Execution and collection -/

/-- Every rank gets its element of every argument. -/
theorem executeRanks_eq {worker : Nat → List α → List (String × α) → ω} {worldSize : Nat}
    (positional : List (Nat → α)) (byKeyword : List (String × (Nat → α))) :
    executeRanks worldSize worker (positional.map fun part => (List.range worldSize).map part)
        (byKeyword.map fun e => (e.1, (List.range worldSize).map e.2)) =
      .ok ((List.range worldSize).map fun rank => worker rank
        (positional.map fun part => part rank) (byKeyword.map fun e => (e.1, e.2 rank))) := by
  refine Py.mapM_eq_ok fun rank hrank => ?_
  have hgetItem (part : Nat → α) :
      Py.getItem ((List.range worldSize).map part) rank = .ok (part rank) := by
    refine Py.getItem_of_some ?_
    rw [List.getElem?_map, List.getElem?_range (List.mem_range.mp hrank)]
    rfl
  have hargs := @Py.mapM_map_eq_ok _ _ _ (fun arg => Py.getItem arg rank)
    (fun part : Nat → α => (List.range worldSize).map part) _ positional fun part _ => hgetItem part
  have hkwargs := @mapKwargs_eq_ok _ _ _ (fun kwarg => Py.getItem kwarg rank)
    (fun part : Nat → α => (List.range worldSize).map part) (fun part => part rank) byKeyword
    fun e _ => hgetItem e.2
  rw [hargs, Py.ok_bind, hkwargs, Py.ok_bind]
  rfl

/-- One output for every data-parallel rank, in their order. -/
theorem collectNdCompute_eq (output : Nat → ω) :
    collectNdCompute mesh.collectMask mesh.worldSize
        ((List.range mesh.worldSize).map fun rank => output (mesh.dpRank rank)) =
      .ok ((List.range mesh.dpSize).map output) := by
  have hlength : ((List.range mesh.worldSize).map fun rank =>
      output (mesh.dpRank rank)).length = mesh.worldSize := by
    rw [List.length_map, List.length_range]
  have hfilter (ranks : List Nat) : (ranks.map fun rank =>
      if mesh.collectMask.getD rank false then [output (mesh.dpRank rank)] else []).flatten =
        (ranks.filter fun rank => mesh.collectMask.getD rank false).map fun rank =>
          output (mesh.dpRank rank) := by
    induction ranks with
    | nil => rfl
    | cons rank ranks ih =>
        rw [List.map_cons, List.flatten_cons, ih, List.filter_cons]
        split
        · rfl
        · rfl
  have hloop := @Py.mapM_eq_ok _ _ (fun globalRank => do
      let collectDpRank ← Py.getItem mesh.collectMask globalRank
      let out ← Py.getItem ((List.range mesh.worldSize).map fun rank =>
        output (mesh.dpRank rank)) globalRank
      return if collectDpRank then [out] else [])
    (fun rank => if mesh.collectMask.getD rank false then [output (mesh.dpRank rank)] else [])
    (List.range mesh.worldSize) fun rank hrank => by
      have hrank := List.mem_range.mp hrank
      have hmask := Py.getItem_of_lt (mesh.length_mask.symm ▸ hrank) false
      rw [hmask, Py.ok_bind, Py.getItem_of_some (x := output (mesh.dpRank rank))]
      · rfl
      · rw [List.getElem?_map, List.getElem?_range hrank]
        rfl
  rw [collectNdCompute, Py.check_of_true hlength, Py.ok_bind, hloop, Py.ok_bind, hfilter,
    ← Mesh.map_dpRank_markedRanks, List.map_map]
  rfl

end Dispatch

/-! ## Calls -/

/-- A row-wise worker function.  The ranks of a group compute the same: the rows of the
result from the rows of the arguments, and any metrics. -/
structure RowWorker (τ ν ι μ τ' ν' ι' μ' : Type) where
  rows : List (MetaInfo ι μ) → List (String × MetaInfo ι μ) → RowFn τ ν τ' ν'
  others : List (MetaInfo ι μ) → List (String × MetaInfo ι μ) → Py.Dict String ι'
  metrics : Nat → List (MetaProto τ ν ι μ) → List (String × MetaProto τ ν ι μ) → Metrics μ'

section Calls

variable {τ ν ι μ τ' ν' ι' μ' : Type} {mesh : Mesh} {autoPadding : Bool} {size : Nat}

/-- The tensors and objects of the arguments. -/
def dataOf (kwargs : List (String × MetaProto τ ν ι μ)) : List (String × DataProto τ ν) :=
  kwargs.map fun e => (e.1, e.2.data)

/-- The `meta_info` of the arguments. -/
def metaOf (kwargs : List (String × MetaProto τ ν ι μ)) : List (String × MetaInfo ι μ) :=
  kwargs.map fun e => (e.1, e.2.metaInfo)

/-- The worker function of a group. -/
def RowWorker.call (worker : RowWorker τ ν ι μ τ' ν' ι' μ') (dpRank : Nat)
    (args : List (MetaProto τ ν ι μ)) (kwargs : List (String × MetaProto τ ν ι μ)) :
    MetaProto τ' ν' ι' μ' where
  data := (worker.rows (args.map MetaProto.metaInfo) (metaOf kwargs)).call
    (args.map MetaProto.data) (dataOf kwargs)
  metaInfo := ⟨worker.others (args.map MetaProto.metaInfo) (metaOf kwargs),
    worker.metrics dpRank args kwargs⟩

/-- What a group computes from its chunks. -/
def RowWorker.groupOutput (worker : RowWorker τ ν ι μ τ' ν' ι' μ') (size : Nat)
    (args : List (MetaProto τ ν ι μ)) (kwargs : List (String × MetaProto τ ν ι μ)) (r : Nat) :
    MetaProto τ' ν' ι' μ' :=
  worker.call r (args.map fun arg => arg.part size r)
    (kwargs.map fun kwarg => (kwarg.1, kwarg.2.part size r))

/-- The metrics of all groups, in the order of their data-parallel ranks. -/
def RowWorker.groupMetrics (worker : RowWorker τ ν ι μ τ' ν' ι' μ') (dpSize size : Nat)
    (args : List (MetaProto τ ν ι μ)) (kwargs : List (String × MetaProto τ ν ι μ)) :
    List (Py.Dict String μ') :=
  (List.range dpSize).flatMap fun r =>
    (worker.groupOutput size args kwargs r).metaInfo.metrics.dicts

/-- Every rank has received the chunk of its data-parallel rank of an argument. -/
def Receives (mesh : Mesh) (size : Nat) (arg : MetaProto τ ν ι μ)
    (received : List (MetaProto τ ν ι μ)) : Prop :=
  ∀ rank r : Nat, mesh.dpRankMapping[rank]? = some r →
    ∃ chunk : MetaProto τ ν ι μ, received[rank]? = some chunk ∧ chunk.metaInfo = arg.metaInfo ∧
      chunk.data.Aligned size ∧ ∀ j < size, chunk.data.row j = arg.data.row (r * size + j)

/-- A worker group that has learnt nothing else of the mesh than what is registered. -/
structure KnowsMesh (mesh : Mesh) (meshName : String) (group : WorkerGroup) : Prop where
  worldSize : group.worldSize = mesh.worldSize
  dispatchInfo : ∀ known ∈ group.dispatchInfo.get? meshName, known = mesh.dpRankMapping
  collectInfo : ∀ known ∈ group.collectInfo.get? meshName, known = mesh.collectMask

/-- What a call on `dpSize * size` rows promises: the chunks that the ranks get, the result
with all rows in their order and all metrics in the order of the groups, and the same through
the lazy functions. -/
structure PreservesOrder [DecidableEq ι'] (mesh : Mesh) (autoPadding : Bool) (size : Nat)
    (worker : RowWorker τ ν ι μ τ' ν' ι' μ') (args : List (MetaProto τ ν ι μ))
    (kwargs : List (String × MetaProto τ ν ι μ)) : Prop where
  received : ∃ allArgs allKwargs,
    dispatchNdComputeDataproto autoPadding mesh.dpRankMapping mesh.dpSize mesh.worldSize args
      kwargs = .ok (allArgs, allKwargs) ∧
    List.Forall₂ (Receives mesh size) args allArgs ∧
    List.Forall₂ (fun kwarg kwarg' => kwarg'.1 = kwarg.1 ∧ Receives mesh size kwarg.2 kwarg'.2)
      kwargs allKwargs
  collected : ∃ merged,
    meshCall autoPadding mesh.dpRankMapping mesh.dpSize mesh.collectMask mesh.worldSize
      (fun rank => worker.call (mesh.dpRank rank)) args kwargs = .ok merged ∧
    merged.data = (worker.rows (args.map MetaProto.metaInfo) (metaOf kwargs)).apply
      ((List.range (mesh.dpSize * size)).map (rowArgs (args.map MetaProto.data) (dataOf kwargs))) ∧
    ∀ k, merged.metaInfo.metric k =
      (worker.groupMetrics mesh.dpSize size args kwargs).filterMap fun metrics => metrics.get? k
  lazily : ∀ meshName group, KnowsMesh mesh meshName group →
    ∃ group', lazyCall autoPadding meshName mesh.dpRankMapping mesh.collectMask
        (fun rank => worker.call (mesh.dpRank rank)) args kwargs group =
      (meshCall autoPadding mesh.dpRankMapping mesh.dpSize mesh.collectMask mesh.worldSize
        (fun rank => worker.call (mesh.dpRank rank)) args kwargs, group') ∧
      KnowsMesh mesh meshName group'

theorem receives_part {arg : MetaProto τ ν ι μ} (h : arg.data.Aligned (mesh.dpSize * size)) :
    Receives mesh size arg
      ((List.range mesh.worldSize).map fun rank => arg.part size (mesh.dpRank rank)) := by
  intro rank r hrank
  have hlt : rank < mesh.worldSize := mesh.length_mapping ▸ (List.getElem?_eq_some_iff.mp hrank).1
  obtain rfl : mesh.dpRank rank = r :=
    Option.some.inj ((Mesh.getElem?_dpRankMapping hlt).symm.trans hrank)
  refine ⟨arg.part size (mesh.dpRank rank), ?_, rfl, h.part (Mesh.dpRank_lt hlt),
    fun j hj => h.row_part hj⟩
  rw [List.getElem?_map, List.getElem?_range hlt]
  rfl

theorem map_metaInfo_part (args : List (MetaProto τ ν ι μ)) (r : Nat) :
    (args.map fun arg => arg.part size r).map MetaProto.metaInfo =
      args.map MetaProto.metaInfo := by
  rw [List.map_map]
  rfl

theorem metaOf_part (kwargs : List (String × MetaProto τ ν ι μ)) (r : Nat) :
    metaOf (kwargs.map fun kwarg => (kwarg.1, kwarg.2.part size r)) = metaOf kwargs := by
  rw [metaOf, List.map_map]
  rfl

/-- The groups agree on the other keys. -/
theorem others_groupOutput {worker : RowWorker τ ν ι μ τ' ν' ι' μ'}
    (args : List (MetaProto τ ν ι μ)) (kwargs : List (String × MetaProto τ ν ι μ)) (r : Nat) :
    (worker.groupOutput size args kwargs r).metaInfo.others =
      worker.others (args.map MetaProto.metaInfo) (metaOf kwargs) := by
  rw [RowWorker.groupOutput, RowWorker.call, map_metaInfo_part, metaOf_part]

/-- The rows of a group are its chunk of the rows. -/
theorem data_groupOutput {worker : RowWorker τ ν ι μ τ' ν' ι' μ'} {args : List (MetaProto τ ν ι μ)}
    {kwargs : List (String × MetaProto τ ν ι μ)} {r : Nat} (hne : args ≠ [])
    (hargs : ∀ arg ∈ args ++ kwargs.map Prod.snd, arg.data.Aligned (mesh.dpSize * size))
    (hr : r < mesh.dpSize) :
    (worker.groupOutput size args kwargs r).data =
      (worker.rows (args.map MetaProto.metaInfo) (metaOf kwargs)).apply
        ((List.range size).map fun j =>
          rowArgs (args.map MetaProto.data) (dataOf kwargs) (r * size + j)) := by
  have hlen : lenOf ((args.map fun arg => arg.part size r).map MetaProto.data)
      (dataOf (kwargs.map fun kwarg => (kwarg.1, kwarg.2.part size r))) = size := by
    obtain ⟨first, rest, rfl⟩ := List.exists_cons_of_ne_nil hne
    exact ((hargs first List.mem_cons_self).part hr).len
  rw [RowWorker.groupOutput, RowWorker.call, map_metaInfo_part, metaOf_part]
  change RowFn.call _ _ _ = _
  rw [RowFn.call, hlen]
  refine congrArg _ (List.map_congr_left fun j hj => ?_)
  have hj := List.mem_range.mp hj
  rw [rowArgs, rowArgs, Prod.mk.injEq, dataOf, dataOf]
  simp only [List.map_map]
  refine ⟨List.map_congr_left fun arg harg => ?_, List.map_congr_left fun kwarg hkwarg => ?_⟩
  · exact (hargs arg (List.mem_append_left _ harg)).row_part hj
  · have hrow := (hargs kwarg.2
      (List.mem_append_right _ (List.mem_map_of_mem hkwarg))).row_part (i := r) hj
    exact congrArg (Prod.mk kwarg.1) hrow

/-- A concatenation, from its data and its `meta_info`. -/
theorem MetaProto.concat_of [DecidableEq ι] {data : List (MetaProto τ ν ι μ)}
    {merged : DataProto τ ν} {metaInfo : MergedMetaInfo ι μ}
    (hdata : DataProto.concat (data.map MetaProto.data) = .ok merged)
    (hmeta : mergeMetaInfo (data.map MetaProto.metaInfo) = .ok metaInfo) :
    MetaProto.concat data = .ok ⟨merged, metaInfo⟩ := by
  rw [DataProto.concat] at hdata
  obtain ⟨batch, hbatch, hdata⟩ := Py.bind_eq_ok.mp hdata
  obtain ⟨nonTensorBatch, hnonTensors, hdata⟩ := Py.bind_eq_ok.mp hdata
  rw [List.map_map] at hbatch hnonTensors
  rw [List.any_map] at hdata
  rw [MetaProto.concat]
  refine Py.bind_eq_ok.mpr ⟨batch, hbatch, Py.bind_eq_ok.mpr ⟨nonTensorBatch, hnonTensors, ?_⟩⟩
  rw [hmeta, Py.ok_bind]
  exact Py.bind_eq_ok.mpr ⟨merged, hdata, rfl⟩

/-- A query of what is registered. -/
theorem queryOnce_registered {α : Type} {worldSize : Nat} {query : List α} {meshName : String}
    {info : Py.Dict String (List α)} (hlength : query.length = worldSize)
    (hinfo : ∀ known ∈ info.get? meshName, known = query) :
    ∃ info', queryOnce worldSize query meshName info = (.ok query, info') ∧
      ∀ known ∈ info'.get? meshName, known = query := by
  rw [queryOnce]
  cases hget : info.get? meshName with
  | some known =>
      obtain rfl := hinfo known hget
      exact ⟨info, rfl, hinfo⟩
  | none =>
      refine ⟨info.set meshName query, congrArg (·, _) (if_pos hlength), fun known hknown => ?_⟩
      rw [Py.Dict.get?_set, if_pos rfl] at hknown
      exact (Option.some.inj hknown).symm

/-- The lazy functions do what the others do with the registered ranks. -/
theorem lazyCall_eq [DecidableEq ι'] {meshName : String} {group : WorkerGroup}
    {worker : Nat → List (MetaProto τ ν ι μ) → List (String × MetaProto τ ν ι μ) →
      MetaProto τ' ν' ι' μ'} {args : List (MetaProto τ ν ι μ)}
    {kwargs : List (String × MetaProto τ ν ι μ)} (hgroup : KnowsMesh mesh meshName group) :
    ∃ group', lazyCall autoPadding meshName mesh.dpRankMapping mesh.collectMask worker args kwargs
        group =
      (meshCall autoPadding mesh.dpRankMapping mesh.dpSize mesh.collectMask mesh.worldSize worker
        args kwargs, group') ∧ KnowsMesh mesh meshName group' := by
  obtain ⟨worldSize, dispatchInfo, collectInfo⟩ := group
  obtain rfl : worldSize = mesh.worldSize := hgroup.worldSize
  obtain ⟨dispatchInfo', hdispatch, hranks⟩ :=
    queryOnce_registered mesh.length_mapping hgroup.dispatchInfo
  obtain ⟨collectInfo', hcollect, hmask⟩ :=
    queryOnce_registered mesh.length_mask hgroup.collectInfo
  rw [lazyCall, meshCall]
  simp only [hdispatch, Py.ok_bind, Mesh.dpSizeOf_dpRankMapping]
  cases hargs : dispatchNdComputeDataproto autoPadding mesh.dpRankMapping mesh.dpSize
      mesh.worldSize args kwargs with
  | error e => exact ⟨_, rfl, rfl, hranks, hgroup.collectInfo⟩
  | ok dispatched =>
      obtain ⟨allArgs, allKwargs⟩ := dispatched
      cases houtput : executeRanks mesh.worldSize worker allArgs allKwargs with
      | error e =>
          simp only [Py.ok_bind, houtput]
          exact ⟨_, rfl, rfl, hranks, hgroup.collectInfo⟩
      | ok output =>
          simp only [Py.ok_bind, houtput, hcollect]
          exact ⟨_, rfl, rfl, hranks, hmask⟩

/-- A call keeps the order of the rows and of the metrics. -/
theorem meshCall_preserves_order [DecidableEq ι'] (mesh : Mesh) (autoPadding : Bool) (size : Nat)
    (worker : RowWorker τ ν ι μ τ' ν' ι' μ') (args : List (MetaProto τ ν ι μ))
    (kwargs : List (String × MetaProto τ ν ι μ)) (hne : args ≠ [])
    (hargs : ∀ arg ∈ args ++ kwargs.map Prod.snd, arg.data.Aligned (mesh.dpSize * size))
    (hmetrics : KeysInFirst (worker.groupMetrics mesh.dpSize size args kwargs)) :
    PreservesOrder mesh autoPadding size worker args kwargs := by
  have hdispatch := @dispatchNdComputeDataproto_eq _ _ _ _ _ autoPadding _ _ _ hne hargs
  refine ⟨⟨_, _, hdispatch, ?_, ?_⟩, ?_, fun meshName group hgroup => lazyCall_eq hgroup⟩
  · rw [List.forall₂_map_right_iff, List.forall₂_same]
    exact fun arg harg => receives_part (hargs arg (List.mem_append_left _ harg))
  · rw [List.forall₂_map_right_iff, List.forall₂_same]
    exact fun kwarg hkwarg => ⟨rfl, receives_part
      (hargs kwarg.2 (List.mem_append_right _ (List.mem_map_of_mem hkwarg)))⟩
  · have hexecute : executeRanks mesh.worldSize (fun rank => worker.call (mesh.dpRank rank))
        (args.map fun arg =>
          (List.range mesh.worldSize).map fun rank => arg.part size (mesh.dpRank rank))
        (kwargs.map fun kwarg => (kwarg.1,
          (List.range mesh.worldSize).map fun rank => kwarg.2.part size (mesh.dpRank rank))) =
        .ok ((List.range mesh.worldSize).map fun rank =>
          worker.groupOutput size args kwargs (mesh.dpRank rank)) := by
      have hranks := @executeRanks_eq _ _ (fun rank => worker.call (mesh.dpRank rank))
        mesh.worldSize (args.map fun arg rank => arg.part size (mesh.dpRank rank))
        (kwargs.map fun kwarg => (kwarg.1, fun rank => kwarg.2.part size (mesh.dpRank rank)))
      simp only [List.map_map, Function.comp_def] at hranks
      exact hranks
    have houtputs : (List.range mesh.dpSize).map (worker.groupOutput size args kwargs) ≠ [] := by
      rw [ne_eq, List.map_eq_nil_iff, List.range_eq_nil]
      exact mesh.dpSize_pos.ne'
    have hdata : DataProto.concat (((List.range mesh.dpSize).map
        (worker.groupOutput size args kwargs)).map MetaProto.data) =
          .ok ((worker.rows (args.map MetaProto.metaInfo) (metaOf kwargs)).apply
            ((List.range (mesh.dpSize * size)).map
              (rowArgs (args.map MetaProto.data) (dataOf kwargs)))) := by
      have hgroups : ((List.range mesh.dpSize).map
          (worker.groupOutput size args kwargs)).map MetaProto.data =
            ((List.range mesh.dpSize).map fun r => (List.range size).map fun j =>
              rowArgs (args.map MetaProto.data) (dataOf kwargs) (r * size + j)).map
                (worker.rows (args.map MetaProto.metaInfo) (metaOf kwargs)).apply := by
        rw [List.map_map, List.map_map]
        exact List.map_congr_left fun r hr => data_groupOutput hne hargs (List.mem_range.mp hr)
      rw [hgroups, concat_apply, ← List.flatMap_def, Shards.flatMap_range_map]
      rw [ne_eq, List.map_eq_nil_iff, List.range_eq_nil]
      exact mesh.dpSize_pos.ne'
    obtain ⟨metaInfo, hmeta, -, hmetric⟩ := @mergeMetaInfo_spec ι' μ' _
      (((List.range mesh.dpSize).map (worker.groupOutput size args kwargs)).map MetaProto.metaInfo)
      (worker.others (args.map MetaProto.metaInfo) (metaOf kwargs))
      (fun h => houtputs (List.map_eq_nil_iff.mp h))
      (fun info hinfo => by
        obtain ⟨output, houtput, rfl⟩ := List.mem_map.mp hinfo
        obtain ⟨r, -, rfl⟩ := List.mem_map.mp houtput
        exact others_groupOutput args kwargs r)
      (by
        rw [List.map_map, List.flatMap_map]
        exact hmetrics)
    refine ⟨⟨_, metaInfo⟩, ?_, rfl, ?_⟩
    · rw [meshCall, hdispatch, Py.ok_bind]
      simp only [hexecute, Py.ok_bind]
      rw [collectNdComputeDataproto, collectNdCompute_eq, Py.ok_bind, Py.check_of_true houtputs,
        Py.ok_bind]
      exact MetaProto.concat_of hdata hmeta
    · intro k
      rw [hmetric k, List.map_map, List.flatMap_map]
      rfl

theorem marked_twoByTwo {rank : Nat} (h : [true, false, false, true][rank]? = some true) :
    rank = 0 ∨ rank = 3 := by
  obtain ⟨hlt, hmark⟩ := List.getElem?_eq_some_iff.mp h
  have hlt : rank < 4 := hlt
  interval_cases rank
  · exact .inl rfl
  · cases hmark
  · cases hmark
  · exact .inr rfl

theorem twoByTwo_length_mapping : [0, 0, 1, 1].length = 4 := rfl

theorem twoByTwo_length_mask : [true, false, false, true].length = 4 := rfl

theorem twoByTwo_mem_mapping (r : Nat) : r ∈ [0, 0, 1, 1] ↔ r < 2 := by
  simp only [List.mem_cons, List.not_mem_nil, or_false]
  omega

theorem twoByTwo_marked : ∀ r < 2, ∃! rank : Nat,
    [0, 0, 1, 1][rank]? = some r ∧ [true, false, false, true][rank]? = some true := by
  intro r hr
  obtain rfl | rfl : r = 0 ∨ r = 1 := by omega
  · refine ⟨0, ⟨rfl, rfl⟩, ?_⟩
    rintro rank ⟨hrank, hmark⟩
    obtain rfl | rfl := marked_twoByTwo hmark
    · rfl
    · cases hrank
  · refine ⟨3, ⟨rfl, rfl⟩, ?_⟩
    rintro rank ⟨hrank, hmark⟩
    obtain rfl | rfl := marked_twoByTwo hmark
    · cases hrank
    · rfl

theorem twoByTwo_increasing : ∀ rank rank' r r' : Nat, rank < rank' →
    [0, 0, 1, 1][rank]? = some r → [true, false, false, true][rank]? = some true →
    [0, 0, 1, 1][rank']? = some r' → [true, false, false, true][rank']? = some true →
    r < r' := by
  intro rank rank' r r' hlt hrank hmark hrank' hmark'
  obtain rfl | rfl := marked_twoByTwo hmark
  · obtain rfl | rfl := marked_twoByTwo hmark'
    · omega
    · obtain rfl : 0 = r := Option.some.inj hrank
      obtain rfl : 1 = r' := Option.some.inj hrank'
      exact Nat.one_pos
  · obtain rfl | rfl := marked_twoByTwo hmark'
    · omega
    · omega

/-- Two groups of two ranks. -/
def twoByTwo : Mesh where
  worldSize := 4
  dpSize := 2
  dpRankMapping := [0, 0, 1, 1]
  collectMask := [true, false, false, true]
  dpSize_pos := Nat.two_pos
  length_mapping := twoByTwo_length_mapping
  length_mask := twoByTwo_length_mask
  mem_mapping := twoByTwo_mem_mapping
  marked := twoByTwo_marked
  increasing := twoByTwo_increasing

/-- `countArgs`, with one metric. -/
def countWorker (name : Nat → String) : RowWorker Nat Nat Nat Nat Nat Nat Nat Nat where
  rows _ _ := countArgs
  others _ _ := .empty
  metrics r _ _ := .dict (.ofKeys [name r] (List.nodup_singleton _) fun _ => r)

/-- A batch without `meta_info`. -/
def plainColumn (rows : List Nat) : MetaProto Nat Nat Nat Nat :=
  ⟨oneColumn rows, .empty, .absent⟩

theorem meshCall_preserves_order_twoByTwo :
    PreservesOrder twoByTwo false 1 (countWorker fun _ => "loss") [plainColumn [7, 8]]
      [("other", plainColumn [5, 6])] :=
  meshCall_preserves_order twoByTwo false 1 (countWorker fun _ => "loss") [plainColumn [7, 8]]
    [("other", plainColumn [5, 6])] (List.cons_ne_nil _ _)
    (by
      intro arg harg
      rcases List.mem_cons.mp harg with rfl | harg
      · exact aligned_oneColumn [7, 8]
      · obtain rfl := List.mem_singleton.mp harg
        exact aligned_oneColumn [5, 6])
    (by
      intro first hfirst metrics hmetrics k hk
      obtain rfl := Option.some.inj hfirst
      rcases List.mem_cons.mp hmetrics with rfl | hmetrics
      · exact hk
      · obtain rfl := List.mem_singleton.mp hmetrics
        exact hk)

/-- The metrics of two groups under different names. -/
theorem not_preservesOrder_names :
    (plainColumn [7, 8]).data.Aligned (twoByTwo.dpSize * 1) ∧
      ¬ PreservesOrder twoByTwo false 1 (countWorker fun r => if r = 0 then "actor" else "critic")
        [plainColumn [7, 8]] [] := by
  refine ⟨aligned_oneColumn [7, 8], fun h => ?_⟩
  obtain ⟨merged, hmerged, -⟩ := h.collected
  have herror : meshCall false twoByTwo.dpRankMapping twoByTwo.dpSize twoByTwo.collectMask
      twoByTwo.worldSize (fun rank => (countWorker fun r => if r = 0 then "actor" else "critic").call
        (twoByTwo.dpRank rank)) [plainColumn [7, 8]] [] =
      .error (.assertion
        "Key 'critic' is not present in the keys of the first dictionary in the list.") := by
    rfl
  rw [herror] at hmerged
  cases hmerged

end Calls

end Verl
