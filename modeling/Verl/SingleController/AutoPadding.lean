import Verl.Lib.Shards
import Verl.SingleController.DataProto

/-!
# Automatic padding of data-parallel calls

The arguments of a call are objects of the caller, and one object can be passed
twice.  `_padding_and_split_data` pads an object in place before it cuts it into one
chunk for each worker, so a call changes the heap.  `func_generator` cuts the padding
off what the workers return.

The padding is the last row again, so row `j` of the padded rows is row
`min j (length - 1)` of the caller's.  With a length that is a multiple of the number
of workers nothing is padded and nothing changes; otherwise the caller's objects stay
padded (`autoPaddingInvisible_iff`), and of the outputs of the workers as many are cut off as
there are rows of padding (`callMetric_spec`).
-/

namespace Verl

open Function (update)

/-! ## Worker functions -/

/-- The rows of the arguments at one index, positional and by keyword. -/
abbrev RowArgs (τ ν : Type) : Type := List (Row τ ν) × List (String × Row τ ν)

/-- A row-wise worker function: the columns of its result, each a function of the rows
of the arguments. -/
structure RowFn (τ ν τ' ν' : Type) where
  withBatch : Bool
  tensorKeys : List String
  tensorKeys_nodup : tensorKeys.Nodup
  nonTensorKeys : List String
  nonTensorKeys_nodup : nonTensorKeys.Nodup
  tensor : String → RowArgs τ ν → τ'
  nonTensor : String → RowArgs τ ν → ν'
  autoPadding : Bool
  columns : withBatch = true ∨ nonTensorKeys ≠ []

section RowFn

variable {τ ν τ' ν' : Type}

/-- The result for these rows. -/
def RowFn.apply (fn : RowFn τ ν τ' ν') (rows : List (RowArgs τ ν)) : DataProto τ' ν' where
  batch :=
    if fn.withBatch then
      some ⟨rows.length, .ofKeys fn.tensorKeys fn.tensorKeys_nodup fun k => rows.map (fn.tensor k)⟩
    else none
  nonTensorBatch :=
    .ofKeys fn.nonTensorKeys fn.nonTensorKeys_nodup fun k => rows.map (fn.nonTensor k)
  autoPadding := fn.autoPadding

/-- The rows of the arguments at an index. -/
def rowArgs (args : List (DataProto τ ν)) (kwargs : List (String × DataProto τ ν)) (j : Nat) :
    RowArgs τ ν := (args.map (·.row j), kwargs.map fun e => (e.1, e.2.row j))

/-- The length of the first argument. -/
def lenOf (args : List (DataProto τ ν)) (kwargs : List (String × DataProto τ ν)) : Nat :=
  ((args ++ kwargs.map Prod.snd).head?.map DataProto.len).getD 0

/-- A call of the worker function. -/
def RowFn.call (fn : RowFn τ ν τ' ν') (args : List (DataProto τ ν))
    (kwargs : List (String × DataProto τ ν)) : DataProto τ' ν' :=
  fn.apply ((List.range (lenOf args kwargs)).map (rowArgs args kwargs))

end RowFn

/-! ## The source functions -/

section Source

variable {τ ν ω : Type}

/-- The objects of the caller, and the two variables of the closure. -/
structure DispatchState (τ ν : Type) where
  heap : Nat → DataProto τ ν
  dataProtoLen : Option Nat
  paddingSize : Option Nat

/-- The first padded object sets the length and the padding size. -/
def DispatchState.recordLen (s : DispatchState τ ν) (chunks len : Nat) : DispatchState τ ν :=
  match s.dataProtoLen with
  | none =>
      { s with
        dataProtoLen := some len
        paddingSize := some (if len % chunks > 0 then chunks - len % chunks else 0) }
  | some _ => s

/-- `_padding_and_split_data`.  What it has changed stays when it raises. -/
def paddingAndSplitData (autoPadding : Bool) (chunks obj : Nat) (s : DispatchState τ ν) :
    Except Py.Error (List (DataProto τ ν)) × DispatchState τ ν :=
  let data := s.heap obj
  if data.isPaddingEnabled autoPadding then
    let s := s.recordLen chunks data.len
    if s.dataProtoLen ≠ some data.len then
      (.error (.assertion s!"expecting all arg share same length, but got {data.len}"), s)
    else
      match data.padding (s.paddingSize.getD 0) with
      | .error e => (.error e, s)
      | .ok padded => (padded.chunk autoPadding chunks, { s with heap := update s.heap obj padded })
  else (data.chunk autoPadding chunks, s)

/-- The arguments one after the other. -/
def splitAll (autoPadding : Bool) (chunks : Nat) : List Nat → DispatchState τ ν →
    Except Py.Error (List (List (DataProto τ ν))) × DispatchState τ ν
  | [], s => (.ok [], s)
  | obj :: objs, s =>
      match paddingAndSplitData autoPadding chunks obj s with
      | (.error e, s) => (.error e, s)
      | (.ok parts, s) =>
          match splitAll autoPadding chunks objs s with
          | (.error e, s) => (.error e, s)
          | (.ok splitted, s) => (.ok (parts :: splitted), s)

/-- `execute_all`: worker `i` gets element `i` of every argument. -/
def executeAll (worldSize : Nat) (worker : List (DataProto τ ν) → List (String × DataProto τ ν) → ω)
    (splittedArgs : List (List (DataProto τ ν)))
    (splittedKwargs : List (String × List (DataProto τ ν))) : Except Py.Error (List ω) :=
  (List.range worldSize).mapM fun i => do
    let args ← splittedArgs.mapM fun arg => Py.getItem arg i
    let kwargs ← splittedKwargs.mapM fun kwarg => do return (kwarg.1, ← Py.getItem kwarg.2 i)
    return worker args kwargs

/-- `dispatch_dp_compute_data_proto` and the execution: the outputs of the workers with
`padding_count`, and the heap afterwards. -/
def dispatchAndExecute (autoPadding : Bool) (worldSize : Nat)
    (worker : List (DataProto τ ν) → List (String × DataProto τ ν) → ω) (args : List Nat)
    (kwargs : List (String × Nat)) (heap : Nat → DataProto τ ν) :
    Except Py.Error (List ω × Nat) × (Nat → DataProto τ ν) :=
  match splitAll autoPadding worldSize (args ++ kwargs.map Prod.snd) ⟨heap, none, none⟩ with
  | (.error e, s) => (.error e, s.heap)
  | (.ok splitted, s) =>
      ((executeAll worldSize worker (splitted.take args.length)
        ((kwargs.map Prod.fst).zip (splitted.drop args.length))).map fun outputs =>
          (outputs, s.paddingSize.getD 0), s.heap)

/-- What a `DP_COMPUTE_PROTO` call returns; without `blocking` it is a
`DataProtoFuture`. -/
inductive ProtoResult (τ ν : Type) where
  | proto (data : DataProto τ ν)
  | future (futures : List (DataProto τ ν))

/-- The result once it is there. -/
def ProtoResult.get : ProtoResult τ ν → Except Py.Error (DataProto τ ν)
  | proto data => .ok data
  | future futures => DataProto.concat futures

/-- `collect_dp_compute_data_proto`, and the end of the call. -/
def collectProto (blocking : Bool) (worldSize paddingCount : Nat) (outputs : List (DataProto τ ν)) :
    Except Py.Error (ProtoResult τ ν) := do
  Py.check (outputs ≠ []) "expecting concatable output"
  Py.check (outputs.length = worldSize) ""
  if blocking then
    let output ← DataProto.concat outputs
    if 0 < paddingCount then
      let selected ← output.selectIdxs (Py.dropEnd (List.range output.len) paddingCount)
      return .proto selected
    else return .proto output
  else return .future outputs

/-- `collect_dp_compute`, and the end of the call. -/
def collectMetric (worldSize paddingCount : Nat) (outputs : List ω) : Except Py.Error (List ω) := do
  Py.check (outputs.length = worldSize) ""
  return if 0 < paddingCount then Py.dropEnd outputs paddingCount else outputs

/-- A call with `DP_COMPUTE_PROTO`. -/
def callProto {τ' ν' : Type} (autoPadding blocking : Bool) (worldSize : Nat)
    (fn : RowFn τ ν τ' ν') (args : List Nat) (kwargs : List (String × Nat))
    (heap : Nat → DataProto τ ν) :
    Except Py.Error (ProtoResult τ' ν') × (Nat → DataProto τ ν) :=
  let (result, heap) := dispatchAndExecute autoPadding worldSize fn.call args kwargs heap
  (result >>= fun (outputs, paddingCount) => collectProto blocking worldSize paddingCount outputs,
    heap)

/-- A call with `DP_COMPUTE_METRIC`. -/
def callMetric (autoPadding : Bool) (worldSize : Nat)
    (worker : List (DataProto τ ν) → List (String × DataProto τ ν) → ω) (args : List Nat)
    (kwargs : List (String × Nat)) (heap : Nat → DataProto τ ν) :
    Except Py.Error (List ω) × (Nat → DataProto τ ν) :=
  let (result, heap) := dispatchAndExecute autoPadding worldSize worker args kwargs heap
  (result >>= fun (outputs, paddingCount) => collectMetric worldSize paddingCount outputs, heap)

end Source

/-! ## Results -/

section RowFn

variable {τ ν τ' ν' : Type} {fn : RowFn τ ν τ' ν'}

theorem aligned_apply (rows : List (RowArgs τ ν)) : (fn.apply rows).Aligned rows.length := by
  refine ⟨fun batch hbatch => ?_, fun batch hbatch e he => ?_, fun e he => ?_, ?_⟩
  · rw [RowFn.apply] at hbatch
    obtain ⟨-, hbatch⟩ := Option.mem_ite_none_right.mp hbatch
    rw [← Option.some.inj hbatch]
  · rw [RowFn.apply] at hbatch
    obtain ⟨-, hbatch⟩ := Option.mem_ite_none_right.mp hbatch
    rw [← Option.some.inj hbatch] at he
    obtain ⟨k, -, rfl⟩ := List.mem_map.mp he
    exact List.length_map _
  · obtain ⟨k, -, rfl⟩ := List.mem_map.mp he
    exact List.length_map _
  · refine fn.columns.imp (fun hbatch => ?_) fun hkeys hnil => ?_
    · rw [RowFn.apply, if_pos hbatch]
      exact Option.some_ne_none _
    · exact hkeys (List.map_eq_nil_iff.mp hnil)

/-- The concatenation of results is the result for all rows. -/
theorem concat_apply {rowss : List (List (RowArgs τ ν))} (hne : rowss ≠ []) :
    DataProto.concat (rowss.map fn.apply) = .ok (fn.apply rowss.flatten) := by
  have hcolumns {α β : Type} {keys : List String} (nodup : keys.Nodup) (rowss : List (List α))
      (f : String → α → β) (first : List α) :
      DataProto.concatColumns (.ofKeys keys nodup fun k => first.map (f k))
        (rowss.map fun rows => .ofKeys keys nodup fun k => rows.map (f k)) =
          .ofKeys keys nodup fun k => rowss.flatten.map (f k) := by
    rw [DataProto.concatColumns, Py.Dict.mapEntries_ofKeys]
    refine Py.Dict.ofKeys_congr nodup fun k hk => ?_
    rw [List.flatMap_map, List.map_flatten, List.flatMap_def]
    refine congrArg List.flatten (List.map_congr_left fun rows _ => ?_)
    rw [Py.Dict.get?_ofKeys nodup _ hk]
    rfl
  have hflags : (rowss.map fn.apply).any DataProto.autoPadding = fn.autoPadding := by
    rw [List.any_map, Bool.eq_iff_iff, List.any_eq_true]
    constructor
    · rintro ⟨_, _, hflag⟩
      exact hflag
    · intro hflag
      obtain ⟨rows, hrows⟩ := List.exists_mem_of_ne_nil _ hne
      exact ⟨rows, hrows, hflag⟩
  obtain ⟨first, rest, rfl⟩ := List.exists_cons_of_ne_nil hne
  have hbatches : DataProto.catBatches (((first :: rest).map fn.apply).map DataProto.batch) =
      .ok (fn.apply (first :: rest).flatten).batch := by
    rw [List.map_map]
    by_cases hbatch : fn.withBatch
    · have hsome (rows : List (RowArgs τ ν)) : (fn.apply rows).batch =
          some ⟨rows.length, .ofKeys fn.tensorKeys fn.tensorKeys_nodup
            fun k => rows.map (fn.tensor k)⟩ := if_pos hbatch
      have hmap : (first :: rest).map (DataProto.batch ∘ fn.apply) =
          ((first :: rest).map fun rows => ⟨rows.length, .ofKeys fn.tensorKeys
            fn.tensorKeys_nodup fun k => rows.map (fn.tensor k)⟩).map some := by
        rw [List.map_map]
        exact List.map_congr_left fun rows _ => hsome rows
      rw [hmap, hsome]
      refine (DataProto.catBatches_some fun batch hmem => ?_).trans ?_
      · obtain ⟨rows, -, rfl⟩ := List.mem_map.mp hmem
        exact (Py.Dict.keys_ofKeys fn.tensorKeys_nodup _).trans
          (Py.Dict.keys_ofKeys fn.tensorKeys_nodup _).symm
      · refine congrArg Except.ok (congrArg some (congrArg₂ TensorDict.mk ?_ ?_))
        · simp only [List.length_flatten, List.map_cons, List.map_map]
          rfl
        · refine Eq.trans ?_ (hcolumns fn.tensorKeys_nodup (first :: rest) fn.tensor first)
          simp only [List.map_cons, List.map_map]
          rfl
    · have hnone (rows : List (RowArgs τ ν)) : (fn.apply rows).batch = none := if_neg hbatch
      have hfirst : (DataProto.batch ∘ fn.apply) first = none := hnone first
      rw [List.map_cons, hfirst, hnone]
      rfl
  have hnonTensors :
      DataProto.catNonTensors (((first :: rest).map fn.apply).map DataProto.nonTensorBatch) =
        .ok (fn.apply (first :: rest).flatten).nonTensorBatch := by
    rw [List.map_map]
    refine (DataProto.catNonTensors_of_keys fun columns hmem => ?_).trans ?_
    · obtain ⟨rows, -, rfl⟩ := List.mem_map.mp hmem
      exact (Py.Dict.keys_ofKeys fn.nonTensorKeys_nodup _).trans
        (Py.Dict.keys_ofKeys fn.nonTensorKeys_nodup _).symm
    · exact congrArg Except.ok (hcolumns fn.nonTensorKeys_nodup (first :: rest) fn.nonTensor first)
  rw [DataProto.concat, hbatches, Py.ok_bind, hnonTensors, Py.ok_bind, hflags]
  exact (aligned_apply (first :: rest).flatten).checkConsistency

/-- The first rows of a result. -/
theorem selectIdxs_apply (rows : List (RowArgs τ ν)) {count : Nat} (h : count ≤ rows.length) :
    (fn.apply rows).selectIdxs (List.range count) = .ok (fn.apply (rows.take count)) := by
  have hcolumns {α β : Type} {keys : List String} (nodup : keys.Nodup) (f : String → α → β)
      (rows : List α) (h : count ≤ rows.length) :
      (Py.Dict.ofKeys keys nodup fun k => rows.map (f k)).mapValues
        (DataProto.takeRows (List.range count)) =
          .ofKeys keys nodup fun k => (rows.take count).map (f k) := by
    rw [Py.Dict.mapValues_eq_mapEntries, Py.Dict.mapEntries_ofKeys]
    refine Py.Dict.ofKeys_congr nodup fun k _ => ?_
    rw [DataProto.takeRows_range (by rwa [List.length_map]), List.map_take]
  have hselected : (fn.apply rows).mapColumns (fun _ => (List.range count).length)
      (DataProto.takeRows (List.range count)) (DataProto.takeRows (List.range count)) =
        fn.apply (rows.take count) := by
    rw [RowFn.apply, RowFn.apply, DataProto.mapColumns, DataProto.mk.injEq]
    refine ⟨?_, hcolumns fn.nonTensorKeys_nodup fn.nonTensor rows h, rfl⟩
    cases fn.withBatch with
    | false => rfl
    | true =>
        have hsize : (List.range count).length = (rows.take count).length := by
          rw [List.length_range, List.length_take, Nat.min_eq_left h]
        exact congrArg some (congrArg₂ TensorDict.mk hsize
          (hcolumns fn.tensorKeys_nodup fn.tensor rows h))
  have hrows : (fn.apply rows).HasRows (List.range count) :=
    (aligned_apply rows).hasRows fun i hi => by
      have hlt := List.mem_range.mp hi
      omega
  rw [DataProto.selectIdxs, if_pos hrows, hselected]
  exact (aligned_apply _).checkConsistency

end RowFn

/-! ## Splitting -/

section Split

variable {τ ν : Type} {s : DispatchState τ ν} {autoPadding : Bool} {workers length size : Nat}

/-- Nothing is recorded, or this length. -/
def DispatchState.Expects (s : DispatchState τ ν) (workers length : Nat) : Prop :=
  s.dataProtoLen = none ∨
    s.dataProtoLen = some length ∧ s.paddingSize = some (Shards.padSize workers length)

theorem DispatchState.Expects.recordLen (h : s.Expects workers length) (hworkers : 0 < workers) :
    s.recordLen workers length =
      ⟨s.heap, some length, some (Shards.padSize workers length)⟩ := by
  have hsize : (if length % workers > 0 then workers - length % workers else 0) =
      Shards.padSize workers length := by
    split
    next hrest => exact (Shards.padSize_of_mod_ne_zero hworkers hrest.ne').symm
    next hrest => exact (Shards.padSize_of_mod_eq_zero (by omega)).symm
  obtain ⟨heap, dataProtoLen, paddingSize⟩ := s
  obtain hnone | ⟨hlength, hpadding⟩ := h
  · obtain rfl : dataProtoLen = none := hnone
    rw [DispatchState.recordLen, hsize]
  · obtain rfl : dataProtoLen = some length := hlength
    obtain rfl : paddingSize = _ := hpadding
    rfl

/-- Chunk `i` of an object has rows `i * size` and following of the padded object. -/
def IsSplit (d : DataProto τ ν) (workers length size : Nat) (part : Nat → DataProto τ ν) : Prop :=
  ∀ i < workers, (part i).Aligned size ∧
    ∀ j < size, (part i).row j = d.row (min (i * size + j) (length - 1))

/-- An object is replaced by its padded one. -/
theorem paddingAndSplitData_spec {obj : Nat} (hs : s.Expects workers length)
    (hworkers : 0 < workers) (hlength : 1 ≤ length) (haligned : (s.heap obj).Aligned length)
    (henabled : (s.heap obj).isPaddingEnabled autoPadding = true)
    (hsize : length + Shards.padSize workers length = workers * size) :
    ∃ part padded, paddingAndSplitData autoPadding workers obj s =
        (.ok ((List.range workers).map part), ⟨update s.heap obj padded, some length,
          some (Shards.padSize workers length)⟩) ∧
      IsSplit (s.heap obj) workers length size part ∧
      padded.Aligned (length + Shards.padSize workers length) ∧
      (Shards.padSize workers length = 0 → padded = s.heap obj) := by
  obtain ⟨padded, hpadded, hpaddedAligned, -, hrows⟩ :=
    DataProto.padding_spec haligned hlength (Shards.padSize workers length)
  have hmultiple : padded.Aligned (workers * size) := hsize ▸ hpaddedAligned
  obtain ⟨part, hchunk, hpart⟩ := DataProto.chunk_spec hmultiple hworkers autoPadding
  refine ⟨part, padded, ?_, fun i hi => ⟨(hpart i hi).1, fun j hj => ?_⟩, hpaddedAligned,
    fun hzero => ?_⟩
  · have hne : ¬ some length ≠ some (s.heap obj).len := by
      rw [haligned.len]
      exact fun h => h rfl
    rw [paddingAndSplitData, if_pos henabled, haligned.len, hs.recordLen hworkers]
    simp only [ne_eq, not_true_eq_false, if_false, Option.getD_some, hpadded, hchunk]
  · have hlast := Nat.mul_le_mul_right size (show i + 1 ≤ workers from hi)
    rw [Nat.add_mul, Nat.one_mul] at hlast
    rw [(hpart i hi).2 j hj]
    exact hrows _ (by omega)
  · rw [hzero, DataProto.padding, if_pos rfl] at hpadded
    exact (Except.ok.inj hpadded).symm

/-- Different objects, or objects that need no padding, are all split. -/
theorem splitAll_spec {objs : List Nat} (hs : s.Expects workers length) (hworkers : 0 < workers)
    (hlength : 1 ≤ length)
    (hobjs : ∀ obj ∈ objs, (s.heap obj).Aligned length ∧
      (s.heap obj).isPaddingEnabled autoPadding = true)
    (hsize : length + Shards.padSize workers length = workers * size)
    (hdistinct : objs.Nodup ∨ Shards.padSize workers length = 0) :
    ∃ parts s', splitAll autoPadding workers objs s =
        (.ok (parts.map fun part => (List.range workers).map part), s') ∧
      List.Forall₂ (fun obj part => IsSplit (s.heap obj) workers length size part) objs parts ∧
      (objs ≠ [] → s'.paddingSize = some (Shards.padSize workers length)) ∧
      (Shards.padSize workers length = 0 → s'.heap = s.heap) := by
  induction objs generalizing s with
  | nil => exact ⟨[], s, rfl, .nil, fun h => absurd rfl h, fun _ => rfl⟩
  | cons obj objs ih =>
      obtain ⟨haligned, henabled⟩ := hobjs obj List.mem_cons_self
      obtain ⟨part, padded, hsplit, hpart, -, hzero⟩ :=
        paddingAndSplitData_spec hs hworkers hlength haligned henabled hsize
      have hsame : ∀ other ∈ objs, update s.heap obj padded other = s.heap other := by
        intro other hother
        obtain hnodup | hnopad := hdistinct
        · refine Function.update_of_ne (fun heq => ?_) _ _
          exact (List.nodup_cons.mp hnodup).1 (heq ▸ hother)
        · rw [hzero hnopad, Function.update_eq_self]
      obtain ⟨parts, s', hall, hparts, hpadding, hheap⟩ :=
        @ih ⟨update s.heap obj padded, some length, some (Shards.padSize workers length)⟩
          (.inr ⟨rfl, rfl⟩)
          (fun other hother => by
            change (update s.heap obj padded other).Aligned length ∧
              (update s.heap obj padded other).isPaddingEnabled autoPadding = true
            rw [hsame other hother]
            exact hobjs other (List.mem_cons_of_mem _ hother))
          (hdistinct.imp (fun h => (List.nodup_cons.mp h).2) id)
      have hpartsHeap : List.Forall₂
          (fun other part => IsSplit (s.heap other) workers length size part) objs parts := by
        refine List.Forall₂.imp ?_ ((List.forall₂_and_left _ _).mpr ⟨hsame, hparts⟩)
        rintro other part ⟨heq, hother⟩
        exact heq ▸ hother
      refine ⟨part :: parts, s', ?_, .cons hpart hpartsHeap, fun _ => ?_, fun hnopad => ?_⟩
      · rw [splitAll, hsplit]
        simp only [hall]
        rfl
      · cases objs with
        | nil =>
            rw [splitAll, Prod.mk.injEq] at hall
            rw [← hall.2]
        | cons other objs => exact hpadding (List.cons_ne_nil _ _)
      · rw [hheap hnopad, hzero hnopad, Function.update_eq_self]

/-- An object whose length is not the recorded one stays as it is. -/
theorem paddingAndSplitData_of_len_ne {obj other : Nat} (hrecorded : s.dataProtoLen = some length)
    (hlen : (s.heap obj).len ≠ length) :
    (paddingAndSplitData autoPadding workers other s).2.heap obj = s.heap obj ∧
      (paddingAndSplitData autoPadding workers other s).2.dataProtoLen = some length := by
  have hrecordLen (len : Nat) : s.recordLen workers len = s := by
    rw [DispatchState.recordLen, hrecorded]
  rw [paddingAndSplitData]
  by_cases hother : (s.heap other).isPaddingEnabled autoPadding
  · simp only [if_pos hother, hrecordLen, hrecorded]
    by_cases hsame : (s.heap other).len = length
    · have hne : obj ≠ other := fun heq => hlen (heq ▸ hsame)
      rw [if_neg (fun h => h (congrArg some hsame.symm))]
      cases (s.heap other).padding (s.paddingSize.getD 0) with
      | error e => exact ⟨rfl, hrecorded⟩
      | ok padded => exact ⟨Function.update_of_ne hne _ _, rfl⟩
    · rw [if_pos (fun h => hsame (Option.some.inj h).symm)]
      exact ⟨rfl, hrecorded⟩
  · rw [if_neg hother]
    exact ⟨rfl, hrecorded⟩

theorem splitAll_of_len_ne {objs : List Nat} {obj : Nat} (hrecorded : s.dataProtoLen = some length)
    (hlen : (s.heap obj).len ≠ length) :
    (splitAll autoPadding workers objs s).2.heap obj = s.heap obj := by
  induction objs generalizing s with
  | nil => rfl
  | cons other objs ih =>
      obtain ⟨hheap, hlength⟩ :=
        @paddingAndSplitData_of_len_ne τ ν s autoPadding workers length obj other hrecorded hlen
      rw [splitAll]
      rcases hsplit : paddingAndSplitData autoPadding workers other s with ⟨result, s'⟩
      rw [hsplit] at hheap hlength
      cases result with
      | error e => exact hheap
      | ok parts =>
          have hrest := @ih s' hlength (hheap.symm ▸ hlen)
          rcases hall : splitAll autoPadding workers objs s' with ⟨results, s''⟩
          rw [hall] at hrest
          cases results with
          | error e =>
              simp only [hall]
              exact hrest.trans hheap
          | ok splitted =>
              simp only [hall]
              exact hrest.trans hheap

/-- Without a multiple of the number of workers, the first object stays padded. -/
theorem splitAll_first {obj : Nat} {objs : List Nat} (hs : s.Expects workers length)
    (hworkers : 0 < workers) (hlength : 1 ≤ length) (haligned : (s.heap obj).Aligned length)
    (henabled : (s.heap obj).isPaddingEnabled autoPadding = true)
    (hpad : Shards.padSize workers length ≠ 0) :
    ((splitAll autoPadding workers (obj :: objs) s).2.heap obj).len =
      length + Shards.padSize workers length := by
  obtain ⟨size, hsize⟩ := Shards.dvd_add_padSize hworkers length
  obtain ⟨part, padded, hsplit, -, hpadded, -⟩ :=
    paddingAndSplitData_spec hs hworkers hlength haligned henabled hsize
  obtain ⟨s', hs'⟩ : ∃ s', s' = (⟨update s.heap obj padded, some length,
    some (Shards.padSize workers length)⟩ : DispatchState τ ν) := ⟨_, rfl⟩
  have hrecorded : s'.dataProtoLen = some length := by rw [hs']
  have hheap : s'.heap obj = padded := by
    rw [hs']
    exact Function.update_self _ _ _
  have hne : (s'.heap obj).len ≠ length := by
    rw [hheap, hpadded.len]
    omega
  have hrest := @splitAll_of_len_ne τ ν s' autoPadding workers length objs obj hrecorded hne
  rw [splitAll, hsplit, ← hs']
  rcases hall : splitAll autoPadding workers objs s' with ⟨results, s''⟩
  rw [hall] at hrest
  have hlen : (s''.heap obj).len = length + Shards.padSize workers length := by
    rw [hrest, hheap, hpadded.len]
  cases results with
  | error e =>
      simp only [hall]
      exact hlen
  | ok splitted =>
      simp only [hall]
      exact hlen

end Split

/-! ## Workers -/

section Workers

variable {τ ν ω : Type} {heap : Nat → DataProto τ ν} {workers length size : Nat}
  {parts : List (Nat → DataProto τ ν)}

theorem rows_of_split {objs : List Nat}
    (h : List.Forall₂ (fun obj part => IsSplit (heap obj) workers length size part) objs parts)
    {i j : Nat} (hi : i < workers) (hj : j < size) :
    (parts.map fun part => (part i).row j) =
      objs.map fun obj => (heap obj).row (min (i * size + j) (length - 1)) := by
  induction h with
  | nil => rfl
  | cons hpart _ ih => rw [List.map_cons, List.map_cons, ih, (hpart i hi).2 j hj]

/-- What worker `i` gets. -/
theorem executeAll_spec {worker : List (DataProto τ ν) → List (String × DataProto τ ν) → ω}
    (positional byKeyword : List (Nat → DataProto τ ν)) (keys : List String) :
    executeAll workers worker (positional.map fun part => (List.range workers).map part)
        (keys.zip (byKeyword.map fun part => (List.range workers).map part)) =
      .ok ((List.range workers).map fun i => worker (positional.map fun part => part i)
        ((keys.zip byKeyword).map fun e => (e.1, e.2 i))) := by
  rw [executeAll]
  refine Py.mapM_eq_ok fun i hi => ?_
  have hgetItem (part : Nat → DataProto τ ν) :
      Py.getItem ((List.range workers).map part) i = .ok (part i) := by
    refine Py.getItem_of_some ?_
    rw [List.getElem?_map, List.getElem?_range (List.mem_range.mp hi)]
    rfl
  have hpositional : (positional.map fun part => (List.range workers).map part).mapM
      (fun arg => Py.getItem arg i) = .ok (positional.map fun part => part i) := by
    rw [List.mapM_map]
    exact Py.mapM_eq_ok fun part _ => hgetItem part
  have hbyKeyword : (keys.zip (byKeyword.map fun part => (List.range workers).map part)).mapM
      (fun kwarg => do return (kwarg.1, ← Py.getItem kwarg.2 i)) =
        Except.ok (ε := Py.Error) ((keys.zip byKeyword).map fun e => (e.1, e.2 i)) := by
    rw [List.zip_map_right, List.mapM_map]
    refine Py.mapM_eq_ok fun e _ => ?_
    exact congrArg (fun x => x >>= fun d => Except.ok (e.1, d)) (hgetItem e.2)
  rw [hpositional, Py.ok_bind, hbyKeyword, Py.ok_bind]
  rfl

/-- A worker gets rows of the original arguments. -/
theorem call_of_split {τ' ν' : Type} {fn : RowFn τ ν τ' ν'} {args : List Nat}
    {kwargs : List (String × Nat)} (hne : args ++ kwargs.map Prod.snd ≠ [])
    (h : List.Forall₂ (fun obj part => IsSplit (heap obj) workers length size part)
      (args ++ kwargs.map Prod.snd) parts) {i : Nat} (hi : i < workers) :
    fn.call ((parts.take args.length).map fun part => part i)
        ((((kwargs.map Prod.fst).zip (parts.drop args.length))).map fun e => (e.1, e.2 i)) =
      fn.apply ((List.range size).map fun j => rowArgs (args.map heap)
        (kwargs.map fun e => (e.1, heap e.2)) (min (i * size + j) (length - 1))) := by
  have htake := List.forall₂_take args.length h
  have hdrop := List.forall₂_drop args.length h
  rw [List.take_left] at htake
  rw [List.drop_left] at hdrop
  have hlengths : (parts.drop args.length).length ≤ (kwargs.map Prod.fst).length := by
    rw [← hdrop.length_eq, List.length_map, List.length_map]
  -- the objects that the worker gets
  have hobjects : (parts.take args.length).map (fun part => part i) ++
      (((kwargs.map Prod.fst).zip (parts.drop args.length)).map fun e => (e.1, e.2 i)).map
        Prod.snd = parts.map fun part => part i := by
    have hsnd : (((kwargs.map Prod.fst).zip (parts.drop args.length)).map
        fun e => (e.1, e.2 i)).map Prod.snd = (parts.drop args.length).map fun part => part i := by
      conv_rhs => rw [← List.map_snd_zip hlengths]
      rw [List.map_map, List.map_map]
      rfl
    rw [hsnd, ← List.map_append, List.take_append_drop]
  have hlen : lenOf ((parts.take args.length).map fun part => part i)
      (((kwargs.map Prod.fst).zip (parts.drop args.length)).map fun e => (e.1, e.2 i)) = size := by
    rw [lenOf, hobjects]
    obtain ⟨obj, objs, hobjs⟩ := List.exists_cons_of_ne_nil hne
    rw [hobjs] at h
    cases h with
    | cons hpart _ => exact (hpart i hi).1.len
  rw [RowFn.call, hlen]
  refine congrArg fn.apply (List.map_congr_left fun j hj => ?_)
  have hj := List.mem_range.mp hj
  rw [rowArgs, rowArgs, Prod.mk.injEq]
  constructor
  · rw [List.map_map, List.map_map]
    exact rows_of_split htake hi hj
  · have hkwargs := rows_of_split hdrop hi hj
    rw [List.map_map] at hkwargs
    rw [List.map_map, List.map_map]
    change ((kwargs.map Prod.fst).zip (parts.drop args.length)).map
      (Prod.map id fun part => (part i).row j) = _
    rw [← List.zip_map_right, hkwargs, List.zip_map']
    rfl

end Workers

/-! ## Calls -/

section Calls

variable {τ ν τ' ν' ω : Type} {autoPadding blocking : Bool} {workers length : Nat}
  {args : List Nat} {kwargs : List (String × Nat)} {heap : Nat → DataProto τ ν}

theorem dispatchAndExecute_heap
    (worker : List (DataProto τ ν) → List (String × DataProto τ ν) → ω) :
    (dispatchAndExecute autoPadding workers worker args kwargs heap).2 =
      (splitAll autoPadding workers (args ++ kwargs.map Prod.snd) ⟨heap, none, none⟩).2.heap := by
  rw [dispatchAndExecute]
  rcases splitAll autoPadding workers (args ++ kwargs.map Prod.snd) ⟨heap, none, none⟩ with
    ⟨result, s⟩
  cases result with
  | error e => rfl
  | ok splitted => rfl

theorem dispatchAndExecute_spec
    {worker : List (DataProto τ ν) → List (String × DataProto τ ν) → ω} {size : Nat}
    (hworkers : 0 < workers) (hlength : 1 ≤ length) (hne : args ++ kwargs.map Prod.snd ≠ [])
    (hobjs : ∀ obj ∈ args ++ kwargs.map Prod.snd,
      (heap obj).Aligned length ∧ (heap obj).isPaddingEnabled autoPadding = true)
    (hsize : length + Shards.padSize workers length = workers * size)
    (hdistinct : (args ++ kwargs.map Prod.snd).Nodup ∨ Shards.padSize workers length = 0) :
    ∃ (parts : List (Nat → DataProto τ ν)) (heap' : Nat → DataProto τ ν),
      dispatchAndExecute autoPadding workers worker args kwargs heap =
        (.ok ((List.range workers).map fun i =>
          worker ((parts.take args.length).map fun part => part i)
            (((kwargs.map Prod.fst).zip (parts.drop args.length)).map fun e => (e.1, e.2 i)),
          Shards.padSize workers length), heap') ∧
      List.Forall₂ (fun obj part => IsSplit (heap obj) workers length size part)
        (args ++ kwargs.map Prod.snd) parts ∧
      (Shards.padSize workers length = 0 → heap' = heap) := by
  obtain ⟨parts, s', hsplit, hparts, hpadding, hheap⟩ :=
    @splitAll_spec τ ν ⟨heap, none, none⟩ autoPadding workers length size _ (.inl rfl) hworkers
      hlength hobjs hsize hdistinct
  refine ⟨parts, s'.heap, ?_, hparts, hheap⟩
  rw [dispatchAndExecute, hsplit]
  simp only [← List.map_take, ← List.map_drop, executeAll_spec, hpadding hne, Option.getD_some]
  rfl

/-- The worker function on the original rows. -/
theorem call_original {fn : RowFn τ ν τ' ν'} (hne : args ++ kwargs.map Prod.snd ≠ [])
    (hobjs : ∀ obj ∈ args ++ kwargs.map Prod.snd, (heap obj).Aligned length) :
    fn.call (args.map heap) (kwargs.map fun e => (e.1, heap e.2)) =
      fn.apply ((List.range length).map
        (rowArgs (args.map heap) (kwargs.map fun e => (e.1, heap e.2)))) := by
  have hobjects : args.map heap ++ (kwargs.map fun e => (e.1, heap e.2)).map Prod.snd =
      (args ++ kwargs.map Prod.snd).map heap := by
    rw [List.map_append, List.map_map, List.map_map]
    rfl
  have hlen : lenOf (args.map heap) (kwargs.map fun e => (e.1, heap e.2)) = length := by
    rw [lenOf, hobjects]
    obtain ⟨obj, objs, hcons⟩ := List.exists_cons_of_ne_nil hne
    rw [hcons] at hobjs ⊢
    exact (hobjs obj List.mem_cons_self).len
  rw [RowFn.call, hlen]

/-- Different objects are padded and the padding is cut off again. -/
theorem callProto_spec {fn : RowFn τ ν τ' ν'} (hworkers : 0 < workers) (hlength : 1 ≤ length)
    (hne : args ++ kwargs.map Prod.snd ≠ [])
    (hobjs : ∀ obj ∈ args ++ kwargs.map Prod.snd,
      (heap obj).Aligned length ∧ (heap obj).isPaddingEnabled autoPadding = true)
    (hdistinct : (args ++ kwargs.map Prod.snd).Nodup ∧ blocking = true ∨
      Shards.padSize workers length = 0) :
    ∃ result, (callProto autoPadding blocking workers fn args kwargs heap).1 = .ok result ∧
      result.get = .ok (fn.call (args.map heap) (kwargs.map fun e => (e.1, heap e.2))) := by
  obtain ⟨size, hsize⟩ := Shards.dvd_add_padSize hworkers length
  obtain ⟨parts, heap', hdispatch, hparts, -⟩ := @dispatchAndExecute_spec τ ν _ autoPadding
    workers length args kwargs heap fn.call size hworkers hlength hne hobjs hsize
    (hdistinct.imp And.left id)
  obtain ⟨row, hrow⟩ : ∃ row, row = rowArgs (args.map heap) (kwargs.map fun e => (e.1, heap e.2)) :=
    ⟨_, rfl⟩
  rw [call_original hne fun obj hobj => (hobjs obj hobj).1, ← hrow]
  -- the outputs of the workers, for all rows of the padded arguments
  obtain ⟨outputs, houtputs⟩ : ∃ outputs, outputs = (List.range workers).map fun i =>
      fn.apply ((List.range size).map fun j => row (min (i * size + j) (length - 1))) := ⟨_, rfl⟩
  have hworkersOutputs : ((List.range workers).map fun i =>
      fn.call ((parts.take args.length).map fun part => part i)
        (((kwargs.map Prod.fst).zip (parts.drop args.length)).map fun e => (e.1, e.2 i))) =
        outputs := by
    rw [houtputs, hrow]
    exact List.map_congr_left fun i hi => call_of_split hne hparts (List.mem_range.mp hi)
  have hlengthOutputs : outputs.length = workers := by
    rw [houtputs, List.length_map, List.length_range]
  have hneOutputs : outputs ≠ [] := by
    rw [← List.length_pos_iff, hlengthOutputs]
    exact hworkers
  obtain ⟨rows, hrows⟩ : ∃ rows, rows = (List.range (workers * size)).map fun j =>
      row (min j (length - 1)) := ⟨_, rfl⟩
  have hconcat : DataProto.concat outputs = .ok (fn.apply rows) := by
    have hranges : List.range workers ≠ [] := by
      rw [ne_eq, List.range_eq_nil]
      omega
    have happly := @concat_apply _ _ _ _ fn ((List.range workers).map fun i =>
      (List.range size).map fun j => row (min (i * size + j) (length - 1)))
      (fun h => hranges (List.map_eq_nil_iff.mp h))
    rw [List.map_map, ← List.flatMap_def,
      Shards.flatMap_range_map workers size fun j => row (min j (length - 1)), ← hrows] at happly
    rw [houtputs]
    exact happly
  have hlengthRows : rows.length = length + Shards.padSize workers length := by
    rw [hrows, List.length_map, List.length_range, hsize]
  have htake : rows.take length = (List.range length).map row := by
    rw [hrows, ← List.map_take, List.take_range, ← hsize, Nat.min_eq_left (Nat.le_add_right _ _)]
    refine List.map_congr_left fun j hj => ?_
    have hj := List.mem_range.mp hj
    rw [Nat.min_eq_left (by omega)]
  have hcollect : ∃ result,
      collectProto blocking workers (Shards.padSize workers length) outputs = .ok result ∧
        result.get = .ok (fn.apply ((List.range length).map row)) := by
    rw [collectProto, Py.check_of_true hneOutputs, Py.ok_bind, Py.check_of_true hlengthOutputs,
      Py.ok_bind]
    by_cases hpad : Shards.padSize workers length = 0
    · rw [hpad, Nat.add_zero] at hlengthRows
      rw [List.take_of_length_le hlengthRows.le] at htake
      rw [hpad, ← htake]
      cases blocking with
      | false => exact ⟨.future outputs, rfl, hconcat⟩
      | true =>
          refine ⟨.proto (fn.apply rows), ?_, rfl⟩
          rw [if_pos rfl, hconcat, Py.ok_bind, if_neg (Nat.lt_irrefl 0)]
          rfl
    · obtain ⟨-, hblocking⟩ | hzero := hdistinct
      · have hindices : Py.dropEnd (List.range (fn.apply rows).len)
            (Shards.padSize workers length) = List.range length := by
          rw [(aligned_apply rows).len, hlengthRows, Py.dropEnd, if_neg hpad, List.length_range,
            Nat.add_sub_cancel, List.take_range, Nat.min_eq_left (Nat.le_add_right _ _)]
        refine ⟨.proto (fn.apply ((List.range length).map row)), ?_, rfl⟩
        rw [hblocking, if_pos rfl, hconcat, Py.ok_bind, if_pos (Nat.pos_of_ne_zero hpad), hindices,
          selectIdxs_apply rows (by omega), htake]
        rfl
      · exact absurd hzero hpad
  obtain ⟨result, hresult, hget⟩ := hcollect
  refine ⟨result, ?_, hget⟩
  rw [callProto, hdispatch, hworkersOutputs]
  exact hresult

/-- The padding count of rows is cut off the outputs of the workers. -/
theorem callMetric_spec {worker : List (DataProto τ ν) → List (String × DataProto τ ν) → ω}
    (hworkers : 0 < workers) (hlength : 1 ≤ length) (hne : args ++ kwargs.map Prod.snd ≠ [])
    (hobjs : ∀ obj ∈ args ++ kwargs.map Prod.snd,
      (heap obj).Aligned length ∧ (heap obj).isPaddingEnabled autoPadding = true)
    (hdistinct : (args ++ kwargs.map Prod.snd).Nodup ∨ Shards.padSize workers length = 0) :
    ∃ outputs, (callMetric autoPadding workers worker args kwargs heap).1 = .ok outputs ∧
      outputs.length = workers - Shards.padSize workers length := by
  obtain ⟨size, hsize⟩ := Shards.dvd_add_padSize hworkers length
  obtain ⟨parts, heap', hdispatch, -, -⟩ := @dispatchAndExecute_spec τ ν ω autoPadding workers
    length args kwargs heap worker size hworkers hlength hne hobjs hsize hdistinct
  rw [callMetric, hdispatch]
  simp only [Py.ok_bind, collectMetric, List.length_map, List.length_range, Py.check_of_true]
  refine ⟨_, rfl, ?_⟩
  split
  next hpad =>
    rw [Py.dropEnd, if_neg hpad.ne', List.length_take, List.length_map, List.length_range]
    omega
  next hpad =>
    rw [List.length_map, List.length_range]
    omega

/-- An object has the rows that it had. -/
def KeepsRows (d original : DataProto τ ν) (length : Nat) : Prop :=
  d.len = length ∧ ∀ j < length, d.row j = original.row j

/-- What the caller is promised of a call on rows `0` to `length - 1`. -/
structure AutoPaddingInvisible (autoPadding blocking : Bool) (workers length : Nat)
    (fn : RowFn τ ν τ' ν') (worker : List (DataProto τ ν) → List (String × DataProto τ ν) → ω)
    (args : List Nat) (kwargs : List (String × Nat)) (heap : Nat → DataProto τ ν) : Prop where
  proto : ∃ result data,
    (callProto autoPadding blocking workers fn args kwargs heap).1 = .ok result ∧
      result.get = .ok data ∧ data.Aligned length ∧
      data = fn.apply ((List.range length).map
        (rowArgs (args.map heap) (kwargs.map fun e => (e.1, heap e.2))))
  protoHeap : ∀ obj ∈ args ++ kwargs.map Prod.snd,
    KeepsRows ((callProto autoPadding blocking workers fn args kwargs heap).2 obj) (heap obj) length
  metric : ∃ outputs, (callMetric autoPadding workers worker args kwargs heap).1 = .ok outputs ∧
    outputs.length = workers
  metricHeap : ∀ obj ∈ args ++ kwargs.map Prod.snd,
    KeepsRows ((callMetric autoPadding workers worker args kwargs heap).2 obj) (heap obj) length

/-- A call is right, with the arguments as they were, exactly for a multiple of the
number of workers. -/
theorem autoPaddingInvisible_iff (fn : RowFn τ ν τ' ν')
    (worker : List (DataProto τ ν) → List (String × DataProto τ ν) → ω) (hworkers : 1 ≤ workers)
    (hlength : 1 ≤ length) (hne : args ++ kwargs.map Prod.snd ≠ [])
    (hobjs : ∀ obj ∈ args ++ kwargs.map Prod.snd,
      (heap obj).Aligned length ∧ (heap obj).isPaddingEnabled autoPadding = true) :
    AutoPaddingInvisible autoPadding blocking workers length fn worker args kwargs heap ↔
      workers ∣ length := by
  constructor
  · intro h
    by_contra hdvd
    have hpad : Shards.padSize workers length ≠ 0 := by
      intro hzero
      have hmultiple := Shards.dvd_add_padSize hworkers length
      rw [hzero, Nat.add_zero] at hmultiple
      exact hdvd hmultiple
    obtain ⟨obj, objs, hcons⟩ := List.exists_cons_of_ne_nil hne
    have hobj : obj ∈ args ++ kwargs.map Prod.snd := hcons ▸ List.mem_cons_self
    obtain ⟨haligned, henabled⟩ := hobjs obj hobj
    have hfirst := @splitAll_first τ ν ⟨heap, none, none⟩ autoPadding workers length obj objs
      (.inl rfl) hworkers hlength haligned henabled hpad
    rw [← hcons, ← dispatchAndExecute_heap fn.call] at hfirst
    have hkept := (h.protoHeap obj hobj).1
    rw [callProto, hfirst] at hkept
    omega
  · intro hdvd
    have hzero : Shards.padSize workers length = 0 :=
      Shards.padSize_of_mod_eq_zero (Nat.mod_eq_zero_of_dvd hdvd)
    obtain ⟨size, hsize⟩ := Shards.dvd_add_padSize hworkers length
    have hheap {ω : Type} (worker : List (DataProto τ ν) → List (String × DataProto τ ν) → ω) :
        ∃ outputs, outputs.length = workers ∧
          dispatchAndExecute autoPadding workers worker args kwargs heap =
            (.ok (outputs, 0), heap) := by
      obtain ⟨parts, heap', hdispatch, -, hsame⟩ :=
        @dispatchAndExecute_spec τ ν ω autoPadding workers length args kwargs heap worker size
          hworkers hlength hne hobjs hsize (.inr hzero)
      rw [hzero, hsame hzero] at hdispatch
      refine ⟨_, ?_, hdispatch⟩
      rw [List.length_map, List.length_range]
    have hkeeps : ∀ obj ∈ args ++ kwargs.map Prod.snd, KeepsRows (heap obj) (heap obj) length :=
      fun obj hobj => ⟨(hobjs obj hobj).1.len, fun _ _ => rfl⟩
    obtain ⟨outputs, houtputs, hmetric⟩ := hheap worker
    obtain ⟨_, -, hproto⟩ := hheap fn.call
    obtain ⟨result, hresult, hget⟩ := @callProto_spec τ ν τ' ν' autoPadding blocking workers length
      args kwargs heap fn hworkers hlength hne hobjs (.inr hzero)
    rw [call_original hne fun obj hobj => (hobjs obj hobj).1] at hget
    refine ⟨⟨result, _, hresult, hget, ?_, rfl⟩, ?_, ⟨outputs, ?_, houtputs⟩, ?_⟩
    · have haligned := @aligned_apply τ ν τ' ν' fn ((List.range length).map
        (rowArgs (args.map heap) (kwargs.map fun e => (e.1, heap e.2))))
      rwa [List.length_map, List.length_range] at haligned
    · rw [callProto, hproto]
      exact hkeeps
    · rw [callMetric, hmetric]
      change collectMetric workers 0 outputs = .ok outputs
      rw [collectMetric, Py.check_of_true houtputs]
      rfl
    · rw [callMetric, hmetric]
      exact hkeeps

/-- A batch with one tensor column. -/
def oneColumn (rows : List Nat) : DataProto Nat Nat where
  batch := some ⟨rows.length, .ofKeys ["input_ids"] (List.nodup_singleton _) fun _ => rows⟩
  nonTensorBatch := .empty
  autoPadding := false

theorem aligned_oneColumn (rows : List Nat) : (oneColumn rows).Aligned rows.length := by
  refine ⟨fun batch hbatch => ?_, fun batch hbatch e he => ?_, fun e he => ?_, .inl ?_⟩
  · rw [← Option.some.inj hbatch]
  · rw [← Option.some.inj hbatch] at he
    rw [List.mem_singleton.mp he]
  · exact absurd he List.not_mem_nil
  · exact Option.some_ne_none _

/-- The number of arguments, for every row. -/
def countArgs : RowFn Nat Nat Nat Nat where
  withBatch := true
  tensorKeys := ["count"]
  tensorKeys_nodup := List.nodup_singleton _
  nonTensorKeys := []
  nonTensorKeys_nodup := List.nodup_nil
  tensor _ rows := rows.1.length + rows.2.length
  nonTensor _ _ := 0
  autoPadding := false
  columns := .inl rfl

/-- Two rows and two workers. -/
theorem autoPaddingInvisible_two :
    AutoPaddingInvisible true true 2 2 countArgs (fun _ _ => 0) [0] [("other", 0)]
      fun _ => oneColumn [7, 8] :=
  (autoPaddingInvisible_iff countArgs (fun _ _ => 0) (by decide) (by decide) (by decide)
    fun _ _ => ⟨aligned_oneColumn [7, 8], rfl⟩).mpr (by decide)

/-- One row and two workers. -/
theorem not_autoPaddingInvisible_one :
    (oneColumn [7]).Aligned 1 ∧ (oneColumn [7]).isPaddingEnabled true = true ∧
      ¬ AutoPaddingInvisible true true 2 1 countArgs (fun _ _ => 0) [0] []
      fun _ => oneColumn [7] := by
  refine ⟨aligned_oneColumn [7], rfl, fun h => ?_⟩
  obtain ⟨outputs, houtputs, hlength⟩ := h.metric
  have hone : (callMetric true 2 (fun _ _ => 0) [0] [] fun _ => oneColumn [7]).1 = .ok [0] := rfl
  rw [hone, Except.ok.injEq] at houtputs
  rw [← houtputs] at hlength
  cases hlength

end Calls

end Verl
