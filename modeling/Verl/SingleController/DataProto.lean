import Verl.Lib.Dict
import Verl.Lib.Python

/-!
# DataProto

The batches that the controller sends to its workers: tensor columns with a batch
size, and columns of objects.  Every operation here takes the rows of each column in
the same way, so what an operation does is said by `row`: which row of the argument a
row of the result is.
-/

namespace Verl

/-- Columns by their names. -/
abbrev Columns (α : Type) : Type := Py.Dict String (List α)

/-- `TensorDict`.  An entry of a column is one row of a tensor. -/
structure TensorDict (τ : Type) where
  batchSize : Nat
  columns : Columns τ

/-- `DataProto`.  Of `meta_info` only the padding key is kept. -/
structure DataProto (τ ν : Type) where
  batch : Option (TensorDict τ)
  nonTensorBatch : Columns ν
  autoPadding : Bool

/-- A row: what the columns have at one index. -/
structure Row (τ ν : Type) where
  tensors : Option (Py.Dict String (Option τ))
  nonTensors : Py.Dict String (Option ν)

namespace DataProto

variable {τ ν : Type}

/-! ## The source functions -/

/-- `__len__`. -/
def len (d : DataProto τ ν) : Nat :=
  match d.batch with
  | some batch => batch.batchSize
  | none =>
      match d.nonTensorBatch.entries with
      | [] => 0
      | e :: _ => e.2.length

/-- `check_consistency`. -/
def checkConsistency (d : DataProto τ ν) : Except Py.Error (DataProto τ ν) :=
  match d.batch with
  | none => .ok d
  | some batch => do
      d.nonTensorBatch.entries.forM fun e =>
        Py.check (e.2.length = batch.batchSize)
          s!"key {e.1} length {e.2.length} is not equal to batch size {batch.batchSize}"
      return d

/-- The same operation on all columns. -/
def mapColumns (d : DataProto τ ν) (size : Nat → Nat) (f : List τ → List τ)
    (g : List ν → List ν) : DataProto τ ν where
  batch := d.batch.map fun batch => ⟨size batch.batchSize, batch.columns.mapValues f⟩
  nonTensorBatch := d.nonTensorBatch.mapValues g
  autoPadding := d.autoPadding

/-- All columns have these indices. -/
def HasRows (d : DataProto τ ν) (idxs : List Nat) : Prop :=
  (∀ batch ∈ d.batch, ∀ e ∈ batch.columns.entries, ∀ i ∈ idxs, i < e.2.length) ∧
    ∀ e ∈ d.nonTensorBatch.entries, ∀ i ∈ idxs, i < e.2.length

instance (d : DataProto τ ν) (idxs : List Nat) : Decidable (d.HasRows idxs) :=
  inferInstanceAs (Decidable (_ ∧ _))

/-- `val[idxs]`. -/
def takeRows {α : Type} (idxs : List Nat) (column : List α) : List α :=
  idxs.filterMap fun i => column[i]?

/-- `select_idxs`. -/
def selectIdxs (d : DataProto τ ν) (idxs : List Nat) : Except Py.Error (DataProto τ ν) :=
  if d.HasRows idxs then
    (d.mapColumns (fun _ => idxs.length) (takeRows idxs) (takeRows idxs)).checkConsistency
  else .error .index

/-- `repeat_interleave` of every row. -/
def repeatRows {α : Type} (times : Nat) (column : List α) : List α :=
  column.flatMap (List.replicate times)

/-- `repeat` with the default `interleave=True`. -/
def repeatTimes (d : DataProto τ ν) (times : Nat) : Except Py.Error (DataProto τ ν) :=
  (d.mapColumns (· * times) (repeatRows times) (repeatRows times)).checkConsistency

/-- The columns of the first, each followed by those of the others. -/
def concatColumns {α : Type} (first : Columns α) (all : List (Columns α)) : Columns α :=
  first.mapEntries fun k _ => all.flatMap fun columns => (columns.get? k).getD []

/-- `torch.cat(batch_lst, dim=0) if batch_lst[0] is not None else None`. -/
def catBatches : List (Option (TensorDict τ)) → Except Py.Error (Option (TensorDict τ))
  | [] => .error .index
  | none :: _ => .ok none
  | some first :: rest => do
      let others ← rest.mapM fun batch =>
        match batch with
        | some batch => Except.ok batch
        | none => .error (.type "expected a TensorDict")
      if others.all fun batch => batch.columns.keys = first.columns.keys then
        return some ⟨((first :: others).map TensorDict.batchSize).sum,
          concatColumns first.columns ((first :: others).map TensorDict.columns)⟩
      else .error .key

/-- `list_of_dict_to_dict_of_list`, and `np.concatenate` of every list. -/
def catNonTensors : List (Columns ν) → Except Py.Error (Columns ν)
  | [] => .ok Py.Dict.empty
  | first :: rest => do
      rest.forM fun columns =>
        Py.check (∀ k ∈ columns.keys, k ∈ first.keys)
          "Key is not present in the keys of the first dictionary in the list."
      return concatColumns first (first :: rest)

/-- `concat`. -/
def concat (data : List (DataProto τ ν)) : Except Py.Error (DataProto τ ν) := do
  let batch ← catBatches (data.map DataProto.batch)
  let nonTensorBatch ← catNonTensors (data.map DataProto.nonTensorBatch)
  checkConsistency ⟨batch, nonTensorBatch, data.any DataProto.autoPadding⟩

/-- `is_padding_enabled`, with the global setting. -/
def isPaddingEnabled (autoPadding : Bool) (d : DataProto τ ν) : Bool := d.autoPadding || autoPadding

/-- `padding` with the default `padding_candidate`.  It changes the object, and this is
the object afterwards. -/
def padding (d : DataProto τ ν) (paddingSize : Nat) : Except Py.Error (DataProto τ ν) :=
  if paddingSize = 0 then .ok d
  else do
    let paddingCandidate ← d.selectIdxs [d.len - 1]
    let paddingPart ← paddingCandidate.repeatTimes paddingSize
    let padded ← concat [d, paddingPart]
    return { d with batch := padded.batch, nonTensorBatch := padded.nonTensorBatch }

/-- The rows of a chunk. -/
def chunkRows {α : Type} (size i : Nat) (column : List α) : List α :=
  (column.drop (i * size)).take size

/-- `chunk`.  A padded object has a multiple of `chunks` rows, so all chunks are of one
size. -/
def chunk (autoPadding : Bool) (d : DataProto τ ν) (chunks : Nat) :
    Except Py.Error (List (DataProto τ ν)) := do
  if d.isPaddingEnabled autoPadding = false then
    Py.check (d.len % chunks = 0)
      s!"only support equal chunk. Got size of DataProto {d.len} and chunk {chunks}."
  if d.len % chunks = 0 then
    return (List.range chunks).map fun i =>
      d.mapColumns (fun _ => d.len / chunks) (chunkRows (d.len / chunks) i)
        (chunkRows (d.len / chunks) i)
  else .error .index

/-- The row of an index. -/
def row (d : DataProto τ ν) (i : Nat) : Row τ ν where
  tensors := d.batch.map fun batch => batch.columns.mapValues fun column => column[i]?
  nonTensors := d.nonTensorBatch.mapValues fun column => column[i]?

/-! ## Rows -/

/-- All columns have `n` rows, and there is one. -/
structure Aligned (d : DataProto τ ν) (n : Nat) : Prop where
  batchSize : ∀ batch ∈ d.batch, batch.batchSize = n
  tensors : ∀ batch ∈ d.batch, ∀ e ∈ batch.columns.entries, e.2.length = n
  nonTensors : ∀ e ∈ d.nonTensorBatch.entries, e.2.length = n
  columns : d.batch ≠ none ∨ d.nonTensorBatch.entries ≠ []

variable {d : DataProto τ ν} {n : Nat}

theorem Aligned.len (h : d.Aligned n) : d.len = n := by
  rw [DataProto.len]
  cases hbatch : d.batch with
  | some batch => exact h.batchSize batch hbatch
  | none =>
      cases hentries : d.nonTensorBatch.entries with
      | nil =>
          obtain hne | hne := h.columns
          · exact absurd hbatch hne
          · exact absurd hentries hne
      | cons e entries => exact h.nonTensors e (hentries ▸ List.mem_cons_self)

theorem Aligned.hasRows (h : d.Aligned n) {idxs : List Nat} (hidxs : ∀ i ∈ idxs, i < n) :
    d.HasRows idxs := by
  refine ⟨fun batch hbatch e he i hi => ?_, fun e he i hi => ?_⟩
  · rw [h.tensors batch hbatch e he]
    exact hidxs i hi
  · rw [h.nonTensors e he]
    exact hidxs i hi

theorem Aligned.checkConsistency (h : d.Aligned n) : d.checkConsistency = .ok d := by
  rw [DataProto.checkConsistency]
  cases hbatch : d.batch with
  | none => rfl
  | some batch =>
      have hsizes : ∀ e ∈ d.nonTensorBatch.entries, e.2.length = batch.batchSize := by
        intro e he
        rw [h.nonTensors e he, h.batchSize batch hbatch]
      simp only [Py.forM_check hsizes, Py.ok_bind]
      rfl

/-- An operation on columns of `n` rows that gives columns of `m` rows. -/
theorem Aligned.mapColumns (h : d.Aligned n) {m : Nat} {size : Nat → Nat} {f : List τ → List τ}
    {g : List ν → List ν} (hsize : size n = m)
    (hf : ∀ column, column.length = n → (f column).length = m)
    (hg : ∀ column, column.length = n → (g column).length = m) :
    (d.mapColumns size f g).Aligned m := by
  refine ⟨fun batch hbatch => ?_, fun batch hbatch e he => ?_, fun e he => ?_, ?_⟩
  · obtain ⟨batch', hbatch', rfl⟩ := Option.map_eq_some_iff.mp hbatch
    rw [← hsize, ← h.batchSize batch' hbatch']
  · obtain ⟨batch', hbatch', rfl⟩ := Option.map_eq_some_iff.mp hbatch
    obtain ⟨e', he', rfl⟩ := List.mem_map.mp he
    exact hf e'.2 (h.tensors batch' hbatch' e' he')
  · obtain ⟨e', he', rfl⟩ := List.mem_map.mp he
    exact hg e'.2 (h.nonTensors e' he')
  · refine h.columns.imp (fun hne hnone => ?_) fun hne hnil => ?_
    · exact hne (Option.map_eq_none_iff.mp hnone)
    · exact hne (List.map_eq_nil_iff.mp hnil)

theorem mapColumns_mapColumns (d : DataProto τ ν) (size size' : Nat → Nat)
    (f f' : List τ → List τ) (g g' : List ν → List ν) :
    (d.mapColumns size f g).mapColumns size' f' g' =
      d.mapColumns (fun k => size' (size k)) (fun column => f' (f column))
        fun column => g' (g column) := by
  rw [mapColumns, mapColumns, mapColumns, DataProto.mk.injEq]
  refine ⟨?_, Py.Dict.mapValues_mapValues _ _ _, rfl⟩
  cases d.batch with
  | none => rfl
  | some batch =>
      exact congrArg (fun columns => some (TensorDict.mk _ columns))
        (Py.Dict.mapValues_mapValues batch.columns f f')

/-- Where a row of the result comes from. -/
theorem Aligned.row_mapColumns (h : d.Aligned n) {size : Nat → Nat} {f : List τ → List τ}
    {g : List ν → List ν} {i j : Nat}
    (hf : ∀ column, column.length = n → (f column)[j]? = column[i]?)
    (hg : ∀ column, column.length = n → (g column)[j]? = column[i]?) :
    (d.mapColumns size f g).row j = d.row i := by
  rw [row, row, Row.mk.injEq]
  constructor
  · change Option.map _ (Option.map _ d.batch) = _
    rw [Option.map_map]
    refine Option.map_congr fun batch hbatch => ?_
    change ((batch.columns.mapValues f).mapValues fun column => column[j]?) = _
    rw [Py.Dict.mapValues_mapValues]
    exact Py.Dict.mapValues_congr fun e he => hf e.2 (h.tensors batch hbatch e he)
  · change ((d.nonTensorBatch.mapValues g).mapValues fun column => column[j]?) = _
    rw [Py.Dict.mapValues_mapValues]
    exact Py.Dict.mapValues_congr fun e he => hg e.2 (h.nonTensors e he)

theorem takeRows_range {α : Type} {column : List α} {count : Nat} (h : count ≤ column.length) :
    takeRows (List.range count) column = column.take count := by
  induction count with
  | zero => rfl
  | succ count ih =>
      have hget := List.getElem?_eq_getElem (show count < column.length from h)
      have hlast : takeRows [count] column = [column[count]] := List.filterMap_cons_some hget
      have hinit := ih (by omega)
      rw [takeRows] at hinit hlast ⊢
      rw [List.range_succ, List.filterMap_append, hinit, hlast]
      exact List.take_append_getElem h

/-! ## Padding -/

section Columns

variable {α : Type}

/-- The rows of a column, and its last row `padSize` times. -/
def padRows (length padSize : Nat) (column : List α) : List α :=
  column ++ repeatRows padSize (takeRows [length - 1] column)

theorem padRows_eq {column : List α} {length padSize : Nat} (hlength : column.length = length)
    (hpos : 1 ≤ length) :
    ∃ last, column[length - 1]? = some last ∧
      padRows length padSize column = column ++ List.replicate padSize last := by
  have hlast : length - 1 < column.length := by omega
  have hget := List.getElem?_eq_getElem hlast
  refine ⟨column[length - 1], hget, ?_⟩
  have htake : takeRows [length - 1] column = [column[length - 1]] :=
    List.filterMap_cons_some hget
  rw [padRows, htake, repeatRows, List.flatMap_singleton]

theorem length_takeRows_last {column : List α} {length : Nat} (hpos : 1 ≤ length)
    (hlength : column.length = length) : (takeRows [length - 1] column).length = 1 := by
  have hget := List.getElem?_eq_getElem (show length - 1 < column.length by omega)
  have htake : takeRows [length - 1] column = [column[length - 1]] :=
    List.filterMap_cons_some hget
  rw [htake, List.length_singleton]

theorem length_padRows {column : List α} {length padSize : Nat} (hlength : column.length = length)
    (hpos : 1 ≤ length) : (padRows length padSize column).length = length + padSize := by
  obtain ⟨last, -, heq⟩ := padRows_eq hlength hpos
  rw [heq, List.length_append, List.length_replicate, hlength]

/-- A row of the padding is the last row. -/
theorem getElem?_padRows {column : List α} {length padSize j : Nat}
    (hlength : column.length = length) (hpos : 1 ≤ length) (hj : j < length + padSize) :
    (padRows length padSize column)[j]? = column[min j (length - 1)]? := by
  obtain ⟨last, hlast, heq⟩ := padRows_eq hlength hpos
  rw [heq]
  by_cases hin : j < length
  · rw [List.getElem?_append_left (hlength ▸ hin), Nat.min_eq_left (by omega)]
  · rw [List.getElem?_append_right (by omega), Nat.min_eq_right (by omega), hlast,
      List.getElem?_replicate, if_pos (by omega)]

end Columns

/-! ## Concatenation -/

theorem catBatches_some {first : TensorDict τ} {rest : List (TensorDict τ)}
    (hkeys : ∀ batch ∈ rest, batch.columns.keys = first.columns.keys) :
    catBatches ((first :: rest).map some) =
      .ok (some ⟨((first :: rest).map TensorDict.batchSize).sum,
        concatColumns first.columns ((first :: rest).map TensorDict.columns)⟩) := by
  have hall : (rest.all fun batch => batch.columns.keys = first.columns.keys) = true := by
    rw [List.all_eq_true]
    exact fun batch hbatch => decide_eq_true (hkeys batch hbatch)
  have hothers : (rest.map some).mapM (fun batch : Option (TensorDict τ) =>
      match batch with
      | some batch => Except.ok (ε := Py.Error) batch
      | none => .error (.type "expected a TensorDict")) = .ok rest := by
    have hid := @Py.mapM_eq_ok _ _ (fun batch : TensorDict τ => .ok batch) id rest fun _ _ => rfl
    rw [List.map_id] at hid
    rw [List.mapM_map]
    exact hid
  rw [List.map_cons, catBatches, hothers, Py.ok_bind, if_pos hall]
  rfl

theorem catNonTensors_of_keys {first : Columns ν} {rest : List (Columns ν)}
    (hkeys : ∀ columns ∈ rest, columns.keys = first.keys) :
    catNonTensors (first :: rest) = .ok (concatColumns first (first :: rest)) := by
  have hchecks : ∀ columns ∈ rest, ∀ k ∈ columns.keys, k ∈ first.keys := by
    intro columns hcolumns k hk
    rwa [← hkeys columns hcolumns]
  rw [catNonTensors, Py.forM_check hchecks, Py.ok_bind]
  rfl

/-- A concatenation with columns that are functions of the first ones. -/
theorem concatColumns_mapValues {α ι : Type} (columns : Columns α) (xs : List ι)
    (f : ι → List α → List α) :
    concatColumns columns (columns :: xs.map fun x => columns.mapValues (f x)) =
      columns.mapValues fun column => column ++ xs.flatMap fun x => f x column := by
  rw [concatColumns, Py.Dict.mapValues_eq_mapEntries]
  refine Py.Dict.mapEntries_congr fun k column hmem => ?_
  have hget := Py.Dict.mem_entries_iff.mp hmem
  rw [List.flatMap_cons, hget, Option.getD_some, List.flatMap_map]
  simp only [Py.Dict.get?_mapValues, hget, Option.map_some, Option.getD_some]

theorem length_append_flatMap {α ι : Type} {column : List α} {xs : List ι}
    {f : ι → List α → List α} {size : ι → Nat}
    (hf : ∀ x ∈ xs, (f x column).length = size x) :
    (column ++ xs.flatMap fun x => f x column).length =
      column.length + (xs.map size).sum := by
  rw [List.length_append, List.length_flatMap, List.map_congr_left hf]

/-- A batch followed by rows made from its own columns. -/
theorem concat_map_mapColumns {ι : Type} (hd : d.Aligned n) {xs : List ι}
    {size : ι → Nat → Nat} {f : ι → List τ → List τ} {g : ι → List ν → List ν}
    (hf : ∀ x ∈ xs, ∀ column, column.length = n → (f x column).length = size x n)
    (hg : ∀ x ∈ xs, ∀ column, column.length = n → (g x column).length = size x n) :
    concat (d :: xs.map fun x => d.mapColumns (size x) (f x) (g x)) =
      .ok (d.mapColumns (fun k => k + (xs.map fun x => size x k).sum)
        (fun column => column ++ xs.flatMap fun x => f x column)
        fun column => column ++ xs.flatMap fun x => g x column) := by
  have hbatches : catBatches
      (d.batch :: xs.map fun x => (d.mapColumns (size x) (f x) (g x)).batch) =
      .ok (d.mapColumns (fun k => k + (xs.map fun x => size x k).sum)
        (fun column => column ++ xs.flatMap fun x => f x column)
        fun column => column ++ xs.flatMap fun x => g x column).batch := by
    simp only [mapColumns]
    cases d.batch with
    | none => rfl
    | some batch =>
        have hcat := @catBatches_some τ batch
          (xs.map fun x => ⟨size x batch.batchSize, batch.columns.mapValues (f x)⟩)
          fun other hother => by
            obtain ⟨x, -, rfl⟩ := List.mem_map.mp hother
            exact Py.Dict.keys_mapValues _ _
        rw [List.map_cons, List.map_map] at hcat
        refine hcat.trans ?_
        rw [List.map_cons, List.map_map, List.map_cons, List.map_map, List.sum_cons]
        exact congrArg (fun columns => Except.ok (some (TensorDict.mk _ columns)))
          (concatColumns_mapValues batch.columns xs f)
  have hnonTensors : catNonTensors
      (d.nonTensorBatch :: xs.map fun x => (d.mapColumns (size x) (f x) (g x)).nonTensorBatch) =
      .ok (d.nonTensorBatch.mapValues fun column => column ++ xs.flatMap fun x => g x column) := by
    rw [catNonTensors_of_keys fun columns hcolumns => ?_]
    · exact congrArg Except.ok (concatColumns_mapValues d.nonTensorBatch xs g)
    · obtain ⟨x, -, rfl⟩ := List.mem_map.mp hcolumns
      exact Py.Dict.keys_mapValues _ _
  have haligned : (d.mapColumns (fun k => k + (xs.map fun x => size x k).sum)
      (fun column => column ++ xs.flatMap fun x => f x column)
      fun column => column ++ xs.flatMap fun x => g x column).Aligned
        (n + (xs.map fun x => size x n).sum) := by
    refine hd.mapColumns rfl (fun column hcolumn => ?_) fun column hcolumn => ?_
    · rw [length_append_flatMap fun x hx => hf x hx column hcolumn, hcolumn]
    · rw [length_append_flatMap fun x hx => hg x hx column hcolumn, hcolumn]
  have hflag : ((d :: xs.map fun x => d.mapColumns (size x) (f x) (g x)).any
      DataProto.autoPadding) = d.autoPadding := by
    rw [List.any_cons, List.any_map]
    cases hauto : d.autoPadding with
    | true => rfl
    | false =>
        refine List.any_eq_false.mpr fun x _ => ?_
        rw [Function.comp_apply, mapColumns, hauto]
        exact Bool.false_ne_true
  rw [concat, List.map_cons, List.map_map, List.map_cons, List.map_map]
  simp only [Function.comp_def]
  rw [hbatches, Py.ok_bind, hnonTensors, Py.ok_bind, hflag]
  exact haligned.checkConsistency

/-- The same for one batch. -/
theorem concat_mapColumns (hd : d.Aligned n) {m : Nat} {size : Nat → Nat} {f : List τ → List τ}
    {g : List ν → List ν} (hsize : size n = m)
    (hf : ∀ column, column.length = n → (f column).length = m)
    (hg : ∀ column, column.length = n → (g column).length = m) :
    concat [d, d.mapColumns size f g] =
      .ok (d.mapColumns (fun k => k + size k) (fun column => column ++ f column)
        fun column => column ++ g column) := by
  have hconcat := @concat_map_mapColumns τ ν d n Unit hd [()] (fun _ => size) (fun _ => f)
    (fun _ => g) (fun _ _ column h => hsize ▸ hf column h) fun _ _ column h => hsize ▸ hg column h
  simp only [List.map_cons, List.map_nil, List.sum_cons, List.sum_nil, Nat.add_zero,
    List.flatMap_cons, List.flatMap_nil, List.append_nil] at hconcat
  exact hconcat

/-- Padding adds copies of the last row. -/
theorem padding_spec (hd : d.Aligned n) (hpos : 1 ≤ n) (padSize : Nat) :
    ∃ padded, d.padding padSize = .ok padded ∧ padded.Aligned (n + padSize) ∧
      padded.autoPadding = d.autoPadding ∧
      ∀ j < n + padSize, padded.row j = d.row (min j (n - 1)) := by
  rw [padding]
  by_cases hzero : padSize = 0
  · refine ⟨d, if_pos hzero, by rwa [hzero], rfl, fun j hj => ?_⟩
    rw [Nat.min_eq_left (by omega)]
  · have hcandidate : d.selectIdxs [d.len - 1] =
        .ok (d.mapColumns (fun _ => 1) (takeRows [n - 1]) (takeRows [n - 1])) := by
      rw [hd.len, selectIdxs, if_pos (hd.hasRows fun i hi => by
        rw [List.mem_singleton.mp hi]
        omega)]
      exact (hd.mapColumns rfl (fun _ => length_takeRows_last hpos)
        fun _ => length_takeRows_last hpos).checkConsistency
    have hlast {α : Type} (column : List α) (hcolumn : column.length = n) :
        (repeatRows padSize (takeRows [n - 1] column)).length = padSize := by
      have hlength := @length_padRows α column n padSize hcolumn hpos
      rw [padRows, List.length_append, hcolumn] at hlength
      omega
    have hpart : (d.mapColumns (fun _ => 1) (takeRows [n - 1]) (takeRows [n - 1])).repeatTimes
        padSize = .ok (d.mapColumns (fun _ => padSize)
          (fun column => repeatRows padSize (takeRows [n - 1] column))
          fun column => repeatRows padSize (takeRows [n - 1] column)) := by
      rw [repeatTimes, mapColumns_mapColumns, Nat.one_mul]
      exact (hd.mapColumns rfl hlast hlast).checkConsistency
    have hconcat := @concat_mapColumns τ ν d n hd padSize (fun _ => padSize) _ _ rfl hlast hlast
    refine ⟨d.mapColumns (· + padSize) (padRows n padSize) (padRows n padSize), ?_, ?_, rfl,
      fun j hj => ?_⟩
    · rw [if_neg hzero, hcandidate, Py.ok_bind, hpart, Py.ok_bind, hconcat]
      rfl
    · exact hd.mapColumns rfl (fun _ h => length_padRows h hpos) fun _ h => length_padRows h hpos
    · exact hd.row_mapColumns (fun _ h => getElem?_padRows h hpos hj)
        fun _ h => getElem?_padRows h hpos hj

/-! ## Chunks -/

/-- Chunk `i` of `size` rows. -/
def part (size i : Nat) (d : DataProto τ ν) : DataProto τ ν :=
  d.mapColumns (fun _ => size) (chunkRows size i) (chunkRows size i)

theorem chunk_eq {size count : Nat} (hd : d.Aligned (count * size)) (hcount : 0 < count)
    (autoPadding : Bool) :
    d.chunk autoPadding count = .ok ((List.range count).map fun i => d.part size i) := by
  have hmod : d.len % count = 0 := by rw [hd.len, Nat.mul_mod_right]
  have hdiv : d.len / count = size := by rw [hd.len, Nat.mul_div_cancel_left _ hcount]
  rw [chunk]
  split
  · rw [Py.check_of_true hmod, Py.ok_bind, hdiv]
    rfl
  · rw [hdiv]
    rfl

theorem Aligned.part {size count i : Nat} (hd : d.Aligned (count * size)) (hi : i < count) :
    (d.part size i).Aligned size := by
  have hfits := Nat.mul_le_mul_right size (show i + 1 ≤ count from hi)
  rw [Nat.succ_mul] at hfits
  refine hd.mapColumns rfl (fun column h => ?_) fun column h => ?_
  · rw [chunkRows, List.length_take, List.length_drop]
    omega
  · rw [chunkRows, List.length_take, List.length_drop]
    omega

/-- Row `j` of chunk `i`, for all columns. -/
theorem Aligned.row_part {size i j : Nat} (hd : d.Aligned n) (hj : j < size) :
    (d.part size i).row j = d.row (i * size + j) := by
  refine hd.row_mapColumns (fun column _ => ?_) fun column _ => ?_
  · rw [chunkRows, List.getElem?_take_of_lt hj, List.getElem?_drop]
  · rw [chunkRows, List.getElem?_take_of_lt hj, List.getElem?_drop]

theorem chunk_spec {size count : Nat} (hd : d.Aligned (count * size)) (hcount : 0 < count)
    (autoPadding : Bool) :
    ∃ part : Nat → DataProto τ ν, d.chunk autoPadding count = .ok ((List.range count).map part) ∧
      ∀ i < count, (part i).Aligned size ∧
        ∀ j < size, (part i).row j = d.row (i * size + j) :=
  ⟨fun i => d.part size i, chunk_eq hd hcount autoPadding,
    fun _ hi => ⟨hd.part hi, fun _ hj => hd.row_part hj⟩⟩

end DataProto

end Verl
