import Verl.Lib.Shards
import Verl.SingleController.MeshDispatch

/-!
# Padding to a divisor

`pad_dataproto_to_divisor` and `unpad_dataproto` of `verl/protocol.py`, and
`pad_to_divisor` and `unpad` of `verl/utils/tensordict_utils.py`.  Both padding
functions are one definition, `padWith`, over the length, the slices and the
concatenation of their type.

The padding is made of prefixes of the batch, all whole but the last, so row `i` of the
result is row `i % len` (`getElem?_padColumn`).  Nothing is assigned to the argument.

A `DataProto` also has a `meta_info`, which the concatenation merges with itself.  The
merge of a list of metrics can fail.
-/

namespace Verl

/-! ## The source functions -/

/-- The values of `take_size` in the loop, the sizes of the prefixes it appends. -/
def takeSizes (len : Nat) (hlen : 0 < len) (remainingPad : Nat) : List Nat :=
  if 0 < remainingPad then
    min remainingPad len :: takeSizes len hlen (remainingPad - min remainingPad len)
  else []
termination_by remainingPad

/-- The two padding functions, over their types. -/
def padWith {δ : Type} (len : δ → Nat) (upTo : Nat → δ → δ) (concat : List δ → Except Py.Error δ)
    (data : δ) (sizeDivisor : Nat) : Except Py.Error (δ × Nat) :=
  if sizeDivisor = 0 then .error .zeroDivision
  else if hrest : len data % sizeDivisor ≠ 0 then do
    have hlen : 0 < len data :=
      Nat.pos_of_ne_zero fun hzero => hrest (by rw [hzero, Nat.zero_mod])
    let padSize := sizeDivisor - len data % sizeDivisor
    let paddingProtos := (takeSizes (len data) hlen padSize).map fun takeSize => upTo takeSize data
    let dataPadded ← concat (data :: paddingProtos)
    return (dataPadded, padSize)
  else .ok (data, 0)

/-- `data[:-pad_size]`, if there is a padding. -/
def unpadWith {δ : Type} (dropEnd : Nat → δ → δ) (data : δ) (padSize : Nat) : δ :=
  if padSize ≠ 0 then dropEnd padSize data else data

namespace DataProto

variable {τ ν : Type}

/-- `data[:take_size]` -/
def upTo (takeSize : Nat) (d : DataProto τ ν) : DataProto τ ν :=
  d.mapColumns (min takeSize) (List.take takeSize) (List.take takeSize)

/-- `data[:-pad_size]` for a positive `pad_size`. -/
def dropEnd (padSize : Nat) (d : DataProto τ ν) : DataProto τ ν :=
  d.mapColumns (· - padSize) (fun column => Py.dropEnd column padSize)
    fun column => Py.dropEnd column padSize

end DataProto

/-- `merged_meta_info` as a `meta_info`.  `pack` makes a value of the list of the values of a
metric. -/
def MergedMetaInfo.toMetaInfo {ι μ : Type} (pack : List μ → μ) (merged : MergedMetaInfo ι μ) :
    MetaInfo ι μ where
  others := merged.others
  metrics :=
    match merged.metrics with
    | some metrics => .dict (metrics.mapValues pack)
    | none => .absent

namespace MetaProto

variable {τ ν ι μ : Type}

/-- `__len__` -/
def len (p : MetaProto τ ν ι μ) : Nat := p.data.len

/-- `concat`, with a `DataProto` as its result. -/
def concatPacked [DecidableEq ι] (pack : List μ → μ) (protos : List (MetaProto τ ν ι μ)) :
    Except Py.Error (MetaProto τ ν ι μ) := do
  let merged ← concat protos
  return ⟨merged.data, merged.metaInfo.toMetaInfo pack⟩

/-- `pad_dataproto_to_divisor` -/
def padDataprotoToDivisor [DecidableEq ι] (pack : List μ → μ) (data : MetaProto τ ν ι μ)
    (sizeDivisor : Nat) : Except Py.Error (MetaProto τ ν ι μ × Nat) :=
  padWith len (fun takeSize p => ⟨p.data.upTo takeSize, p.metaInfo⟩)
    (concatPacked pack) data sizeDivisor

/-- `unpad_dataproto` -/
def unpadDataproto (data : MetaProto τ ν ι μ) (padSize : Nat) : MetaProto τ ν ι μ :=
  unpadWith (fun padSize p => ⟨p.data.dropEnd padSize, p.metaInfo⟩) data padSize

end MetaProto

namespace TensorDict

variable {τ : Type}

/-- The same operation on all columns. -/
def mapColumns (td : TensorDict τ) (size : Nat → Nat) (f : List τ → List τ) : TensorDict τ :=
  ⟨size td.batchSize, td.columns.mapValues f⟩

/-- `torch.cat` -/
def cat : List (TensorDict τ) → Except Py.Error (TensorDict τ)
  | [] => .error .index
  | first :: rest =>
      if rest.all fun td => td.columns.keys = first.columns.keys then
        .ok ⟨((first :: rest).map TensorDict.batchSize).sum,
          DataProto.concatColumns first.columns ((first :: rest).map TensorDict.columns)⟩
      else .error .key

/-- `pad_to_divisor` -/
def padToDivisor (data : TensorDict τ) (sizeDivisor : Nat) :
    Except Py.Error (TensorDict τ × Nat) :=
  padWith TensorDict.batchSize
    (fun takeSize td => td.mapColumns (min takeSize) (List.take takeSize)) cat data sizeDivisor

/-- `unpad` -/
def unpad (data : TensorDict τ) (padSize : Nat) : TensorDict τ :=
  unpadWith (fun padSize td =>
    td.mapColumns (· - padSize) fun column => Py.dropEnd column padSize) data padSize

/-- The row of an index. -/
def row (td : TensorDict τ) (i : Nat) : Py.Dict String (Option τ) :=
  td.columns.mapValues fun column => column[i]?

end TensorDict

/-! ## One column -/

section Columns

variable {α β : Type} {len padSize : Nat} {column : List α}

/-- A column and its prefixes. -/
def padColumn (len : Nat) (hlen : 0 < len) (padSize : Nat) (column : List α) : List α :=
  column ++ (takeSizes len hlen padSize).flatMap fun takeSize => column.take takeSize

theorem takeSizes_le (hlen : 0 < len) (padSize : Nat) :
    ∀ takeSize ∈ takeSizes len hlen padSize, takeSize ≤ len := by
  induction padSize using takeSizes.induct len hlen with
  | case1 padSize hpos ih =>
      rw [takeSizes, if_pos hpos]
      rintro takeSize (_ | ⟨_, hmem⟩)
      · exact Nat.min_le_right _ _
      · exact ih takeSize hmem
  | case2 padSize hpos =>
      rw [takeSizes, if_neg hpos]
      exact fun _ hmem => absurd hmem List.not_mem_nil

theorem sum_takeSizes (hlen : 0 < len) (padSize : Nat) :
    (takeSizes len hlen padSize).sum = padSize := by
  induction padSize using takeSizes.induct len hlen with
  | case1 padSize hpos ih =>
      rw [takeSizes, if_pos hpos, List.sum_cons, ih]
      exact Nat.add_sub_cancel' (Nat.min_le_left _ _)
  | case2 padSize hpos =>
      rw [takeSizes, if_neg hpos]
      exact (Nat.eq_zero_of_not_pos hpos).symm

/-- The prefixes, one after the other.  All but the last are whole. -/
theorem getElem?_flatMap_takeSizes (hlen : 0 < len) (hcolumn : column.length = len) {j : Nat}
    (hj : j < padSize) :
    ((takeSizes len hlen padSize).flatMap fun takeSize => column.take takeSize)[j]? =
      column[j % len]? := by
  induction padSize using takeSizes.induct len hlen generalizing j with
  | case1 padSize hpos ih =>
      rw [takeSizes, if_pos hpos, List.flatMap_cons]
      have htake : (column.take (min padSize len)).length = min padSize len := by
        rw [List.length_take, hcolumn]
        omega
      by_cases hin : j < min padSize len
      · rw [List.getElem?_append_left (by omega), List.getElem?_take_of_lt hin,
          Nat.mod_eq_of_lt (by omega)]
      · have hwhole : min padSize len = len := by omega
        rw [List.getElem?_append_right (by omega), htake, hwhole]
        rw [hwhole] at ih
        rw [ih (by omega), ← Nat.mod_eq_sub_mod (by omega)]
  | case2 padSize hpos => exact absurd hj (by omega)

theorem length_padColumn (hlen : 0 < len) (hcolumn : column.length = len) :
    (padColumn len hlen padSize column).length = len + padSize := by
  have hsizes : ∀ takeSize ∈ takeSizes len hlen padSize,
      (column.take takeSize).length = id takeSize := by
    intro takeSize hmem
    have hle := takeSizes_le hlen padSize takeSize hmem
    rw [List.length_take, hcolumn, Nat.min_eq_left hle]
    rfl
  rw [padColumn, DataProto.length_append_flatMap hsizes, List.map_id, sum_takeSizes, hcolumn]

/-- Row `i` of a padded column. -/
theorem getElem?_padColumn (hlen : 0 < len) (hcolumn : column.length = len) {i : Nat}
    (hi : i < len + padSize) : (padColumn len hlen padSize column)[i]? = column[i % len]? := by
  rw [padColumn]
  by_cases hin : i < len
  · rw [List.getElem?_append_left (hcolumn ▸ hin), Nat.mod_eq_of_lt hin]
  · rw [List.getElem?_append_right (by omega), hcolumn,
      getElem?_flatMap_takeSizes hlen hcolumn (by omega), ← Nat.mod_eq_sub_mod (by omega)]

theorem dropEnd_padColumn (hlen : 0 < len) (hcolumn : column.length = len)
    (hpad : padSize ≠ 0) : Py.dropEnd (padColumn len hlen padSize column) padSize = column := by
  rw [Py.dropEnd, if_neg hpad, length_padColumn hlen hcolumn, Nat.add_sub_cancel, padColumn,
    List.take_append_of_le_length hcolumn.ge, List.take_of_length_le hcolumn.le]

theorem padColumn_map (hlen : 0 < len) (f : α → β) :
    padColumn len hlen padSize (column.map f) = (padColumn len hlen padSize column).map f := by
  rw [padColumn, padColumn, List.map_append, List.map_flatMap]
  simp only [List.map_take]

end Columns

/-! ## Batches -/

variable {τ ν ι μ : Type} {len padSize sizeDivisor : Nat}

section PadWith

variable {δ : Type} {length : δ → Nat} {upTo : Nat → δ → δ}
  {concat : List δ → Except Py.Error δ} {data padded : δ}

/-- With a rest the padding functions return what the concatenation returns. -/
theorem padWith_of_mod_ne_zero (hdivisor : 0 < sizeDivisor) (hlength : length data = len)
    (hlen : 0 < len) (hrest : len % sizeDivisor ≠ 0) :
    padWith length upTo concat data sizeDivisor =
      concat (data :: (takeSizes len hlen (Shards.padSize sizeDivisor len)).map fun takeSize =>
        upTo takeSize data) >>= fun dataPadded =>
          .ok (dataPadded, Shards.padSize sizeDivisor len) := by
  subst hlength
  rw [padWith, if_neg hdivisor.ne', dif_pos hrest, Shards.padSize_of_mod_ne_zero hdivisor hrest]
  rfl

theorem padWith_spec (hdivisor : 0 < sizeDivisor) (hlength : length data = len) (hlen : 0 < len)
    (hpadded : len % sizeDivisor = 0 → padded = data)
    (hconcat : len % sizeDivisor ≠ 0 →
      concat (data :: (takeSizes len hlen (Shards.padSize sizeDivisor len)).map fun takeSize =>
        upTo takeSize data) = .ok padded) :
    padWith length upTo concat data sizeDivisor =
      .ok (padded, Shards.padSize sizeDivisor len) := by
  by_cases hrest : len % sizeDivisor = 0
  · rw [padWith, if_neg hdivisor.ne', dif_neg (not_not.mpr (hlength ▸ hrest)),
      Shards.padSize_of_mod_eq_zero hrest, hpadded hrest]
  · rw [padWith_of_mod_ne_zero hdivisor hlength hlen hrest, hconcat hrest]
    rfl

end PadWith

/-- The number of rows of the prefixes, on a batch of `k` rows. -/
def prefixRows (len : Nat) (hlen : 0 < len) (padSize k : Nat) : Nat :=
  ((takeSizes len hlen padSize).map fun takeSize => min takeSize k).sum

theorem prefixRows_self (hlen : 0 < len) (padSize : Nat) :
    prefixRows len hlen padSize len = padSize := by
  have hsizes : (takeSizes len hlen padSize).map (fun takeSize => min takeSize len) =
      takeSizes len hlen padSize := by
    conv_rhs => rw [← List.map_id (takeSizes len hlen padSize)]
    exact List.map_congr_left fun takeSize hmem =>
      Nat.min_eq_left (takeSizes_le hlen padSize takeSize hmem)
  rw [prefixRows, hsizes, sum_takeSizes]

namespace DataProto

variable {d : DataProto τ ν}

/-- A batch and its prefixes. -/
def padded (d : DataProto τ ν) (hlen : 0 < len) (padSize : Nat) : DataProto τ ν :=
  d.mapColumns (fun k => k + prefixRows len hlen padSize k) (padColumn len hlen padSize)
    (padColumn len hlen padSize)

theorem concat_upTo (hd : d.Aligned len) (hlen : 0 < len) (padSize : Nat) :
    concat (d :: (takeSizes len hlen padSize).map fun takeSize => d.upTo takeSize) =
      .ok (d.padded hlen padSize) := by
  refine concat_map_mapColumns hd (fun takeSize _ column hcolumn => ?_)
    fun takeSize _ column hcolumn => ?_
  · rw [List.length_take, hcolumn]
  · rw [List.length_take, hcolumn]

theorem aligned_padded (hd : d.Aligned len) (hlen : 0 < len) (padSize : Nat) :
    (d.padded hlen padSize).Aligned (len + padSize) := by
  refine hd.mapColumns ?_ (fun _ h => length_padColumn hlen h) fun _ h => length_padColumn hlen h
  rw [prefixRows_self]

theorem row_padded (hd : d.Aligned len) (hlen : 0 < len) {i : Nat} (hi : i < len + padSize) :
    (d.padded hlen padSize).row i = d.row (i % len) :=
  hd.row_mapColumns (fun _ h => getElem?_padColumn hlen h hi)
    fun _ h => getElem?_padColumn hlen h hi

/-- Operations that leave columns of this length as they are. -/
theorem Aligned.mapColumns_eq_self {n : Nat} (hd : d.Aligned n) {size : Nat → Nat}
    {f : List τ → List τ} {g : List ν → List ν} (hsize : size n = n)
    (hf : ∀ column, column.length = n → f column = column)
    (hg : ∀ column, column.length = n → g column = column) : d.mapColumns size f g = d := by
  have hcolumns {α : Type} {columns : Columns α} {f : List α → List α}
      (h : ∀ e ∈ columns.entries, f e.2 = e.2) : columns.mapValues f = columns := by
    refine Py.Dict.eq_of_entries ?_
    conv_rhs => rw [← List.map_id columns.entries]
    exact List.map_congr_left fun e he => Prod.ext rfl (h e he)
  rw [DataProto.mapColumns, hcolumns fun e he => hg e.2 (hd.nonTensors e he)]
  have hbatch : (d.batch.map fun batch =>
      TensorDict.mk (size batch.batchSize) (batch.columns.mapValues f)) = d.batch := by
    refine (Option.map_congr fun batch hbatch => ?_).trans Option.map_id'
    rw [hcolumns fun e he => hf e.2 (hd.tensors batch hbatch e he), hd.batchSize batch hbatch,
      hsize, ← hd.batchSize batch hbatch]
  rw [hbatch]

theorem dropEnd_padded (hd : d.Aligned len) (hlen : 0 < len) (hpad : padSize ≠ 0) :
    (d.padded hlen padSize).dropEnd padSize = d := by
  rw [dropEnd, padded, mapColumns_mapColumns]
  refine hd.mapColumns_eq_self ?_ (fun _ h => dropEnd_padColumn hlen h hpad)
    fun _ h => dropEnd_padColumn hlen h hpad
  rw [prefixRows_self, Nat.add_sub_cancel]

end DataProto

namespace TensorDict

variable {td : TensorDict τ}

/-- A batch and its prefixes. -/
def padded (td : TensorDict τ) (hlen : 0 < len) (padSize : Nat) : TensorDict τ :=
  td.mapColumns (fun k => k + prefixRows len hlen padSize k) (padColumn len hlen padSize)

theorem cat_take (td : TensorDict τ) (hlen : 0 < len) (padSize : Nat) :
    cat (td :: (takeSizes len hlen padSize).map fun takeSize =>
      td.mapColumns (min takeSize) (List.take takeSize)) = .ok (td.padded hlen padSize) := by
  have hkeys : (((takeSizes len hlen padSize).map fun takeSize =>
      td.mapColumns (min takeSize) (List.take takeSize)).all fun other =>
        other.columns.keys = td.columns.keys) = true := by
    rw [List.all_eq_true]
    intro other hother
    obtain ⟨takeSize, -, rfl⟩ := List.mem_map.mp hother
    exact decide_eq_true (Py.Dict.keys_mapValues _ _)
  rw [cat, if_pos hkeys, List.map_cons, List.map_map, List.map_cons, List.map_map, List.sum_cons]
  exact congrArg (fun columns => Except.ok (TensorDict.mk _ columns))
    (DataProto.concatColumns_mapValues td.columns (takeSizes len hlen padSize) List.take)

theorem dropEnd_padded {td : TensorDict τ} (htd : td.batchSize = len)
    (hcolumns : ∀ e ∈ td.columns.entries, e.2.length = len) (hlen : 0 < len)
    (hpad : padSize ≠ 0) :
    ((td.padded hlen padSize).mapColumns (· - padSize) fun column =>
      Py.dropEnd column padSize) = td := by
  obtain ⟨batchSize, columns⟩ := td
  obtain rfl := htd
  rw [padded, mapColumns, mapColumns, Py.Dict.mapValues_mapValues, TensorDict.mk.injEq]
  constructor
  · rw [prefixRows_self, Nat.add_sub_cancel]
  · refine Py.Dict.eq_of_entries ?_
    conv_rhs => rw [← List.map_id columns.entries]
    exact List.map_congr_left fun e he =>
      Prod.ext rfl (dropEnd_padColumn hlen (hcolumns e he) hpad)

theorem row_padded {td : TensorDict τ} (hcolumns : ∀ e ∈ td.columns.entries, e.2.length = len)
    (hlen : 0 < len) {i : Nat} (hi : i < len + padSize) :
    (td.padded hlen padSize).row i = td.row (i % len) := by
  rw [row, padded, mapColumns, Py.Dict.mapValues_mapValues]
  exact Py.Dict.mapValues_congr fun e he => getElem?_padColumn hlen (hcolumns e he) hi

end TensorDict

/-! ## The two views of a batch -/

/-- The entries of the tensor columns. -/
def DataProto.tensorEntries (d : DataProto τ ν) : List (String × List τ) :=
  match d.batch with
  | some batch => batch.columns.entries
  | none => []

/-- `td` has the rows of `d`: its tensors, and its objects as `NonTensorStack`. -/
structure IsView (td : TensorDict (τ ⊕ ν)) (d : DataProto τ ν) : Prop where
  batchSize : td.batchSize = d.len
  columns : td.columns.entries =
    d.tensorEntries.map (fun e => (e.1, e.2.map Sum.inl)) ++
      d.nonTensorBatch.entries.map fun e => (e.1, e.2.map Sum.inr)

namespace IsView

variable {td : TensorDict (τ ⊕ ν)} {d : DataProto τ ν}

theorem length_eq (hview : IsView td d) (hd : d.Aligned len) :
    ∀ e ∈ td.columns.entries, e.2.length = len := by
  intro e he
  rw [hview.columns] at he
  rcases List.mem_append.mp he with he | he
  · obtain ⟨e', he', rfl⟩ := List.mem_map.mp he
    rw [DataProto.tensorEntries] at he'
    cases hbatch : d.batch with
    | none =>
        rw [hbatch] at he'
        exact absurd he' List.not_mem_nil
    | some batch =>
        rw [hbatch] at he'
        exact (List.length_map _).trans (hd.tensors batch hbatch e' he')
  · obtain ⟨e', he', rfl⟩ := List.mem_map.mp he
    exact (List.length_map _).trans (hd.nonTensors e' he')

theorem padded (hview : IsView td d) (hd : d.Aligned len) (hlen : 0 < len) (padSize : Nat) :
    IsView (td.padded hlen padSize) (d.padded hlen padSize) where
  batchSize := by
    rw [(DataProto.aligned_padded hd hlen padSize).len]
    change td.batchSize + prefixRows len hlen padSize td.batchSize = _
    rw [hview.batchSize, hd.len, prefixRows_self]
  columns := by
    change td.columns.entries.map (fun e => (e.1, padColumn len hlen padSize e.2)) = _
    have htensors : (d.padded hlen padSize).tensorEntries =
        d.tensorEntries.map fun e => (e.1, padColumn len hlen padSize e.2) := by
      rw [DataProto.tensorEntries, DataProto.tensorEntries, DataProto.padded,
        DataProto.mapColumns]
      cases d.batch with
      | none => rfl
      | some batch => rfl
    rw [htensors, hview.columns, List.map_append, List.map_map, List.map_map, List.map_map]
    refine congrArg₂ (· ++ ·) ?_ ?_
    · exact List.map_congr_left fun e _ => Prod.ext rfl (padColumn_map hlen Sum.inl)
    · change _ = (d.nonTensorBatch.entries.map fun e =>
        (e.1, padColumn len hlen padSize e.2)).map fun e => (e.1, e.2.map Sum.inr)
      rw [List.map_map]
      exact List.map_congr_left fun e _ => Prod.ext rfl (padColumn_map hlen Sum.inr)

end IsView

/-! ## The meta information -/

theorem keysInFirst_replicate {dicts : List (Py.Dict String μ)} (h : KeysInFirst dicts)
    (count : Nat) : KeysInFirst (List.replicate count dicts).flatten := by
  intro first hfirst metrics hmetrics
  obtain ⟨dicts', hdicts, hmem⟩ := List.mem_flatten.mp hmetrics
  obtain rfl := List.eq_of_mem_replicate hdicts
  cases dicts' with
  | nil => exact absurd hmem List.not_mem_nil
  | cons first' rest =>
      cases count with
      | zero => exact absurd hfirst (by simp)
      | succ count =>
          rw [List.replicate_succ, List.flatten_cons, List.cons_append, List.head?_cons] at hfirst
          exact h first (by rw [List.head?_cons]; exact hfirst) metrics hmem

namespace MetaProto

variable [DecidableEq ι] {pack : List μ → μ} {p : MetaProto τ ν ι μ}

/-- Slices of one object have its `meta_info`, and the merge has its other keys. -/
theorem concat_upTo (hp : p.data.Aligned len) (hlen : 0 < len) (padSize : Nat)
    (hmeta : KeysInFirst p.metaInfo.metrics.dicts) :
    ∃ info, info.others = p.metaInfo.others ∧
      concatPacked pack (p :: (takeSizes len hlen padSize).map fun takeSize =>
        ⟨p.data.upTo takeSize, p.metaInfo⟩) = .ok ⟨p.data.padded hlen padSize, info⟩ := by
  obtain ⟨merged, hmerged, hothers, -⟩ := @mergeMetaInfo_spec ι μ _
    (p.metaInfo :: (takeSizes len hlen padSize).map fun _ => p.metaInfo) p.metaInfo.others
    (List.cons_ne_nil _ _)
    (by
      rintro info (_ | ⟨_, hinfo⟩)
      · rfl
      · obtain ⟨_, -, rfl⟩ := List.mem_map.mp hinfo
        rfl)
    (by
      have hcopies := keysInFirst_replicate hmeta ((takeSizes len hlen padSize).length + 1)
      rw [List.replicate_succ, List.flatten_cons] at hcopies
      rw [List.flatMap_cons, List.flatMap_map, List.flatMap_def, List.map_const']
      exact hcopies)
  have hdata := DataProto.concat_upTo hp hlen padSize
  refine ⟨merged.toMetaInfo pack, hothers, ?_⟩
  have hconcat : concat (p :: (takeSizes len hlen padSize).map fun takeSize =>
      ⟨p.data.upTo takeSize, p.metaInfo⟩) = .ok ⟨p.data.padded hlen padSize, merged⟩ := by
    refine concat_of ?_ ?_
    · rw [List.map_cons, List.map_map]
      exact hdata
    · rw [List.map_cons, List.map_map]
      exact hmerged
  rw [concatPacked, hconcat]
  rfl

end MetaProto

/-! ## Both functions -/

/-- What is to hold of the two functions, on a batch and its view. -/
def RoundTripsPadding [DecidableEq ι] (pack : List μ → μ) (p : MetaProto τ ν ι μ)
    (td : TensorDict (τ ⊕ ν)) (len sizeDivisor : Nat) : Prop :=
  ∃ padded paddedView padSize,
    p.padDataprotoToDivisor pack sizeDivisor = .ok (padded, padSize) ∧
    td.padToDivisor sizeDivisor = .ok (paddedView, padSize) ∧
    padded.data.Aligned (len + padSize) ∧ IsView paddedView padded.data ∧
    IsLeast {n | len ≤ n ∧ sizeDivisor ∣ n} (len + padSize) ∧
    (∀ i < len + padSize, padded.data.row i = p.data.row (i % len) ∧
      paddedView.row i = td.row (i % len)) ∧
    (padded.unpadDataproto padSize).data = p.data ∧ paddedView.unpad padSize = td

/-- Both functions add the same rows and take them off again, if the metrics can be merged
with themselves or no padding is needed. -/
theorem roundTripsPadding [DecidableEq ι] (pack : List μ → μ) {p : MetaProto τ ν ι μ}
    {td : TensorDict (τ ⊕ ν)} (hp : p.data.Aligned len) (hview : IsView td p.data)
    (hlen : 1 ≤ len) (hdivisor : 1 ≤ sizeDivisor)
    (hmeta : sizeDivisor ∣ len ∨ KeysInFirst p.metaInfo.metrics.dicts) :
    RoundTripsPadding pack p td len sizeDivisor := by
  obtain ⟨padSize, hpadSize⟩ : ∃ padSize, padSize = Shards.padSize sizeDivisor len := ⟨_, rfl⟩
  have hcolumns := hview.length_eq hp
  have hbatchSize : td.batchSize = len := hview.batchSize.trans hp.len
  have hleast : IsLeast {n | len ≤ n ∧ sizeDivisor ∣ n} (len + padSize) := by
    refine ⟨⟨Nat.le_add_right _ _, hpadSize ▸ Shards.dvd_add_padSize hdivisor len⟩, ?_⟩
    rintro n ⟨hle, hdvd⟩
    obtain ⟨more, rfl⟩ := Nat.exists_eq_add_of_le hle
    rw [hpadSize]
    exact Nat.add_le_add_left (Shards.padSize_le hdivisor hdvd) _
  by_cases hrest : len % sizeDivisor = 0
  · have hzero : padSize = 0 := by rw [hpadSize, Shards.padSize_of_mod_eq_zero hrest]
    rw [hzero] at hleast
    refine ⟨p, td, 0, ?_, ?_, hp, hview, hleast, fun i hi => ?_, rfl, rfl⟩
    · rw [← hzero, hpadSize]
      exact padWith_spec hdivisor hp.len hlen (fun _ => rfl) fun hne => absurd hrest hne
    · rw [← hzero, hpadSize]
      exact padWith_spec hdivisor hbatchSize hlen (fun _ => rfl) fun hne => absurd hrest hne
    · rw [Nat.mod_eq_of_lt (show i < len from hi)]
      exact ⟨rfl, rfl⟩
  · have hpositive : padSize ≠ 0 := by
      have hlt := Nat.mod_lt len hdivisor
      rw [hpadSize, Shards.padSize_of_mod_ne_zero hdivisor hrest]
      omega
    have hkeys := hmeta.resolve_left fun hdvd => hrest (Nat.mod_eq_zero_of_dvd hdvd)
    obtain ⟨info, -, hconcat⟩ := @MetaProto.concat_upTo τ ν ι μ len _ pack p hp hlen padSize hkeys
    refine ⟨⟨p.data.padded hlen padSize, info⟩, td.padded hlen padSize, padSize, ?_, ?_,
      DataProto.aligned_padded hp hlen padSize, hview.padded hp hlen padSize, hleast,
      fun i hi => ⟨DataProto.row_padded hp hlen hi, TensorDict.row_padded hcolumns hlen hi⟩,
      ?_, ?_⟩
    · rw [hpadSize] at hconcat ⊢
      exact padWith_spec hdivisor hp.len hlen (fun hzero => absurd hzero hrest) fun _ => hconcat
    · rw [hpadSize]
      exact padWith_spec hdivisor hbatchSize hlen (fun hzero => absurd hzero hrest) fun _ =>
        TensorDict.cat_take td hlen _
    · rw [MetaProto.unpadDataproto, unpadWith, if_pos hpositive]
      exact DataProto.dropEnd_padded hp hlen hpositive
    · rw [TensorDict.unpad, unpadWith, if_pos hpositive]
      exact TensorDict.dropEnd_padded hbatchSize hcolumns hlen hpositive

/-- One tensor column with these rows and with metrics. -/
def oneTensor (rows : List Nat) (metrics : Metrics Nat) : MetaProto Nat Nat String Nat where
  data := ⟨some ⟨rows.length, .ofKeys ["prompts"] (List.nodup_singleton _) fun _ => rows⟩,
    .empty, false⟩
  metaInfo := ⟨.empty, metrics⟩

/-- The view of its rows. -/
def oneTensorView (rows : List Nat) : TensorDict (Nat ⊕ Nat) :=
  ⟨rows.length, .ofKeys ["prompts"] (List.nodup_singleton _) fun _ => rows.map Sum.inl⟩

theorem aligned_oneTensor (rows : List Nat) (metrics : Metrics Nat) :
    (oneTensor rows metrics).data.Aligned rows.length := by
  refine ⟨fun batch hbatch => ?_, fun batch hbatch e he => ?_, fun e he => ?_, .inl ?_⟩
  · rw [← Option.some.inj hbatch]
  · rw [← Option.some.inj hbatch] at he
    rw [List.mem_singleton.mp he]
  · exact absurd he List.not_mem_nil
  · exact Option.some_ne_none _

theorem isView_oneTensor (rows : List Nat) (metrics : Metrics Nat) :
    IsView (oneTensorView rows) (oneTensor rows metrics).data := ⟨rfl, rfl⟩

theorem roundTripsPadding_three :
    (oneTensor [5, 6, 7] .absent).data.Aligned 3 ∧
      IsView (oneTensorView [5, 6, 7]) (oneTensor [5, 6, 7] .absent).data ∧
      RoundTripsPadding List.sum (oneTensor [5, 6, 7] .absent) (oneTensorView [5, 6, 7]) 3 8 := by
  have hp := aligned_oneTensor [5, 6, 7] .absent
  have hview := isView_oneTensor [5, 6, 7] .absent
  have hmeta : KeysInFirst (oneTensor [5, 6, 7] .absent).metaInfo.metrics.dicts :=
    fun _ hfirst => absurd hfirst (Option.not_mem_none _)
  exact ⟨hp, hview, roundTripsPadding List.sum hp hview (by decide) (by decide) (.inr hmeta)⟩

/-- Two dictionaries of metrics. -/
def lossThenReward : Metrics Nat :=
  .list [.ofKeys ["loss"] (List.nodup_singleton _) fun _ => 1,
    .ofKeys ["reward"] (List.nodup_singleton _) fun _ => 2]

/-- One row whose metrics have different keys. -/
theorem not_roundTripsPadding_metrics :
    (oneTensor [5] lossThenReward).data.Aligned 1 ∧
      IsView (oneTensorView [5]) (oneTensor [5] lossThenReward).data ∧
      ¬ RoundTripsPadding List.sum (oneTensor [5] lossThenReward) (oneTensorView [5]) 1 2 := by
  refine ⟨aligned_oneTensor _ _, isView_oneTensor _ _, ?_⟩
  rintro ⟨padded, _, padSize, hpad, -⟩
  have hone : 0 < 1 := by decide
  have htake : takeSizes 1 hone (Shards.padSize 2 1) = [1] := by
    rw [takeSizes, if_pos (by decide), takeSizes, if_neg (by decide)]
    rfl
  obtain ⟨message, herror⟩ : ∃ message, MetaProto.concatPacked List.sum
      [oneTensor [5] lossThenReward, ⟨(oneTensor [5] lossThenReward).data.upTo 1,
        (oneTensor [5] lossThenReward).metaInfo⟩] = .error (.assertion message) := ⟨_, rfl⟩
  have hlength : (oneTensor [5] lossThenReward).len = 1 :=
    (aligned_oneTensor [5] lossThenReward).len
  rw [MetaProto.padDataprotoToDivisor,
    padWith_of_mod_ne_zero (by decide) hlength hone (by decide), htake] at hpad
  simp only [List.map_cons, List.map_nil, herror] at hpad
  cases hpad

end Verl
