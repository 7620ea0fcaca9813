import Mathlib.Data.List.Perm.Basic
import Mathlib.Tactic.Ring
import Verl.Lib.Rows
import Verl.Lib.Strings

/-!
# Fused projections

Megatron keeps the query, key and value projections in one tensor, each key/value group
with its query heads, and the gate and up projections in another.  They are taken apart
in three places: `_split_tensors` of `verl/model_merger/megatron_model_merger.py`, on the
whole tensor, and `default_tp_concat_fn` and `convert_megatron_model_to_transformers_model`
of `verl/utils/megatron_utils.py`, on the tensor-parallel shards and on their concatenation.

A tensor is the list of its rows.
-/

namespace Verl.Fused

open Slices

variable {Row : Type}

/-! ## Configurations and tensors -/

/-- The fields of `PretrainedConfig` that are read.  Not every configuration has a
`head_dim`. -/
structure PretrainedConfig where
  hiddenSize : Nat
  numAttentionHeads : Nat
  numKeyValueHeads : Nat
  intermediateSize : Nat
  headDim : Option Nat

/-- `hf_config.vision_config`. -/
structure VisionConfig where
  numHeads : Nat

/-- The names that `layer_name_mapping` holds. -/
structure LayerNameMapping where
  qkvLayerName : String
  gateProjLayerName : String

/-- The mapping of the Megatron engine. -/
def megatronMapping : LayerNameMapping where
  qkvLayerName := "self_attention.linear_qkv."
  gateProjLayerName := "linear_fc1."

/-- `part in name`. -/
def has (part name : String) : Bool := Py.contains part.toList name.toList

/-- What is used of tensors apart from their rows: the text of `tensor.shape`, and
`torch.cat` along an axis. -/
structure TensorOps (Row : Type) where
  shapeText : List Row → String
  catAlong : Nat → List (List Row) → Except Py.Error (List Row)

/-- A parameter: a tensor, or a list of tensors. -/
inductive Param (Row : Type) where
  | tensor (rows : List Row)
  | parts (tensors : List (List Row))

/-- `isinstance(param, list)`. -/
def Param.isList : Param Row → Bool
  | tensor _ => false
  | parts _ => true

/-- The rows of the queries, the keys and the values. -/
structure Qkv (Row : Type) where
  q : List Row
  k : List Row
  v : List Row

/-- `torch.cat` of the three lists. -/
def catQkv (qLst kLst vLst : List (List Row)) : Except Py.Error (Qkv Row) := do
  let q ← Rows.cat qLst
  let k ← Rows.cat kLst
  let v ← Rows.cat vLst
  return ⟨q, k, v⟩

/-! ## The model merger -/

/-- `q, k, v = chunk.split(split_size)`, where all the groups of a tensor have
`kv_size` key rows. -/
def splitChunk (kvSize numQPerKv numQueryGroupsPerPartition : Nat) (chunk : List Row) :
    Except Py.Error (Qkv Row) := do
  let parts ← Rows.split chunk
    [kvSize * numQPerKv / numQueryGroupsPerPartition, kvSize / numQueryGroupsPerPartition,
      kvSize / numQueryGroupsPerPartition]
  let q ← Py.getItem parts 0
  let k ← Py.getItem parts 1
  let v ← Py.getItem parts 2
  return ⟨q, k, v⟩

/-- `gate, up = tensor.chunk(2)`. -/
def chunkTwo (tensor : List Row) : Except Py.Error (List Row × List Row) := do
  match ← Rows.chunk tensor 2 with
  | [gate, up] => return (gate, up)
  | chunks => .error (.value s!"not enough values to unpack (expected 2, got {chunks.length})")

/-- The branch of `_split_tensors` for the query, key and value projections. -/
def splitQkv (ops : TensorOps Row) (tensor : List Row) (config : PretrainedConfig) :
    Except Py.Error (Qkv Row) := do
  Py.check ((← Py.floorMod config.numAttentionHeads config.numKeyValueHeads) = 0) ""
  let numQPerKv ← Py.floorDiv config.numAttentionHeads config.numKeyValueHeads
  Py.check (tensor.length % (numQPerKv + 2) = 0)
    s!"Tensor shape {ops.shapeText tensor} is not divisible by {numQPerKv + 2}"
  let chunks ← Rows.chunk tensor config.numKeyValueHeads
  let parts ← chunks.mapM
    (splitChunk (tensor.length / (numQPerKv + 2)) numQPerKv config.numKeyValueHeads)
  catQkv (parts.map Qkv.q) (parts.map Qkv.k) (parts.map Qkv.v)

/-- `_split_tensors` -/
def splitTensors (ops : TensorOps Row) (key : String) (tensor : List Row)
    (config : PretrainedConfig) : Except Py.Error (List (List Row)) :=
  if has "linear_fc1.weight" key then do
    let (gate, up) ← chunkTwo tensor
    let gate ← Rows.cat [gate]
    let up ← Rows.cat [up]
    return [gate, up]
  else if has "self_attention.linear_qkv." key ∧ ¬ has "layer_norm" key then do
    let parts ← splitQkv ops tensor config
    return [parts.q, parts.k, parts.v]
  else return [tensor]

/-! ## The shards -/

/-- The heads that `default_tp_concat_fn` counts. -/
def headCounts (name : String) (modelConfig : PretrainedConfig) (visionConfig : VisionConfig) :
    Nat × Nat :=
  if has "vision_model" name then (visionConfig.numHeads, visionConfig.numHeads)
  else (modelConfig.numAttentionHeads, modelConfig.numKeyValueHeads)

/-- The branch of `default_tp_concat_fn` for the query, key and value projections. -/
def concatQkv (ops : TensorOps Row) (trainTpSize : Nat) (name : String)
    (inferParams : List (List Row)) (numAttentionHeads numKeyValueHeads : Nat) :
    Except Py.Error (Qkv Row) := do
  Py.check ((← Py.floorMod numAttentionHeads numKeyValueHeads) = 0) ""
  let numQPerKv ← Py.floorDiv numAttentionHeads numKeyValueHeads
  let first ← Py.getItem inferParams 0
  Py.check (first.length % (numQPerKv + 2) = 0)
    s!"param '{name}' shape '{ops.shapeText first}' dim0 is not divisible by {numQPerKv + 2}"
  let parts ← inferParams.mapM fun inferParam => do
    let numQueryGroupsPerPartition ← Py.floorDiv numKeyValueHeads trainTpSize
    let chunks ← Rows.chunk inferParam numQueryGroupsPerPartition
    chunks.mapM
      (splitChunk (first.length / (numQPerKv + 2)) numQPerKv numQueryGroupsPerPartition)
  catQkv (parts.flatten.map Qkv.q) (parts.flatten.map Qkv.k) (parts.flatten.map Qkv.v)

/-- The branch of `default_tp_concat_fn` for the gate and up projections. -/
def concatGateUp (inferParams : List (List Row)) : Except Py.Error (List Row × List Row) := do
  let parts ← inferParams.mapM chunkTwo
  let gate ← Rows.cat (parts.map Prod.fst)
  let up ← Rows.cat (parts.map Prod.snd)
  return (gate, up)

/-- `default_tp_concat_fn` -/
def defaultTpConcatFn (ops : TensorOps Row) (trainTpSize partitionDim : Nat)
    (layerNameMapping : LayerNameMapping) (name : String) (inferParams : List (List Row))
    (modelConfig : PretrainedConfig) (visionConfig : VisionConfig)
    (convertQkvGateUpBySimpleSplit : Bool) : Except Py.Error (Param Row) :=
  if has layerNameMapping.qkvLayerName name ∧ ¬ has "layer_norm" name then do
    let parts ← concatQkv ops trainTpSize name inferParams
      (headCounts name modelConfig visionConfig).1 (headCounts name modelConfig visionConfig).2
    return if convertQkvGateUpBySimpleSplit then .parts [parts.q, parts.k, parts.v]
      else .tensor (parts.q ++ parts.k ++ parts.v)
  else if has layerNameMapping.gateProjLayerName name ∧ ¬ has "layer_norm" name ∧
      ¬ has "vision_model.projection" name then do
    let (gate, up) ← concatGateUp inferParams
    return if convertQkvGateUpBySimpleSplit then .parts [gate, up] else .tensor (gate ++ up)
  else if has "mlp.experts.linear_fc2.weight" name then do
    return .tensor (← ops.catAlong 1 inferParams)
  else do
    return .tensor (← ops.catAlong partitionDim inferParams)

/-! ## The concatenated shards -/

/-- The three parts of one chunk in `convert_qkv_shard`. -/
def cutChunk (qSizeChunk kvSizeChunk : Nat) (chunk : List Row) : Qkv Row where
  q := Rows.between chunk 0 qSizeChunk
  k := Rows.between chunk qSizeChunk (qSizeChunk + kvSizeChunk)
  v := chunk.drop (qSizeChunk + kvSizeChunk)

/-- The chunks of shard `i` in `convert_qkv_shard`. -/
def convertShard (fullTensor : List Row) (tpSize numQueryGroups qSizeTp kvSizeTp i : Nat) :
    Except Py.Error (List (Qkv Row)) := do
  let numQueryGroupsPerPartition ← Py.floorDiv numQueryGroups tpSize
  let totalSize := qSizeTp + 2 * kvSizeTp
  let qkvPart := Rows.between fullTensor (i * totalSize) ((i + 1) * totalSize)
  let qSizeChunk ← Py.floorDiv qSizeTp numQueryGroupsPerPartition
  let kvSizeChunk ← Py.floorDiv kvSizeTp numQueryGroupsPerPartition
  let chunks ← Rows.chunk qkvPart numQueryGroupsPerPartition
  return chunks.map (cutChunk qSizeChunk kvSizeChunk)

/-- `hidden_size_per_head`.  The default of `getattr` is computed in any case. -/
def hiddenSizePerHead (config : PretrainedConfig) : Except Py.Error Nat := do
  let default ← Py.floorDiv config.hiddenSize config.numAttentionHeads
  return config.headDim.getD default

/-- The loops of `convert_qkv_shard`.  With fewer key/value heads than shards the keys
and values of a shard are taken only where a new head begins. -/
def convertQkv (config : PretrainedConfig) (tpSize numQueryGroups : Nat)
    (fullTensor : List Row) : Except Py.Error (Qkv Row) := do
  let hiddenSizePerHead ← hiddenSizePerHead config
  if tpSize ≤ config.numKeyValueHeads then do
    let qSizeTp ← Py.floorDiv (hiddenSizePerHead * config.numAttentionHeads) tpSize
    let kvSizeTp ← Py.floorDiv (hiddenSizePerHead * config.numKeyValueHeads) tpSize
    let shards ← (List.range tpSize).mapM
      (convertShard fullTensor tpSize numQueryGroups qSizeTp kvSizeTp)
    catQkv (shards.flatten.map Qkv.q) (shards.flatten.map Qkv.k) (shards.flatten.map Qkv.v)
  else do
    let qSizeTp ← Py.floorDiv (hiddenSizePerHead * config.numAttentionHeads) tpSize
    let shards ← (List.range tpSize).mapM
      (convertShard fullTensor tpSize numQueryGroups qSizeTp hiddenSizePerHead)
    let kept := ((List.range tpSize).zip shards).filter fun shard =>
      shard.1 * config.numKeyValueHeads % tpSize = 0
    catQkv (shards.flatten.map Qkv.q) ((kept.flatMap Prod.snd).map Qkv.k)
      ((kept.flatMap Prod.snd).map Qkv.v)

/-- `convert_qkv_shard` -/
def convertQkvShard (config : PretrainedConfig) (tpSize numQueryGroups : Nat)
    (fullTensor : List Row) (qName kName vName : String) :
    Except Py.Error (List (String × Param Row)) := do
  let parts ← convertQkv config tpSize numQueryGroups fullTensor
  return [(qName, .tensor parts.q), (kName, .tensor parts.k), (vName, .tensor parts.v)]

/-- The gate and the up part of shard `i` in `convert_gate_up_shard`. -/
def convertGateUpTp (fullTensor : List Row) (intermediateSizeTp i : Nat) :
    List Row × List Row :=
  let gateUpWeightTp := Rows.between fullTensor (intermediateSizeTp * 2 * i)
    (intermediateSizeTp * 2 * (i + 1))
  (gateUpWeightTp.take intermediateSizeTp, gateUpWeightTp.drop intermediateSizeTp)

/-- `convert_gate_up_shard` -/
def convertGateUpShard (config : PretrainedConfig) (tpSize : Nat) (fullTensor : List Row)
    (gateName upName : String) : Except Py.Error (List (String × Param Row)) := do
  let intermediateSizeTp ← Py.floorDiv config.intermediateSize tpSize
  let parts := (List.range tpSize).map (convertGateUpTp fullTensor intermediateSizeTp)
  let gate ← Rows.cat (parts.map Prod.fst)
  let up ← Rows.cat (parts.map Prod.snd)
  return [(gateName, .tensor gate), (upName, .tensor up)]

/-- `name.split(".")` -/
def splitName (name : String) : List String :=
  (name.toList.splitOn '.').map String.ofList

/-- The name of a projection of the attention. -/
def attnName (layerNumber proj paramType : String) : String :=
  s!"model.layers.{layerNumber}.self_attn.{proj}.{paramType}"

/-- The name of the weight of a projection of the MLP. -/
def mlpName (layerNumber proj : String) : String :=
  s!"model.layers.{layerNumber}.mlp.{proj}.weight"

/-- The branch of `convert_megatron_model_to_transformers_model` for the attention. -/
def convertAttention (name : String) (param : Param Row) (config : PretrainedConfig)
    (tpSize numQueryGroups : Nat) (trunkConcat : Bool) :
    Except Py.Error (List (String × Param Row)) := do
  let layerNumber ← Py.getItem (splitName name) 2
  let component ← Py.getItem (splitName name) 4
  let paramType ← Py.getItem (splitName name) 5
  if component = "linear_proj" then return [(attnName layerNumber "o_proj" "weight", param)]
  else if component = "linear_qkv" ∧ ¬ param.isList then
    if paramType = "layer_norm_weight" then
      return [(s!"model.layers.{layerNumber}.input_layernorm.weight", param)]
    else
      match trunkConcat, param with
      | true, .tensor fullTensor =>
          convertQkvShard config tpSize numQueryGroups fullTensor
            (attnName layerNumber "q_proj" paramType) (attnName layerNumber "k_proj" paramType)
            (attnName layerNumber "v_proj" paramType)
      | _, _ => return [(attnName layerNumber "qkv_proj" paramType, param)]
  else if component = "q_layernorm" then return [(attnName layerNumber "q_norm" "weight", param)]
  else if component = "k_layernorm" then return [(attnName layerNumber "k_norm" "weight", param)]
  else
    match param with
    | .parts [q, k, v] => do
        Py.check (paramType = "weight" ∨ paramType = "bias") ""
        return [(attnName layerNumber "q_proj" paramType, .tensor q),
          (attnName layerNumber "k_proj" paramType, .tensor k),
          (attnName layerNumber "v_proj" paramType, .tensor v)]
    | _ => .error (.assertion "")

/-- The branch of `convert_megatron_model_to_transformers_model` for the MLP. -/
def convertMlp (name : String) (param : Param Row) (config : PretrainedConfig) (tpSize : Nat)
    (trunkConcat : Bool) : Except Py.Error (List (String × Param Row)) := do
  let layerNumber ← Py.getItem (splitName name) 2
  let component ← Py.getItem (splitName name) 4
  let paramType ← Py.getItem (splitName name) 5
  match decide (component = "linear_fc1"), param with
  | true, .tensor fullTensor =>
      if paramType = "layer_norm_weight" then
        return [(s!"model.layers.{layerNumber}.post_attention_layernorm.weight", param)]
      else if paramType = "weight" then
        if trunkConcat then
          convertGateUpShard config tpSize fullTensor (mlpName layerNumber "gate_proj")
            (mlpName layerNumber "up_proj")
        else return [(mlpName layerNumber "gate_up_proj", param)]
      else return []
  | true, .parts tensors =>
      match tensors with
      | [gate, up] => do
          Py.check (paramType = "weight" ∨ paramType = "bias") ""
          return [(mlpName layerNumber "gate_proj", .tensor gate),
            (mlpName layerNumber "up_proj", .tensor up)]
      | _ => .error (.assertion "")
  | false, _ =>
      if component = "linear_fc2" then return [(mlpName layerNumber "down_proj", param)]
      else return []

/-- `convert_megatron_model_to_transformers_model` -/
def convertMegatronModelToTransformersModel (name : String) (param : Param Row)
    (config : PretrainedConfig) (tpSize numQueryGroups : Nat) (trunkConcat : Bool) :
    Except Py.Error (List (String × Param Row)) :=
  if name = "embedding.word_embeddings.weight" then
    return [("model.embed_tokens.weight", param)]
  else if has "self_attention" name then
    convertAttention name param config tpSize numQueryGroups trunkConcat
  else if has "mlp" name then convertMlp name param config tpSize trunkConcat
  else if name = "decoder.final_layernorm.weight" then return [("model.norm.weight", param)]
  else if name = "output_layer.weight" then return [("lm_head.weight", param)]
  else .error (.value s!"Unknown param name: {name}")

/-! ## The rows of a fused tensor -/

/-- The configuration has `n` key/value heads of `g` query heads each, and heads of `h`
rows. -/
structure PretrainedConfig.Heads (config : PretrainedConfig) (h g n : Nat) : Prop where
  attention : config.numAttentionHeads = g * n
  keyValue : config.numKeyValueHeads = n
  size : config.headDim.getD (config.hiddenSize / (g * n)) = h

/-- The query, key and value rows of one group. -/
def group (h g : Nat) (rows : List Row) : Qkv Row where
  q := slice rows 0 (g * h)
  k := slice rows (g * h) h
  v := slice rows (g * h + h) h

/-- The groups of a fused tensor. -/
def groups (h g n : Nat) (tensor : List Row) : List (Qkv Row) :=
  (List.range n).map fun j => group h g (slice tensor (j * ((g + 2) * h)) ((g + 2) * h))

/-- For each group in order its query heads, its key head and its value head. -/
def qkvRows (h g n : Nat) (tensor : List Row) : Qkv Row where
  q := (List.range n).flatMap fun j => slice tensor (j * ((g + 2) * h)) (g * h)
  k := (List.range n).flatMap fun j => slice tensor (j * ((g + 2) * h) + g * h) h
  v := (List.range n).flatMap fun j => slice tensor (j * ((g + 2) * h) + (g * h + h)) h

theorem groupSize (h g : Nat) : (g + 2) * h = g * h + h + h := by
  rw [Nat.add_mul, Nat.two_mul, Nat.add_assoc]

theorem groups_q (h g n : Nat) (tensor : List Row) :
    ((groups h g n tensor).map Qkv.q).flatten = (qkvRows h g n tensor).q := by
  rw [groups, List.map_map, ← List.flatMap_def]
  refine List.flatMap_congr fun j _ => ?_
  have hfit : 0 + g * h ≤ (g + 2) * h := by rw [groupSize]; omega
  exact slice_slice hfit

theorem groups_k (h g n : Nat) (tensor : List Row) :
    ((groups h g n tensor).map Qkv.k).flatten = (qkvRows h g n tensor).k := by
  rw [groups, List.map_map, ← List.flatMap_def]
  refine List.flatMap_congr fun j _ => ?_
  have hfit : g * h + h ≤ (g + 2) * h := by rw [groupSize]; omega
  exact slice_slice hfit

theorem groups_v (h g n : Nat) (tensor : List Row) :
    ((groups h g n tensor).map Qkv.v).flatten = (qkvRows h g n tensor).v := by
  rw [groups, List.map_map, ← List.flatMap_def]
  refine List.flatMap_congr fun j _ => ?_
  have hfit : g * h + h + h ≤ (g + 2) * h := by rw [groupSize]
  exact slice_slice hfit

/-- The three lists of the groups, concatenated. -/
theorem catQkv_groups {h g n : Nat} (hn : 0 < n) (tensor : List Row) :
    catQkv ((groups h g n tensor).map Qkv.q) ((groups h g n tensor).map Qkv.k)
      ((groups h g n tensor).map Qkv.v) = .ok (qkvRows h g n tensor) := by
  have hne : groups h g n tensor ≠ [] := by
    rw [groups, ne_eq, List.map_eq_nil_iff, List.range_eq_nil]
    exact Nat.ne_of_gt hn
  rw [catQkv, Rows.cat_of_ne_nil (mt List.map_eq_nil_iff.mp hne),
    Rows.cat_of_ne_nil (mt List.map_eq_nil_iff.mp hne),
    Rows.cat_of_ne_nil (mt List.map_eq_nil_iff.mp hne), groups_q, groups_k, groups_v]
  rfl

/-- Every row of the tensor is one of the query, key and value rows. -/
theorem qkvRows_perm {h g n : Nat} {tensor : List Row}
    (hlength : tensor.length = n * ((g + 2) * h)) :
    ((qkvRows h g n tensor).q ++ (qkvRows h g n tensor).k ++ (qkvRows h g n tensor).v).Perm
      tensor := by
  have hparts := ((List.flatMap_append_perm (List.range n) _ _).append_right _).trans
    (List.flatMap_append_perm (List.range n)
      (fun j => slice tensor (j * ((g + 2) * h)) (g * h) ++
        slice tensor (j * ((g + 2) * h) + g * h) h)
      fun j => slice tensor (j * ((g + 2) * h) + (g * h + h)) h)
  refine hparts.trans (List.Perm.of_eq ?_)
  simp only [slice_append_slice, ← groupSize, flatMap_range_slice]
  exact slice_zero_of_length_le (Nat.le_of_eq hlength)

/-- The groups of equal shards are the groups of the tensor. -/
theorem groups_shards (h g size count : Nat) (tensor : List Row) :
    ((List.range count).flatMap fun i => groups h g size
      (slice tensor (i * (size * ((g + 2) * h))) (size * ((g + 2) * h)))) =
      groups h g (count * size) tensor := by
  simp only [groups, List.map_eq_flatMap]
  rw [← flatMap_range_mul]
  refine List.flatMap_congr fun i _ => List.flatMap_congr fun j hj => ?_
  have hfit : j * ((g + 2) * h) + (g + 2) * h ≤ size * ((g + 2) * h) := by
    rw [← Nat.succ_mul]
    exact Nat.mul_le_mul_right _ (List.mem_range.mp hj)
  rw [slice_slice hfit, ← Nat.mul_assoc, ← Nat.add_mul]

/-! ## One chunk a group -/

theorem splitChunk_group {h g m : Nat} (hm : 0 < m) {rows : List Row}
    (hlength : rows.length = (g + 2) * h) :
    splitChunk (m * h) g m rows = .ok (group h g rows) := by
  have hq : m * h * g / m = g * h := by
    rw [Nat.mul_assoc, Nat.mul_div_cancel_left _ hm, Nat.mul_comm]
  have hsplit := Rows.split_three (hlength.trans (groupSize h g))
  rw [splitChunk, hq, Nat.mul_div_cancel_left _ hm, hsplit]
  rfl

theorem cutChunk_group {h g : Nat} {rows : List Row} (hlength : rows.length = (g + 2) * h) :
    cutChunk (g * h) h rows = group h g rows := by
  have hv : rows.drop (g * h + h) = slice rows (g * h + h) h := by
    rw [slice, List.take_of_length_le]
    rw [List.length_drop, hlength, groupSize]
    omega
  rw [cutChunk, hv, group, Rows.between, Rows.between, Nat.sub_zero, Nat.add_sub_cancel_left]

/-- The chunks of a tensor with `m` groups. -/
theorem chunk_groups {h g m : Nat} (hm : 0 < m) {tensor : List Row}
    (hlength : tensor.length = m * ((g + 2) * h)) :
    ∃ chunks, Rows.chunk tensor m = .ok chunks ∧
      chunks.mapM (splitChunk (m * h) g m) = .ok (groups h g m tensor) ∧
      chunks.map (cutChunk (g * h) h) = groups h g m tensor := by
  have hrows : ∀ j ∈ List.range m,
      (slice tensor (j * ((g + 2) * h)) ((g + 2) * h)).length = (g + 2) * h := by
    intro j hj
    refine length_slice ?_
    rw [hlength, ← Nat.succ_mul]
    exact Nat.mul_le_mul_right _ (List.mem_range.mp hj)
  refine ⟨_, Rows.chunk_of_length hm hlength, ?_, ?_⟩
  · exact Py.mapM_map_eq_ok fun j hj => splitChunk_group hm (hrows j hj)
  · rw [List.map_map, groups]
    exact List.map_congr_left fun j hj => cutChunk_group (hrows j hj)

/-! ## The whole tensor -/

/-- `_split_tensors` on the whole tensor. -/
theorem splitQkv_eq {ops : TensorOps Row} {config : PretrainedConfig} {h g n : Nat}
    (hconfig : config.Heads h g n) (hn : 0 < n) {tensor : List Row}
    (hlength : tensor.length = n * ((g + 2) * h)) :
    splitQkv ops tensor config = .ok (qkvRows h g n tensor) := by
  obtain ⟨chunks, hchunk, hsplit, -⟩ := chunk_groups hn hlength
  have hfused : tensor.length = (n * h) * (g + 2) := by
    rw [hlength, Nat.mul_comm (g + 2), Nat.mul_assoc]
  rw [splitQkv, hconfig.attention, hconfig.keyValue, Py.floorMod_of_pos hn,
    Py.floorDiv_of_pos hn, Nat.mul_mod_left, Nat.mul_div_cancel _ hn]
  simp only [Py.ok_bind]
  rw [Py.check_of_true trivial, Py.ok_bind, Py.check_of_true (by rw [hfused, Nat.mul_mod_left]),
    Py.ok_bind, hchunk, Py.ok_bind, hfused, Nat.mul_div_cancel _ (Nat.succ_pos _), hsplit,
    Py.ok_bind, catQkv_groups hn]

/-! ## Shards with key/value heads of their own -/

/-- Shard `i` of a fused tensor.  With fewer key/value heads than shards it has its own
query heads and a copy of their key and value head. -/
def qkvShard (h g n tpSize : Nat) (tensor : List Row) (i : Nat) : List Row :=
  if tpSize ≤ n then
    slice tensor (i * (n / tpSize * ((g + 2) * h))) (n / tpSize * ((g + 2) * h))
  else
    slice (qkvRows h g n tensor).q (i * (g * n / tpSize * h)) (g * n / tpSize * h) ++
      (slice (qkvRows h g n tensor).k (i * n / tpSize * h) h ++
        slice (qkvRows h g n tensor).v (i * n / tpSize * h) h)

/-- All the shards. -/
def qkvShards (h g n tpSize : Nat) (tensor : List Row) : List (List Row) :=
  (List.range tpSize).map (qkvShard h g n tpSize tensor)

section Whole

variable {h g m tpSize : Nat} (hm : 0 < m) (htp : 0 < tpSize) {tensor : List Row}
  (hlength : tensor.length = tpSize * m * ((g + 2) * h))

include hm htp

theorem qkvShard_of_le (i : Nat) : qkvShard h g (tpSize * m) tpSize tensor i =
    slice tensor (i * (m * ((g + 2) * h))) (m * ((g + 2) * h)) := by
  rw [qkvShard, if_pos (Nat.le_mul_of_pos_right _ hm), Nat.mul_div_cancel_left _ htp]

theorem groups_qkvShards (tensor : List Row) :
    (((List.range tpSize).map fun i =>
      groups h g m (qkvShard h g (tpSize * m) tpSize tensor i)).flatten) =
      groups h g (tpSize * m) tensor := by
  rw [← List.flatMap_def]
  simp only [qkvShard_of_le hm htp, groups_shards]

include hlength

theorem length_qkvShard {i : Nat} (hi : i < tpSize) :
    (qkvShard h g (tpSize * m) tpSize tensor i).length = m * ((g + 2) * h) := by
  rw [qkvShard_of_le hm htp]
  refine length_slice ?_
  rw [hlength, ← Nat.succ_mul, Nat.mul_assoc]
  exact Nat.mul_le_mul_right _ hi

/-- The shards are the tensor. -/
theorem qkvShards_flatten : (qkvShards h g (tpSize * m) tpSize tensor).flatten = tensor := by
  have hshard : qkvShard h g (tpSize * m) tpSize tensor = _ := funext (qkvShard_of_le hm htp)
  rw [qkvShards, ← List.flatMap_def, hshard, flatMap_range_slice]
  exact slice_zero_of_length_le (by rw [hlength, Nat.mul_assoc])

/-- `default_tp_concat_fn` on the shards. -/
theorem concatQkv_eq (ops : TensorOps Row) (name : String) :
    concatQkv ops tpSize name (qkvShards h g (tpSize * m) tpSize tensor)
      (g * (tpSize * m)) (tpSize * m) = .ok (qkvRows h g (tpSize * m) tensor) := by
  have hn : 0 < tpSize * m := Nat.mul_pos htp hm
  have hfirst : Py.getItem (qkvShards h g (tpSize * m) tpSize tensor) 0 =
      .ok (qkvShard h g (tpSize * m) tpSize tensor 0) := by
    refine Py.getItem_of_some ?_
    rw [qkvShards, List.getElem?_map, List.getElem?_range htp, Option.map_some]
  have hfused : (qkvShard h g (tpSize * m) tpSize tensor 0).length = (m * h) * (g + 2) := by
    rw [length_qkvShard hm htp hlength htp, Nat.mul_comm (g + 2), Nat.mul_assoc]
  have hsize : (qkvShard h g (tpSize * m) tpSize tensor 0).length / (g + 2) = m * h := by
    rw [hfused, Nat.mul_div_cancel _ (Nat.succ_pos _)]
  have hparts : ((qkvShards h g (tpSize * m) tpSize tensor).mapM fun inferParam => do
      let numQueryGroupsPerPartition ← Py.floorDiv (tpSize * m) tpSize
      let chunks ← Rows.chunk inferParam numQueryGroupsPerPartition
      chunks.mapM (splitChunk (m * h) g numQueryGroupsPerPartition)) =
      .ok ((List.range tpSize).map fun i =>
        groups h g m (qkvShard h g (tpSize * m) tpSize tensor i)) := by
    refine Py.mapM_map_eq_ok fun i hi => ?_
    obtain ⟨chunks, hchunk, hsplit, -⟩ :=
      chunk_groups hm (length_qkvShard hm htp hlength (List.mem_range.mp hi))
    rw [Py.floorDiv_of_pos htp, Nat.mul_div_cancel_left _ htp, Py.ok_bind, hchunk, Py.ok_bind,
      hsplit]
  rw [concatQkv, Py.floorMod_of_pos hn, Py.floorDiv_of_pos hn, Nat.mul_mod_left,
    Nat.mul_div_cancel _ hn, hfirst]
  simp only [Py.ok_bind]
  rw [Py.check_of_true trivial, Py.ok_bind, Py.check_of_true (by rw [hfused, Nat.mul_mod_left]),
    Py.ok_bind, hsize, hparts, Py.ok_bind, groups_qkvShards hm htp, catQkv_groups hn]

/-- One shard of the concatenation. -/
theorem convertShard_eq {i : Nat} (hi : i < tpSize) :
    convertShard tensor tpSize (tpSize * m) (g * h * m) (h * m) i =
      .ok (groups h g m (qkvShard h g (tpSize * m) tpSize tensor i)) := by
  have htotal : g * h * m + 2 * (h * m) = m * ((g + 2) * h) := by
    rw [← Nat.mul_assoc 2, ← Nat.add_mul, ← Nat.add_mul, Nat.mul_comm]
  have hpart : Rows.between tensor (i * (m * ((g + 2) * h))) ((i + 1) * (m * ((g + 2) * h))) =
      qkvShard h g (tpSize * m) tpSize tensor i := by
    rw [qkvShard_of_le hm htp, Rows.between, Nat.add_one_mul i, Nat.add_sub_cancel_left]
  obtain ⟨chunks, hchunk, -, hcut⟩ := chunk_groups hm (length_qkvShard hm htp hlength hi)
  rw [convertShard, Py.floorDiv_of_pos htp, Nat.mul_div_cancel_left _ htp]
  simp only [Py.ok_bind]
  rw [htotal, hpart, Py.floorDiv_of_pos hm, Py.floorDiv_of_pos hm, Nat.mul_div_cancel _ hm,
    Nat.mul_div_cancel _ hm, Py.ok_bind, Py.ok_bind, hchunk, Py.ok_bind, hcut]
  rfl

/-- `convert_qkv_shard` on the concatenated shards. -/
theorem convertQkv_eq {config : PretrainedConfig} (hconfig : config.Heads h g (tpSize * m))
    (hg : 0 < g) :
    convertQkv config tpSize (tpSize * m) tensor = .ok (qkvRows h g (tpSize * m) tensor) := by
  have hn : 0 < tpSize * m := Nat.mul_pos htp hm
  have hsize : hiddenSizePerHead config = .ok h := by
    rw [hiddenSizePerHead, hconfig.attention, Py.floorDiv_of_pos (Nat.mul_pos hg hn), Py.ok_bind,
      hconfig.size]
    rfl
  have hq : h * (g * (tpSize * m)) / tpSize = g * h * m := by
    rw [show h * (g * (tpSize * m)) = tpSize * (g * h * m) by ring, Nat.mul_div_cancel_left _ htp]
  have hkv : h * (tpSize * m) / tpSize = h * m := by
    rw [Nat.mul_left_comm, Nat.mul_div_cancel_left _ htp]
  have hshards := @Py.mapM_eq_ok _ _ (convertShard tensor tpSize (tpSize * m) (g * h * m) (h * m))
    _ (List.range tpSize) fun i hi => convertShard_eq hm htp hlength (List.mem_range.mp hi)
  rw [convertQkv, hsize, Py.ok_bind, hconfig.attention, hconfig.keyValue,
    if_pos (Nat.le_mul_of_pos_right _ hm), Py.floorDiv_of_pos htp, Py.floorDiv_of_pos htp, hq, hkv]
  simp only [Py.ok_bind]
  rw [hshards, Py.ok_bind, groups_qkvShards hm htp, catQkv_groups hn]

end Whole

/-! ## Gate and up -/

/-- Shard `i` of a gate and up tensor. -/
def gateUpShard (tpSize : Nat) (gate up : List Row) (i : Nat) : List Row :=
  slice gate (i * (gate.length / tpSize)) (gate.length / tpSize) ++
    slice up (i * (up.length / tpSize)) (up.length / tpSize)

/-- All the shards. -/
def gateUpShards (tpSize : Nat) (gate up : List Row) : List (List Row) :=
  (List.range tpSize).map (gateUpShard tpSize gate up)

theorem chunkTwo_append {gate up : List Row} (h : gate.length = up.length) :
    chunkTwo (gate ++ up) = .ok (gate, up) := by
  have hlength : (gate ++ up).length = 2 * gate.length := by
    rw [List.length_append, ← h, Nat.two_mul]
  have hgate : slice (gate ++ up) (0 * gate.length) gate.length = gate := by
    rw [Nat.zero_mul, slice, List.drop_zero, List.take_left]
  have hup : slice (gate ++ up) (1 * gate.length) gate.length = up := by
    rw [Nat.one_mul, slice, List.drop_left, h, List.take_length]
  rw [chunkTwo, Rows.chunk_of_length Nat.two_pos hlength, Py.ok_bind,
    show List.range 2 = [0, 1] from rfl, List.map_cons, List.map_singleton, hgate, hup]
  rfl

theorem slices_flatten {rows : List Row} {tpSize size : Nat} (hrows : rows.length = tpSize * size) :
    ((List.range tpSize).map fun i => slice rows (i * size) size).flatten = rows := by
  rw [← List.flatMap_def, flatMap_range_slice]
  exact slice_zero_of_length_le (Nat.le_of_eq hrows)

section GateUp

variable {tpSize size : Nat} (htp : 0 < tpSize) {gate up : List Row}
  (hgate : gate.length = tpSize * size) (hup : up.length = tpSize * size)

include htp hgate hup

theorem gateUpShard_eq (i : Nat) : gateUpShard tpSize gate up i =
    slice gate (i * size) size ++ slice up (i * size) size := by
  rw [gateUpShard, hgate, hup, Nat.mul_div_cancel_left _ htp]

theorem concatGateUp_eq : concatGateUp (gateUpShards tpSize gate up) = .ok (gate, up) := by
  have hne : List.range tpSize ≠ [] := mt List.range_eq_nil.mp (Nat.ne_of_gt htp)
  have hparts : (gateUpShards tpSize gate up).mapM chunkTwo =
      .ok ((List.range tpSize).map fun i =>
        (slice gate (i * size) size, slice up (i * size) size)) := by
    refine Py.mapM_map_eq_ok fun i hi => ?_
    have hfit : i * size + size ≤ tpSize * size := by
      rw [← Nat.succ_mul]
      exact Nat.mul_le_mul_right _ (List.mem_range.mp hi)
    rw [gateUpShard_eq htp hgate hup, chunkTwo_append]
    rw [length_slice (hgate ▸ hfit), length_slice (hup ▸ hfit)]
  rw [concatGateUp, hparts, Py.ok_bind, List.map_map, List.map_map,
    Rows.cat_of_ne_nil (mt List.map_eq_nil_iff.mp hne), Py.ok_bind,
    Rows.cat_of_ne_nil (mt List.map_eq_nil_iff.mp hne), Py.ok_bind]
  exact congrArg₂ (fun gate up => Except.ok (gate, up)) (slices_flatten hgate)
    (slices_flatten hup)

theorem convertGateUpShard_eq {config : PretrainedConfig}
    (hconfig : config.intermediateSize = tpSize * size) (gateName upName : String) :
    convertGateUpShard config tpSize (gateUpShards tpSize gate up).flatten gateName upName =
      .ok [(gateName, .tensor gate), (upName, .tensor up)] := by
  have hne : List.range tpSize ≠ [] := mt List.range_eq_nil.mp (Nat.ne_of_gt htp)
  have hfit : ∀ i < tpSize, i * size + size ≤ tpSize * size := by
    intro i hi
    rw [← Nat.succ_mul]
    exact Nat.mul_le_mul_right _ hi
  have hlength : ∀ i < tpSize, (gateUpShard tpSize gate up i).length = size * 2 := by
    intro i hi
    rw [gateUpShard_eq htp hgate hup, List.length_append, length_slice (hgate ▸ hfit i hi),
      length_slice (hup ▸ hfit i hi), Nat.mul_two]
  have hparts : (List.range tpSize).map
      (convertGateUpTp (gateUpShards tpSize gate up).flatten size) =
      (List.range tpSize).map fun i => (slice gate (i * size) size, slice up (i * size) size) := by
    refine List.map_congr_left fun i hi => ?_
    have hi := List.mem_range.mp hi
    have hshard : Rows.between (gateUpShards tpSize gate up).flatten (size * 2 * i)
        (size * 2 * (i + 1)) = slice gate (i * size) size ++ slice up (i * size) size := by
      rw [Rows.between, Nat.mul_add_one _ i, Nat.add_sub_cancel_left, Nat.mul_comm _ i,
        gateUpShards, ← List.flatMap_def, slice_flatMap_range hlength hi,
        gateUpShard_eq htp hgate hup]
    have hsize := length_slice (hgate ▸ hfit i hi)
    rw [convertGateUpTp, hshard, List.take_left' hsize, List.drop_left' hsize]
  rw [convertGateUpShard, hconfig, Py.floorDiv_of_pos htp, Nat.mul_div_cancel_left _ htp]
  simp only [Py.ok_bind]
  rw [hparts, List.map_map, List.map_map, Rows.cat_of_ne_nil (mt List.map_eq_nil_iff.mp hne),
    Py.ok_bind, Rows.cat_of_ne_nil (mt List.map_eq_nil_iff.mp hne), Py.ok_bind]
  exact congrArg₂ (fun gate up => Except.ok [(gateName, Param.tensor gate), (upName, .tensor up)])
    (slices_flatten hgate) (slices_flatten hup)

end GateUp

/-! ## All three places -/

/-- What the three functions read off the name of a fused query, key and value tensor. -/
structure QkvName (name layerNumber paramType : String) : Prop where
  qkv : has "self_attention.linear_qkv." name = true
  attention : has "self_attention" name = true
  norm : has "layer_norm" name = false
  vision : has "vision_model" name = false
  fc1 : has "linear_fc1.weight" name = false
  embedding : name ≠ "embedding.word_embeddings.weight"
  layer : (splitName name)[2]? = some layerNumber
  component : (splitName name)[4]? = some "linear_qkv"
  type : (splitName name)[5]? = some paramType
  type_ne : paramType ≠ "layer_norm_weight"

/-- What the three functions read off the name of a fused gate and up tensor. -/
structure Fc1Name (name layerNumber : String) : Prop where
  fc1 : has "linear_fc1.weight" name = true
  gate : has "linear_fc1." name = true
  mlp : has "mlp" name = true
  qkv : has "self_attention.linear_qkv." name = false
  attention : has "self_attention" name = false
  norm : has "layer_norm" name = false
  projection : has "vision_model.projection" name = false
  embedding : name ≠ "embedding.word_embeddings.weight"
  layer : (splitName name)[2]? = some layerNumber
  component : (splitName name)[4]? = some "linear_fc1"
  type : (splitName name)[5]? = some "weight"

/-- The three functions take the fused tensor apart into its query, key and value rows,
and every row is one of these. -/
structure QkvTakenApart (ops : TensorOps Row) (config : PretrainedConfig)
    (visionConfig : VisionConfig) (h g n tpSize : Nat) (name layerNumber paramType : String)
    (tensor : List Row) : Prop where
  split : splitTensors ops name tensor config =
    .ok [(qkvRows h g n tensor).q, (qkvRows h g n tensor).k, (qkvRows h g n tensor).v]
  concat : ∀ partitionDim, defaultTpConcatFn ops tpSize partitionDim megatronMapping name
      (qkvShards h g n tpSize tensor) config visionConfig true =
    .ok (.parts
      [(qkvRows h g n tensor).q, (qkvRows h g n tensor).k, (qkvRows h g n tensor).v])
  convert : convertMegatronModelToTransformersModel name
      (.tensor (qkvShards h g n tpSize tensor).flatten) config tpSize n true =
    .ok [(attnName layerNumber "q_proj" paramType, .tensor (qkvRows h g n tensor).q),
      (attnName layerNumber "k_proj" paramType, .tensor (qkvRows h g n tensor).k),
      (attnName layerNumber "v_proj" paramType, .tensor (qkvRows h g n tensor).v)]
  rows : ((qkvRows h g n tensor).q ++ (qkvRows h g n tensor).k ++
    (qkvRows h g n tensor).v).Perm tensor

/-- The three functions take the fused tensor apart into its gate and its up rows. -/
structure GateUpTakenApart (ops : TensorOps Row) (config : PretrainedConfig)
    (visionConfig : VisionConfig) (tpSize : Nat) (name layerNumber : String)
    (gate up : List Row) : Prop where
  split : splitTensors ops name (gate ++ up) config = .ok [gate, up]
  concat : ∀ partitionDim, defaultTpConcatFn ops tpSize partitionDim megatronMapping name
      (gateUpShards tpSize gate up) config visionConfig true = .ok (.parts [gate, up])
  convert : ∀ numQueryGroups, convertMegatronModelToTransformersModel name
      (.tensor (gateUpShards tpSize gate up).flatten) config tpSize numQueryGroups true =
    .ok [(mlpName layerNumber "gate_proj", .tensor gate),
      (mlpName layerNumber "up_proj", .tensor up)]

section Names

variable {ops : TensorOps Row} {config : PretrainedConfig} {visionConfig : VisionConfig}
  {name layerNumber paramType : String}

theorem splitTensors_qkv (hname : QkvName name layerNumber paramType) {tensor : List Row}
    {parts : Qkv Row} (hparts : splitQkv ops tensor config = .ok parts) :
    splitTensors ops name tensor config = .ok [parts.q, parts.k, parts.v] := by
  rw [splitTensors, hname.fc1, if_neg Bool.false_ne_true, hname.qkv, hname.norm,
    if_pos ⟨rfl, Bool.false_ne_true⟩, hparts]
  rfl

theorem defaultTpConcatFn_qkv (hname : QkvName name layerNumber paramType)
    (tpSize partitionDim : Nat) (inferParams : List (List Row)) :
    defaultTpConcatFn ops tpSize partitionDim megatronMapping name inferParams config
        visionConfig true = do
      let parts ← concatQkv ops tpSize name inferParams config.numAttentionHeads
        config.numKeyValueHeads
      return .parts [parts.q, parts.k, parts.v] := by
  have hcond : has megatronMapping.qkvLayerName name = true ∧ ¬ has "layer_norm" name = true :=
    ⟨hname.qkv, by rw [hname.norm]; exact Bool.false_ne_true⟩
  rw [defaultTpConcatFn, if_pos hcond, headCounts, hname.vision]
  rfl

theorem convert_qkv (hname : QkvName name layerNumber paramType) (tpSize numQueryGroups : Nat)
    (tensor : List Row) :
    convertMegatronModelToTransformersModel name (.tensor tensor) config tpSize numQueryGroups
        true =
      convertQkvShard config tpSize numQueryGroups tensor
        (attnName layerNumber "q_proj" paramType) (attnName layerNumber "k_proj" paramType)
        (attnName layerNumber "v_proj" paramType) := by
  have hproj : ¬ "linear_qkv" = "linear_proj" := by decide
  have hlist : "linear_qkv" = "linear_qkv" ∧ ¬ (Param.tensor tensor).isList = true :=
    ⟨rfl, Bool.false_ne_true⟩
  rw [convertMegatronModelToTransformersModel, if_neg hname.embedding, hname.attention,
    if_pos rfl, convertAttention, Py.getItem_of_some hname.layer,
    Py.getItem_of_some hname.component, Py.getItem_of_some hname.type]
  rw [Py.ok_bind, Py.ok_bind, Py.ok_bind, if_neg hproj, if_pos hlist, if_neg hname.type_ne]

theorem splitTensors_fc1 (hname : Fc1Name name layerNumber) {gate up : List Row}
    (h : gate.length = up.length) :
    splitTensors ops name (gate ++ up) config = .ok [gate, up] := by
  have hcat : ∀ rows : List Row, Rows.cat [rows] = .ok rows := fun rows => by
    rw [Rows.cat, List.flatten_cons, List.flatten_nil, List.append_nil]
  rw [splitTensors, hname.fc1, if_pos rfl, chunkTwo_append h, Py.ok_bind]
  simp only [hcat, Py.ok_bind]
  rfl

theorem defaultTpConcatFn_fc1 (hname : Fc1Name name layerNumber) (tpSize partitionDim : Nat)
    {inferParams : List (List Row)} {gate up : List Row}
    (hparts : concatGateUp inferParams = .ok (gate, up)) :
    defaultTpConcatFn ops tpSize partitionDim megatronMapping name inferParams config
        visionConfig true = .ok (.parts [gate, up]) := by
  have hqkv : ¬ (has megatronMapping.qkvLayerName name = true ∧
      ¬ has "layer_norm" name = true) := fun hcond =>
    Bool.false_ne_true (hname.qkv.symm.trans hcond.1)
  have hgate : has megatronMapping.gateProjLayerName name = true ∧
      ¬ has "layer_norm" name = true ∧ ¬ has "vision_model.projection" name = true := by
    rw [hname.norm, hname.projection]
    exact ⟨hname.gate, Bool.false_ne_true, Bool.false_ne_true⟩
  rw [defaultTpConcatFn, if_neg hqkv, if_pos hgate, hparts]
  rfl

theorem convert_fc1 (hname : Fc1Name name layerNumber) (tpSize numQueryGroups : Nat)
    (tensor : List Row) :
    convertMegatronModelToTransformersModel name (.tensor tensor) config tpSize numQueryGroups
        true =
      convertGateUpShard config tpSize tensor
        (mlpName layerNumber "gate_proj") (mlpName layerNumber "up_proj") := by
  have hfc1 : decide ("linear_fc1" = "linear_fc1") = true := decide_eq_true rfl
  have hnorm : ¬ "weight" = "layer_norm_weight" := by decide
  rw [convertMegatronModelToTransformersModel, if_neg hname.embedding, hname.attention,
    if_neg Bool.false_ne_true, hname.mlp, if_pos rfl, convertMlp,
    Py.getItem_of_some hname.layer, Py.getItem_of_some hname.component,
    Py.getItem_of_some hname.type]
  rw [Py.ok_bind, Py.ok_bind, Py.ok_bind, hfc1]
  simp only
  rw [if_neg hnorm, if_pos trivial, if_pos trivial]

/-- With fewer key/value heads than shards there are no groups in a partition. -/
theorem convertQkv_of_lt {h g n tpSize : Nat} (hconfig : config.Heads h g n) (hg : 0 < g)
    (hn : 0 < n) (hlt : n < tpSize) (tensor : List Row) :
    convertQkv config tpSize n tensor = .error .zeroDivision := by
  have htp : 0 < tpSize := Nat.lt_of_le_of_lt (Nat.zero_le n) hlt
  have hsize : hiddenSizePerHead config = .ok h := by
    rw [hiddenSizePerHead, hconfig.attention, Py.floorDiv_of_pos (Nat.mul_pos hg hn), Py.ok_bind,
      hconfig.size]
    rfl
  have hfirst : ∀ qSizeTp, convertShard tensor tpSize n qSizeTp h 0 = .error .zeroDivision := by
    intro qSizeTp
    rw [convertShard, Py.floorDiv_of_pos htp, Nat.div_eq_of_lt hlt]
    rfl
  obtain ⟨last, rfl⟩ := Nat.exists_eq_succ_of_ne_zero (Nat.ne_of_gt htp)
  rw [convertQkv, hsize, Py.ok_bind, hconfig.keyValue, if_neg (Nat.not_le_of_lt hlt),
    Py.floorDiv_of_pos htp, Py.ok_bind, List.range_succ_eq_map, List.mapM_cons, hfirst]
  rfl

/-- `default_tp_concat_fn` fails as well, in the assertion or as there are no chunks. -/
theorem concatQkv_of_lt {nq n tpSize : Nat} (hlt : n < tpSize) (inferParams : List (List Row)) :
    ∀ parts, concatQkv ops tpSize name inferParams nq n ≠ .ok parts := by
  intro parts hparts
  have htp : 0 < tpSize := Nat.lt_of_le_of_lt (Nat.zero_le n) hlt
  obtain ⟨_, -, hparts⟩ := Py.bind_eq_ok.mp hparts
  obtain ⟨_, -, hparts⟩ := Py.bind_eq_ok.mp hparts
  obtain ⟨_, -, hparts⟩ := Py.bind_eq_ok.mp hparts
  obtain ⟨first, hfirst, hparts⟩ := Py.bind_eq_ok.mp hparts
  obtain ⟨_, -, hparts⟩ := Py.bind_eq_ok.mp hparts
  obtain ⟨_, hshards, -⟩ := Py.bind_eq_ok.mp hparts
  cases inferParams with
  | nil => cases hfirst
  | cons inferParam inferParams =>
      rw [List.mapM_cons] at hshards
      obtain ⟨_, hshard, -⟩ := Py.bind_eq_ok.mp hshards
      rw [Py.floorDiv_of_pos htp, Nat.div_eq_of_lt hlt] at hshard
      cases hshard

end Names

/-- The three functions take every fused tensor apart in the same way, exactly when every
shard has a key/value head of its own. -/
theorem takenApart_iff [Nonempty Row] {ops : TensorOps Row} {config : PretrainedConfig}
    {visionConfig : VisionConfig} {h g n tpSize : Nat} (hconfig : config.Heads h g n)
    (hg : 0 < g) (hn : 0 < n)
    (htp : tpSize ∣ n ∨ n < tpSize ∧ n ∣ tpSize ∧ tpSize ∣ g * n)
    (hinter : tpSize ∣ config.intermediateSize)
    {name layerNumber paramType fc1Name fc1Layer : String}
    (hname : QkvName name layerNumber paramType) (hfc1 : Fc1Name fc1Name fc1Layer) :
    ((∀ tensor : List Row, tensor.length = (g * n + 2 * n) * h →
        QkvTakenApart ops config visionConfig h g n tpSize name layerNumber paramType tensor) ∧
      ∀ gate up : List Row, gate.length = config.intermediateSize →
        up.length = config.intermediateSize →
        GateUpTakenApart ops config visionConfig tpSize fc1Name fc1Layer gate up) ↔
      tpSize ≤ n := by
  have hrows : (g * n + 2 * n) * h = n * ((g + 2) * h) := by
    rw [← Nat.add_mul, Nat.mul_comm _ n, Nat.mul_assoc]
  constructor
  · rintro ⟨hqkv, -⟩
    by_contra hlt
    obtain ⟨row⟩ := ‹Nonempty Row›
    have hconvert := (hqkv (List.replicate ((g * n + 2 * n) * h) row) List.length_replicate).convert
    rw [convert_qkv hname, convertQkvShard,
      convertQkv_of_lt hconfig hg hn (Nat.lt_of_not_le hlt)] at hconvert
    cases hconvert
  · intro hle
    obtain ⟨m, rfl⟩ : tpSize ∣ n := htp.resolve_right fun hlt => Nat.not_lt_of_le hle hlt.1
    obtain ⟨size, hsize⟩ := hinter
    have htp := Nat.pos_of_mul_pos_right hn
    have hm := Nat.pos_of_mul_pos_left hn
    refine ⟨fun tensor hlength => ?_, fun gate up hgate hup => ?_⟩
    · rw [hrows] at hlength
      refine ⟨splitTensors_qkv hname (splitQkv_eq hconfig hn hlength), fun partitionDim => ?_, ?_,
        qkvRows_perm hlength⟩
      · rw [defaultTpConcatFn_qkv hname, hconfig.attention, hconfig.keyValue,
          concatQkv_eq hm htp hlength]
        rfl
      · rw [convert_qkv hname, qkvShards_flatten hm htp hlength, convertQkvShard,
          convertQkv_eq hm htp hlength hconfig hg]
        rfl
    · rw [hsize] at hgate hup
      refine ⟨splitTensors_fc1 hfc1 (hgate.trans hup.symm), fun partitionDim => ?_,
        fun numQueryGroups => ?_⟩
      · exact defaultTpConcatFn_fc1 hfc1 tpSize partitionDim (concatGateUp_eq htp hgate hup)
      · rw [convert_fc1 hfc1, convertGateUpShard_eq htp hgate hup hsize]

/-- Two shards of a model with two key/value heads. -/
theorem takenApart_iff_twoHeads :
    ((∀ tensor : List Nat, tensor.length = (2 * 2 + 2 * 2) * 3 →
        QkvTakenApart ⟨fun _ => "torch.Size([24])", fun _ => Rows.cat⟩ ⟨12, 4, 2, 6, none⟩ ⟨16⟩
          3 2 2 2 "decoder.layers.7.self_attention.linear_qkv.bias" "7" "bias" tensor) ∧
      ∀ gate up : List Nat, gate.length = 6 → up.length = 6 →
        GateUpTakenApart ⟨fun _ => "torch.Size([24])", fun _ => Rows.cat⟩ ⟨12, 4, 2, 6, none⟩ ⟨16⟩
          2 "decoder.layers.7.mlp.linear_fc1.weight" "7" gate up) ↔ 2 ≤ 2 :=
  @takenApart_iff Nat _ _ ⟨12, 4, 2, 6, none⟩ _ 3 2 2 2 ⟨rfl, rfl, rfl⟩ (by decide) (by decide)
    (Or.inl (by decide)) (by decide) _ _ _ _ _
    ⟨rfl, rfl, rfl, rfl, rfl, by decide, rfl, rfl, rfl, by decide⟩
    ⟨rfl, rfl, rfl, rfl, rfl, rfl, rfl, by decide, rfl, rfl, rfl⟩

/-- One key/value head, two query heads and two shards. -/
theorem not_takenApart_oneHead :
    ¬ ((∀ tensor : List Nat, tensor.length = (2 * 1 + 2 * 1) * 1 →
        QkvTakenApart ⟨fun _ => "torch.Size([4])", fun _ => Rows.cat⟩ ⟨2, 2, 1, 2, some 1⟩ ⟨16⟩
          1 2 1 2 "decoder.layers.0.self_attention.linear_qkv.bias" "0" "bias" tensor) ∧
      ∀ gate up : List Nat, gate.length = 2 → up.length = 2 →
        GateUpTakenApart ⟨fun _ => "torch.Size([4])", fun _ => Rows.cat⟩ ⟨2, 2, 1, 2, some 1⟩ ⟨16⟩
          2 "decoder.layers.0.mlp.linear_fc1.weight" "0" gate up) := by
  rintro ⟨hqkv, -⟩
  have hraised : convertMegatronModelToTransformersModel
      "decoder.layers.0.self_attention.linear_qkv.bias"
      (.tensor (qkvShards 1 2 1 2 [10, 11, 20, 30]).flatten) ⟨2, 2, 1, 2, some 1⟩ 2 1 true =
      .error .zeroDivision := rfl
  cases hraised.symm.trans (hqkv [10, 11, 20, 30] rfl).convert

end Verl.Fused
