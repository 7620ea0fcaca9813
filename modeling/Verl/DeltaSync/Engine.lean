import Verl.DeltaSync.SparseGather
import Verl.Lib.Batching
import Verl.Lib.Dict

/-!
# The sender of the delta engine

`sendWeights` is one sync on the trainer.  Every rank diffs its shard against the
snapshot it took at the sync before, the changes are gathered to rank 0 in groups
of parameters, and rank 0 cuts them into entries, collects these in buckets and
publishes each bucket as a flush.  The first sync (`sendDenseSeed`) publishes the
whole parameters instead.

All ranks run one loop over one list of parameters, so the loop is written once,
with the data of all ranks.  A flush is one manifest on the socket and its bytes
on the broadcast, and it is held back until the next one is known, so that the
last one can be flagged.

*Ghost state.*  `Wire.published` is the list of what was published.
-/

namespace Verl.DeltaSync

open Batching (Batcher Buffered Held)
open Slices (slice)

variable {T : Torch}

/-! ## Placements -/

/-- A process group.  Rank 0 of the trainer is its first rank. -/
structure ProcessGroup where
  id : Nat
  ranks : List Nat
  head_ranks : ranks.head? = some 0
deriving DecidableEq

/-- `Shard(0)` over one mesh dimension: the group of rank 0 in it, the coordinate of
every rank, and how much of the flattened parameter is at each coordinate. -/
structure Sharding where
  group : ProcessGroup
  coordinate : Nat → Nat
  sizes : List Nat
  length_sizes : sizes.length = group.ranks.length
  coordinate_ranks : group.ranks.map coordinate = List.range group.ranks.length

structure ShardSpec where
  fullShape : List Nat
  /-- `none` is `mesh=None`, or replication over every mesh dimension. -/
  sharding : Option Sharding
  sum_sizes : ∀ s ∈ sharding, s.sizes.sum = prodshape fullShape

structure Placement where
  offset : Nat
  contributes : Bool
  group : Option ProcessGroup

def derivePlacement (spec : ShardSpec) (rank : Nat) : Placement :=
  match spec.sharding with
  | none => ⟨0, rank == 0, none⟩
  -- the other ranks replicate what the group has
  | some s => ⟨(s.sizes.take (s.coordinate rank)).sum, decide (rank ∈ s.group.ranks), some s.group⟩

/-- The ranks whose shards reach rank 0. -/
def ShardSpec.ranks (spec : ShardSpec) : List Nat :=
  match spec.sharding with
  | none => [0]
  | some s => s.group.ranks

/-- One item of `get_per_tensor_param_shard()`, for all ranks. -/
structure ShardExport (T : Torch) where
  name : String
  shard : Nat → Flat T
  spec : ShardSpec

/-! ## The wire -/

inductive Encoding where
  | dense
  | indices
deriving DecidableEq

structure DeltaParam (T : Torch) where
  name : String
  dtype : T.DType
  shape : List Nat
  posStart : Nat
  posEnd : Nat
  posWidth : Nat
  valStart : Nat
  valEnd : Nat

structure FlushSpec (T : Torch) where
  encoding : Encoding
  params : List (DeltaParam T)
  checksum : Nat

/-- The manifest of a flush, or the marker of a stream without flushes. -/
inductive Meta (T : Torch) where
  | terminal (isFull : Bool)
  | flush (isFull isLast : Bool) (posNumel valNumel : Nat) (valDType : T.DType)
      (spec : FlushSpec T)

/-- `__delta_spec__`, `__positions__` and `__values__`. -/
structure NamedTensors (T : Torch) where
  spec : FlushSpec T
  positions : Option (List UInt8)
  values : Flat T

structure Wire (T : Torch) where
  zmq : List (Meta T)
  nccl : List (List UInt8)
  published : List (NamedTensors T × Bool)

structure DeltaFlush (T : Torch) where
  params : List (DeltaParam T)
  positions : List UInt8
  values : Flat T
  checksum : Nat

/-- A flush of whole parameters: the manifest and the values. -/
structure DenseFlush (T : Torch) where
  params : List (DeltaParam T)
  values : Flat T

def publishFlush (first : Bool) (wire : Wire T) (flush : DeltaFlush T) (isLast : Bool) :
    Wire T :=
  let spec := ⟨.indices, flush.params, flush.checksum⟩
  { zmq := wire.zmq ++ [.flush first isLast flush.positions.length flush.values.numel
      flush.values.dtype spec]
    nccl := wire.nccl ++ [flush.positions, flush.values.bytes]
    published := wire.published ++ [(⟨spec, some flush.positions, flush.values⟩, isLast)] }

def publishDenseFlush (wire : Wire T) (flush : DenseFlush T) (isLast : Bool) : Wire T :=
  let spec := ⟨.dense, flush.params, checksum [] flush.values⟩
  { zmq := wire.zmq ++ [.flush true isLast 0 flush.values.numel flush.values.dtype spec]
    nccl := wire.nccl ++ [flush.values.bytes]
    published := wire.published ++ [(⟨spec, none, flush.values⟩, isLast)] }

def publishTerminal (first : Bool) (wire : Wire T) : Wire T :=
  { wire with zmq := wire.zmq ++ [.terminal first] }

/-! ## The trainer -/

structure EngineConfig (T : Torch) where
  bucketSize : Nat
  batchGather : Nat
  maxEntryElems : Nat
  rolloutDType : T.DType
  maxEntryElems_pos : 0 < maxEntryElems

/-- What every rank keeps from one sync to the next. -/
structure Trainer (T : Torch) where
  shardSnap : Nat → Py.Dict String (Flat T)
  placements : Nat → Py.Dict String Placement
  shardSeeded : Bool

/-- `torch.empty_like`. -/
def Flat.emptyLike (t : Flat T) : Flat T :=
  ⟨t.dtype, (List.range t.numel).map (T.uninit t.dtype)⟩

/-- `t.copy_(source)`, for tensors of one size. -/
def Flat.copy (t source : Flat T) : Flat T := source.cast t.dtype

/-- The snapshot of a shard, allocated if there is none of its size. -/
def snapshotOf (snaps : Py.Dict String (Flat T)) (name : String) (shard : Flat T) : Flat T :=
  match snaps.get? name with
  | none => shard.emptyLike
  | some snap => if snap.numel ≠ shard.numel then shard.emptyLike else snap

/-- Every rank takes the snapshot of its shard. -/
def takeSnapshots (snaps : Nat → Py.Dict String (Flat T)) (e : ShardExport T) :
    Nat → Py.Dict String (Flat T) :=
  fun rank => (snaps rank).set e.name
    ((snapshotOf (snaps rank) e.name (e.shard rank)).copy (e.shard rank))

namespace Trainer

variable (trainer : Trainer T)

/-- `_placement`, which derives a placement once for a name. -/
def placement (e : ShardExport T) (rank : Nat) : Placement :=
  match (trainer.placements rank).get? e.name with
  | some got => got
  | none => derivePlacement e.spec rank

/-- The snapshots and placements after a parameter. -/
def visit (e : ShardExport T) : Trainer T :=
  { trainer with
    shardSnap := takeSnapshots trainer.shardSnap e
    placements := fun rank => (trainer.placements rank).set e.name (trainer.placement e rank) }

theorem shardSnap_visit (e : ShardExport T) (rank : Nat) :
    (trainer.visit e).shardSnap rank = (trainer.shardSnap rank).set e.name
      ((snapshotOf (trainer.shardSnap rank) e.name (e.shard rank)).copy (e.shard rank)) := rfl

theorem placements_visit (e : ShardExport T) (rank : Nat) :
    (trainer.visit e).placements rank =
      (trainer.placements rank).set e.name (trainer.placement e rank) := rfl

end Trainer

/-! ## The dense first sync -/

structure DenseEntry (T : Torch) where
  name : String
  dtype : T.DType
  shape : List Nat
  flat : Flat T

def denseParams : Nat → List (DenseEntry T) → List (DeltaParam T)
  | _, [] => []
  | valOff, e :: es =>
      ⟨e.name, e.dtype, e.shape, 0, 0, 4, valOff, valOff + e.flat.numel⟩ ::
        denseParams (valOff + e.flat.numel) es

def denseBucketer (cfg : EngineConfig T) :
    Batcher Py.Error (DenseEntry T) (Held (Wire T) (DenseFlush T)) Nat where
  start := 0
  add bytes e := bytes + e.flat.nbytes
  before _ _ _ := false
  after _ bytes := decide (cfg.bucketSize ≤ bytes)
  flush held bucket := .ok (held.hold publishDenseFlush
    ⟨denseParams 0 bucket, .cat (bucket.map DenseEntry.flat)⟩)

/-- The whole parameter on rank 0. -/
def assembleDense (trainer : Trainer T) (e : ShardExport T) :
    Except Py.Error (Option (Tensor T)) :=
  match (trainer.placement e 0).group with
  | none =>
      if (trainer.placement e 0).contributes then do
        let full ← (e.shard 0).view e.spec.fullShape
        return some full
      else return none
  | some group => do
      let place := fun r => trainer.placement e (group.ranks.getD r 0)
      let shard := fun r =>
        if (place r).contributes then e.shard (group.ranks.getD r 0)
        else .empty (e.shard (group.ranks.getD r 0)).dtype
      let offset := fun r => if (place r).contributes then (place r).offset else 0
      let full ← (gatherDenseToRank0 group.ranks.length shard offset
        (prodshape e.spec.fullShape)).view e.spec.fullShape
      return some full

structure SeedLoop (T : Torch) where
  trainer : Trainer T
  buckets : Buffered (Held (Wire T) (DenseFlush T)) (DenseEntry T) Nat

/-- `_bucket_dense`. -/
def bucketDense (cfg : EngineConfig T)
    (buckets : Buffered (Held (Wire T) (DenseFlush T)) (DenseEntry T) Nat) (name : String)
    (tensor : Tensor T) :
    Except Py.Error (Buffered (Held (Wire T) (DenseFlush T)) (DenseEntry T) Nat) :=
  (denseBucketer cfg).push buckets ⟨name, tensor.flat.dtype, tensor.shape, tensor.flat⟩

/-- The loop body. -/
def seedParam (cfg : EngineConfig T) (loop : SeedLoop T) (e : ShardExport T) :
    Except Py.Error (SeedLoop T) := do
  match ← assembleDense loop.trainer e with
  | none => return ⟨loop.trainer.visit e, loop.buckets⟩
  | some tensor =>
      let buckets ← bucketDense cfg loop.buckets e.name tensor
      return ⟨loop.trainer.visit e, buckets⟩

def sendDenseSeed (cfg : EngineConfig T) (trainer : Trainer T) (wire : Wire T)
    (weights : List (ShardExport T)) : Except Py.Error (Trainer T × Wire T) := do
  let loop ← weights.foldlM (seedParam cfg) ⟨trainer, (denseBucketer cfg).init ⟨wire, none⟩⟩
  let buckets ← (denseBucketer cfg).spill true loop.buckets
  return ({ loop.trainer with shardSeeded := true },
    buckets.out.close publishDenseFlush (publishTerminal true))

/-! ## The sparse syncs -/

/-- A piece of the changes of one parameter. -/
structure Entry (T : Torch) where
  name : String
  dtype : T.DType
  shape : List Nat
  idx : List Int
  val : Flat T

def assembleParams : Nat → Nat → List (Entry T) → Except Py.Error (List (DeltaParam T))
  | _, _, [] => .ok []
  | posOff, valOff, e :: es => do
      let nnz := e.idx.length
      Py.check (prodshape e.shape < 2 ^ 31)
        s!"{e.name}: {prodshape e.shape} elements exceeds the int32 position encoding"
      let params ← assembleParams (posOff + nnz * 4) (valOff + nnz) es
      return ⟨e.name, e.dtype, e.shape, posOff, posOff + nnz * 4, 4, valOff, valOff + nnz⟩ ::
        params

/-- `_assemble_flush`. -/
def assembleFlush (cfg : EngineConfig T) (perParam : List (Entry T)) :
    Except Py.Error (DeltaFlush T) := do
  let params ← assembleParams 0 0 perParam
  let values := if perParam.isEmpty then .empty cfg.rolloutDType
    else .cat (perParam.map Entry.val)
  let positions := Bytes.int32.pack (perParam.flatMap Entry.idx)
  return ⟨params, positions, values, checksum positions values⟩

def bucketer (cfg : EngineConfig T) :
    Batcher Py.Error (Entry T) (Held (Wire T) (DeltaFlush T)) Nat where
  start := 0
  add bytes e := bytes + (e.idx.length * 8 + e.idx.length * e.val.elementSize)
  before _ _ _ := false
  after _ bytes := decide (cfg.bucketSize ≤ bytes)
  flush held bucket := do
    let flush ← assembleFlush cfg bucket
    return held.hold (publishFlush false) flush

/-- The bucket that `_consume` fills. -/
abbrev Buckets (T : Torch) := Buffered (Held (Wire T) (DeltaFlush T)) (Entry T) Nat

/-- An item of `group`, with the deltas of the ranks of its process group. -/
structure GroupEntry (T : Torch) where
  name : String
  dtype : T.DType
  fullShape : List Nat
  deltas : List (Delta T)
  group : Option ProcessGroup

def GroupEntry.delta (g : GroupEntry T) (r : Nat) : Delta T :=
  g.deltas.getD r (.empty g.dtype)

/-- The slices of at most `MAX_ENTRY_ELEMS` elements. -/
def GroupEntry.entries (cfg : EngineConfig T) (g : GroupEntry T) (delta : Delta T) :
    List (Entry T) :=
  (List.range ((delta.idx.length + cfg.maxEntryElems - 1) / cfg.maxEntryElems)).map fun k =>
    let s := k * cfg.maxEntryElems
    let size := min (s + cfg.maxEntryElems) delta.idx.length - s
    ⟨g.name, g.dtype, g.fullShape, slice delta.idx s size, delta.val.slice s size⟩

/-- `_consume`. -/
def consume (cfg : EngineConfig T) (buckets : Buckets T) (g : GroupEntry T) (delta : Delta T) :
    Except Py.Error (Buckets T) :=
  if delta.idx.length = 0 then .ok buckets
  else (g.entries cfg delta).foldlM (bucketer cfg).push buckets

/-- `_flush_group`. -/
def flushGroup (cfg : EngineConfig T) (buckets : Buckets T) (group : List (GroupEntry T)) :
    Except Py.Error (Buckets T) :=
  match group.head?.bind GroupEntry.group with
  | none => group.foldlM (fun buckets g => consume cfg buckets g (g.delta 0)) buckets
  | some pg =>
      let gathered := gatherVBatchedToRank0 pg.ranks.length fun r =>
        Batch.of (group.map fun g => g.delta r)
      (group.zip gathered).foldlM (fun buckets x => consume cfg buckets x.1 x.2) buckets

def grouper (cfg : EngineConfig T) : Batcher Py.Error (GroupEntry T) (Buckets T) Unit where
  start := ()
  add _ _ := ()
  before group _ g := group.getLast?.any fun last => decide (last.group ≠ g.group)
  after group _ := decide (max cfg.batchGather 1 ≤ group.length)
  flush := flushGroup cfg

/-- The changes of one rank, at positions in the flattened parameter. -/
def localDelta (trainer : Trainer T) (e : ShardExport T) (rank : Nat) :
    Except Py.Error (Delta T) :=
  let place := trainer.placement e rank
  if place.contributes then do
    let base := snapshotOf (trainer.shardSnap rank) e.name (e.shard rank)
    let (lidx, lval) ← shardDeltaIndices (e.shard rank) base 0
    return ⟨lidx.map fun i : Nat => Bytes.wrap32 (i + place.offset), lval⟩
  else return .empty (e.shard rank).dtype

structure SparseLoop (T : Torch) where
  trainer : Trainer T
  group : Buffered (Buckets T) (GroupEntry T) Unit

/-- The loop body. -/
def diffParam (cfg : EngineConfig T) (loop : SparseLoop T) (e : ShardExport T) :
    Except Py.Error (SparseLoop T) := do
  let deltas ← e.spec.ranks.mapM (localDelta loop.trainer e)
  let group ← (grouper cfg).push loop.group
    ⟨e.name, (e.shard 0).dtype, e.spec.fullShape, deltas, (loop.trainer.placement e 0).group⟩
  return ⟨loop.trainer.visit e, group⟩

def sendWeights (cfg : EngineConfig T) (trainer : Trainer T) (wire : Wire T)
    (weights : List (ShardExport T)) : Except Py.Error (Trainer T × Wire T) :=
  if trainer.shardSeeded then do
    let loop ← weights.foldlM (diffParam cfg)
      ⟨trainer, (grouper cfg).init ((bucketer cfg).init ⟨wire, none⟩)⟩
    let group ← (grouper cfg).spill true loop.group
    let buckets ← (bucketer cfg).spill true group.out
    return ({ loop.trainer with shardSeeded := true },
      buckets.out.close (publishFlush false) (publishTerminal false))
  else sendDenseSeed cfg trainer wire weights

end Verl.DeltaSync
