import Mathlib.Logic.Function.Basic
import Verl.DeltaSync.Engine

/-!
# The receiver of the delta engine

`receiveWeights` reads one stream from the wire: a manifest for each flush, then
its bytes.  `applyDelta` is the weight loader that takes each flush.  A dense
flush is copied onto the parameters.  Of a sparse flush every entry becomes a
tensor of the full shape that is NaN where nothing changed, and the copy skips
what is NaN.  Both collect the tensors in chunks.

`load_weights` of the model copies every tensor onto the parameter of its name.
-/

namespace Verl.DeltaSync

open Batching (Batcher)
open Slices (slice)

variable {T : Torch}

/-! ## The receive loop -/

/-- `collective.broadcast` into a buffer of `size` bytes. -/
def recvBroadcast (size : Nat) :
    List (List UInt8) → Except Py.Error (List UInt8 × List (List UInt8))
  | [] => .error (.runtime "nothing was broadcast")
  | bytes :: nccl =>
      if bytes.length = size then .ok (bytes, nccl)
      else .error (.runtime "the buffers have different sizes")

/-- What the loop has yielded, and what it leaves on the wire. -/
structure Received (T : Torch) where
  items : List (NamedTensors T × Bool)
  zmq : List (Meta T)
  nccl : List (List UInt8)

def receiveWeights :
    List (Meta T) → List (List UInt8) → Except Py.Error (Received T)
  | [], _ => .error (.runtime "nothing was sent")
  | .terminal _ :: zmq, nccl => .ok ⟨[], zmq, nccl⟩
  | .flush _ isLast posNumel valNumel valDType spec :: zmq, nccl => do
      let (positions, nccl) ←
        if spec.encoding = .dense then .ok (none, nccl)
        else do
          let (positions, nccl) ← recvBroadcast posNumel nccl
          .ok (some positions, nccl)
      let (bytes, nccl) ← recvBroadcast (valNumel * T.elementSize valDType) nccl
      let named := ⟨spec, positions, ⟨valDType, (T.codec valDType).unpack bytes⟩⟩
      if isLast then return ⟨[(named, true)], zmq, nccl⟩
      else do
        let r ← receiveWeights zmq nccl
        return ⟨(named, false) :: r.items, r.zmq, r.nccl⟩

/-! ## The model -/

/-- The parameters of the rollout model. -/
abbrev Model (T : Torch) := String → Option (Tensor T)

/-- One `copy_` onto the parameter of the name. -/
def loadOne (copy : Flat T → Flat T → Flat T) (model : Model T) (x : String × Tensor T) :
    Except Py.Error (Model T) :=
  match model x.1 with
  | none => .error .key
  | some param =>
      if param.shape = x.2.shape then
        .ok (Function.update model x.1 (some ⟨param.shape, copy param.flat x.2.flat⟩))
      else .error (.runtime "The size of the tensors must match")

/-- `model.load_weights`. -/
def loadWeights (copy : Flat T → Flat T → Flat T) (model : Model T)
    (chunk : List (String × Tensor T)) : Except Py.Error (Model T) :=
  chunk.foldlM (loadOne copy) model

/-- `src[mask]`. -/
def selectMask {α : Type} (mask : List Bool) (src : List α) : List α :=
  ((mask.zip src).filter Prod.fst).map Prod.snd

/-- `self[mask] = values`. -/
def setMask {α : Type} : List Bool → List α → List α → List α
  | true :: mask, _ :: self, v :: values => v :: setMask mask self values
  | false :: mask, x :: self, values => x :: setMask mask self values
  | _, self, _ => self

/-- `masked_copy_`, for tensors of one shape. -/
def maskedCopy (self src : Flat T) : Flat T :=
  let mask := src.data.map fun v => !T.isnan src.dtype v
  if T.isFloatingPoint src.dtype ∧ ¬ mask.all id then
    ⟨self.dtype, setMask mask self.data
      ((selectMask mask src.data).map (T.cast src.dtype self.dtype))⟩
  else self.copy src

/-! ## Decoding -/

/-- `t[start:stop]`. -/
def Flat.range (t : Flat T) (start stop : Nat) : Flat T := t.slice start (stop - start)

/-- `flat.index_copy_(0, idx, vals)`. -/
def indexCopy {α : Type} (flat : List α) (idx : List Int) (vals : List α) :
    Except Py.Error (List α) :=
  if idx.length ≠ vals.length then .error .index
  else
    (idx.zip vals).foldlM
      (fun (flat : List α) (x : Int × α) =>
        if 0 ≤ x.1 ∧ x.1 < (flat.length : Int) then .ok (flat.set x.1.toNat x.2)
        else .error .index)
      flat

/-- `pos_b.view(torch.int32)` of the slice that starts at `start`. -/
def viewInt32 (start : Nat) (bytes : List UInt8) : Except Py.Error (List Int) :=
  if start % 4 = 0 ∧ bytes.length % 4 = 0 then .ok (Bytes.int32.unpack bytes)
  else .error (.runtime "storage_offset and size must be divisible by 4 to view Byte as Int")

/-- `_decode_one`, with the encoding `indices`. -/
def decodeOne (positions : List UInt8) (values : Flat T) (p : DeltaParam T) :
    Except Py.Error (Tensor T) := do
  let flat := List.replicate (prodshape p.shape) (T.nan p.dtype)
  let vals := values.range p.valStart p.valEnd
  if vals.numel = 0 then (Flat.mk p.dtype flat).view p.shape
  else do
    let idx ← viewInt32 p.posStart (slice positions p.posStart (p.posEnd - p.posStart))
    let data ← indexCopy flat idx (vals.cast p.dtype).data
    (Flat.mk p.dtype data).view p.shape

/-- A parameter of a dense flush. -/
def denseOne (values : Flat T) (p : DeltaParam T) : Except Py.Error (Tensor T) :=
  ((values.range p.valStart p.valEnd).cast p.dtype).view p.shape

/-! ## The weight loader -/

def chunkBytes : Nat := 512 * 2 ^ 20

def chunker (copy : Flat T → Flat T → Flat T) :
    Batcher Py.Error (String × Tensor T) (Model T) Nat where
  start := 0
  add bytes x := bytes + x.2.flat.nbytes
  before _ bytes x := decide (chunkBytes < bytes + x.2.flat.nbytes)
  after _ _ := false
  flush := loadWeights copy

/-- The loop that `apply_delta` and `_apply_dense` share. -/
def loadChunked (copy : Flat T → Flat T → Flat T)
    (decode : DeltaParam T → Except Py.Error (Tensor T)) (model : Model T)
    (params : List (DeltaParam T)) : Except Py.Error (Model T) := do
  let chunk ← params.foldlM (fun chunk p => do
    let t ← decode p
    (chunker copy).push chunk (p.name, t)) ((chunker copy).init model)
  let chunk ← (chunker copy).spill true chunk
  return chunk.out

def applyDelta (model : Model T) (tensors : NamedTensors T) : Except Py.Error (Model T) :=
  let positions := tensors.positions.getD []
  if checksum positions tensors.values ≠ tensors.spec.checksum then
    .error (.runtime "delta checksum mismatch in sglang loader")
  else
    match tensors.spec.encoding with
    | .dense => loadChunked Flat.copy (denseOne tensors.values) model tensors.spec.params
    | .indices => loadChunked maskedCopy (decodeOne positions tensors.values) model
        tensors.spec.params

/-! ## Syncs -/

/-- A trainer and a rollout worker, with the wire between them. -/
structure System (T : Torch) where
  trainer : Trainer T
  wire : Wire T
  model : Model T
  yielded : List (NamedTensors T × Bool)

/-- Before the first sync. -/
def System.start (model : Model T) : System T :=
  ⟨⟨fun _ => .empty, fun _ => .empty, false⟩, ⟨[], [], []⟩, model, []⟩

/-- One sync: the trainer sends, and the worker applies what it receives. -/
def System.sync (cfg : EngineConfig T) (s : System T) (weights : List (ShardExport T)) :
    Except Py.Error (System T) := do
  let (trainer, wire) ← sendWeights cfg s.trainer s.wire weights
  let r ← receiveWeights wire.zmq wire.nccl
  let model ← r.items.foldlM (fun model x => applyDelta model x.1) s.model
  return ⟨trainer, { wire with zmq := r.zmq, nccl := r.nccl }, model, s.yielded ++ r.items⟩

/-- The states after each of the syncs. -/
def System.syncs (cfg : EngineConfig T) :
    System T → List (List (ShardExport T)) → Except Py.Error (List (System T))
  | _, [] => .ok []
  | s, weights :: rest => do
      let s ← s.sync cfg weights
      let states ← s.syncs cfg rest
      return s :: states

end Verl.DeltaSync
