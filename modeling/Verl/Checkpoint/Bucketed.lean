import Verl.Checkpoint.Chunks
import Verl.Lib.Dict
import Verl.Lib.Run

/-!
# Bucketed weight transfer over IPC

The sender packs weights one after the other into a buffer that it shares with
the receiver.  When the next weight does not fit, it sends the metadata of the
bucket and waits for the acknowledgement.  A weight that is larger than the
buffer is sent by a handle of its own memory.  With `use_shm` the buffer is
shared memory and such a weight is refused.

Both parties move at any time (`BucketedState.next`).  The copies into the buffer
are asynchronous: a started copy is done by the device in its own time (`copy`),
and `synchronize` waits for all of them.  The receiver's tensors are views of the
buffer and are read when the callback runs (`load`), unless `use_shm` makes
copies of them.
-/

namespace Verl

open Slices (slice write)
open Py (Dict)

/-! ## Views -/

/-- `bytes.view(dtype=dtype).view(shape)`, for bytes at a storage offset. -/
def viewAs (storageOffset : Nat) (bytes : List (Option UInt8)) (dtype : DType)
    (shape : List Nat) : Except Py.Error Unit :=
  if storageOffset % dtype.itemsize ≠ 0 ∨ bytes.length % dtype.itemsize ≠ 0 then
    .error (.runtime "offset and size must be divisible to view Byte as another dtype")
  else if bytes.length ≠ shape.prod * dtype.itemsize then
    .error (.runtime "shape is invalid for input")
  else .ok ()

/-! ## Messages -/

/-- A value of `bucket_meta`.  The handle shares the memory of a weight. -/
structure TensorMetadata where
  name : String
  shape : List Nat
  dtype : DType
  offset : Nat
  handle : Option Weight
deriving DecidableEq

abbrev BucketMeta := Dict String TensorMetadata

inductive BucketMessage where
  /-- The handle of the buffer, or the name and the size of the shared memory. -/
  | buffer
  | bucket (bucketMeta : BucketMeta) (isLast : Bool)

/-! ## State -/

/-- Where the sender goes on after `socket.recv()`. -/
inductive AfterAck where
  | packing
  | placing
  | done
deriving DecidableEq

/-- The program counter of `async_send_weights`. -/
inductive BucketSenderPc where
  | start
  /-- The head of the loop. -/
  | packing
  /-- The bucket was flushed if it had to be. -/
  | placing
  /-- Waits for the reply to a message. -/
  | awaiting (after : AfterAck)
  | done
  | raised (error : Py.Error)
deriving DecidableEq

structure BucketSender where
  pc : BucketSenderPc
  weights : List Weight
  bucketMeta : BucketMeta
  offset : Nat
  /-- The copies that were started, with their offsets. -/
  copies : List (Nat × List UInt8)

/-- A tensor in the receiver's list `weights`. -/
inductive Loaded where
  | view (metadata : TensorMetadata)
  | owned (tensor : Tensor)
deriving DecidableEq

/-- The program counter of `receive_weights`. -/
inductive BucketReceiverPc where
  | start
  | receiving
  /-- The list is built and the callback has not run. -/
  | loading (weights : List Loaded) (isLast : Bool)
  | loaded (isLast : Bool)
  | done
  | raised (error : Py.Error)
deriving DecidableEq

structure BucketReceiver where
  pc : BucketReceiverPc
  /-- The lists that `on_bucket_received` got. -/
  received : List (List Tensor)

structure BucketedState where
  sender : BucketSender
  receiver : BucketReceiver
  buffer : List (Option UInt8)
  requests : List BucketMessage
  /-- The replies on their way to the sender. -/
  replies : Nat
  /-- The messages sent so far. -/
  sent : List BucketMessage

inductive BucketedAct where
  | createBuffer
  | check
  | place
  | finish
  | ack
  | copy
  | attach
  | receive
  | load
  | reply
deriving DecidableEq

/-- `bucket_size` and `use_shm`. -/
structure BucketedConfig where
  bucketSize : Nat
  useShm : Bool

/-! ## The sender -/

/-- The buffer after the copies are done. -/
def applyCopies (buffer : List (Option UInt8)) (copies : List (Nat × List UInt8)) :
    List (Option UInt8) :=
  copies.foldl (fun buffer c => write buffer c.1 (c.2.map some)) buffer

namespace BucketedState

variable (cfg : BucketedConfig)

def init (weights : List Weight) : BucketedState where
  sender := ⟨.start, weights, Dict.empty, 0, []⟩
  receiver := ⟨.start, []⟩
  buffer := List.replicate cfg.bucketSize none
  requests := []
  replies := 0
  sent := []

/-- Synchronizes the device, sends a message and waits for the reply. -/
def send (s : BucketedState) (message : BucketMessage) (after : AfterAck) : BucketedState :=
  { s with
    sender := { s.sender with pc := .awaiting after, copies := [] }
    buffer := applyCopies s.buffer s.sender.copies
    requests := s.requests ++ [message]
    sent := s.sent ++ [message] }

/-- The sender raises. -/
def raise (s : BucketedState) (error : Py.Error) : BucketedState :=
  { s with sender := { s.sender with pc := .raised error } }

/-- `_init_buffer`.  Shared memory of size 0 cannot be created. -/
def createBuffer (s : BucketedState) : BucketedState :=
  if cfg.useShm ∧ cfg.bucketSize = 0 then
    s.raise (.value "'size' must be a positive number different from zero")
  else s.send .buffer .packing

/-- Flushes the bucket if the weight does not fit. -/
def check (s : BucketedState) (w : Weight) : BucketedState :=
  if cfg.bucketSize < s.sender.offset + w.nbytes ∧ s.sender.bucketMeta.entries ≠ [] then
    s.send (.bucket s.sender.bucketMeta false) .placing
  else { s with sender := { s.sender with pc := .placing } }

def tooLarge (w : Weight) : Py.Error :=
  .assertion s!"Weight {w.name} is too large to fit in the bucket."

/-- `_direct_send_large_weight`. -/
def directSend (s : BucketedState) (w : Weight) (weights : List Weight) : BucketedState :=
  { s with sender := { s.sender with weights := weights } }.send
    (.bucket (Dict.empty.set w.name ⟨w.name, w.shape, w.dtype, 0, some w⟩) false) .packing

/-- Puts the weight into the bucket. -/
def pack (s : BucketedState) (w : Weight) (weights : List Weight) : BucketedState :=
  { s with sender :=
    { pc := .packing
      weights := weights
      bucketMeta := s.sender.bucketMeta.set w.name
        ⟨w.name, w.shape, w.dtype, s.sender.offset, none⟩
      offset := s.sender.offset + w.nbytes
      copies := s.sender.copies ++ [(s.sender.offset, w.data)] } }

def place (s : BucketedState) (w : Weight) (weights : List Weight) : BucketedState :=
  if cfg.bucketSize < s.sender.offset + w.nbytes then
    if cfg.useShm then s.raise (tooLarge w) else s.directSend w weights
  else
    match viewAs s.sender.offset (slice s.buffer s.sender.offset w.nbytes) w.dtype w.shape with
    | .ok _ => s.pack w weights
    | .error e => s.raise e

/-- Goes on after a reply.  A flushed bucket is emptied. -/
def ack (s : BucketedState) (after : AfterAck) : BucketedState :=
  match after with
  | .packing => { s with sender := { s.sender with pc := .packing } }
  | .placing =>
      { s with sender :=
        { s.sender with pc := .placing, bucketMeta := Dict.empty, offset := 0 } }
  | .done => { s with sender := { s.sender with pc := .done } }

/-! ## The receiver -/

/-- An element of `weights` for an item of `bucket_meta`. -/
def loadItem (buffer : List (Option UInt8)) (item : String × TensorMetadata) :
    Except Py.Error Loaded :=
  match item.2.handle with
  | some w => .ok (.owned { w.tensor with name := item.1 })
  | none => do
      let size := item.2.dtype.itemsize * item.2.shape.prod
      viewAs item.2.offset (slice buffer item.2.offset size) item.2.dtype item.2.shape
      if cfg.useShm then
        return .owned ⟨item.1, item.2.shape, item.2.dtype, slice buffer item.2.offset size⟩
      return .view { item.2 with name := item.1 }

/-- The tensor that the callback sees. -/
def read (buffer : List (Option UInt8)) : Loaded → Tensor
  | .view metadata =>
      ⟨metadata.name, metadata.shape, metadata.dtype,
        slice buffer metadata.offset (metadata.dtype.itemsize * metadata.shape.prod)⟩
  | .owned tensor => tensor

/-- The receiver goes on to `pc`. -/
def receiverTo (s : BucketedState) (pc : BucketReceiverPc) : BucketedState :=
  { s with receiver := { s.receiver with pc := pc } }

/-! ## Steps -/

def next (s : BucketedState) : BucketedAct → Option BucketedState
  | .createBuffer => if s.sender.pc = .start then some (s.createBuffer cfg) else none
  | .check =>
      match s.sender.pc, s.sender.weights with
      | .packing, w :: _ => some (s.check cfg w)
      | _, _ => none
  | .place =>
      match s.sender.pc, s.sender.weights with
      | .placing, w :: weights => some (s.place cfg w weights)
      | _, _ => none
  | .finish =>
      if s.sender.pc = .packing ∧ s.sender.weights = [] then
        some (s.send (.bucket s.sender.bucketMeta true) .done)
      else none
  | .ack =>
      match s.sender.pc, s.replies with
      | .awaiting after, replies + 1 => some ({ s with replies := replies }.ack after)
      | _, _ => none
  | .copy =>
      match s.sender.copies with
      | c :: copies =>
          some { s with
            sender := { s.sender with copies := copies }
            buffer := applyCopies s.buffer [c] }
      | [] => none
  | .attach =>
      match s.receiver.pc, s.requests with
      | .start, .buffer :: requests =>
          some ({ s with requests := requests, replies := s.replies + 1 }.receiverTo .receiving)
      | _, _ => none
  | .receive =>
      match s.receiver.pc, s.requests with
      | .receiving, .bucket bucketMeta isLast :: requests =>
          match bucketMeta.entries.mapM (loadItem cfg s.buffer) with
          | .ok weights =>
              some ({ s with requests := requests }.receiverTo (.loading weights isLast))
          | .error e => some ({ s with requests := requests }.receiverTo (.raised e))
      | _, _ => none
  | .load =>
      match s.receiver.pc with
      | .loading weights isLast =>
          some { s with receiver :=
            ⟨.loaded isLast, s.receiver.received ++ [weights.map (read s.buffer)]⟩ }
      | _ => none
  | .reply =>
      match s.receiver.pc with
      | .loaded isLast =>
          some ({ s with replies := s.replies + 1 }.receiverTo
            (if isLast then .done else .receiving))
      | _ => none

end BucketedState

end Verl
