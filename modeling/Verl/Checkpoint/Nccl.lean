import Verl.Checkpoint.Chunks
import Verl.Lib.Run

/-!
# Chunked weight transfer over NCCL

The sender packs chunks into a bucket.  When the next chunk does not fit, it
waits for the previous broadcast, starts the broadcast of the bucket in the
background and goes on with the other buffer.  The receiver receives the next
bucket in the background into one buffer while it yields the chunks of the
other.

A background broadcast has two halves.  The metadata goes through a queue
(zmq), then the bucket through another (NCCL).  Both queues are exact and in
order.  With `rendezvous` the sender's half of a broadcast waits for the
receiver's.  Without it the sender may run ahead.

There is one action for each piece of code during which nothing else needs to
be interleaved.  A yielded tensor may be a view of a receive buffer, so its
bytes are read when the consumer asks for the next one (`consume`), not when it
is yielded.
-/

namespace Verl

open Slices (slice write)

/-! ## State -/

/-- The metadata message of a bucket. -/
structure Metadata where
  bucketMeta : List TensorMeta
  isLast : Bool
deriving DecidableEq

/-- The two buffers of a party. -/
structure Buffers where
  first : List UInt8
  second : List UInt8
deriving DecidableEq

namespace Buffers

def get (bufs : Buffers) (i : Bool) : List UInt8 := if i then bufs.second else bufs.first

def set (bufs : Buffers) (i : Bool) (bytes : List UInt8) : Buffers :=
  if i then { bufs with second := bytes } else { bufs with first := bytes }

@[simp] theorem get_set_self (bufs : Buffers) (i : Bool) (bytes : List UInt8) :
    (bufs.set i bytes).get i = bytes := by
  cases i <;> rfl

@[simp] theorem get_not_set (bufs : Buffers) (i : Bool) (bytes : List UInt8) :
    (bufs.set i bytes).get (!i) = bufs.get (!i) := by
  cases i <;> rfl

@[simp] theorem get_set_not (bufs : Buffers) (i : Bool) (bytes : List UInt8) :
    (bufs.set (!i) bytes).get i = bufs.get i := by
  cases i <;> rfl

end Buffers

/-- `BroadcastOperation._run` on rank 0. -/
inductive SendPhase where
  | started
  | metaSent
  | complete
deriving DecidableEq

structure SendOp where
  bucket : Bool
  metadata : Metadata
  phase : SendPhase
deriving DecidableEq

/-- The program counter of `send_weights`. -/
inductive SenderPc where
  /-- The head of the loop. -/
  | filling
  /-- The chunk does not fit.  Waits for the previous broadcast. -/
  | flushing
  /-- About to put the chunk into the bucket. -/
  | placing
  /-- Waits for the broadcast of the last bucket. -/
  | last
  | done
  | raised
deriving DecidableEq

structure Sender where
  pc : SenderPc
  /-- What `split_weight_chunks` has yet to yield. -/
  chunks : List Chunk
  bufs : Buffers
  /-- Which of the buffers `send_buf` is. -/
  sendBuf : Bool
  bucketMeta : List TensorMeta
  offset : Nat
  op : Option SendOp
deriving DecidableEq

/-- `BroadcastOperation._run` on another rank. -/
inductive RecvPhase where
  | started
  | gotMeta (metadata : Metadata)
  | complete (metadata : Metadata)
deriving DecidableEq

structure RecvOp where
  bucket : Bool
  phase : RecvPhase
deriving DecidableEq

/-- The program counter of `receive_weights`. -/
inductive ReceiverPc where
  | start
  /-- Waits for the bucket that is received. -/
  | waiting
  /-- The head of the loop, with a bucket in `send_buf`. -/
  | head
  /-- Yields the chunks of the bucket to the merger. -/
  | yielding
  /-- The consumer holds a tensor. -/
  | holding (merged : Merged)
  | done
  | raised
deriving DecidableEq

structure Receiver where
  pc : ReceiverPc
  bufs : Buffers
  /-- Which of the buffers `send_buf` is.  The other is `recv_buf`. -/
  sendBuf : Bool
  op : Option RecvOp
  metadata : Option Metadata
  /-- The chunks of the bucket that are not yielded yet. -/
  pending : List TensorMeta
  merging : Option Merging
  /-- The tensors the consumer got. -/
  yielded : List Tensor
deriving DecidableEq

structure NcclState where
  sender : Sender
  receiver : Receiver
  metaQueue : List Metadata
  dataQueue : List (List UInt8)
  /-- The metadata messages sent so far. -/
  sent : List Metadata
deriving DecidableEq

inductive NcclAct where
  /-- Whether the next chunk fits. -/
  | check
  | flush
  | place
  | startLast
  | endSend
  | sendMeta
  | transmit
  | begin
  | recvMeta
  | deliver
  /-- A bucket has arrived and the buffers are swapped. -/
  | take
  | loop
  /-- The merger takes the next chunk. -/
  | chunk
  /-- The consumer asks for the next tensor. -/
  | consume
  | endBucket
deriving DecidableEq

/-! ## The sender -/

/-- No broadcast is under way. -/
def Sender.idle (s : Sender) : Bool :=
  match s.op with
  | none => true
  | some op => op.phase = .complete

namespace Sender

def init (bucketSize : Nat) (weights : List Weight) : Sender where
  pc := .filling
  chunks := splitWeightChunks bucketSize weights
  bufs := ⟨List.replicate bucketSize 0, List.replicate bucketSize 0⟩
  sendBuf := false
  bucketMeta := []
  offset := 0
  op := none

/-- Starts the broadcast of the bucket. -/
def broadcast (s : Sender) (isLast : Bool) : SendOp := ⟨s.sendBuf, ⟨s.bucketMeta, isLast⟩, .started⟩

/-- Puts a chunk into the bucket. -/
def placeChunk (s : Sender) (chunk : Chunk) (chunks : List Chunk) : Sender :=
  { s with
    pc := .filling
    chunks := chunks
    bufs := s.bufs.set s.sendBuf (write (s.bufs.get s.sendBuf) s.offset chunk.2)
    bucketMeta := s.bucketMeta ++ [{ chunk.1 with offset := some s.offset }]
    offset := s.offset + chunk.1.chunkSize }

/-- One step of the loop of `send_weights`. -/
def next (bucketSize : Nat) (s : Sender) : NcclAct → Option Sender
  | .check =>
      match s.pc, s.chunks with
      | .filling, chunk :: _ =>
          some { s with
            pc := if bucketSize < s.offset + chunk.1.chunkSize then .flushing else .placing }
      | _, _ => none
  | .flush =>
      if s.pc = .flushing ∧ s.idle then
        some { s with
          pc := .placing, op := some (s.broadcast false), sendBuf := !s.sendBuf
          bucketMeta := [], offset := 0 }
      else none
  | .place =>
      match s.pc, s.chunks with
      | .placing, chunk :: chunks =>
          if s.offset + chunk.1.chunkSize ≤ bucketSize ∧
              chunk.1.name ∉ s.bucketMeta.map TensorMeta.name then
            some (s.placeChunk chunk chunks)
          else some { s with pc := .raised }
      | _, _ => none
  | .startLast =>
      if s.pc = .filling ∧ s.chunks = [] ∧ s.idle then
        some { s with pc := .last, op := some (s.broadcast true) }
      else none
  | .endSend => if s.pc = .last ∧ s.idle then some { s with pc := .done } else none
  | _ => none

end Sender

/-! ## The receiver -/

namespace Receiver

def init (bucketSize : Nat) : Receiver where
  pc := .start
  bufs := ⟨List.replicate bucketSize 0, List.replicate bucketSize 0⟩
  sendBuf := false
  op := none
  metadata := none
  pending := []
  merging := none
  yielded := []

/-- The bytes of a chunk of the bucket in `send_buf`. -/
def read (r : Receiver) (tensorMeta : TensorMeta) : List UInt8 :=
  slice (r.bufs.get r.sendBuf) (tensorMeta.offset.getD 0) tensorMeta.chunkSize

/-- The tensor that the consumer sees now. -/
def held (r : Receiver) : Merged → Tensor
  | .view tensorMeta => (Merged.view tensorMeta).tensor (r.read tensorMeta)
  | .owned tensor => tensor

/-- One step of `receive_weights`. -/
def next (bucketSize : Nat) (r : Receiver) : NcclAct → Option Receiver
  | .begin =>
      if r.pc = .start then some { r with pc := .waiting, op := some ⟨!r.sendBuf, .started⟩ }
      else none
  | .take =>
      match r.pc, r.op with
      | .waiting, some ⟨_, .complete metadata⟩ =>
          some { r with
            pc := .head, op := none, metadata := some metadata, sendBuf := !r.sendBuf }
      | _, _ => none
  | .loop =>
      match r.pc, r.metadata with
      | .head, some metadata =>
          some { r with
            pc := .yielding
            op := if metadata.isLast then none else some ⟨!r.sendBuf, .started⟩
            pending := metadata.bucketMeta }
      | _, _ => none
  | .chunk =>
      match r.pc, r.pending with
      | .yielding, tensorMeta :: pending =>
          match mergeChunk bucketSize r.merging tensorMeta (tensorMeta.offset.getD 0)
              (r.read tensorMeta) with
          | .ok (merging, none) => some { r with merging := merging, pending := pending }
          | .ok (merging, some merged) =>
              some { r with pc := .holding merged, merging := merging, pending := pending }
          | .error _ => some { r with pc := .raised }
      | _, _ => none
  | .consume =>
      match r.pc with
      | .holding merged =>
          some { r with pc := .yielding, yielded := r.yielded ++ [r.held merged] }
      | _ => none
  | .endBucket =>
      match r.pc, r.pending, r.metadata with
      | .yielding, [], some metadata =>
          some { r with pc := if metadata.isLast then .done else .waiting }
      | _, _, _ => none
  | _ => none

end Receiver

/-! ## The broadcasts -/

namespace NcclState

def init (bucketSize : Nat) (weights : List Weight) : NcclState where
  sender := .init bucketSize weights
  receiver := .init bucketSize
  metaQueue := []
  dataQueue := []
  sent := []

/-- Whether the receiver's half of the broadcast waits for the bucket. -/
def awaitsData (s : NcclState) : Bool :=
  match s.receiver.op with
  | some ⟨_, .gotMeta _⟩ => s.dataQueue = []
  | _ => false

/-- One step of a background broadcast. -/
def broadcastNext (rendezvous : Bool) (s : NcclState) : NcclAct → Option NcclState
  | .sendMeta =>
      match s.sender.op with
      | some ⟨bucket, metadata, .started⟩ =>
          some { s with
            sender := { s.sender with op := some ⟨bucket, metadata, .metaSent⟩ }
            metaQueue := s.metaQueue ++ [metadata]
            sent := s.sent ++ [metadata] }
      | _ => none
  | .transmit =>
      match s.sender.op with
      | some ⟨bucket, metadata, .metaSent⟩ =>
          if rendezvous = false ∨ s.awaitsData = true then
            some { s with
              sender := { s.sender with op := some ⟨bucket, metadata, .complete⟩ }
              dataQueue := s.dataQueue ++ [s.sender.bufs.get bucket] }
          else none
      | _ => none
  | .recvMeta =>
      match s.receiver.op, s.metaQueue with
      | some ⟨bucket, .started⟩, metadata :: metaQueue =>
          some { s with
            receiver := { s.receiver with op := some ⟨bucket, .gotMeta metadata⟩ }
            metaQueue := metaQueue }
      | _, _ => none
  | .deliver =>
      match s.receiver.op, s.dataQueue with
      | some ⟨bucket, .gotMeta metadata⟩, bytes :: dataQueue =>
          some { s with
            receiver := { s.receiver with
              op := some ⟨bucket, .complete metadata⟩
              bufs := s.receiver.bufs.set bucket bytes }
            dataQueue := dataQueue }
      | _, _ => none
  | _ => none

/-- One step of the sender, of the receiver or of a broadcast. -/
def next (rendezvous : Bool) (bucketSize : Nat) (s : NcclState) (a : NcclAct) : Option NcclState :=
  match a with
  | .check | .flush | .place | .startLast | .endSend =>
      (s.sender.next bucketSize a).map fun sender => { s with sender := sender }
  | .begin | .take | .loop | .chunk | .consume | .endBucket =>
      (s.receiver.next bucketSize a).map fun receiver => { s with receiver := receiver }
  | .sendMeta | .transmit | .recvMeta | .deliver => s.broadcastNext rendezvous a

end NcclState

end Verl
