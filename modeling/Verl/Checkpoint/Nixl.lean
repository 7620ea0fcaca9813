import Mathlib.Logic.Function.Basic
import Verl.Checkpoint.Nccl

/-!
# Chunked weight transfer along a chain

The NIXL engine has no broadcast.  Rank 0 packs chunks into buckets as with
NCCL.  Each other rank reads a bucket from the memory of the rank before it,
and while it yields the chunks the next rank reads the same bucket from its own
memory.

A `ReadableOperation` sends a message and later waits for a notification.  A
`ReadOperation` waits for the message, starts a transfer and waits until it is
done.  The transfer runs in the background and copies the bytes one by one, in
any order.  The end of a transfer notifies the rank that is read.

There is one action for each piece of code between two awaits, and one for each
byte.  A rank talks to one rank before it and one after it, so each of the
deques of a `NixlAgent` has one key in use.  `receivers k` is rank `k + 1`, and
`links k` is what is under way between ranks `k` and `k + 1`.
-/

namespace Verl

open Slices (slice write)

/-! ## State -/

/-- The message of a `ReadableOperation`. -/
structure ReadableMessage where
  notifyKey : Nat
  /-- `remote_descs`, one of the two buffers. -/
  bucket : Bool
  metadata : Metadata
deriving DecidableEq

structure NixlLink where
  messages : List ReadableMessage
  notifs : List Nat
  /-- The operations opened so far.  It stands for the source of fresh keys. -/
  opened : Nat
deriving DecidableEq

namespace NixlLink

def init : NixlLink := ⟨[], [], 0⟩

/-- The constructor of `ReadableOperation`. -/
def publish (l : NixlLink) (bucket : Bool) (metadata : Metadata) : NixlLink :=
  { l with messages := l.messages ++ [⟨l.opened, bucket, metadata⟩], opened := l.opened + 1 }

/-- `ReadableOperation.wait_for_complete`, if there is an operation.  It says
whether the assertion holds, and gives `none` while it blocks. -/
def await (l : NixlLink) : Option Nat → Option (Bool × NixlLink)
  | none => some (true, l)
  | some notifyKey =>
      match l.notifs with
      | [] => none
      | notification :: notifs =>
          some (notifyKey = notification, { l with notifs := notifs })

end NixlLink

structure NixlSender where
  pc : SenderPc
  /-- What `split_weight_chunks` has yet to yield. -/
  chunks : List Chunk
  bufs : Buffers
  /-- Which of the buffers `send_buf` is. -/
  sendBuf : Bool
  bucketMeta : List TensorMeta
  offset : Nat
  /-- The key of `readable_op`. -/
  op : Option Nat
deriving DecidableEq

/-- A `ReadOperation`. -/
inductive ReadOp where
  /-- Waits in `read_metadata`. -/
  | opened
  /-- The transfer has yet to copy the bytes at the places `todo`. -/
  | reading (message : ReadableMessage) (todo : List Nat)
  | done (message : ReadableMessage)
deriving DecidableEq

/-- The program counter of `receive_weights`. -/
inductive RelayPc where
  | start
  /-- In `read_metadata`. -/
  | fetching
  /-- Yields the chunks of the bucket to the merger. -/
  | yielding
  /-- The consumer holds a tensor. -/
  | holding (merged : Merged)
  /-- Waits for the next rank to read the bucket. -/
  | draining
  /-- Waits for the bucket that is read. -/
  | waiting
  | done
  | raised
deriving DecidableEq

structure NixlReceiver where
  pc : RelayPc
  bufs : Buffers
  /-- Which of the buffers `send_buf` is.  The other is `recv_buf`. -/
  sendBuf : Bool
  /-- The key of `readable_op`. -/
  op : Option Nat
  readOp : Option ReadOp
  metadata : Option Metadata
  /-- The chunks of the bucket that are not yielded yet. -/
  pending : List TensorMeta
  merging : Option Merging
  /-- The tensors the consumer got. -/
  yielded : List Tensor
deriving DecidableEq

structure NixlState where
  sender : NixlSender
  receivers : Nat → NixlReceiver
  links : Nat → NixlLink

inductive NixlAct where
  /-- Whether the next chunk fits. -/
  | check
  | flush
  | place
  | startLast
  | endSend
  | begin (k : Nat)
  /-- `read_metadata` returns and `begin_read` runs. -/
  | fetch (k : Nat)
  /-- The transfer copies a byte. -/
  | copy (k pos : Nat)
  /-- The transfer is done and the rank before is notified. -/
  | finish (k : Nat)
  /-- A bucket has arrived and the buffers are swapped. -/
  | take (k : Nat)
  /-- The merger takes the next chunk. -/
  | chunk (k : Nat)
  /-- The consumer asks for the next tensor. -/
  | consume (k : Nat)
  | endBucket (k : Nat)
  /-- The next rank has read the bucket. -/
  | drain (k : Nat)
deriving DecidableEq

/-! ## The sender -/

namespace NixlSender

def init (bucketSize : Nat) (weights : List Weight) : NixlSender where
  pc := .filling
  chunks := splitWeightChunks bucketSize weights
  bufs := ⟨List.replicate bucketSize 0, List.replicate bucketSize 0⟩
  sendBuf := false
  bucketMeta := []
  offset := 0
  op := none

/-- Puts a chunk into the bucket. -/
def placeChunk (s : NixlSender) (chunk : Chunk) (chunks : List Chunk) : NixlSender :=
  { s with
    pc := .filling
    chunks := chunks
    bufs := s.bufs.set s.sendBuf (write (s.bufs.get s.sendBuf) s.offset chunk.2)
    bucketMeta := s.bucketMeta ++ [{ chunk.1 with offset := some s.offset }]
    offset := s.offset + chunk.1.chunkSize }

/-- One step of `send_weights`. -/
def next (bucketSize : Nat) (s : NixlSender) (l : NixlLink) :
    NixlAct → Option (NixlSender × NixlLink)
  | .check =>
      match s.pc, s.chunks with
      | .filling, chunk :: _ =>
          some ({ s with
            pc := if bucketSize < s.offset + chunk.1.chunkSize then .flushing else .placing }, l)
      | _, _ => none
  | .flush =>
      if s.pc = .flushing then
        (l.await s.op).map fun
          | (true, l) =>
              ({ s with
                pc := .placing, op := some l.opened, sendBuf := !s.sendBuf
                bucketMeta := [], offset := 0 }, l.publish s.sendBuf ⟨s.bucketMeta, false⟩)
          | (false, l) => ({ s with pc := .raised }, l)
      else none
  | .place =>
      match s.pc, s.chunks with
      | .placing, chunk :: chunks =>
          if s.offset + chunk.1.chunkSize ≤ bucketSize ∧
              chunk.1.name ∉ s.bucketMeta.map TensorMeta.name then
            some (s.placeChunk chunk chunks, l)
          else some ({ s with pc := .raised }, l)
      | _, _ => none
  | .startLast =>
      if s.pc = .filling ∧ s.chunks = [] then
        (l.await s.op).map fun
          | (true, l) =>
              ({ s with pc := .last, op := some l.opened },
                l.publish s.sendBuf ⟨s.bucketMeta, true⟩)
          | (false, l) => ({ s with pc := .raised }, l)
      else none
  | .endSend =>
      if s.pc = .last then
        (l.await s.op).map fun
          | (true, l) => ({ s with pc := .done, op := none }, l)
          | (false, l) => ({ s with pc := .raised }, l)
      else none
  | _ => none

end NixlSender

/-! ## The receivers -/

namespace NixlReceiver

def init (bucketSize : Nat) : NixlReceiver where
  pc := .start
  bufs := ⟨List.replicate bucketSize 0, List.replicate bucketSize 0⟩
  sendBuf := false
  op := none
  readOp := none
  metadata := none
  pending := []
  merging := none
  yielded := []

/-- The bytes of a chunk of the bucket in `send_buf`. -/
def read (r : NixlReceiver) (tensorMeta : TensorMeta) : List UInt8 :=
  slice (r.bufs.get r.sendBuf) (tensorMeta.offset.getD 0) tensorMeta.chunkSize

/-- The tensor that the consumer sees now. -/
def held (r : NixlReceiver) : Merged → Tensor
  | .view tensorMeta => (Merged.view tensorMeta).tensor (r.read tensorMeta)
  | .owned tensor => tensor

/-- The swap of the buffers, and the operations opened after it. -/
def takeBucket (r : NixlReceiver) (metadata : Metadata) (op : Option Nat) : NixlReceiver :=
  { r with
    pc := if metadata.isLast then .yielding else .fetching
    sendBuf := !r.sendBuf
    op := op
    readOp := if metadata.isLast then none else some .opened
    metadata := some metadata
    pending := metadata.bucketMeta }

/-- One step of `receive_weights` on its own. -/
def yieldNext (bucketSize : Nat) (r : NixlReceiver) : NixlAct → Option NixlReceiver
  | .begin _ =>
      if r.pc = .start then some { r with pc := .fetching, readOp := some .opened } else none
  | .chunk _ =>
      match r.pc, r.pending with
      | .yielding, tensorMeta :: pending =>
          match mergeChunk bucketSize r.merging tensorMeta (tensorMeta.offset.getD 0)
              (r.read tensorMeta) with
          | .ok (merging, none) => some { r with merging := merging, pending := pending }
          | .ok (merging, some merged) =>
              some { r with pc := .holding merged, merging := merging, pending := pending }
          | .error _ => some { r with pc := .raised }
      | _, _ => none
  | .consume _ =>
      match r.pc with
      | .holding merged =>
          some { r with pc := .yielding, yielded := r.yielded ++ [r.held merged] }
      | _ => none
  | .endBucket _ =>
      match r.pc, r.pending with
      | .yielding, [] => some { r with pc := .draining }
      | _, _ => none
  | _ => none

/-- A step with the link to the rank before, whose buffers are `source`. -/
def readNext (bucketSize : Nat) (source : Buffers) (l : NixlLink) (r : NixlReceiver) :
    NixlAct → Option (NixlLink × NixlReceiver)
  | .fetch _ =>
      match r.pc, l.messages with
      | .fetching, message :: messages =>
          some ({ l with messages := messages }, { r with
            pc := if r.metadata = none then .waiting else .yielding
            readOp := some (.reading message (List.range bucketSize)) })
      | _, _ => none
  | .copy _ pos =>
      match r.readOp with
      | some (.reading message todo) =>
          if pos ∈ todo then
            some (l, { r with
              bufs := r.bufs.set (!r.sendBuf)
                ((r.bufs.get (!r.sendBuf)).set pos ((source.get message.bucket).getD pos 0))
              readOp := some (.reading message (todo.erase pos)) })
          else none
      | _ => none
  | .finish _ =>
      match r.readOp with
      | some (.reading message []) =>
          some ({ l with notifs := l.notifs ++ [message.notifyKey] },
            { r with readOp := some (.done message) })
      | _ => none
  | _ => none

/-- A step with the link to the next rank, if there is one. -/
def sendNext (hasNext : Bool) (r : NixlReceiver) (l : NixlLink) :
    NixlAct → Option (NixlReceiver × NixlLink)
  | .take _ =>
      match r.pc, r.readOp with
      | .waiting, some (.done message) =>
          if hasNext then
            some (r.takeBucket message.metadata (some l.opened),
              l.publish (!r.sendBuf) message.metadata)
          else some (r.takeBucket message.metadata none, l)
      | _, _ => none
  | .drain _ =>
      match r.pc, r.metadata with
      | .draining, some metadata =>
          (l.await r.op).map fun
            | (true, l) => ({ r with pc := if metadata.isLast then .done else .waiting, op := none }, l)
            | (false, l) => ({ r with pc := .raised }, l)
      | _, _ => none
  | _ => none

end NixlReceiver

/-! ## The chain -/

namespace NixlState

def init (bucketSize : Nat) (weights : List Weight) : NixlState where
  sender := .init bucketSize weights
  receivers := fun _ => .init bucketSize
  links := fun _ => .init

/-- The buffers of a rank. -/
def bufs (s : NixlState) : Nat → Buffers
  | 0 => s.sender.bufs
  | k + 1 => (s.receivers k).bufs

/-- Puts back a receiver and a link. -/
def set (s : NixlState) (k : Nat) (r : NixlReceiver) (i : Nat) (l : NixlLink) : NixlState :=
  { s with receivers := Function.update s.receivers k r, links := Function.update s.links i l }

/-- One step of a rank or of a transfer, with `n` ranks after rank 0. -/
def next (n bucketSize : Nat) (s : NixlState) (a : NixlAct) : Option NixlState :=
  match a with
  | .check | .flush | .place | .startLast | .endSend =>
      (s.sender.next bucketSize (s.links 0) a).map fun (sender, l) =>
        { s with sender := sender, links := Function.update s.links 0 l }
  | .begin k | .chunk k | .consume k | .endBucket k =>
      if k < n then
        ((s.receivers k).yieldNext bucketSize a).map fun r => s.set k r k (s.links k)
      else none
  | .fetch k | .copy k _ | .finish k =>
      if k < n then
        ((s.receivers k).readNext bucketSize (s.bufs k) (s.links k) a).map fun (l, r) =>
          s.set k r k l
      else none
  | .take k | .drain k =>
      if k < n then
        ((s.receivers k).sendNext (k + 1 < n) (s.links (k + 1)) a).map fun (r, l) =>
          s.set k r (k + 1) l
      else none

end NixlState

end Verl
