import Mathlib.Logic.Function.Basic
import Verl.Checkpoint.Nccl
import Verl.Lib.Dict

/-!
# Whole weights along a chain

The Mooncake engine packs whole weights into buckets.  Rank 0 announces a bucket
to rank 1 through a store.  Each other rank reads the bucket from the memory of
the rank before it, announces its own copy to the next rank, yields the weights,
and then writes a magic number into a slot of the rank before.  A rank has two
buffers and two slots, and before it fills a buffer again it waits for the magic
number in the slot of that buffer.

The memory outlives a transfer: the slots are cleared when the engine is made,
and by each wait.  So a transfer starts in the memory that the last one left
(`MooncakeState.start`).

There is one action for each access to what other ranks see.  A read copies the
bytes one by one, in any order.  A slot is a `Bool`: whether it holds the magic
number.  `receivers k` is rank `k + 1`, and `store k` is what rank `k` has sent
to rank `k + 1`.
-/

namespace Verl

open Slices (slice write)

/-! ## State -/

/-- An entry of `bucket_meta`. -/
structure MooncakeMeta where
  name : String
  shape : List Nat
  dtype : DType
  offset : Nat
deriving DecidableEq

/-- `dtype.itemsize * shape.numel()`. -/
def MooncakeMeta.size (m : MooncakeMeta) : Nat := m.shape.prod * m.dtype.itemsize

/-- The message about a bucket.  `ptr` is one of the buffers and `magicPtr` one of
the slots. -/
structure MooncakeInfo where
  bucketMeta : List (String × MooncakeMeta)
  ptr : Bool
  magicPtr : Bool
  len : Nat
  isLast : Bool
deriving DecidableEq

/-- The halves of `magic_recv`, whether they hold the magic number. -/
structure MagicSlots where
  first : Bool
  second : Bool
deriving DecidableEq

namespace MagicSlots

def get (slots : MagicSlots) (i : Bool) : Bool := if i then slots.second else slots.first

def set (slots : MagicSlots) (i armed : Bool) : MagicSlots :=
  if i then { slots with second := armed } else { slots with first := armed }

@[simp] theorem get_set_self (slots : MagicSlots) (i armed : Bool) :
    (slots.set i armed).get i = armed := by
  cases i <;> rfl

theorem get_set_of_ne {slots : MagicSlots} {i j armed : Bool} (h : j ≠ i) :
    (slots.set i armed).get j = slots.get j := by
  cases i <;> cases j <;> first | rfl | exact absurd rfl h

end MagicSlots

/-- The registered memory of a rank. -/
structure MooncakeMemory where
  bufs : Buffers
  slots : MagicSlots
deriving DecidableEq

inductive MooncakeSenderPc where
  | filling
  /-- The next weight does not fit. -/
  | flushing
  /-- In `wait_for_complete`, before a buffer is filled again. -/
  | polling
  | placing
  /-- In `wait_for_complete`, for the last bucket. -/
  | last
  | done
  | raised
deriving DecidableEq

structure MooncakeSender where
  pc : MooncakeSenderPc
  /-- The weights that are not packed yet. -/
  weights : List Weight
  idx : Bool
  shouldWait : Bool
  bucketMeta : Py.Dict String MooncakeMeta
  offset : Nat

inductive MooncakePc where
  /-- In `recv_obj`. -/
  | fetching
  /-- In `wait_for_complete`. -/
  | polling (info : MooncakeInfo)
  /-- The read has yet to copy the bytes at the places `todo`. -/
  | reading (info : MooncakeInfo) (todo : List Nat)
  | yielding (info : MooncakeInfo) (pending : List (String × MooncakeMeta))
  /-- The consumer holds a tensor. -/
  | holding (info : MooncakeInfo) (item : String × MooncakeMeta)
      (pending : List (String × MooncakeMeta))
  | done
  | raised
deriving DecidableEq

structure MooncakeReceiver where
  pc : MooncakePc
  idx : Nat
  /-- The tensors the consumer got. -/
  yielded : List Tensor
deriving DecidableEq

structure MooncakeState where
  sender : MooncakeSender
  receivers : Nat → MooncakeReceiver
  memory : Nat → MooncakeMemory
  store : Nat → List MooncakeInfo

/-- What rank `k + 1` sees of the chain besides its own variables. -/
structure MooncakeView where
  /-- The memory of rank `k`. -/
  source : MooncakeMemory
  memory : MooncakeMemory
  /-- What rank `k` has sent. -/
  inbox : List MooncakeInfo
  outbox : List MooncakeInfo

/-- A step of `send_weights`. -/
inductive MooncakeSendAct where
  /-- Whether the next weight fits. -/
  | check
  | flush
  /-- The magic number is in the slot. -/
  | complete
  | place
  | startLast
  | endSend
deriving DecidableEq

/-- A step of `receive_weights`. -/
inductive MooncakeRecvAct where
  | fetch
  /-- The magic number is in the slot. -/
  | complete
  /-- The read copies a byte. -/
  | copy (pos : Nat)
  /-- The read is done, and the bucket is announced to the next rank. -/
  | forward
  | yield
  /-- The consumer asks for the next tensor. -/
  | consume
  /-- The magic number is written to the rank before. -/
  | ack
deriving DecidableEq

inductive MooncakeAct where
  | send (a : MooncakeSendAct)
  /-- A step of rank `k + 1`. -/
  | recv (k : Nat) (a : MooncakeRecvAct)
deriving DecidableEq

/-! ## The sender -/

namespace MooncakeSender

def init (weights : List Weight) : MooncakeSender where
  pc := .filling
  weights := weights
  idx := false
  shouldWait := false
  bucketMeta := .empty
  offset := 0

/-- The message about the bucket that is filled. -/
def info (s : MooncakeSender) (isLast : Bool) : MooncakeInfo :=
  ⟨s.bucketMeta.entries, s.idx, s.idx, s.offset, isLast⟩

/-- One step of `send_weights`, with the memory of rank 0 and what it has sent. -/
def next (bucketSize : Nat) (s : MooncakeSender) (memory : MooncakeMemory)
    (outbox : List MooncakeInfo) :
    MooncakeSendAct → Option (MooncakeSender × MooncakeMemory × List MooncakeInfo)
  | .check =>
      match s.pc, s.weights with
      | .filling, w :: _ =>
          some ({ s with pc := if bucketSize < s.offset + w.nbytes then .flushing else .placing },
            memory, outbox)
      | _, _ => none
  | .flush =>
      if s.pc = .flushing then
        some ({ s with
          pc := if s.shouldWait then .polling else .placing
          idx := !s.idx, shouldWait := true, bucketMeta := .empty, offset := 0 },
          memory, outbox ++ [s.info false])
      else none
  | .complete =>
      if s.pc = .polling ∧ memory.slots.get s.idx then
        some ({ s with pc := .placing },
          { memory with slots := memory.slots.set s.idx false }, outbox)
      else none
  | .place =>
      match s.pc, s.weights with
      | .placing, w :: weights =>
          if s.offset + w.nbytes ≤ bucketSize then
            some ({ s with
              pc := .filling
              weights := weights
              bucketMeta := s.bucketMeta.set w.name ⟨w.name, w.shape, w.dtype, s.offset⟩
              offset := s.offset + w.nbytes },
              { memory with
                bufs := memory.bufs.set s.idx (write (memory.bufs.get s.idx) s.offset w.data) },
              outbox)
          else some ({ s with pc := .raised }, memory, outbox)
      | _, _ => none
  | .startLast =>
      if s.pc = .filling ∧ s.weights = [] then
        some ({ s with pc := .last }, memory, outbox ++ [s.info true])
      else none
  | .endSend =>
      if s.pc = .last ∧ memory.slots.get s.idx then
        some ({ s with pc := .done },
          { memory with slots := memory.slots.set s.idx false }, outbox)
      else none

end MooncakeSender

/-! ## The receivers -/

/-- The slot and the buffer of a bucket, `idx % 2`. -/
def slotOf (idx : Nat) : Bool := idx % 2 = 1

namespace MooncakeReceiver

def init : MooncakeReceiver := ⟨.fetching, 0, []⟩

/-- `current`, one of the buffers of the rank. -/
def current (r : MooncakeReceiver) (memory : MooncakeMemory) : List UInt8 :=
  memory.bufs.get (slotOf r.idx)

/-- The tensor that the consumer sees now. -/
def held (r : MooncakeReceiver) (memory : MooncakeMemory) (item : String × MooncakeMeta) : Tensor :=
  ⟨item.1, item.2.shape, item.2.dtype,
    (slice (r.current memory) item.2.offset item.2.size).map some⟩

/-- Whether `view(dtype)` and `view(shape)` take the slice of `current`.  The
buffers are halves of one tensor. -/
def viewable (bucketSize : Nat) (r : MooncakeReceiver) (m : MooncakeMeta) : Bool :=
  ((if slotOf r.idx then bucketSize else 0) + m.offset) % m.dtype.itemsize = 0 ∧
    m.offset + m.size ≤ bucketSize

/-- One step of `receive_weights`.  `hasNext` says whether there is a rank behind. -/
def next (bucketSize : Nat) (hasNext : Bool) (r : MooncakeReceiver) (v : MooncakeView) :
    MooncakeRecvAct → Option (MooncakeReceiver × MooncakeView)
  | .fetch =>
      match r.pc, v.inbox with
      | .fetching, info :: inbox =>
          some ({ r with
            pc := if 2 ≤ r.idx ∧ hasNext then .polling info
              else .reading info (List.range info.len) }, { v with inbox := inbox })
      | _, _ => none
  | .complete =>
      match r.pc with
      | .polling info =>
          if v.memory.slots.get (slotOf r.idx) then
            some ({ r with pc := .reading info (List.range info.len) },
              { v with
                memory := { v.memory with slots := v.memory.slots.set (slotOf r.idx) false } })
          else none
      | _ => none
  | .copy pos =>
      match r.pc with
      | .reading info todo =>
          if pos ∈ todo then
            some ({ r with pc := .reading info (todo.erase pos) },
              { v with
                memory := { v.memory with
                  bufs := v.memory.bufs.set (slotOf r.idx)
                    ((r.current v.memory).set pos ((v.source.bufs.get info.ptr).getD pos 0)) } })
          else none
      | _ => none
  | .forward =>
      match r.pc with
      | .reading info [] =>
          some ({ r with pc := .yielding info info.bucketMeta },
            { v with
              outbox := v.outbox ++
                if hasNext then [{ info with ptr := slotOf r.idx, magicPtr := slotOf r.idx }]
                else [] })
      | _ => none
  | .yield =>
      match r.pc with
      | .yielding info (item :: pending) =>
          some ({ r with
            pc := if r.viewable bucketSize item.2 then .holding info item pending
              else .raised }, v)
      | _ => none
  | .consume =>
      match r.pc with
      | .holding info item pending =>
          some ({ r with
            pc := .yielding info pending, yielded := r.yielded ++ [r.held v.memory item] }, v)
      | _ => none
  | .ack =>
      match r.pc with
      | .yielding info [] =>
          some ({ r with pc := if info.isLast then .done else .fetching, idx := r.idx + 1 },
            { v with
              source := { v.source with slots := v.source.slots.set info.magicPtr true } })
      | _ => none

end MooncakeReceiver

/-! ## The chain -/

namespace MooncakeState

/-- The start of a transfer in the memory that is there. -/
def start (memory : Nat → MooncakeMemory) (weights : List Weight) : MooncakeState where
  sender := .init weights
  receivers := fun _ => .init
  memory := memory
  store := fun _ => []

/-- What rank `k + 1` sees. -/
def view (s : MooncakeState) (k : Nat) : MooncakeView :=
  ⟨s.memory k, s.memory (k + 1), s.store k, s.store (k + 1)⟩

/-- Puts back rank 0. -/
def setSender (s : MooncakeState) (sender : MooncakeSender) (memory : MooncakeMemory)
    (outbox : List MooncakeInfo) : MooncakeState :=
  { s with
    sender := sender
    memory := Function.update s.memory 0 memory
    store := Function.update s.store 0 outbox }

/-- Puts back rank `k + 1`. -/
def set (s : MooncakeState) (k : Nat) (r : MooncakeReceiver) (v : MooncakeView) : MooncakeState :=
  { s with
    receivers := Function.update s.receivers k r
    memory := Function.update (Function.update s.memory k v.source) (k + 1) v.memory
    store := Function.update (Function.update s.store k v.inbox) (k + 1) v.outbox }

/-- One step of a rank, with `n` ranks after rank 0. -/
def next (n bucketSize : Nat) (s : MooncakeState) : MooncakeAct → Option MooncakeState
  | .send a =>
      (s.sender.next bucketSize (s.memory 0) (s.store 0) a).map fun (sender, memory, outbox) =>
        s.setSender sender memory outbox
  | .recv k a =>
      if k < n then
        ((s.receivers k).next bucketSize (k + 1 < n) (s.view k) a).map fun (r, v) => s.set k r v
      else none

end MooncakeState

end Verl
