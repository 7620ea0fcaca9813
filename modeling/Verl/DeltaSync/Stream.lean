import Verl.DeltaSync.Params

/-!
# One stream

What `writeStream` puts on the wire `receiveWeights` takes off it again.  It
yields every flush once, with its flag, and leaves what comes after the stream
(`receive_writeStream`).
-/

namespace Verl.DeltaSync

open Batching (writeStream)

variable {T : Torch}

/-! ## Flushes on the wire -/

/-- How a kind of flush is published. -/
structure Framing (T : Torch) (F : Type) where
  manifest : F → Bool → Meta T
  buffers : F → List (List UInt8)
  named : F → NamedTensors T

namespace Framing

variable {F : Type} (framing : Framing T F)

def publish (wire : Wire T) (flush : F) (isLast : Bool) : Wire T :=
  { zmq := wire.zmq ++ [framing.manifest flush isLast]
    nccl := wire.nccl ++ framing.buffers flush
    published := wire.published ++ [(framing.named flush, isLast)] }

/-- The receiver reads a flush off the front of the wire. -/
def Reads (flush : F) : Prop :=
  ∀ isLast zmq nccl,
    receiveWeights (framing.manifest flush isLast :: zmq) (framing.buffers flush ++ nccl) =
      if isLast then .ok ⟨[(framing.named flush, true)], zmq, nccl⟩
      else do
        let r ← receiveWeights zmq nccl
        return ⟨(framing.named flush, false) :: r.items, r.zmq, r.nccl⟩

/-- The flushes of a stream with their flags. -/
def flagged : List F → List (NamedTensors T × Bool)
  | [] => []
  | [flush] => [(framing.named flush, true)]
  | flush :: flush' :: flushes => (framing.named flush, false) :: flagged (flush' :: flushes)

variable {framing}

theorem map_fst_flagged (flushes : List F) :
    (framing.flagged flushes).map Prod.fst = flushes.map framing.named := by
  induction flushes with
  | nil => rfl
  | cons flush flushes ih =>
      cases flushes with
      | nil => rfl
      | cons flush' flushes => exact congrArg (framing.named flush :: ·) ih

/-- A stream is read to its end and not beyond. -/
theorem receive_writeStream (first : Bool) (wire : Wire T) {flushes : List F}
    (h : ∀ flush ∈ flushes, framing.Reads flush) :
    ∃ zmq nccl, writeStream framing.publish (publishTerminal first) wire flushes =
        ⟨wire.zmq ++ zmq, wire.nccl ++ nccl, wire.published ++ framing.flagged flushes⟩ ∧
      ∀ zmq' nccl', receiveWeights (zmq ++ zmq') (nccl ++ nccl') =
        .ok ⟨framing.flagged flushes, zmq', nccl'⟩ := by
  induction flushes generalizing wire with
  | nil =>
      refine ⟨[.terminal first], [], ?_, fun zmq' nccl' => rfl⟩
      rw [writeStream, publishTerminal, flagged, List.append_nil, List.append_nil]
  | cons flush flushes ih =>
      have hreads := h flush List.mem_cons_self
      cases flushes with
      | nil =>
          refine ⟨[framing.manifest flush true], framing.buffers flush, rfl, fun zmq' nccl' => ?_⟩
          exact (hreads true zmq' nccl').trans (if_pos rfl)
      | cons flush' flushes =>
          obtain ⟨zmq, nccl, hwire, hreceive⟩ := ih (framing.publish wire flush false)
            fun f hf => h f (List.mem_cons_of_mem flush hf)
          refine ⟨framing.manifest flush false :: zmq, framing.buffers flush ++ nccl, ?_,
            fun zmq' nccl' => ?_⟩
          · rw [writeStream, hwire, publish, flagged, List.append_assoc, List.append_assoc,
              List.append_assoc, List.singleton_append, List.singleton_append]
          · rw [List.cons_append, List.append_assoc, hreads, hreceive]
            rfl

end Framing

/-! ## The two kinds -/

/-- A flush of changes. -/
def deltaFraming (first : Bool) : Framing T (DeltaFlush T) where
  manifest flush isLast := .flush first isLast flush.positions.length flush.values.numel
    flush.values.dtype ⟨.indices, flush.params, flush.checksum⟩
  buffers flush := [flush.positions, flush.values.bytes]
  named flush := ⟨⟨.indices, flush.params, flush.checksum⟩, some flush.positions, flush.values⟩

def denseFraming : Framing T (DenseFlush T) where
  manifest flush isLast := .flush true isLast 0 flush.values.numel flush.values.dtype
    ⟨.dense, flush.params, checksum [] flush.values⟩
  buffers flush := [flush.values.bytes]
  named flush := ⟨⟨.dense, flush.params, checksum [] flush.values⟩, none, flush.values⟩

theorem publishFlush_eq (first : Bool) :
    publishFlush (T := T) first = (deltaFraming first).publish := rfl

theorem publishDenseFlush_eq : publishDenseFlush (T := T) = denseFraming.publish := rfl

theorem recvBroadcast_bytes {bytes : List UInt8} {size : Nat} (h : bytes.length = size)
    (nccl : List (List UInt8)) : recvBroadcast size (bytes :: nccl) = .ok (bytes, nccl) := by
  rw [recvBroadcast, if_pos h]

theorem length_bytes (hT : T.Lawful) (t : Flat T) :
    t.bytes.length = t.numel * T.elementSize t.dtype :=
  Bytes.Codec.length_pack (hT.codec_exact t.dtype) t.data

/-- The values are read back from their bytes. -/
theorem unpack_bytes (hT : T.Lawful) {t : Flat T} (h : T.isFloatingPoint t.dtype = true) :
    (⟨t.dtype, (T.codec t.dtype).unpack t.bytes⟩ : Flat T) = t := by
  have hpos : 0 < (T.codec t.dtype).width := by
    have hsize := hT.elementSize_mem t.dtype h
    simp only [List.mem_cons, List.not_mem_nil, or_false, Torch.elementSize] at hsize
    omega
  have hunpack := Bytes.Codec.unpack_pack (hT.codec_exact t.dtype) hpos
    fun v (_ : v ∈ t.data) => trivial
  exact congrArg (Flat.mk t.dtype) hunpack

theorem deltaFraming_reads (hT : T.Lawful) (first : Bool) {flush : DeltaFlush T}
    (h : T.isFloatingPoint flush.values.dtype = true) : (deltaFraming first).Reads flush := by
  intro isLast zmq nccl
  have hpositions := recvBroadcast_bytes (rfl : flush.positions.length = flush.positions.length)
    (flush.values.bytes :: nccl)
  have hvalues := recvBroadcast_bytes (length_bytes hT flush.values) nccl
  have hread := unpack_bytes hT h
  simp only [deltaFraming, receiveWeights, List.cons_append, List.nil_append, reduceCtorEq,
    if_false, hpositions, Py.ok_bind, hvalues, hread]
  rfl

theorem denseFraming_reads (hT : T.Lawful) {flush : DenseFlush T}
    (h : T.isFloatingPoint flush.values.dtype = true) : denseFraming.Reads flush := by
  intro isLast zmq nccl
  have hvalues := recvBroadcast_bytes (length_bytes hT flush.values) nccl
  have hread := unpack_bytes hT h
  simp only [denseFraming, receiveWeights, List.cons_append, List.nil_append,
    if_true, Py.ok_bind, hvalues, hread]
  rfl

end Verl.DeltaSync
