import Mathlib.Algebra.BigOperators.Ring.List
import Mathlib.Algebra.Order.BigOperators.Group.List
import Mathlib.Algebra.Order.Group.Nat
import Verl.Checkpoint.Nccl

/-!
# The chunked transfer is lossless

Every chunk is at one place at a time: not yet packed, in the bucket the sender
fills, on the way, arrived, or processed by the merger.  `NcclState.placed` are
the chunks between the splitter and the merger, in the order in which the
merger gets them.  `Ok.conserve` says that the processed chunks, the placed
ones and those not yet packed are the chunks of the weights.  All other fields
of `Ok` serve to keep this, or to show that a party that waits is waited for.
-/

namespace Verl

open Slices (slice write)

/-! ## Where the chunks are -/

/-- The chunks of a bucket. -/
def bucketChunks (bytes : List UInt8) (bucketMeta : List TensorMeta) : List Chunk :=
  bucketMeta.map fun tensorMeta =>
    (tensorMeta, slice bytes (tensorMeta.offset.getD 0) tensorMeta.chunkSize)

/-- The number of bytes of a bucket. -/
def bucketBytes (bucketMeta : List TensorMeta) : Nat := (bucketMeta.map TensorMeta.chunkSize).sum

namespace Sender

/-- Whether the sender still packs chunks. -/
def packing (s : Sender) : Bool :=
  match s.pc with
  | .filling | .flushing | .placing => true
  | _ => false

/-- Whether the last broadcast was started. -/
def closed (s : Sender) : Bool :=
  match s.pc with
  | .last | .done => true
  | _ => false

/-- The chunks in the bucket that is filled. -/
def current (s : Sender) : List Chunk :=
  if s.packing then bucketChunks (s.bufs.get s.sendBuf) s.bucketMeta else []

theorem closed_eq_false {s : Sender} (h : s.packing = true) : s.closed = false := by
  rw [packing] at h
  rw [closed]
  split at h <;> simp_all

/-- The metadata message that is not sent yet. -/
def unsentMeta (s : Sender) : List Metadata :=
  match s.op with
  | some ⟨_, metadata, .started⟩ => [metadata]
  | _ => []

/-- The bucket that is not sent yet. -/
def unsentData (s : Sender) : List (List UInt8) :=
  match s.op with
  | some ⟨bucket, _, .started⟩ | some ⟨bucket, _, .metaSent⟩ => [s.bufs.get bucket]
  | _ => []

theorem unsent_of_idle {s : Sender} (h : s.idle = true) :
    s.unsentMeta = [] ∧ s.unsentData = [] := by
  rw [idle] at h
  rw [unsentMeta, unsentData]
  cases hop : s.op with
  | none => exact ⟨rfl, rfl⟩
  | some op =>
      obtain ⟨bucket, metadata, phase⟩ := op
      rw [hop] at h
      cases phase with
      | started => cases h
      | metaSent => cases h
      | complete => exact ⟨rfl, rfl⟩

end Sender

namespace Receiver

/-- The metadata whose bucket is about to be received. -/
def gotMeta (r : Receiver) : List Metadata :=
  match r.op with
  | some ⟨_, .gotMeta metadata⟩ => [metadata]
  | _ => []

/-- The metadata of the bucket that has arrived and is not taken. -/
def arrivedMeta (r : Receiver) : List Metadata :=
  match r.op with
  | some ⟨_, .complete metadata⟩ => [metadata]
  | _ => []

/-- The chunks of the bucket that has arrived and is not taken. -/
def arrived (r : Receiver) : List Chunk :=
  match r.op with
  | some ⟨bucket, .complete metadata⟩ => bucketChunks (r.bufs.get bucket) metadata.bucketMeta
  | _ => []

/-- The chunks of the taken bucket that the merger has not got. -/
def unread (r : Receiver) : List Chunk :=
  bucketChunks (r.bufs.get r.sendBuf)
    (match r.pc, r.metadata with
      | .head, some metadata => metadata.bucketMeta
      | _, _ => r.pending)

/-- The tensor that the consumer holds. -/
def heldList (r : Receiver) : List Tensor :=
  match r.pc with
  | .holding merged => [r.held merged]
  | _ => []

/-- What the consumer sees depends on the buffer that is read. -/
theorem heldList_eq {r r' : Receiver} (hpc : r'.pc = r.pc)
    (hread : r'.bufs.get r'.sendBuf = r.bufs.get r.sendBuf) : r'.heldList = r.heldList := by
  have hheld : ∀ merged, r'.held merged = r.held merged := by
    intro merged
    cases merged with
    | view tensorMeta => rw [held, held, read, read, hread]
    | owned tensor => rfl
  rw [heldList, heldList, hpc]
  split
  · rw [hheld]
  · rfl

end Receiver

namespace NcclState

/-- The metadata on the way. -/
def metas (s : NcclState) : List Metadata :=
  s.receiver.gotMeta ++ s.metaQueue ++ s.sender.unsentMeta

/-- The buckets on the way. -/
def datas (s : NcclState) : List (List UInt8) := s.dataQueue ++ s.sender.unsentData

/-- The chunks of a list of buckets. -/
def bucketsChunks (metas : List Metadata) (datas : List (List UInt8)) : List Chunk :=
  (List.zipWith (fun metadata bytes => bucketChunks bytes metadata.bucketMeta) metas datas).flatten

/-- The chunks between the splitter and the merger. -/
def placed (s : NcclState) : List Chunk :=
  s.receiver.unread ++ s.receiver.arrived ++ bucketsChunks s.metas s.datas ++ s.sender.current

/-- The metadata messages, with the one that is about to be sent. -/
def messages (s : NcclState) : List Metadata := s.sent ++ s.sender.unsentMeta

/-- The metadata from the bucket that is read on. -/
def pipeline (s : NcclState) : List Metadata :=
  s.receiver.metadata.toList ++ s.receiver.arrivedMeta ++ s.metas

theorem bucketsChunks_singleton (metadata : Metadata) (bytes : List UInt8) :
    bucketsChunks [metadata] [bytes] = bucketChunks bytes metadata.bucketMeta := by
  rw [bucketsChunks, List.zipWith_cons_cons, List.zipWith_nil_left, List.flatten_singleton]

theorem bucketsChunks_append {metas metas' : List Metadata} {datas datas' : List (List UInt8)}
    (h : metas.length = datas.length) :
    bucketsChunks (metas ++ metas') (datas ++ datas') =
      bucketsChunks metas datas ++ bucketsChunks metas' datas' := by
  rw [bucketsChunks, List.zipWith_append h, List.flatten_append]
  rfl

end NcclState

/-! ## The invariant -/

/-- Only the last message has `is_last` set, and it is there once the sender
is closed. -/
def LastClosed (closed : Bool) (messages : List Metadata) : Prop :=
  ∃ n, messages.map Metadata.isLast = List.replicate n false ++ if closed then [true] else []

/-- One more message, before the sender is closed. -/
theorem LastClosed.append {messages : List Metadata} (h : LastClosed false messages)
    (metadata : Metadata) : LastClosed metadata.isLast (messages ++ [metadata]) := by
  obtain ⟨n, hn⟩ := h
  rw [if_neg Bool.false_ne_true, List.append_nil] at hn
  rw [LastClosed, List.map_append, hn]
  cases hlast : metadata.isLast with
  | true => exact ⟨n, by rw [List.map_singleton, hlast, if_pos rfl]⟩
  | false =>
      refine ⟨n + 1, ?_⟩
      rw [List.map_singleton, hlast, if_neg Bool.false_ne_true, List.append_nil,
        List.replicate_succ']

/-- One message less, in front. -/
theorem LastClosed.of_cons {closed : Bool} {metadata : Metadata} {messages : List Metadata}
    (h : LastClosed closed (metadata :: messages)) (hnot : metadata.isLast = false) :
    LastClosed closed messages := by
  obtain ⟨n, hn⟩ := h
  rw [List.map_cons, hnot] at hn
  cases n with
  | zero =>
      cases closed with
      | true => cases hn
      | false => cases hn
  | succ n =>
      rw [List.replicate_succ, List.cons_append, List.cons.injEq] at hn
      exact ⟨n, hn.2⟩

structure SenderOk (bucketSize : Nat) (s : Sender) : Prop where
  notRaised : s.pc ≠ .raised
  length_bufs : ∀ i, (s.bufs.get i).length = bucketSize
  offset_eq : s.packing = true → s.offset = bucketBytes s.bucketMeta
  offset_le : s.packing = true → s.offset ≤ bucketSize
  /-- Every chunk of the bucket lies below `offset`. -/
  below : s.packing = true → ∀ tensorMeta ∈ s.bucketMeta,
    tensorMeta.offset.getD 0 + tensorMeta.chunkSize ≤ s.offset
  /-- A broadcast reads the other buffer while the sender packs. -/
  otherBuf : s.packing = true → ∀ op, s.op = some op → op.bucket = !s.sendBuf
  fits : s.pc = .placing → ∀ chunk ∈ s.chunks.head?, s.offset + chunk.1.chunkSize ≤ bucketSize
  some_chunk : s.pc = .placing ∨ s.pc = .flushing → s.chunks ≠ []
  no_chunk : s.closed = true → s.chunks = []
  last_idle : s.pc = .done → s.idle = true

/-- What holds at each program counter of the receiver. -/
def Receiver.PcOk (r : Receiver) : Prop :=
  match r.pc with
  | .start => r.op = none ∧ r.metadata = none ∧ r.pending = []
  | .waiting => r.op ≠ none ∧ (∀ metadata ∈ r.metadata, metadata.isLast = false) ∧ r.pending = []
  | .head => r.op = none ∧ r.metadata ≠ none ∧ r.pending = []
  | .yielding | .holding _ =>
      ∃ metadata, r.metadata = some metadata ∧ (r.op = none ↔ metadata.isLast = true)
  | .done =>
      r.op = none ∧ (∃ metadata, r.metadata = some metadata ∧ metadata.isLast = true) ∧
        r.pending = []
  | .raised => False

structure ReceiverOk (r : Receiver) : Prop where
  pcOk : r.PcOk
  /-- A broadcast writes the buffer that is not read. -/
  otherBuf : ∀ op, r.op = some op → op.bucket = !r.sendBuf

structure NcclOk (bucketSize : Nat) (weights : List Weight) (s : NcclState) : Prop where
  conserve : ∃ processed, processed ++ s.placed.map Chunk.unplaced ++ s.sender.chunks =
      splitWeightChunks bucketSize weights ∧
    mergeChunks bucketSize none processed =
      .ok (s.receiver.merging, s.receiver.yielded ++ s.receiver.heldList)
  aligned : ∀ chunk ∈ s.placed, chunk.1.offset.getD 0 % chunk.1.dtype.itemsize = 0
  sender : SenderOk bucketSize s.sender
  receiver : ReceiverOk s.receiver
  paired : s.metas.length = s.datas.length
  messagesClosed : LastClosed s.sender.closed s.messages
  pipelineClosed : LastClosed s.sender.closed s.pipeline
  bytes_le : ∀ metadata ∈ s.messages, bucketBytes metadata.bucketMeta ≤ bucketSize

/-- What the claim assumes of the weights and of the bucket size. -/
structure WeightsOk (bucketSize itemsize : Nat) (weights : List Weight) : Prop where
  size_pos : 0 < bucketSize
  itemsize_dvd : itemsize ∣ bucketSize
  names : (weights.map Weight.name).Nodup
  nbytes_pos : ∀ w ∈ weights, 0 < w.nbytes
  itemsize_eq : ∀ w ∈ weights, w.dtype.itemsize = itemsize

theorem init_ok {bucketSize itemsize : Nat} {weights : List Weight}
    (_ : WeightsOk bucketSize itemsize weights) :
    NcclOk bucketSize weights (.init bucketSize weights) where
  conserve := ⟨[], rfl, rfl⟩
  aligned := fun chunk hchunk => absurd hchunk List.not_mem_nil
  sender := by
    constructor
    · exact fun h => by cases h
    · intro i
      cases i <;> exact List.length_replicate
    · exact fun _ => rfl
    · exact fun _ => Nat.zero_le _
    · exact fun _ tensorMeta h => absurd h List.not_mem_nil
    · exact fun _ op h => by cases h
    · exact fun h => by cases h
    · intro h
      obtain h | h := h <;> cases h
    · exact fun h => by cases h
    · exact fun h => by cases h
  receiver := ⟨⟨rfl, rfl, rfl⟩, fun op h => by cases h⟩
  paired := rfl
  messagesClosed := ⟨0, rfl⟩
  pipelineClosed := ⟨0, rfl⟩
  bytes_le := fun metadata h => absurd h List.not_mem_nil

namespace NcclOk

variable {bucketSize itemsize : Nat} {weights : List Weight} {s : NcclState}

/-! ## Facts about the chunks -/

/-- A chunk that is placed comes from a weight. -/
theorem placed_ok (hs : NcclOk bucketSize weights s) (hsize : 0 < bucketSize) {chunk : Chunk}
    (hchunk : chunk ∈ s.placed) : ∃ w ∈ weights, ChunkOk bucketSize w chunk.unplaced := by
  obtain ⟨processed, hsplit, -⟩ := hs.conserve
  refine splitWeightChunks_ok hsize _ ?_
  rw [← hsplit]
  exact List.mem_append_left _ (List.mem_append_right _ (List.mem_map_of_mem hchunk))

/-- So does a chunk that is not packed yet. -/
theorem chunk_ok (hs : NcclOk bucketSize weights s) (hsize : 0 < bucketSize) {chunk : Chunk}
    (hchunk : chunk ∈ s.sender.chunks) : ∃ w ∈ weights, ChunkOk bucketSize w chunk := by
  obtain ⟨processed, hsplit, -⟩ := hs.conserve
  refine splitWeightChunks_ok hsize _ ?_
  rw [← hsplit]
  exact List.mem_append_right _ hchunk

theorem mem_current {tensorMeta : TensorMeta} (hpacking : s.sender.packing = true)
    (h : tensorMeta ∈ s.sender.bucketMeta) :
    ∃ bytes, (tensorMeta, bytes) ∈ s.placed := by
  have hcurrent : (tensorMeta, slice (s.sender.bufs.get s.sender.sendBuf)
      (tensorMeta.offset.getD 0) tensorMeta.chunkSize) ∈ s.sender.current := by
    rw [Sender.current, if_pos hpacking]
    exact List.mem_map_of_mem h
  exact ⟨_, List.mem_append_right _ hcurrent⟩

/-- The place of the next chunk is aligned. -/
theorem offset_aligned (hs : NcclOk bucketSize weights s)
    (hw : WeightsOk bucketSize itemsize weights) (hpacking : s.sender.packing = true) :
    itemsize ∣ s.sender.offset := by
  rw [hs.sender.offset_eq hpacking, bucketBytes]
  refine List.dvd_sum fun size hsize => ?_
  obtain ⟨tensorMeta, hmem, rfl⟩ := List.mem_map.mp hsize
  obtain ⟨bytes, hplaced⟩ := mem_current hpacking hmem
  obtain ⟨w, hweight, hok⟩ := hs.placed_ok hw.size_pos hplaced
  have haligned := hok.aligned
  rw [hw.itemsize_eq w hweight] at haligned
  exact haligned hw.itemsize_dvd

/-- A bucket that holds a chunk of the same weight is full. -/
theorem name_not_mem (hs : NcclOk bucketSize weights s)
    (hw : WeightsOk bucketSize itemsize weights) (hpacking : s.sender.packing = true)
    {chunk : Chunk} {chunks : List Chunk} (hchunks : s.sender.chunks = chunk :: chunks)
    (hfits : s.sender.offset + chunk.1.chunkSize ≤ bucketSize) :
    chunk.1.name ∉ s.sender.bucketMeta.map TensorMeta.name := by
  intro hmem
  obtain ⟨tensorMeta, hmeta, hname⟩ := List.mem_map.mp hmem
  obtain ⟨bytes, hplaced⟩ := mem_current hpacking hmeta
  obtain ⟨processed, hsplit, -⟩ := hs.conserve
  have hpairwise := splitWeightChunks_pairwise hw.size_pos hw.names
  rw [← hsplit, hchunks, List.pairwise_append] at hpairwise
  have hfull := hpairwise.2.2 (Chunk.unplaced (tensorMeta, bytes))
    (List.mem_append_right _ (List.mem_map_of_mem hplaced)) chunk List.mem_cons_self hname
  have hle : tensorMeta.chunkSize ≤ bucketBytes s.sender.bucketMeta :=
    List.le_sum_of_mem (List.mem_map_of_mem hmeta)
  obtain ⟨w, -, hok⟩ := hs.chunk_ok hw.size_pos (hchunks ▸ List.mem_cons_self)
  have hpos := hok.size_pos
  rw [← hs.sender.offset_eq hpacking] at hle
  have hsize : tensorMeta.chunkSize = bucketSize := hfull
  omega

/-! ## Steps of the sender -/

/-- A step that leaves the placed chunks where the merger finds them. -/
theorem of_placed_eq (hs : NcclOk bucketSize weights s) {t : NcclState}
    (hplaced : t.placed = s.placed) (hchunks : t.sender.chunks = s.sender.chunks)
    (hmerging : t.receiver.merging = s.receiver.merging)
    (htensors : t.receiver.yielded ++ t.receiver.heldList =
      s.receiver.yielded ++ s.receiver.heldList)
    (sender : SenderOk bucketSize t.sender) (receiver : ReceiverOk t.receiver)
    (paired : t.metas.length = t.datas.length)
    (messagesClosed : LastClosed t.sender.closed t.messages)
    (pipelineClosed : LastClosed t.sender.closed t.pipeline)
    (bytes_le : ∀ metadata ∈ t.messages, bucketBytes metadata.bucketMeta ≤ bucketSize) :
    NcclOk bucketSize weights t where
  conserve := by
    rw [hplaced, hchunks, hmerging, htensors]
    exact hs.conserve
  aligned := by
    rw [hplaced]
    exact hs.aligned
  sender := sender
  receiver := receiver
  paired := paired
  messagesClosed := messagesClosed
  pipelineClosed := pipelineClosed
  bytes_le := bytes_le

/-- A move of the sender's program counter within the packing loop. -/
theorem movePc (hs : NcclOk bucketSize weights s) {pc : SenderPc}
    (hpacking : s.sender.packing = true)
    (hpacking' : ({ s.sender with pc := pc } : Sender).packing = true)
    (hfits : pc = .placing → ∀ chunk ∈ s.sender.chunks.head?,
      s.sender.offset + chunk.1.chunkSize ≤ bucketSize)
    (hchunk : s.sender.chunks ≠ []) :
    NcclOk bucketSize weights { s with sender := { s.sender with pc := pc } } := by
  have hcurrent : ({ s.sender with pc := pc } : Sender).current = s.sender.current := by
    rw [Sender.current, Sender.current, if_pos hpacking, if_pos hpacking']
  have hclosed : ({ s.sender with pc := pc } : Sender).closed = s.sender.closed := by
    rw [Sender.closed_eq_false hpacking, Sender.closed_eq_false hpacking']
  have hplaced :
      ({ s with sender := { s.sender with pc := pc } } : NcclState).placed = s.placed := by
    rw [NcclState.placed, hcurrent]
    rfl
  refine hs.of_placed_eq hplaced rfl rfl rfl ?_ hs.receiver hs.paired ?_ ?_ hs.bytes_le
  · constructor
    · intro hraised
      rw [show pc = .raised from hraised] at hpacking'
      cases hpacking'
    · exact hs.sender.length_bufs
    · exact fun _ => hs.sender.offset_eq hpacking
    · exact fun _ => hs.sender.offset_le hpacking
    · exact fun _ => hs.sender.below hpacking
    · exact fun _ => hs.sender.otherBuf hpacking
    · exact hfits
    · exact fun _ => hchunk
    · intro h
      rw [hclosed] at h
      exact hs.sender.no_chunk h
    · intro h
      rw [show pc = .done from h] at hpacking'
      cases hpacking'
  · rw [hclosed]
    exact hs.messagesClosed
  · rw [hclosed]
    exact hs.pipelineClosed

theorem check (hs : NcclOk bucketSize weights s) {sender : Sender}
    (h : s.sender.next bucketSize .check = some sender) :
    NcclOk bucketSize weights { s with sender := sender } := by
  simp only [Sender.next] at h
  split at h
  next chunk chunks hpc hchunks =>
    rw [Option.some.injEq] at h
    subst h
    have hpacking : s.sender.packing = true := by rw [Sender.packing, hpc]
    have hchunk : s.sender.chunks ≠ [] := by
      rw [hchunks]
      exact List.cons_ne_nil _ _
    by_cases hfull : bucketSize < s.sender.offset + chunk.1.chunkSize
    · rw [if_pos hfull]
      exact hs.movePc hpacking rfl (fun h => by cases h) hchunk
    · rw [if_neg hfull]
      refine hs.movePc hpacking rfl (fun _ chunk' hchunk' => ?_) hchunk
      rw [hchunks, List.head?_cons, Option.mem_some_iff] at hchunk'
      subst hchunk'
      omega
  · cases h

/-- The start of a broadcast moves the bucket from the sender's hand onto the
way. -/
theorem startBroadcast (hs : NcclOk bucketSize weights s) (hpacking : s.sender.packing = true)
    (hidle : s.sender.idle = true) {sender : Sender} {isLast : Bool}
    (hok : SenderOk bucketSize sender) (hchunks : sender.chunks = s.sender.chunks)
    (hop : sender.op = some (s.sender.broadcast isLast)) (hbufs : sender.bufs = s.sender.bufs)
    (hcurrent : sender.current = []) (hclosed : sender.closed = isLast) :
    NcclOk bucketSize weights { s with sender := sender } := by
  let t : NcclState := { s with sender := sender }
  obtain ⟨hnoMeta, hnoData⟩ := Sender.unsent_of_idle hidle
  have hopen := Sender.closed_eq_false hpacking
  have hmeta : sender.unsentMeta = [⟨s.sender.bucketMeta, isLast⟩] := by
    rw [Sender.unsentMeta, hop]
    rfl
  have hdata : sender.unsentData = [s.sender.bufs.get s.sender.sendBuf] := by
    rw [Sender.unsentData, hop, hbufs]
    rfl
  have hmetas : t.metas = s.metas ++ [⟨s.sender.bucketMeta, isLast⟩] := by
    rw [NcclState.metas, NcclState.metas, hnoMeta, List.append_nil]
    exact congrArg _ hmeta
  have hdatas : t.datas = s.datas ++ [s.sender.bufs.get s.sender.sendBuf] := by
    rw [NcclState.datas, NcclState.datas, hnoData, List.append_nil]
    exact congrArg _ hdata
  have hmessages : t.messages = s.messages ++ [⟨s.sender.bucketMeta, isLast⟩] := by
    rw [NcclState.messages, NcclState.messages, hnoMeta, List.append_nil]
    exact congrArg _ hmeta
  have hplaced : t.placed = s.placed := by
    have hbefore : s.sender.current =
        bucketChunks (s.sender.bufs.get s.sender.sendBuf) s.sender.bucketMeta := by
      rw [Sender.current, if_pos hpacking]
    have hafter : t.sender.current = [] := hcurrent
    rw [NcclState.placed, NcclState.placed, hmetas, hdatas,
      NcclState.bucketsChunks_append hs.paired, NcclState.bucketsChunks_singleton, hbefore, hafter,
      List.append_nil, ← List.append_assoc]
  have hpaired : t.metas.length = t.datas.length := by
    rw [hmetas, hdatas, List.length_append, List.length_append, hs.paired]
    rfl
  refine hs.of_placed_eq hplaced hchunks rfl rfl hok hs.receiver hpaired ?_ ?_ ?_
  · have happend := (hopen ▸ hs.messagesClosed).append ⟨s.sender.bucketMeta, isLast⟩
    rw [← hmessages] at happend
    rw [hclosed]
    exact happend
  · have happend := (hopen ▸ hs.pipelineClosed).append ⟨s.sender.bucketMeta, isLast⟩
    rw [NcclState.pipeline, List.append_assoc, ← hmetas] at happend
    rw [hclosed]
    exact happend
  · intro metadata hmetadata
    rw [show t.messages = _ from hmessages, List.mem_append, List.mem_singleton] at hmetadata
    obtain hmetadata | rfl := hmetadata
    · exact hs.bytes_le metadata hmetadata
    · show bucketBytes s.sender.bucketMeta ≤ bucketSize
      rw [← hs.sender.offset_eq hpacking]
      exact hs.sender.offset_le hpacking

theorem flush (hs : NcclOk bucketSize weights s) (hw : WeightsOk bucketSize itemsize weights)
    {sender : Sender} (h : s.sender.next bucketSize .flush = some sender) :
    NcclOk bucketSize weights { s with sender := sender } := by
  simp only [Sender.next] at h
  split at h
  next hpc =>
    rw [Option.some.injEq] at h
    obtain ⟨hpc, hidle⟩ := hpc
    have hpacking : s.sender.packing = true := by rw [Sender.packing, hpc]
    have hne := hs.sender.some_chunk (Or.inr hpc)
    subst h
    refine hs.startBroadcast hpacking hidle ?_ rfl rfl rfl rfl rfl
    constructor
    · exact fun h => by cases h
    · exact hs.sender.length_bufs
    · exact fun _ => rfl
    · exact fun _ => Nat.zero_le _
    · exact fun _ tensorMeta h => absurd h List.not_mem_nil
    · intro _ op hop
      rw [Option.some.injEq] at hop
      subst hop
      exact (Bool.not_not _).symm
    · intro _ chunk hchunk
      obtain ⟨w, -, hok⟩ := hs.chunk_ok hw.size_pos (List.mem_of_mem_head? hchunk)
      show 0 + chunk.1.chunkSize ≤ bucketSize
      rw [Nat.zero_add]
      exact hok.size_le
    · exact fun _ => hne
    · exact fun h => by cases h
    · exact fun h => by cases h
  · cases h

theorem startLast (hs : NcclOk bucketSize weights s) {sender : Sender}
    (h : s.sender.next bucketSize .startLast = some sender) :
    NcclOk bucketSize weights { s with sender := sender } := by
  simp only [Sender.next] at h
  split at h
  next hpc =>
    rw [Option.some.injEq] at h
    obtain ⟨hpc, hchunks, hidle⟩ := hpc
    have hpacking : s.sender.packing = true := by rw [Sender.packing, hpc]
    subst h
    refine hs.startBroadcast hpacking hidle ?_ rfl rfl rfl rfl rfl
    constructor
    · exact fun h => by cases h
    · exact hs.sender.length_bufs
    · exact fun h => by cases h
    · exact fun h => by cases h
    · exact fun h => by cases h
    · exact fun h => by cases h
    · exact fun h => by cases h
    · intro h
      obtain h | h := h <;> cases h
    · exact fun _ => hchunks
    · exact fun h => by cases h
  · cases h

theorem endSend (hs : NcclOk bucketSize weights s) {sender : Sender}
    (h : s.sender.next bucketSize .endSend = some sender) :
    NcclOk bucketSize weights { s with sender := sender } := by
  simp only [Sender.next] at h
  split at h
  next hpc =>
    rw [Option.some.injEq] at h
    obtain ⟨hpc, hidle⟩ := hpc
    subst h
    have hclosed : s.sender.closed = true := by rw [Sender.closed, hpc]
    have hcurrent : s.sender.current = [] := by
      rw [Sender.current, Sender.packing, hpc]
      rfl
    have hplaced : ({ s with sender := { s.sender with pc := .done } } : NcclState).placed =
        s.placed := by
      rw [NcclState.placed, NcclState.placed, hcurrent]
      rfl
    refine hs.of_placed_eq hplaced rfl rfl rfl ?_ hs.receiver hs.paired ?_ ?_ hs.bytes_le
    · constructor
      · exact fun h => by cases h
      · exact hs.sender.length_bufs
      · exact fun h => by cases h
      · exact fun h => by cases h
      · exact fun h => by cases h
      · exact fun h => by cases h
      · exact fun h => by cases h
      · intro h
        obtain h | h := h <;> cases h
      · exact fun _ => hs.sender.no_chunk hclosed
      · exact fun _ => hidle
    · have hmessages := hs.messagesClosed
      rw [hclosed] at hmessages
      exact hmessages
    · have hpipeline := hs.pipelineClosed
      rw [hclosed] at hpipeline
      exact hpipeline
  · cases h

end NcclOk

/-- The bucket after one more chunk. -/
theorem bucketChunks_write {bytes data : List UInt8} {bucketMeta : List TensorMeta}
    {offset : Nat} {tensorMeta : TensorMeta} (hlength : data.length = tensorMeta.chunkSize)
    (hfits : offset + data.length ≤ bytes.length)
    (hbelow : ∀ m ∈ bucketMeta, m.offset.getD 0 + m.chunkSize ≤ offset) :
    bucketChunks (write bytes offset data)
        (bucketMeta ++ [{ tensorMeta with offset := some offset }]) =
      bucketChunks bytes bucketMeta ++ [({ tensorMeta with offset := some offset }, data)] := by
  rw [bucketChunks, List.map_append, List.map_singleton]
  congr 1
  · refine List.map_congr_left fun m hm => ?_
    rw [Slices.slice_write_of_le (hbelow m hm) (by omega)]
  · rw [Option.getD_some, ← hlength, Slices.slice_write_self hfits]

namespace SenderOk

variable {bucketSize : Nat} {s : Sender} {chunk : Chunk} {chunks : List Chunk}

/-- Packing a chunk does not touch the bucket that is broadcast. -/
theorem unsentData_placeChunk (hs : SenderOk bucketSize s) (hpacking : s.packing = true)
    (chunk : Chunk) (chunks : List Chunk) :
    (s.placeChunk chunk chunks).unsentData = s.unsentData := by
  rw [Sender.unsentData, Sender.unsentData]
  cases hop : s.op with
  | none =>
      simp only [Sender.placeChunk, hop]
  | some op =>
      have hbucket := hs.otherBuf hpacking op hop
      obtain ⟨bucket, metadata, phase⟩ := op
      rw [show bucket = !s.sendBuf from hbucket] at hop ⊢
      cases phase <;> simp only [Sender.placeChunk, hop, Buffers.get_not_set]

/-- The chunk is the last one of the bucket now. -/
theorem current_placeChunk (hs : SenderOk bucketSize s) (hpacking : s.packing = true)
    (hlength : chunk.2.length = chunk.1.chunkSize)
    (hfits : s.offset + chunk.1.chunkSize ≤ bucketSize) :
    (s.placeChunk chunk chunks).current =
      s.current ++ [({ chunk.1 with offset := some s.offset }, chunk.2)] := by
  have hfitsData : s.offset + chunk.2.length ≤ (s.bufs.get s.sendBuf).length := by
    rw [hs.length_bufs, hlength]
    exact hfits
  have hpacking' : (s.placeChunk chunk chunks).packing = true := rfl
  rw [Sender.current, Sender.current, if_pos hpacking, if_pos hpacking',
    ← bucketChunks_write hlength hfitsData (hs.below hpacking)]
  simp only [Sender.placeChunk, Buffers.get_set_self]

theorem placeChunk (hs : SenderOk bucketSize s) (hpacking : s.packing = true)
    (hlength : chunk.2.length = chunk.1.chunkSize)
    (hfits : s.offset + chunk.1.chunkSize ≤ bucketSize) :
    SenderOk bucketSize (s.placeChunk chunk chunks) where
  notRaised := fun h => by cases h
  length_bufs := by
    intro i
    have hwrite : (write (s.bufs.get s.sendBuf) s.offset chunk.2).length = bucketSize := by
      rw [Slices.length_write, hs.length_bufs]
      rw [hs.length_bufs, hlength]
      exact hfits
    by_cases hi : i = s.sendBuf
    · subst hi
      rw [Sender.placeChunk, Buffers.get_set_self]
      exact hwrite
    · rw [Bool.eq_not_of_ne hi, Sender.placeChunk, Buffers.get_not_set]
      exact hs.length_bufs _
  offset_eq := by
    intro _
    simp only [Sender.placeChunk, bucketBytes, List.map_append, List.sum_append,
      List.map_singleton, List.sum_singleton]
    rw [hs.offset_eq hpacking, bucketBytes]
  offset_le := fun _ => hfits
  below := by
    intro _ tensorMeta hmem
    simp only [Sender.placeChunk, List.mem_append, List.mem_singleton] at hmem ⊢
    obtain hmem | rfl := hmem
    · exact (hs.below hpacking tensorMeta hmem).trans (Nat.le_add_right _ _)
    · exact Nat.le_refl _
  otherBuf := fun _ => hs.otherBuf hpacking
  fits := fun h => by cases h
  some_chunk := by
    intro h
    obtain h | h := h <;> cases h
  no_chunk := fun h => by cases h
  last_idle := fun h => by cases h

end SenderOk

namespace NcclOk

variable {bucketSize itemsize : Nat} {weights : List Weight} {s : NcclState}

theorem place (hs : NcclOk bucketSize weights s) (hw : WeightsOk bucketSize itemsize weights)
    {sender : Sender} (h : s.sender.next bucketSize .place = some sender) :
    NcclOk bucketSize weights { s with sender := sender } := by
  simp only [Sender.next] at h
  split at h
  next chunk chunks hpc hchunks =>
    have hpacking : s.sender.packing = true := by rw [Sender.packing, hpc]
    have hopen := Sender.closed_eq_false hpacking
    have hhead : chunk ∈ s.sender.chunks.head? := by
      rw [hchunks, List.head?_cons]
      rfl
    have hfits := hs.sender.fits hpc chunk hhead
    have hname := hs.name_not_mem hw hpacking hchunks hfits
    rw [if_pos ⟨hfits, hname⟩, Option.some.injEq] at h
    subst h
    obtain ⟨w, hweight, hok⟩ := hs.chunk_ok hw.size_pos (List.mem_of_mem_head? hhead)
    let t : NcclState := { s with sender := s.sender.placeChunk chunk chunks }
    have hdatas : t.datas = s.datas :=
      congrArg (s.dataQueue ++ ·) (hs.sender.unsentData_placeChunk hpacking chunk chunks)
    have hplaced : t.placed =
        s.placed ++ [({ chunk.1 with offset := some s.sender.offset }, chunk.2)] := by
      rw [NcclState.placed, NcclState.placed, hdatas,
        show t.sender.current = _ from hs.sender.current_placeChunk hpacking hok.length_eq hfits,
        ← List.append_assoc]
      rfl
    constructor
    · obtain ⟨processed, hsplit, hmerge⟩ := hs.conserve
      refine ⟨processed, ?_, hmerge⟩
      have hnew : Chunk.unplaced ({ chunk.1 with offset := some s.sender.offset }, chunk.2) =
          chunk := by
        have hnone := hok.offset_eq
        obtain ⟨⟨name, shape, dtype, chunkOffset, chunkSize, offset⟩, data⟩ := chunk
        rw [show offset = none from hnone]
        rfl
      rw [← hsplit, show NcclState.placed _ = _ from hplaced, List.map_append, List.map_singleton,
        hnew, hchunks]
      simp only [List.append_assoc, List.singleton_append]
      rfl
    · intro c hc
      rw [show NcclState.placed _ = _ from hplaced, List.mem_append, List.mem_singleton] at hc
      obtain hc | rfl := hc
      · exact hs.aligned c hc
      · have hitem : chunk.1.dtype.itemsize = itemsize := by
          rw [hok.dtype_eq, hw.itemsize_eq w hweight]
        show s.sender.offset % chunk.1.dtype.itemsize = 0
        rw [hitem]
        exact Nat.mod_eq_zero_of_dvd (hs.offset_aligned hw hpacking)
    · exact hs.sender.placeChunk hpacking hok.length_eq hfits
    · exact hs.receiver
    · rw [show NcclState.datas _ = _ from hdatas]
      exact hs.paired
    · have hmessages := hs.messagesClosed
      rw [hopen] at hmessages
      exact hmessages
    · have hpipeline := hs.pipelineClosed
      rw [hopen] at hpipeline
      exact hpipeline
    · exact hs.bytes_le
  · cases h

end NcclOk

/-! ## Steps of a broadcast -/

/-- The sender's half of a broadcast goes on. -/
theorem SenderOk.setPhase {bucketSize : Nat} {s : Sender} (hs : SenderOk bucketSize s)
    {bucket : Bool} {metadata : Metadata} {phase : SendPhase}
    (hop : s.op = some ⟨bucket, metadata, phase⟩) (hphase : phase ≠ .complete)
    (phase' : SendPhase) :
    SenderOk bucketSize { s with op := some ⟨bucket, metadata, phase'⟩ } where
  notRaised := hs.notRaised
  length_bufs := hs.length_bufs
  offset_eq := hs.offset_eq
  offset_le := hs.offset_le
  below := hs.below
  otherBuf := by
    intro hpacking op hop'
    rw [Option.some.injEq] at hop'
    subst hop'
    exact hs.otherBuf hpacking ⟨bucket, metadata, phase⟩ hop
  fits := hs.fits
  some_chunk := hs.some_chunk
  no_chunk := hs.no_chunk
  last_idle := by
    intro hdone
    have hidle := hs.last_idle hdone
    rw [Sender.idle, hop, decide_eq_true_eq] at hidle
    exact absurd hidle hphase

/-- The receiver's half of a broadcast goes on. -/
theorem ReceiverOk.setPhase {r : Receiver} (hr : ReceiverOk r) {bucket : Bool} {phase : RecvPhase}
    (hop : r.op = some ⟨bucket, phase⟩) (phase' : RecvPhase) (bufs : Buffers) :
    ReceiverOk { r with op := some ⟨bucket, phase'⟩, bufs := bufs } where
  pcOk := by
    have hpc := hr.pcOk
    rw [Receiver.PcOk] at hpc ⊢
    rw [hop] at hpc
    cases hcase : r.pc <;> simp_all
  otherBuf := by
    intro op hop'
    rw [Option.some.injEq] at hop'
    subst hop'
    exact hr.otherBuf ⟨bucket, phase⟩ hop

namespace NcclOk

variable {bucketSize itemsize : Nat} {weights : List Weight} {s : NcclState}

theorem sendMeta (hs : NcclOk bucketSize weights s) {rendezvous : Bool} {t : NcclState}
    (h : s.broadcastNext rendezvous .sendMeta = some t) : NcclOk bucketSize weights t := by
  simp only [NcclState.broadcastNext] at h
  split at h
  next bucket metadata hop =>
    rw [Option.some.injEq] at h
    have hmetas : t.metas = s.metas := by
      rw [← h]
      simp only [NcclState.metas, Sender.unsentMeta, hop, List.append_assoc, List.append_nil]
    have hdatas : t.datas = s.datas := by
      rw [← h]
      simp only [NcclState.datas, Sender.unsentData, hop]
    have hmessages : t.messages = s.messages := by
      rw [← h]
      simp only [NcclState.messages, Sender.unsentMeta, hop, List.append_nil]
    have hplaced : t.placed = s.placed := by
      rw [NcclState.placed, NcclState.placed, hmetas, hdatas, ← h]
      rfl
    have hpipeline : t.pipeline = s.pipeline := by
      rw [NcclState.pipeline, NcclState.pipeline, hmetas, ← h]
    have hsender := hs.sender.setPhase hop (by decide) .metaSent
    subst h
    refine hs.of_placed_eq hplaced rfl rfl rfl hsender hs.receiver ?_ ?_ ?_ ?_
    · rw [hmetas, hdatas]
      exact hs.paired
    · rw [hmessages]
      exact hs.messagesClosed
    · rw [hpipeline]
      exact hs.pipelineClosed
    · rw [hmessages]
      exact hs.bytes_le
  · cases h

theorem transmit (hs : NcclOk bucketSize weights s) {rendezvous : Bool} {t : NcclState}
    (h : s.broadcastNext rendezvous .transmit = some t) : NcclOk bucketSize weights t := by
  simp only [NcclState.broadcastNext] at h
  split at h
  next bucket metadata hop =>
    split at h
    · rw [Option.some.injEq] at h
      have hmetas : t.metas = s.metas := by
        rw [← h]
        simp only [NcclState.metas, Sender.unsentMeta, hop]
      have hdatas : t.datas = s.datas := by
        rw [← h]
        simp only [NcclState.datas, Sender.unsentData, hop, List.append_nil]
      have hmessages : t.messages = s.messages := by
        rw [← h]
        simp only [NcclState.messages, Sender.unsentMeta, hop]
      have hplaced : t.placed = s.placed := by
        rw [NcclState.placed, NcclState.placed, hmetas, hdatas, ← h]
        rfl
      have hpipeline : t.pipeline = s.pipeline := by
        rw [NcclState.pipeline, NcclState.pipeline, hmetas, ← h]
      have hsender := hs.sender.setPhase hop (by decide) .complete
      subst h
      refine hs.of_placed_eq hplaced rfl rfl rfl hsender hs.receiver ?_ ?_ ?_ ?_
      · rw [hmetas, hdatas]
        exact hs.paired
      · rw [hmessages]
        exact hs.messagesClosed
      · rw [hpipeline]
        exact hs.pipelineClosed
      · rw [hmessages]
        exact hs.bytes_le
    · cases h
  · cases h

theorem recvMeta (hs : NcclOk bucketSize weights s) {rendezvous : Bool} {t : NcclState}
    (h : s.broadcastNext rendezvous .recvMeta = some t) : NcclOk bucketSize weights t := by
  simp only [NcclState.broadcastNext] at h
  split at h
  next bucket metadata metaQueue hop hqueue =>
    rw [Option.some.injEq] at h
    have hmetas : t.metas = s.metas := by
      rw [← h]
      simp only [NcclState.metas, Receiver.gotMeta, hop, hqueue, List.nil_append,
        List.singleton_append]
    have hplaced : t.placed = s.placed := by
      rw [NcclState.placed, NcclState.placed, hmetas, ← h]
      simp only [Receiver.arrived, hop]
      rfl
    have hpipeline : t.pipeline = s.pipeline := by
      rw [NcclState.pipeline, NcclState.pipeline, hmetas, ← h]
      simp only [Receiver.arrivedMeta, hop]
    have hreceiver := hs.receiver.setPhase hop (.gotMeta metadata) s.receiver.bufs
    subst h
    refine hs.of_placed_eq hplaced rfl rfl rfl hs.sender hreceiver ?_ hs.messagesClosed ?_
      hs.bytes_le
    · rw [hmetas]
      exact hs.paired
    · rw [hpipeline]
      exact hs.pipelineClosed
  · cases h

theorem deliver (hs : NcclOk bucketSize weights s) {rendezvous : Bool} {t : NcclState}
    (h : s.broadcastNext rendezvous .deliver = some t) : NcclOk bucketSize weights t := by
  simp only [NcclState.broadcastNext] at h
  split at h
  next bucket metadata bytes dataQueue hop hqueue =>
    rw [Option.some.injEq] at h
    have hbucket : bucket = !s.receiver.sendBuf := hs.receiver.otherBuf _ hop
    have hread : t.receiver.bufs.get t.receiver.sendBuf =
        s.receiver.bufs.get s.receiver.sendBuf := by
      rw [← h]
      simp only [hbucket, Buffers.get_set_not]
    have hmetas : s.metas = metadata :: t.metas := by
      rw [← h]
      simp only [NcclState.metas, Receiver.gotMeta, hop, List.nil_append, List.cons_append]
    have hdatas : s.datas = bytes :: t.datas := by
      rw [← h]
      simp only [NcclState.datas, hqueue, List.cons_append]
    have hplaced : t.placed = s.placed := by
      have harrived : t.receiver.arrived = bucketChunks bytes metadata.bucketMeta := by
        rw [← h]
        simp only [Receiver.arrived, Buffers.get_set_self]
      have hunread : t.receiver.unread = s.receiver.unread := by
        rw [Receiver.unread, Receiver.unread, hread, ← h]
      have hnone : s.receiver.arrived = [] := by rw [Receiver.arrived, hop]
      have hflight : NcclState.bucketsChunks s.metas s.datas =
          bucketChunks bytes metadata.bucketMeta ++ NcclState.bucketsChunks t.metas t.datas := by
        rw [hmetas, hdatas]
        rfl
      rw [NcclState.placed, NcclState.placed, harrived, hunread, hnone, hflight, List.append_nil,
        ← h]
      simp only [List.append_assoc]
    have hpipeline : t.pipeline = s.pipeline := by
      rw [NcclState.pipeline, NcclState.pipeline, hmetas, ← h]
      simp only [Receiver.arrivedMeta, hop, List.append_assoc, List.singleton_append,
        List.nil_append]
    have hheld : t.receiver.heldList = s.receiver.heldList :=
      Receiver.heldList_eq (by rw [← h]) hread
    have hreceiver := hs.receiver.setPhase hop (.complete metadata)
      (s.receiver.bufs.set bucket bytes)
    have hyielded : t.receiver.yielded = s.receiver.yielded := by rw [← h]
    refine hs.of_placed_eq hplaced ?_ ?_ ?_ ?_ ?_ ?_ ?_ ?_ ?_
    · rw [← h]
    · rw [← h]
    · rw [hyielded, hheld]
    · rw [← h]
      exact hs.sender
    · rw [← h]
      exact hreceiver
    · have hpaired := hs.paired
      rw [hmetas, hdatas] at hpaired
      exact Nat.succ.inj hpaired
    · rw [← h]
      exact hs.messagesClosed
    · rw [hpipeline, ← h]
      exact hs.pipelineClosed
    · rw [← h]
      exact hs.bytes_le
  · cases h

/-! ## Steps of the receiver -/

/-- A step of the receiver that leaves the placed chunks where the merger finds
them. -/
theorem receiverStep (hs : NcclOk bucketSize weights s) {receiver : Receiver}
    (hreceiver : ReceiverOk receiver) (hgot : receiver.gotMeta = s.receiver.gotMeta)
    (hbucket : receiver.unread ++ receiver.arrived = s.receiver.unread ++ s.receiver.arrived)
    (hmerging : receiver.merging = s.receiver.merging)
    (htensors : receiver.yielded ++ receiver.heldList =
      s.receiver.yielded ++ s.receiver.heldList)
    (hpipeline : LastClosed s.sender.closed
      (receiver.metadata.toList ++ receiver.arrivedMeta ++ s.metas)) :
    NcclOk bucketSize weights { s with receiver := receiver } := by
  have hmetas : ({ s with receiver := receiver } : NcclState).metas = s.metas := by
    rw [NcclState.metas, NcclState.metas, hgot]
  have hplaced : ({ s with receiver := receiver } : NcclState).placed = s.placed := by
    rw [NcclState.placed, NcclState.placed, hmetas, hbucket]
    rfl
  refine hs.of_placed_eq hplaced rfl hmerging htensors hs.sender hreceiver ?_ hs.messagesClosed ?_
    hs.bytes_le
  · rw [hmetas]
    exact hs.paired
  · rw [NcclState.pipeline, hmetas]
    exact hpipeline

theorem begin (hs : NcclOk bucketSize weights s) {receiver : Receiver}
    (h : s.receiver.next bucketSize .begin = some receiver) :
    NcclOk bucketSize weights { s with receiver := receiver } := by
  simp only [Receiver.next] at h
  split at h
  next hpc =>
    rw [Option.some.injEq] at h
    subst h
    have hok := hs.receiver.pcOk
    rw [Receiver.PcOk, hpc] at hok
    obtain ⟨hop, hmetadata, hpending⟩ := hok
    have hpipeline := hs.pipelineClosed
    rw [NcclState.pipeline, Receiver.arrivedMeta, hop, hmetadata] at hpipeline
    refine hs.receiverStep ⟨?_, ?_⟩ ?_ ?_ rfl ?_ ?_
    · refine ⟨Option.some_ne_none _, ?_, hpending⟩
      rw [hmetadata]
      exact fun metadata h => by cases h
    · intro op hop'
      rw [Option.some.injEq] at hop'
      subst hop'
      rfl
    · simp only [Receiver.gotMeta, hop]
    · simp only [Receiver.unread, Receiver.arrived, hop, hpc]
    · simp only [Receiver.heldList, hpc]
    · simp only [Receiver.arrivedMeta, hmetadata]
      exact hpipeline
  · cases h

theorem take (hs : NcclOk bucketSize weights s) {receiver : Receiver}
    (h : s.receiver.next bucketSize .take = some receiver) :
    NcclOk bucketSize weights { s with receiver := receiver } := by
  simp only [Receiver.next] at h
  split at h
  next bucket metadata hpc hop =>
    rw [Option.some.injEq] at h
    subst h
    have hok := hs.receiver.pcOk
    rw [Receiver.PcOk, hpc] at hok
    obtain ⟨-, hnotLast, hpending⟩ := hok
    have hbucket : bucket = !s.receiver.sendBuf := hs.receiver.otherBuf _ hop
    have hpipeline := hs.pipelineClosed
    simp only [NcclState.pipeline, Receiver.arrivedMeta, hop] at hpipeline
    refine hs.receiverStep ⟨?_, ?_⟩ ?_ ?_ rfl ?_ ?_
    · exact ⟨rfl, Option.some_ne_none _, hpending⟩
    · exact fun op hop' => by cases hop'
    · simp only [Receiver.gotMeta, hop]
    · simp only [Receiver.unread, Receiver.arrived, hop, hpc, hpending, hbucket, List.append_nil]
      rfl
    · simp only [Receiver.heldList, hpc]
    · cases hmetadata : s.receiver.metadata with
      | none =>
          rw [hmetadata] at hpipeline
          exact hpipeline
      | some old =>
          rw [hmetadata] at hpipeline
          exact hpipeline.of_cons (hnotLast old hmetadata)
  · cases h

theorem loop (hs : NcclOk bucketSize weights s) {receiver : Receiver}
    (h : s.receiver.next bucketSize .loop = some receiver) :
    NcclOk bucketSize weights { s with receiver := receiver } := by
  simp only [Receiver.next] at h
  split at h
  next metadata hpc hmetadata =>
    rw [Option.some.injEq] at h
    subst h
    have hok := hs.receiver.pcOk
    rw [Receiver.PcOk, hpc] at hok
    obtain ⟨hop, -, hpending⟩ := hok
    have hpipeline := hs.pipelineClosed
    rw [NcclState.pipeline, Receiver.arrivedMeta, hop] at hpipeline
    refine hs.receiverStep ⟨?_, ?_⟩ ?_ ?_ rfl ?_ ?_
    · refine ⟨metadata, hmetadata, ?_⟩
      cases metadata.isLast <;> simp
    · intro op hop'
      split at hop'
      · cases hop'
      · rw [Option.some.injEq] at hop'
        subst hop'
        rfl
    · simp only [Receiver.gotMeta, hop]
      cases metadata.isLast <;> rfl
    · simp only [Receiver.unread, Receiver.arrived, hop, hpc, hmetadata]
      cases metadata.isLast <;> rfl
    · simp only [Receiver.heldList, hpc]
    · simp only [Receiver.arrivedMeta]
      cases metadata.isLast <;> exact hpipeline
  · cases h

theorem endBucket (hs : NcclOk bucketSize weights s) {receiver : Receiver}
    (h : s.receiver.next bucketSize .endBucket = some receiver) :
    NcclOk bucketSize weights { s with receiver := receiver } := by
  simp only [Receiver.next] at h
  split at h
  next metadata hpc hpending hmetadata =>
    rw [Option.some.injEq] at h
    subst h
    have hok := hs.receiver.pcOk
    rw [Receiver.PcOk, hpc] at hok
    obtain ⟨metadata', hmetadata', hlast⟩ := hok
    rw [hmetadata, Option.some.injEq] at hmetadata'
    subst hmetadata'
    refine hs.receiverStep ⟨?_, hs.receiver.otherBuf⟩ rfl ?_ rfl ?_ hs.pipelineClosed
    · cases hcase : metadata.isLast with
      | true => exact ⟨hlast.mpr hcase, ⟨metadata, hmetadata, hcase⟩, hpending⟩
      | false =>
          refine ⟨fun hnone => ?_, fun metadata' h => ?_, hpending⟩
          · rw [hlast.mp hnone] at hcase
            cases hcase
          · rw [show s.receiver.metadata = _ from hmetadata, Option.mem_some_iff] at h
            exact h ▸ hcase
    · simp only [Receiver.unread, hpc, hpending]
      cases metadata.isLast <;> rfl
    · simp only [Receiver.heldList, hpc]
      cases metadata.isLast <;> rfl
  · cases h

theorem consume (hs : NcclOk bucketSize weights s) {receiver : Receiver}
    (h : s.receiver.next bucketSize .consume = some receiver) :
    NcclOk bucketSize weights { s with receiver := receiver } := by
  simp only [Receiver.next] at h
  split at h
  next merged hpc =>
    rw [Option.some.injEq] at h
    subst h
    have hok := hs.receiver.pcOk
    rw [Receiver.PcOk, hpc] at hok
    refine hs.receiverStep ⟨hok, hs.receiver.otherBuf⟩ rfl ?_ rfl ?_ hs.pipelineClosed
    · simp only [Receiver.unread, hpc]
      rfl
    · simp only [Receiver.heldList, hpc, List.append_nil]
  · cases h

/-- The merger takes the next chunk without an error. -/
theorem mergeTensor_next (hs : NcclOk bucketSize weights s)
    (hw : WeightsOk bucketSize itemsize weights) {chunk : Chunk} {rest : List Chunk}
    (hplaced : s.placed = chunk :: rest) :
    ∃ processed merging tensor,
      processed ++ rest.map Chunk.unplaced ++ s.sender.chunks =
        splitWeightChunks bucketSize weights ∧
      mergeTensor bucketSize s.receiver.merging chunk = .ok (merging, tensor) ∧
      mergeChunks bucketSize none processed = .ok (merging,
        s.receiver.yielded ++ s.receiver.heldList ++ tensor.toList) := by
  obtain ⟨processed, hsplit, hmerge⟩ := hs.conserve
  have haligned : mergeTensor bucketSize s.receiver.merging chunk.unplaced =
      mergeTensor bucketSize s.receiver.merging chunk :=
    mergeTensor_unplaced (hs.aligned chunk (hplaced ▸ List.mem_cons_self))
  have hall := mergeChunks_splitWeightChunks hw.size_pos hw.nbytes_pos
  rw [← hsplit, hplaced, List.map_cons, List.append_assoc, List.cons_append,
    mergeChunks_append_of_ok hmerge] at hall
  obtain ⟨result, hrest, -⟩ := Py.bind_eq_ok.mp hall
  rw [mergeChunks, haligned] at hrest
  obtain ⟨⟨merging, tensor⟩, hok, -⟩ := Py.bind_eq_ok.mp hrest
  refine ⟨processed ++ [chunk.unplaced], merging, tensor, ?_, hok, ?_⟩
  · rw [← hsplit, hplaced, List.map_cons]
    simp only [List.append_assoc, List.cons_append, List.nil_append]
  · rw [mergeChunks_append_of_ok hmerge, mergeChunks, haligned, hok]
    simp only [mergeChunks, Py.ok_bind, Py.pure_eq_ok, List.append_nil]

/-- The chunk in front goes to the merger. -/
theorem afterChunk (hs : NcclOk bucketSize weights s) {tensorMeta : TensorMeta}
    {pending : List TensorMeta} (hpc : s.receiver.pc = .yielding)
    (hpending : s.receiver.pending = tensorMeta :: pending) {pc : ReceiverPc}
    {merging : Option Merging} {processed : List Chunk} {tensors : List Tensor}
    (hpc' : pc = .yielding ∨ ∃ merged, pc = .holding merged) {receiver : Receiver}
    (hreceiver : receiver =
      { s.receiver with pc := pc, merging := merging, pending := pending })
    (hsplit : ∀ rest, s.placed = (tensorMeta, s.receiver.read tensorMeta) :: rest →
      processed ++ rest.map Chunk.unplaced ++ s.sender.chunks =
        splitWeightChunks bucketSize weights)
    (hmerge : mergeChunks bucketSize none processed = .ok (merging, s.receiver.yielded ++ tensors))
    (hheld : receiver.heldList = tensors) :
    NcclOk bucketSize weights { s with receiver := receiver } := by
  let t : NcclState := { s with receiver := receiver }
  have hplaced : s.placed = (tensorMeta, s.receiver.read tensorMeta) :: t.placed := by
    have hbefore : s.receiver.unread = (tensorMeta, s.receiver.read tensorMeta) ::
        bucketChunks (s.receiver.bufs.get s.receiver.sendBuf) pending := by
      simp only [Receiver.unread, hpc, hpending]
      rfl
    have hafter : t.receiver.unread =
        bucketChunks (s.receiver.bufs.get s.receiver.sendBuf) pending := by
      simp only [t, hreceiver, Receiver.unread]
      obtain rfl | ⟨merged, rfl⟩ := hpc' <;> rfl
    rw [NcclState.placed, NcclState.placed, hbefore, hafter, List.cons_append, List.cons_append,
      List.cons_append]
    simp only [t, hreceiver]
    rfl
  constructor
  · refine ⟨processed, hsplit _ hplaced, ?_⟩
    rw [hmerge, hheld, hreceiver]
  · intro chunk hchunk
    refine hs.aligned chunk ?_
    rw [hplaced]
    exact List.mem_cons_of_mem _ hchunk
  · exact hs.sender
  · rw [hreceiver]
    refine ⟨?_, hs.receiver.otherBuf⟩
    have hok := hs.receiver.pcOk
    rw [Receiver.PcOk, hpc] at hok
    obtain rfl | ⟨merged, rfl⟩ := hpc' <;> exact hok
  · rw [hreceiver]
    exact hs.paired
  · exact hs.messagesClosed
  · rw [hreceiver]
    exact hs.pipelineClosed
  · exact hs.bytes_le

theorem chunk (hs : NcclOk bucketSize weights s) (hw : WeightsOk bucketSize itemsize weights)
    {receiver : Receiver} (h : s.receiver.next bucketSize .chunk = some receiver) :
    NcclOk bucketSize weights { s with receiver := receiver } := by
  simp only [Receiver.next] at h
  split at h
  next tensorMeta pending hpc hpending =>
    have hplaced : ∃ rest, s.placed = (tensorMeta, s.receiver.read tensorMeta) :: rest := by
      simp only [NcclState.placed, Receiver.unread, hpc, hpending]
      exact ⟨_, rfl⟩
    obtain ⟨rest, hplaced⟩ := hplaced
    obtain ⟨processed, merging, tensor, hsplit, hok, hmerge⟩ := hs.mergeTensor_next hw hplaced
    have hsplit' : ∀ rest, s.placed = (tensorMeta, s.receiver.read tensorMeta) :: rest →
        processed ++ rest.map Chunk.unplaced ++ s.sender.chunks =
          splitWeightChunks bucketSize weights := by
      intro rest' hrest'
      rw [hplaced, List.cons.injEq] at hrest'
      exact hrest'.2 ▸ hsplit
    have hnone : s.receiver.heldList = [] := by rw [Receiver.heldList, hpc]
    rw [hnone, List.append_nil] at hmerge
    obtain ⟨⟨merging', merged⟩, hmerged, hresult⟩ := Py.bind_eq_ok.mp hok
    rw [hmerged] at h
    obtain ⟨rfl, htensor⟩ := Prod.mk.inj (Except.ok.inj hresult)
    cases merged with
    | none =>
        rw [Option.some.injEq] at h
        subst htensor
        exact hs.afterChunk hpc hpending (Or.inl rfl) (h.symm.trans (by rw [hpc])) hsplit' hmerge
          (by rw [← h, Receiver.heldList, hpc]; rfl)
    | some merged =>
        rw [Option.some.injEq] at h
        subst htensor
        refine hs.afterChunk hpc hpending (Or.inr ⟨merged, rfl⟩) h.symm hsplit' hmerge ?_
        rw [← h]
        cases merged with
        | view tensorMeta' =>
            rw [mergeChunk_view hmerged]
            rfl
        | owned tensor => rfl
  · cases h

/-- Every step keeps the invariant. -/
theorem next (hs : NcclOk bucketSize weights s) (hw : WeightsOk bucketSize itemsize weights)
    {rendezvous : Bool} {a : NcclAct} {t : NcclState}
    (h : s.next rendezvous bucketSize a = some t) : NcclOk bucketSize weights t := by
  cases a with
  | check =>
      obtain ⟨sender, hstep, rfl⟩ := Option.map_eq_some_iff.mp h
      exact hs.check hstep
  | flush =>
      obtain ⟨sender, hstep, rfl⟩ := Option.map_eq_some_iff.mp h
      exact hs.flush hw hstep
  | place =>
      obtain ⟨sender, hstep, rfl⟩ := Option.map_eq_some_iff.mp h
      exact hs.place hw hstep
  | startLast =>
      obtain ⟨sender, hstep, rfl⟩ := Option.map_eq_some_iff.mp h
      exact hs.startLast hstep
  | endSend =>
      obtain ⟨sender, hstep, rfl⟩ := Option.map_eq_some_iff.mp h
      exact hs.endSend hstep
  | sendMeta =>
      have hstep : s.broadcastNext rendezvous .sendMeta = some t := h
      exact hs.sendMeta hstep
  | transmit =>
      have hstep : s.broadcastNext rendezvous .transmit = some t := h
      exact hs.transmit hstep
  | recvMeta =>
      have hstep : s.broadcastNext rendezvous .recvMeta = some t := h
      exact hs.recvMeta hstep
  | deliver =>
      have hstep : s.broadcastNext rendezvous .deliver = some t := h
      exact hs.deliver hstep
  | begin =>
      obtain ⟨receiver, hstep, rfl⟩ := Option.map_eq_some_iff.mp h
      exact hs.begin hstep
  | take =>
      obtain ⟨receiver, hstep, rfl⟩ := Option.map_eq_some_iff.mp h
      exact hs.take hstep
  | loop =>
      obtain ⟨receiver, hstep, rfl⟩ := Option.map_eq_some_iff.mp h
      exact hs.loop hstep
  | chunk =>
      obtain ⟨receiver, hstep, rfl⟩ := Option.map_eq_some_iff.mp h
      exact hs.chunk hw hstep
  | consume =>
      obtain ⟨receiver, hstep, rfl⟩ := Option.map_eq_some_iff.mp h
      exact hs.consume hstep
  | endBucket =>
      obtain ⟨receiver, hstep, rfl⟩ := Option.map_eq_some_iff.mp h
      exact hs.endBucket hstep

end NcclOk

end Verl
