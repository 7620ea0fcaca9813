import Verl.Checkpoint.NcclLossless
import Verl.Checkpoint.Nixl
import Verl.Lib.Relay

/-!
# The chain is a relay of buckets

`got 0` are the buckets that rank 0 has published, and `got (k + 1)` those that
rank `k + 1` has taken.  Each step of the chain is a step of the relay or leaves
`got` as it is (`NixlOk.next`).

A rank publishes the bucket it has taken in the same step, so a link carries at
most two buckets that the next rank has not taken: one that is read completely
and lies in the reader's other buffer, and one that is announced or being read.
`NixlLinkOk` has one case for each state of the second.  The bytes of that
bucket are those of the buffer it was published from, as no step writes there
while the operation is open.
-/

namespace Verl

open Slices (slice write)

/-! ## Where the chunks are -/

/-- A bucket with its metadata. -/
abbrev Bucket := Metadata × List UInt8

def Bucket.chunks (bucket : Bucket) : List Chunk := bucketChunks bucket.2 bucket.1.bucketMeta

namespace NixlSender

/-- Whether the sender still packs chunks. -/
def packing (s : NixlSender) : Bool :=
  match s.pc with
  | .filling | .flushing | .placing => true
  | _ => false

/-- Whether the last bucket was published. -/
def closed (s : NixlSender) : Bool :=
  match s.pc with
  | .last | .done => true
  | _ => false

theorem closed_eq_false {s : NixlSender} (h : s.packing = true) : s.closed = false := by
  rw [packing] at h
  rw [closed]
  split at h <;> simp_all

/-- The chunks in the bucket that is filled. -/
def current (s : NixlSender) : List Chunk :=
  if s.packing then bucketChunks (s.bufs.get s.sendBuf) s.bucketMeta else []

/-- The buffer of the bucket that was published last. -/
def published (s : NixlSender) : Bool := if s.closed then s.sendBuf else !s.sendBuf

end NixlSender

namespace NixlReceiver

/-- The chunks of the taken bucket that the merger has not got. -/
def unread (r : NixlReceiver) : List Chunk := bucketChunks (r.bufs.get r.sendBuf) r.pending

/-- The tensor that the consumer holds. -/
def heldList (r : NixlReceiver) : List Tensor :=
  match r.pc with
  | .holding merged => [r.held merged]
  | _ => []

/-- What the consumer sees depends on the buffer that is read. -/
theorem heldList_eq {r r' : NixlReceiver} (hpc : r'.pc = r.pc)
    (hread : r'.bufs.get r'.sendBuf = r.bufs.get r.sendBuf) : r'.heldList = r.heldList := by
  have hheld : ∀ merged, r'.held merged = r.held merged := by
    intro merged
    cases merged with
    | view tensorMeta => rw [held, held, read, read, hread]
    | owned tensor => rfl
  rw [heldList, heldList, hpc]
  split
  · rw [hheld]
  · rfl

end NixlReceiver

namespace ReadOp

/-- The message whose bucket a rank reads or has read. -/
def message : Option ReadOp → Option ReadableMessage
  | some (.reading message _) | some (.done message) => some message
  | _ => none

/-- Whether a transfer is under way. -/
def busy : Option ReadOp → Bool
  | some (.reading _ _) => true
  | _ => false

/-- The bucket that is read completely, with these bytes. -/
def arrived (bytes : List UInt8) : Option ReadOp → List Bucket
  | some (.done message) => [(message.metadata, bytes)]
  | _ => []

end ReadOp

namespace NixlState

/-- The key of a rank's open operation. -/
def op (s : NixlState) : Nat → Option Nat
  | 0 => s.sender.op
  | k + 1 => (s.receivers k).op

/-- The buffer of the bucket that a rank published last. -/
def published (s : NixlState) : Nat → Bool
  | 0 => s.sender.published
  | k + 1 => (s.receivers k).sendBuf

end NixlState

/-! ## The invariant -/

structure NixlSenderOk (bucketSize : Nat) (weights : List Weight) (got : List Bucket)
    (s : NixlSender) : Prop where
  conserve : (got.flatMap Bucket.chunks ++ s.current).map Chunk.unplaced ++ s.chunks =
    splitWeightChunks bucketSize weights
  aligned : ∀ chunk ∈ got.flatMap Bucket.chunks ++ s.current,
    chunk.1.offset.getD 0 % chunk.1.dtype.itemsize = 0
  lastClosed : LastClosed s.closed (got.map Prod.fst)
  notRaised : s.pc ≠ .raised
  length_bufs : ∀ i, (s.bufs.get i).length = bucketSize
  offset_eq : s.packing = true → s.offset = bucketBytes s.bucketMeta
  offset_le : s.packing = true → s.offset ≤ bucketSize
  below : s.packing = true → ∀ tensorMeta ∈ s.bucketMeta,
    tensorMeta.offset.getD 0 + tensorMeta.chunkSize ≤ s.offset
  fits : s.pc = .placing → ∀ chunk ∈ s.chunks.head?, s.offset + chunk.1.chunkSize ≤ bucketSize
  some_chunk : s.pc = .placing ∨ s.pc = .flushing → s.chunks ≠ []
  no_chunk : s.closed = true → s.chunks = []
  done_op : s.pc = .done → s.op = none

namespace NixlReceiver

/-- No bucket is taken. -/
def Fresh (r : NixlReceiver) (got : List Bucket) : Prop :=
  got = [] ∧ r.metadata = none ∧ r.pending = []

/-- The bucket taken last is in `send_buf`. -/
def Holds (r : NixlReceiver) (got : List Bucket) (metadata : Metadata) : Prop :=
  r.metadata = some metadata ∧ got.getLast? = some (metadata, r.bufs.get r.sendBuf)

/-- What holds at each program counter. -/
def PcOk (r : NixlReceiver) (got : List Bucket) : Prop :=
  match r.pc with
  | .start => r.op = none ∧ r.readOp = none ∧ r.Fresh got
  | .fetching =>
      r.readOp = some .opened ∧
        (r.Fresh got ∧ r.op = none ∨
          ∃ metadata, r.Holds got metadata ∧ metadata.isLast = false)
  | .yielding | .holding _ =>
      ∃ metadata, r.Holds got metadata ∧
        (if metadata.isLast then r.readOp = none else ReadOp.message r.readOp ≠ none)
  | .draining =>
      r.pending = [] ∧ ∃ metadata, r.Holds got metadata ∧
        (if metadata.isLast then r.readOp = none else ReadOp.message r.readOp ≠ none)
  | .waiting =>
      r.op = none ∧ ReadOp.message r.readOp ≠ none ∧ r.pending = [] ∧
        (r.Fresh got ∨ ∃ metadata, r.Holds got metadata ∧ metadata.isLast = false)
  | .done =>
      r.op = none ∧ r.readOp = none ∧ r.pending = [] ∧
        ∃ metadata, r.Holds got metadata ∧ metadata.isLast = true
  | .raised => False

end NixlReceiver

structure NixlReceiverOk (bucketSize : Nat) (got : List Bucket) (r : NixlReceiver) : Prop where
  pcOk : r.PcOk got
  length_bufs : ∀ i, (r.bufs.get i).length = bucketSize
  consumed : ∃ processed, got.flatMap Bucket.chunks = processed ++ r.unread ∧
    mergeChunks bucketSize none (processed.map Chunk.unplaced) =
      .ok (r.merging, r.yielded ++ r.heldList)

/-- The four states of a link.  `source` are the bytes of the published buffer,
`sent` the buckets published so far, and `taken` with `arrived` those that have
been read. -/
inductive NixlLinkOk (bucketSize : Nat) (sent taken : List Bucket) (op : Option Nat)
    (published : Bool) (source : List UInt8) (l : NixlLink) (readOp : Option ReadOp)
    (recv : List UInt8) : Prop where
  /-- No operation is open. -/
  | quiet (hop : op = none) (hmessages : l.messages = []) (hnotifs : l.notifs = [])
      (hread : ReadOp.busy readOp = false) (hsent : sent = taken ++ ReadOp.arrived recv readOp)
  /-- The message is on its way. -/
  | posted (message : ReadableMessage) (hop : op = some message.notifyKey)
      (hmessages : l.messages = [message]) (hnotifs : l.notifs = [])
      (hbucket : message.bucket = published) (hread : ReadOp.busy readOp = false)
      (hsent : sent = taken ++ ReadOp.arrived recv readOp ++ [(message.metadata, source)])
  /-- The transfer is under way. -/
  | reading (message : ReadableMessage) (todo : List Nat) (hop : op = some message.notifyKey)
      (hmessages : l.messages = []) (hnotifs : l.notifs = [])
      (hbucket : message.bucket = published) (hread : readOp = some (.reading message todo))
      (hcopied : ∀ pos, pos < bucketSize → pos ∉ todo → recv[pos]? = source[pos]?)
      (hsent : sent = taken ++ [(message.metadata, source)])
  /-- The notification is on its way. -/
  | notified (notifyKey : Nat) (hop : op = some notifyKey) (hmessages : l.messages = [])
      (hnotifs : l.notifs = [notifyKey]) (hread : ReadOp.busy readOp = false)
      (hsent : sent = taken ++ ReadOp.arrived recv readOp)

structure NixlOk (n bucketSize : Nat) (weights : List Weight) (s : NixlState)
    (got : Nat → List Bucket) : Prop where
  sender : NixlSenderOk bucketSize weights (got 0) s.sender
  receiver : ∀ k < n, NixlReceiverOk bucketSize (got (k + 1)) (s.receivers k)
  link : ∀ k < n, NixlLinkOk bucketSize (got k) (got (k + 1)) (s.op k) (s.published k)
    ((s.bufs k).get (s.published k)) (s.links k) (s.receivers k).readOp
    ((s.receivers k).bufs.get (!(s.receivers k).sendBuf))
  /-- The last rank publishes nothing. -/
  last : ∀ k, ¬ k + 1 < n → (s.receivers k).op = none

theorem nixl_init_ok (n bucketSize : Nat) (weights : List Weight) :
    NixlOk n bucketSize weights (.init bucketSize weights) Relay.init where
  sender := by
    constructor
    · rfl
    · exact fun chunk hchunk => absurd hchunk List.not_mem_nil
    · exact ⟨0, rfl⟩
    · exact fun h => by cases h
    · intro i
      cases i <;> exact List.length_replicate
    · exact fun _ => rfl
    · exact fun _ => Nat.zero_le _
    · exact fun _ tensorMeta h => absurd h List.not_mem_nil
    · exact fun h => by cases h
    · intro h
      obtain h | h := h <;> cases h
    · exact fun h => by cases h
    · exact fun h => by cases h
  receiver := by
    intro k _
    refine ⟨⟨rfl, rfl, rfl, rfl, rfl⟩, ?_, ⟨[], rfl, rfl⟩⟩
    intro i
    cases i <;> exact List.length_replicate
  link := by
    intro k _
    refine .quiet ?_ rfl rfl rfl rfl
    cases k <;> rfl
  last := fun _ _ => rfl

/-! ## The links -/

namespace NixlLinkOk

variable {bucketSize : Nat} {sent taken : List Bucket} {op : Option Nat} {published : Bool}
  {source recv : List UInt8} {l : NixlLink} {readOp : Option ReadOp}

/-- The next rank has taken a part of what was published. -/
theorem prefix_sent (h : NixlLinkOk bucketSize sent taken op published source l readOp recv) :
    taken <+: sent := by
  cases h with
  | quiet hop hmessages hnotifs hread hsent => exact ⟨_, hsent.symm⟩
  | posted message hop hmessages hnotifs hbucket hread hsent =>
      exact ⟨_, (hsent.trans (List.append_assoc _ _ _)).symm⟩
  | reading message todo hop hmessages hnotifs hbucket hread hcopied hsent =>
      exact ⟨_, hsent.symm⟩
  | notified notifyKey hop hmessages hnotifs hread hsent => exact ⟨_, hsent.symm⟩

/-- A notification is the one that is waited for. -/
theorem await (h : NixlLinkOk bucketSize sent taken op published source l readOp recv)
    {ok : Bool} {l' : NixlLink} (hl : l.await op = some (ok, l')) :
    ok = true ∧ NixlLinkOk bucketSize sent taken none published source l' readOp recv := by
  cases h with
  | quiet hop hmessages hnotifs hread hsent =>
      subst hop
      cases hl
      exact ⟨rfl, .quiet rfl hmessages hnotifs hread hsent⟩
  | posted message hop hmessages hnotifs hbucket hread hsent =>
      subst hop
      simp only [NixlLink.await, hnotifs] at hl
      cases hl
  | reading message todo hop hmessages hnotifs hbucket hread hcopied hsent =>
      subst hop
      simp only [NixlLink.await, hnotifs] at hl
      cases hl
  | notified notifyKey hop hmessages hnotifs hread hsent =>
      subst hop
      simp only [NixlLink.await, hnotifs, decide_true] at hl
      cases hl
      exact ⟨rfl, .quiet rfl hmessages rfl hread hsent⟩

/-- Whether the notification has come, or none is needed. -/
theorem await_isSome (h : NixlLinkOk bucketSize sent taken op published source l readOp recv)
    (hmessages : l.messages = []) (hbusy : ReadOp.busy readOp = false) :
    ∃ l', l.await op = some (true, l') := by
  cases h with
  | quiet hop _ _ _ _ => exact ⟨l, by rw [hop]; rfl⟩
  | posted message _ hposted _ _ _ _ =>
      rw [hmessages] at hposted
      cases hposted
  | reading message todo _ _ _ _ hread _ _ =>
      rw [hread] at hbusy
      cases hbusy
  | notified notifyKey hop _ hnotifs _ _ =>
      refine ⟨{ l with notifs := [] }, ?_⟩
      simp only [NixlLink.await, hop, hnotifs, decide_true]

/-- The start of an operation. -/
theorem publish (h : NixlLinkOk bucketSize sent taken none published source l readOp recv)
    (metadata : Metadata) (published' : Bool) (source' : List UInt8) :
    NixlLinkOk bucketSize (sent ++ [(metadata, source')]) taken (some l.opened) published' source'
      (l.publish published' metadata) readOp recv := by
  cases h with
  | quiet hop hmessages hnotifs hread hsent =>
      refine .posted ⟨l.opened, published', metadata⟩ rfl ?_ hnotifs rfl hread ?_
      · rw [NixlLink.publish, hmessages]
        rfl
      · rw [hsent]
  | posted message hop => cases hop
  | reading message todo hop => cases hop
  | notified notifyKey hop => cases hop

end NixlLinkOk

/-! ## The packing of the sender -/

namespace NixlSenderOk

variable {bucketSize itemsize : Nat} {weights : List Weight} {got : List Bucket}
  {s : NixlSender} {chunk : Chunk} {chunks : List Chunk}

/-- A chunk that is packed comes from a weight. -/
theorem packed_ok (hs : NixlSenderOk bucketSize weights got s) (hsize : 0 < bucketSize)
    (hchunk : chunk ∈ got.flatMap Bucket.chunks ++ s.current) :
    ∃ w ∈ weights, ChunkOk bucketSize w chunk.unplaced := by
  refine splitWeightChunks_ok hsize _ ?_
  rw [← hs.conserve]
  exact List.mem_append_left _ (List.mem_map_of_mem hchunk)

/-- So does a chunk that is not packed yet. -/
theorem chunk_ok (hs : NixlSenderOk bucketSize weights got s) (hsize : 0 < bucketSize)
    (hchunk : chunk ∈ s.chunks) : ∃ w ∈ weights, ChunkOk bucketSize w chunk := by
  refine splitWeightChunks_ok hsize _ ?_
  rw [← hs.conserve]
  exact List.mem_append_right _ hchunk

theorem mem_current {tensorMeta : TensorMeta} (hpacking : s.packing = true)
    (h : tensorMeta ∈ s.bucketMeta) : ∃ bytes, (tensorMeta, bytes) ∈ s.current := by
  refine ⟨slice (s.bufs.get s.sendBuf) (tensorMeta.offset.getD 0) tensorMeta.chunkSize, ?_⟩
  rw [NixlSender.current, if_pos hpacking]
  exact List.mem_map_of_mem h

/-- The place of the next chunk is aligned. -/
theorem offset_aligned (hs : NixlSenderOk bucketSize weights got s)
    (hw : WeightsOk bucketSize itemsize weights) (hpacking : s.packing = true) :
    itemsize ∣ s.offset := by
  rw [hs.offset_eq hpacking, bucketBytes]
  refine List.dvd_sum fun size hsize => ?_
  obtain ⟨tensorMeta, hmem, rfl⟩ := List.mem_map.mp hsize
  obtain ⟨bytes, hcurrent⟩ := mem_current hpacking hmem
  obtain ⟨w, hweight, hok⟩ := hs.packed_ok hw.size_pos (List.mem_append_right _ hcurrent)
  have haligned := hok.aligned
  rw [hw.itemsize_eq w hweight] at haligned
  exact haligned hw.itemsize_dvd

/-- A bucket that holds a chunk of the same weight is full. -/
theorem name_not_mem (hs : NixlSenderOk bucketSize weights got s)
    (hw : WeightsOk bucketSize itemsize weights) (hpacking : s.packing = true)
    (hchunks : s.chunks = chunk :: chunks) (hfits : s.offset + chunk.1.chunkSize ≤ bucketSize) :
    chunk.1.name ∉ s.bucketMeta.map TensorMeta.name := by
  intro hmem
  obtain ⟨tensorMeta, hmeta, hname⟩ := List.mem_map.mp hmem
  obtain ⟨bytes, hcurrent⟩ := mem_current hpacking hmeta
  have hpairwise := splitWeightChunks_pairwise hw.size_pos hw.names
  rw [← hs.conserve, hchunks, List.pairwise_append] at hpairwise
  have hfull := hpairwise.2.2 (Chunk.unplaced (tensorMeta, bytes))
    (List.mem_map_of_mem (List.mem_append_right _ hcurrent)) chunk List.mem_cons_self hname
  have hle : tensorMeta.chunkSize ≤ bucketBytes s.bucketMeta :=
    List.le_sum_of_mem (List.mem_map_of_mem hmeta)
  obtain ⟨w, -, hok⟩ := hs.chunk_ok hw.size_pos (hchunks ▸ List.mem_cons_self)
  have hpos := hok.size_pos
  rw [← hs.offset_eq hpacking] at hle
  have hsize : tensorMeta.chunkSize = bucketSize := hfull
  omega

/-- The chunk is the last one of the bucket now. -/
theorem current_placeChunk (hs : NixlSenderOk bucketSize weights got s) (chunks : List Chunk)
    (hpacking : s.packing = true) (hlength : chunk.2.length = chunk.1.chunkSize)
    (hfits : s.offset + chunk.1.chunkSize ≤ bucketSize) :
    (s.placeChunk chunk chunks).current =
      s.current ++ [({ chunk.1 with offset := some s.offset }, chunk.2)] := by
  have hfitsData : s.offset + chunk.2.length ≤ (s.bufs.get s.sendBuf).length := by
    rw [hs.length_bufs, hlength]
    exact hfits
  have hpacking' : (s.placeChunk chunk chunks).packing = true := rfl
  rw [NixlSender.current, NixlSender.current, if_pos hpacking, if_pos hpacking',
    ← bucketChunks_write hlength hfitsData (hs.below hpacking)]
  simp only [NixlSender.placeChunk, Buffers.get_set_self]

theorem placeChunk (hs : NixlSenderOk bucketSize weights got s)
    (hw : WeightsOk bucketSize itemsize weights) (hpacking : s.packing = true)
    (hchunks : s.chunks = chunk :: chunks) (hfits : s.offset + chunk.1.chunkSize ≤ bucketSize) :
    NixlSenderOk bucketSize weights got (s.placeChunk chunk chunks) := by
  obtain ⟨w, hweight, hok⟩ := hs.chunk_ok hw.size_pos (hchunks ▸ List.mem_cons_self)
  have hcurrent := hs.current_placeChunk chunks hpacking hok.length_eq hfits
  constructor
  · have hnew : Chunk.unplaced ({ chunk.1 with offset := some s.offset }, chunk.2) = chunk := by
      have hnone := hok.offset_eq
      obtain ⟨⟨name, shape, dtype, chunkOffset, chunkSize, offset⟩, data⟩ := chunk
      rw [show offset = none from hnone]
      rfl
    rw [← hs.conserve, hcurrent, hchunks, ← List.append_assoc, List.map_append, List.map_singleton,
      hnew, List.append_assoc _ [chunk]]
    rfl
  · intro c hc
    rw [hcurrent, ← List.append_assoc, List.mem_append, List.mem_singleton] at hc
    obtain hc | rfl := hc
    · exact hs.aligned c hc
    · have hitem : chunk.1.dtype.itemsize = itemsize := by
        rw [hok.dtype_eq, hw.itemsize_eq w hweight]
      show s.offset % chunk.1.dtype.itemsize = 0
      rw [hitem]
      exact Nat.mod_eq_zero_of_dvd (hs.offset_aligned hw hpacking)
  · have hclosed := hs.lastClosed
    rw [NixlSender.closed_eq_false hpacking] at hclosed
    exact hclosed
  · exact fun h => by cases h
  · intro i
    have hwrite : (write (s.bufs.get s.sendBuf) s.offset chunk.2).length = bucketSize := by
      rw [Slices.length_write, hs.length_bufs]
      rw [hs.length_bufs, hok.length_eq]
      exact hfits
    by_cases hi : i = s.sendBuf
    · subst hi
      rw [NixlSender.placeChunk, Buffers.get_set_self]
      exact hwrite
    · rw [Bool.eq_not_of_ne hi, NixlSender.placeChunk, Buffers.get_not_set]
      exact hs.length_bufs _
  · intro _
    simp only [NixlSender.placeChunk, bucketBytes, List.map_append, List.sum_append,
      List.map_singleton, List.sum_singleton]
    rw [hs.offset_eq hpacking, bucketBytes]
  · exact fun _ => hfits
  · intro _ tensorMeta hmem
    simp only [NixlSender.placeChunk, List.mem_append, List.mem_singleton] at hmem ⊢
    obtain hmem | rfl := hmem
    · exact (hs.below hpacking tensorMeta hmem).trans (Nat.le_add_right _ _)
    · exact Nat.le_refl _
  · exact fun h => by cases h
  · intro h
    obtain h | h := h <;> cases h
  · exact fun h => by cases h
  · exact fun h => by cases h

/-- A move of the program counter within the packing loop. -/
theorem movePc (hs : NixlSenderOk bucketSize weights got s) {pc : SenderPc}
    (hpacking : s.packing = true) (hpacking' : ({ s with pc := pc } : NixlSender).packing = true)
    (hfits : pc = .placing → ∀ chunk ∈ s.chunks.head?, s.offset + chunk.1.chunkSize ≤ bucketSize)
    (hchunk : s.chunks ≠ []) : NixlSenderOk bucketSize weights got { s with pc := pc } := by
  have hcurrent : ({ s with pc := pc } : NixlSender).current = s.current := by
    rw [NixlSender.current, NixlSender.current, if_pos hpacking, if_pos hpacking']
  have hclosed : ({ s with pc := pc } : NixlSender).closed = s.closed := by
    rw [NixlSender.closed_eq_false hpacking, NixlSender.closed_eq_false hpacking']
  constructor
  · rw [hcurrent]
    exact hs.conserve
  · rw [hcurrent]
    exact hs.aligned
  · rw [hclosed]
    exact hs.lastClosed
  · intro hraised
    rw [show pc = .raised from hraised] at hpacking'
    cases hpacking'
  · exact hs.length_bufs
  · exact fun _ => hs.offset_eq hpacking
  · exact fun _ => hs.offset_le hpacking
  · exact fun _ => hs.below hpacking
  · exact hfits
  · exact fun _ => hchunk
  · intro h
    rw [hclosed] at h
    exact hs.no_chunk h
  · intro h
    rw [show pc = .done from h] at hpacking'
    cases hpacking'

/-- The bucket that is filled becomes one that is published. -/
theorem publish (hs : NixlSenderOk bucketSize weights got s) (hpacking : s.packing = true)
    {sender : NixlSender} {isLast : Bool} (hchunks : sender.chunks = s.chunks)
    (hbufs : sender.bufs = s.bufs) (hcurrent : sender.current = [])
    (hclosed : sender.closed = isLast) (hraised : sender.pc ≠ .raised) (hdone : sender.pc ≠ .done)
    (hfilled : sender.packing = true → sender.bucketMeta = [] ∧ sender.offset = 0)
    (hfits : sender.pc = .placing → ∀ chunk ∈ s.chunks.head?,
      sender.offset + chunk.1.chunkSize ≤ bucketSize)
    (hsome : sender.pc = .placing ∨ sender.pc = .flushing → s.chunks ≠ [])
    (hnone : isLast = true → s.chunks = []) :
    NixlSenderOk bucketSize weights
      (got ++ [(⟨s.bucketMeta, isLast⟩, s.bufs.get s.sendBuf)]) sender := by
  have hbefore : s.current = Bucket.chunks (⟨s.bucketMeta, isLast⟩, s.bufs.get s.sendBuf) := by
    rw [NixlSender.current, if_pos hpacking]
    rfl
  have hall : (got ++ [((⟨s.bucketMeta, isLast⟩, s.bufs.get s.sendBuf) : Bucket)]).flatMap
      Bucket.chunks ++ sender.current = got.flatMap Bucket.chunks ++ s.current := by
    rw [hcurrent, List.append_nil, List.flatMap_append, List.flatMap_singleton, hbefore]
  constructor
  · rw [hall, hchunks]
    exact hs.conserve
  · rw [hall]
    exact hs.aligned
  · have happend := (NixlSender.closed_eq_false hpacking ▸ hs.lastClosed).append
      ⟨s.bucketMeta, isLast⟩
    rw [hclosed, List.map_append]
    exact happend
  · exact hraised
  · rw [hbufs]
    exact hs.length_bufs
  · intro h
    rw [(hfilled h).1, (hfilled h).2]
    rfl
  · intro h
    rw [(hfilled h).2]
    exact Nat.zero_le _
  · intro h tensorMeta hmem
    rw [(hfilled h).1] at hmem
    exact absurd hmem List.not_mem_nil
  · rw [hchunks]
    exact hfits
  · rw [hchunks]
    exact hsome
  · intro h
    rw [hchunks]
    exact hnone (hclosed ▸ h)
  · exact fun h => absurd h hdone

end NixlSenderOk

/-! ## Steps of the sender -/

namespace NixlOk

variable {n bucketSize itemsize : Nat} {weights : List Weight} {s t : NixlState}
  {got : Nat → List Bucket}

/-- A step of the sender concerns the link to rank 1. -/
theorem setSender (hs : NixlOk n bucketSize weights s got) {sender : NixlSender} {l : NixlLink}
    {sent : List Bucket} (hsender : NixlSenderOk bucketSize weights sent sender)
    (hlink : NixlLinkOk bucketSize sent (got 1) sender.op sender.published
      (sender.bufs.get sender.published) l (s.receivers 0).readOp
      ((s.receivers 0).bufs.get (!(s.receivers 0).sendBuf))) :
    NixlOk n bucketSize weights
      { s with sender := sender, links := Function.update s.links 0 l }
      (Function.update got 0 sent) where
  sender := by
    rw [Function.update_self]
    exact hsender
  receiver := by
    intro k hk
    rw [Function.update_of_ne (Nat.succ_ne_zero k)]
    exact hs.receiver k hk
  link := by
    intro k hk
    rw [Function.update_of_ne (Nat.succ_ne_zero k)]
    cases k with
    | zero =>
        simp only [Function.update_self]
        exact hlink
    | succ k =>
        simp only [Function.update_of_ne (Nat.succ_ne_zero k)]
        exact hs.link (k + 1) hk
  last := hs.last

/-- A step of the sender that publishes nothing. -/
theorem moveSender (hs : NixlOk n bucketSize weights s got) {sender : NixlSender} {l : NixlLink}
    (hsender : NixlSenderOk bucketSize weights (got 0) sender)
    (hlink : NixlLinkOk bucketSize (got 0) (got 1) sender.op sender.published
      (sender.bufs.get sender.published) l (s.receivers 0).readOp
      ((s.receivers 0).bufs.get (!(s.receivers 0).sendBuf))) :
    NixlOk n bucketSize weights
      { s with sender := sender, links := Function.update s.links 0 l } got := by
  have h := hs.setSender hsender hlink
  rwa [Function.update_eq_self] at h

theorem check (hs : NixlOk n bucketSize weights s got) (hn : 0 < n) {sender : NixlSender}
    {l : NixlLink} (h : s.sender.next bucketSize (s.links 0) .check = some (sender, l)) :
    NixlOk n bucketSize weights
      { s with sender := sender, links := Function.update s.links 0 l } got := by
  simp only [NixlSender.next] at h
  split at h
  next chunk chunks hpc hchunks =>
    cases h
    have hpacking : s.sender.packing = true := by rw [NixlSender.packing, hpc]
    have hchunk : s.sender.chunks ≠ [] := by
      rw [hchunks]
      exact List.cons_ne_nil _ _
    have hlink := hs.link 0 hn
    have hpublished : s.published 0 = !s.sender.sendBuf := by
      rw [NixlState.published, NixlSender.published, NixlSender.closed_eq_false hpacking]
      rfl
    rw [hpublished] at hlink
    by_cases hfull : bucketSize < s.sender.offset + chunk.1.chunkSize
    · rw [if_pos hfull]
      exact hs.moveSender (hs.sender.movePc hpacking rfl (fun h => by cases h) hchunk) hlink
    · rw [if_neg hfull]
      refine hs.moveSender (hs.sender.movePc hpacking rfl (fun _ chunk' hchunk' => ?_) hchunk) hlink
      rw [hchunks, List.head?_cons, Option.mem_some_iff] at hchunk'
      subst hchunk'
      omega
  · cases h

theorem place (hs : NixlOk n bucketSize weights s got)
    (hw : WeightsOk bucketSize itemsize weights) (hn : 0 < n) {sender : NixlSender}
    {l : NixlLink} (h : s.sender.next bucketSize (s.links 0) .place = some (sender, l)) :
    NixlOk n bucketSize weights
      { s with sender := sender, links := Function.update s.links 0 l } got := by
  simp only [NixlSender.next] at h
  split at h
  next chunk chunks hpc hchunks =>
    have hpacking : s.sender.packing = true := by rw [NixlSender.packing, hpc]
    have hfits := hs.sender.fits hpc chunk (by rw [hchunks]; rfl)
    rw [if_pos ⟨hfits, hs.sender.name_not_mem hw hpacking hchunks hfits⟩] at h
    cases h
    refine hs.moveSender (hs.sender.placeChunk hw hpacking hchunks hfits) ?_
    have hlink := hs.link 0 hn
    have hpublished : s.published 0 = !s.sender.sendBuf := by
      rw [NixlState.published, NixlSender.published, NixlSender.closed_eq_false hpacking]
      rfl
    have hsource : (s.sender.placeChunk chunk chunks).bufs.get (!s.sender.sendBuf) =
        s.sender.bufs.get (!s.sender.sendBuf) := Buffers.get_not_set _ _ _
    rw [hpublished] at hlink
    rw [show (s.sender.placeChunk chunk chunks).published = !s.sender.sendBuf from rfl, hsource]
    exact hlink
  · cases h

/-- A step of the sender that publishes the bucket. -/
theorem publish (hs : NixlOk n bucketSize weights s got) (hn : 0 < n) {l : NixlLink} {ok : Bool}
    (hl : (s.links 0).await s.sender.op = some (ok, l)) {sender : NixlSender} {isLast : Bool}
    (hop : sender.op = some l.opened) (hbufs : sender.bufs = s.sender.bufs)
    (hpublished : sender.published = s.sender.sendBuf)
    (hsender : NixlSenderOk bucketSize weights
      (got 0 ++ [(⟨s.sender.bucketMeta, isLast⟩, s.sender.bufs.get s.sender.sendBuf)]) sender) :
    ∃ got', Run.exec Relay.next got [.produce
          (⟨s.sender.bucketMeta, isLast⟩, s.sender.bufs.get s.sender.sendBuf)] = some got' ∧
      NixlOk n bucketSize weights { s with
        sender := sender
        links := Function.update s.links 0
          (l.publish s.sender.sendBuf ⟨s.sender.bucketMeta, isLast⟩) } got' := by
  refine ⟨_, rfl, hs.setSender hsender ?_⟩
  rw [hop, hpublished, hbufs]
  exact ((hs.link 0 hn).await hl).2.publish _ _ _

theorem flush (hs : NixlOk n bucketSize weights s got)
    (hw : WeightsOk bucketSize itemsize weights) (hn : 0 < n) {sender : NixlSender}
    {l : NixlLink} (h : s.sender.next bucketSize (s.links 0) .flush = some (sender, l)) :
    ∃ bs got', Run.exec Relay.next got bs = some got' ∧ NixlOk n bucketSize weights
      { s with sender := sender, links := Function.update s.links 0 l } got' := by
  simp only [NixlSender.next] at h
  split at h
  next hpc =>
    obtain ⟨⟨ok, l'⟩, hl, h⟩ := Option.map_eq_some_iff.mp h
    have hok := ((hs.link 0 hn).await hl).1
    subst hok
    cases h
    have hpacking : s.sender.packing = true := by rw [NixlSender.packing, hpc]
    have hne := hs.sender.some_chunk (Or.inr hpc)
    refine ⟨_, hs.publish hn hl rfl rfl (Bool.not_not _) ?_⟩
    refine hs.sender.publish hpacking rfl rfl rfl rfl (fun h => by cases h)
      (fun h => by cases h) (fun _ => ⟨rfl, rfl⟩) ?_ (fun _ => hne) (fun h => by cases h)
    intro _ chunk hchunk
    obtain ⟨w, -, hok⟩ := hs.sender.chunk_ok hw.size_pos (List.mem_of_mem_head? hchunk)
    show 0 + chunk.1.chunkSize ≤ bucketSize
    rw [Nat.zero_add]
    exact hok.size_le
  · cases h

theorem startLast (hs : NixlOk n bucketSize weights s got) (hn : 0 < n) {sender : NixlSender}
    {l : NixlLink} (h : s.sender.next bucketSize (s.links 0) .startLast = some (sender, l)) :
    ∃ bs got', Run.exec Relay.next got bs = some got' ∧ NixlOk n bucketSize weights
      { s with sender := sender, links := Function.update s.links 0 l } got' := by
  simp only [NixlSender.next] at h
  split at h
  next hpc =>
    obtain ⟨hpc, hchunks⟩ := hpc
    obtain ⟨⟨ok, l'⟩, hl, h⟩ := Option.map_eq_some_iff.mp h
    have hok := ((hs.link 0 hn).await hl).1
    subst hok
    cases h
    have hpacking : s.sender.packing = true := by rw [NixlSender.packing, hpc]
    refine ⟨_, hs.publish hn hl rfl rfl rfl ?_⟩
    refine hs.sender.publish hpacking rfl rfl rfl rfl (fun h => by cases h)
      (fun h => by cases h) (fun h => by cases h) (fun h => by cases h) ?_ (fun _ => hchunks)
    intro h
    obtain h | h := h <;> cases h
  · cases h

theorem endSend (hs : NixlOk n bucketSize weights s got) (hn : 0 < n) {sender : NixlSender}
    {l : NixlLink} (h : s.sender.next bucketSize (s.links 0) .endSend = some (sender, l)) :
    NixlOk n bucketSize weights
      { s with sender := sender, links := Function.update s.links 0 l } got := by
  simp only [NixlSender.next] at h
  split at h
  next hpc =>
    obtain ⟨⟨ok, l'⟩, hl, h⟩ := Option.map_eq_some_iff.mp h
    obtain ⟨hok, hlink⟩ := (hs.link 0 hn).await hl
    subst hok
    cases h
    have hclosed : s.sender.closed = true := by rw [NixlSender.closed, hpc]
    have hpacking : s.sender.packing = false := by rw [NixlSender.packing, hpc]
    have hpublished : s.published 0 = s.sender.sendBuf := by
      rw [NixlState.published, NixlSender.published, if_pos hclosed]
    rw [hpublished] at hlink
    refine hs.moveSender ?_ hlink
    have hcurrent : s.sender.current = [] := by
      rw [NixlSender.current, hpacking]
      rfl
    have hconserve := hs.sender.conserve
    have haligned := hs.sender.aligned
    have hlast := hs.sender.lastClosed
    rw [hcurrent] at hconserve haligned
    rw [hclosed] at hlast
    constructor
    · exact hconserve
    · exact haligned
    · exact hlast
    · exact fun h => by cases h
    · exact hs.sender.length_bufs
    · exact fun h => by cases h
    · exact fun h => by cases h
    · exact fun h => by cases h
    · exact fun h => by cases h
    · intro h
      obtain h | h := h <;> cases h
    · exact fun _ => hs.sender.no_chunk hclosed
    · exact fun _ => rfl
  · cases h

end NixlOk

end Verl
