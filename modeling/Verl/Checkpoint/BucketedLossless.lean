import Verl.Checkpoint.Bucketed

/-!
# The bucketed transfer delivers every weight

`Packs` says which lists of weights can be sent: no weight starts in its bucket
at an offset that its element size does not divide.  `BucketedState.Ok` is the
invariant of all runs, with or without this condition.  The sender raises only
where the condition fails, so a run that cannot go on decides it.
-/

namespace Verl

open Slices (slice write length_write length_slice slice_write_self slice_write_of_le
  slice_append_slice)
open Py (Dict)

/-! ## Copies -/

/-- No copy goes beyond the buffer. -/
def CopiesFit (bucketSize : Nat) (copies : List (Nat × List UInt8)) : Prop :=
  ∀ c ∈ copies, c.1 + c.2.length ≤ bucketSize

theorem applyCopies_append (buffer : List (Option UInt8))
    (copies copies' : List (Nat × List UInt8)) :
    applyCopies buffer (copies ++ copies') = applyCopies (applyCopies buffer copies) copies' :=
  List.foldl_append

theorem applyCopies_singleton (buffer : List (Option UInt8)) (c : Nat × List UInt8) :
    applyCopies buffer [c] = write buffer c.1 (c.2.map some) := rfl

theorem length_applyCopies {buffer : List (Option UInt8)} {copies : List (Nat × List UInt8)}
    (h : CopiesFit buffer.length copies) : (applyCopies buffer copies).length = buffer.length := by
  induction copies generalizing buffer with
  | nil => rfl
  | cons c copies ih =>
      have hc : (write buffer c.1 (c.2.map some)).length = buffer.length :=
        length_write (by rw [List.length_map]; exact h c List.mem_cons_self)
      rw [← List.singleton_append, applyCopies_append, applyCopies_singleton, ih, hc]
      rw [hc]
      exact fun c' hc' => h c' (List.mem_cons_of_mem c hc')

/-! ## The layout of a bucket -/

/-- The items of a bucket whose first weight starts at `offset`. -/
def layout : Nat → List Weight → List (String × TensorMetadata)
  | _, [] => []
  | offset, w :: ws =>
      (w.name, ⟨w.name, w.shape, w.dtype, offset, none⟩) :: layout (offset + w.nbytes) ws

def totalBytes (ws : List Weight) : Nat := (ws.map Weight.nbytes).sum

/-- Every weight of the bucket starts at a multiple of its element size. -/
def AlignedAt : Nat → List Weight → Prop
  | _, [] => True
  | offset, w :: ws => w.dtype.itemsize ∣ offset ∧ AlignedAt (offset + w.nbytes) ws

def contents (ws : List Weight) : List (Option UInt8) := ws.flatMap fun w => w.data.map some

theorem totalBytes_cons (w : Weight) (ws : List Weight) :
    totalBytes (w :: ws) = w.nbytes + totalBytes ws := by
  rw [totalBytes, List.map_cons, List.sum_cons, totalBytes]

theorem totalBytes_concat (ws : List Weight) (w : Weight) :
    totalBytes (ws ++ [w]) = totalBytes ws + w.nbytes := by
  rw [totalBytes, List.map_append, List.sum_append, List.map_singleton, List.sum_singleton,
    totalBytes]

theorem contents_cons (w : Weight) (ws : List Weight) :
    contents (w :: ws) = w.data.map some ++ contents ws := List.flatMap_cons

theorem contents_concat (ws : List Weight) (w : Weight) :
    contents (ws ++ [w]) = contents ws ++ w.data.map some := by
  rw [contents, List.flatMap_append, List.flatMap_singleton, contents]

theorem layout_concat (offset : Nat) (ws : List Weight) (w : Weight) :
    layout offset (ws ++ [w]) =
      layout offset ws ++
        [(w.name, ⟨w.name, w.shape, w.dtype, offset + totalBytes ws, none⟩)] := by
  induction ws generalizing offset with
  | nil => rfl
  | cons v ws ih =>
      rw [List.cons_append, layout, ih, layout, List.cons_append, totalBytes_cons, Nat.add_assoc]

theorem alignedAt_concat (offset : Nat) (ws : List Weight) (w : Weight) :
    AlignedAt offset (ws ++ [w]) ↔
      AlignedAt offset ws ∧ w.dtype.itemsize ∣ offset + totalBytes ws := by
  induction ws generalizing offset with
  | nil => exact and_comm
  | cons v ws ih =>
      rw [List.cons_append, AlignedAt, ih, AlignedAt, totalBytes_cons, and_assoc, Nat.add_assoc]

theorem map_fst_layout (offset : Nat) (ws : List Weight) :
    (layout offset ws).map Prod.fst = ws.map Weight.name := by
  induction ws generalizing offset with
  | nil => rfl
  | cons w ws ih => rw [layout, List.map_cons, ih, List.map_cons]

/-! ## Views -/

theorem viewAs_of_dvd {offset : Nat} {bytes : List (Option UInt8)} {dtype : DType}
    {shape : List Nat} (h : dtype.itemsize ∣ offset)
    (hlength : bytes.length = shape.prod * dtype.itemsize) :
    viewAs offset bytes dtype shape = .ok () := by
  rw [viewAs, if_neg, if_neg]
  · exact not_not_intro hlength
  · rintro (hoffset | hbytes)
    · exact hoffset (Nat.mod_eq_zero_of_dvd h)
    · rw [hlength, Nat.mul_mod_left] at hbytes
      exact hbytes rfl

theorem dvd_of_viewAs {offset : Nat} {bytes : List (Option UInt8)} {dtype : DType}
    {shape : List Nat} (h : viewAs offset bytes dtype shape = .ok ()) :
    dtype.itemsize ∣ offset := by
  rw [viewAs] at h
  split at h
  · cases h
  next hmod => exact Nat.dvd_of_mod_eq_zero (not_not.mp (not_or.mp hmod).1)

theorem Weight.nbytes_eq_mul (w : Weight) : w.nbytes = w.shape.prod * w.dtype.itemsize :=
  w.nbytes_eq

/-- A weight in the buffer is read back. -/
theorem loadItem_layout (cfg : BucketedConfig) {buffer : List (Option UInt8)} {w : Weight}
    {offset : Nat} (hdvd : w.dtype.itemsize ∣ offset) (hfit : offset + w.nbytes ≤ buffer.length)
    (hdata : slice buffer offset w.nbytes = w.data.map some) :
    ∃ loaded, BucketedState.loadItem cfg buffer
        (w.name, ⟨w.name, w.shape, w.dtype, offset, none⟩) = .ok loaded ∧
      BucketedState.read buffer loaded = w.tensor := by
  have hsize : w.dtype.itemsize * w.shape.prod = w.nbytes := by
    rw [Weight.nbytes_eq_mul, Nat.mul_comm]
  have hview : viewAs offset (slice buffer offset w.nbytes) w.dtype w.shape = .ok () :=
    viewAs_of_dvd hdvd ((length_slice hfit).trans w.nbytes_eq_mul)
  rw [BucketedState.loadItem]
  dsimp only
  rw [hsize, hview, Py.ok_bind, hdata]
  split
  · exact ⟨_, rfl, rfl⟩
  · refine ⟨_, rfl, ?_⟩
    rw [BucketedState.read, Weight.tensor, hsize, hdata]

/-- The weights of a bucket are read back. -/
theorem mapM_loadItem_layout {cfg : BucketedConfig} {buffer : List (Option UInt8)}
    {ws : List Weight} {offset : Nat} (haligned : AlignedAt offset ws)
    (hfit : offset + totalBytes ws ≤ buffer.length)
    (hdata : slice buffer offset (totalBytes ws) = contents ws) :
    ∃ loads, (layout offset ws).mapM (BucketedState.loadItem cfg buffer) = .ok loads ∧
      loads.map (BucketedState.read buffer) = ws.map Weight.tensor := by
  induction ws generalizing offset with
  | nil => exact ⟨[], rfl, rfl⟩
  | cons w ws ih =>
      rw [totalBytes_cons] at hfit hdata
      rw [← slice_append_slice, contents_cons] at hdata
      have hlength : (slice buffer offset w.nbytes).length = (w.data.map some).length := by
        rw [length_slice (by omega), List.length_map, Weight.nbytes]
      obtain ⟨hw, hws⟩ := List.append_inj hdata hlength
      obtain ⟨loaded, hload, hread⟩ := loadItem_layout cfg haligned.1 (by omega) hw
      obtain ⟨loads, hloads, hreads⟩ := ih haligned.2 (by omega) hws
      refine ⟨loaded :: loads, ?_, ?_⟩
      · rw [layout, List.mapM_cons, hload, Py.ok_bind, hloads, Py.ok_bind, Py.pure_eq_ok]
      · rw [List.map_cons, hread, hreads, List.map_cons]

/-! ## Which weights can be sent -/

/-- What can be sent when the current bucket is filled up to `offset`.  A weight
that is larger than a bucket goes on its own, one that does not fit starts a
bucket. -/
def Packs (cfg : BucketedConfig) : Nat → List Weight → Prop
  | _, [] => True
  | offset, w :: ws =>
      if cfg.bucketSize < w.nbytes then cfg.useShm = false ∧ Packs cfg 0 ws
      else if cfg.bucketSize < offset + w.nbytes then Packs cfg w.nbytes ws
      else w.dtype.itemsize ∣ offset ∧ Packs cfg (offset + w.nbytes) ws

variable {cfg : BucketedConfig} {w : Weight} {ws : List Weight} {offset : Nat}

/-- A flush does not change what can be sent. -/
theorem packs_of_full (h : cfg.bucketSize < offset + w.nbytes) :
    Packs cfg offset (w :: ws) ↔ Packs cfg 0 (w :: ws) := by
  rw [Packs, Packs]
  split
  · rfl
  next hfits =>
    rw [Nat.zero_add, if_neg hfits]
    exact (and_iff_right (Nat.dvd_zero _)).symm

theorem packs_of_large (h : cfg.bucketSize < w.nbytes) :
    Packs cfg offset (w :: ws) ↔ cfg.useShm = false ∧ Packs cfg 0 ws := by
  rw [Packs, if_pos h]

theorem packs_of_fits (h : offset + w.nbytes ≤ cfg.bucketSize) :
    Packs cfg offset (w :: ws) ↔ w.dtype.itemsize ∣ offset ∧ Packs cfg (offset + w.nbytes) ws := by
  rw [Packs, if_neg (by omega), if_neg (by omega)]

/-- The buffer can be created and the weights can be sent. -/
def CanSend (cfg : BucketedConfig) (weights : List Weight) : Prop :=
  (cfg.useShm = true → cfg.bucketSize ≠ 0) ∧ Packs cfg 0 weights

namespace BucketedState

/-! ## The invariant -/

/-- The bucket that the sender fills holds `packed`, once the copies are done. -/
structure Filled (cfg : BucketedConfig) (s : BucketedState) (packed : List Weight) : Prop where
  entries : s.sender.bucketMeta.entries = layout 0 packed
  offset : s.sender.offset = totalBytes packed
  fits : s.sender.offset ≤ cfg.bucketSize
  data : slice (applyCopies s.buffer s.sender.copies) 0 s.sender.offset = contents packed
  aligned : AlignedAt 0 packed

/-- The message can be read, and holds `flight`. -/
def MessageOk (cfg : BucketedConfig) (buffer : List (Option UInt8)) (after : AfterAck)
    (flight : List Weight) : BucketMessage → Prop
  | .buffer => after = .packing ∧ flight = []
  | .bucket bucketMeta isLast =>
      (isLast = true ↔ after = .done) ∧
        ∃ loads, bucketMeta.entries.mapM (loadItem cfg buffer) = .ok loads ∧
          loads.map (read buffer) = flight.map Weight.tensor

/-- The receiver that waits for this message. -/
def waitingFor : BucketMessage → BucketReceiverPc
  | .buffer => .start
  | .bucket _ _ => .receiving

/-- The stages of a message that the sender waits for. -/
inductive InFlight (cfg : BucketedConfig) (s : BucketedState) (after : AfterAck)
    (flight : List Weight) : Prop where
  | queued (message : BucketMessage) (hrequests : s.requests = [message])
      (hreplies : s.replies = 0) (hpc : s.receiver.pc = waitingFor message)
      (hmessage : MessageOk cfg s.buffer after flight message)
  | loading (loads : List Loaded) (isLast : Bool) (hrequests : s.requests = [])
      (hreplies : s.replies = 0) (hpc : s.receiver.pc = .loading loads isLast)
      (hlast : isLast = true ↔ after = .done)
      (hread : loads.map (read s.buffer) = flight.map Weight.tensor)
  | loaded (isLast : Bool) (hrequests : s.requests = []) (hreplies : s.replies = 0)
      (hpc : s.receiver.pc = .loaded isLast) (hlast : isLast = true ↔ after = .done)
      (hflight : flight = [])
  | replied (hrequests : s.requests = []) (hreplies : s.replies = 1)
      (hpc : s.receiver.pc = if after = .done then .done else .receiving) (hflight : flight = [])

/-- No message is under way. -/
structure Idle (s : BucketedState) (flight : List Weight) : Prop where
  requests : s.requests = []
  replies : s.replies = 0
  flight : flight = []

/-- What holds at each program counter of the sender. -/
def PcOk (cfg : BucketedConfig) (weights : List Weight) (s : BucketedState)
    (flight packed : List Weight) : Prop :=
  match s.sender.pc with
  | .start =>
      Idle s flight ∧ packed = [] ∧ s.receiver.pc = .start ∧ s.sender.weights = weights ∧
        s.sender.bucketMeta.entries = [] ∧ s.sender.offset = 0
  | .packing =>
      Idle s flight ∧ Filled cfg s packed ∧ s.receiver.pc = .receiving ∧
        (CanSend cfg weights ↔ Packs cfg s.sender.offset s.sender.weights)
  | .placing =>
      Idle s flight ∧ Filled cfg s packed ∧ s.receiver.pc = .receiving ∧
        (CanSend cfg weights ↔ Packs cfg s.sender.offset s.sender.weights) ∧
        ∃ w ws, s.sender.weights = w :: ws ∧
          (cfg.bucketSize < s.sender.offset + w.nbytes → s.sender.bucketMeta.entries = [])
  | .awaiting after =>
      s.sender.copies = [] ∧ InFlight cfg s after flight ∧
        match after with
        | .packing =>
            Filled cfg s packed ∧ packed = [] ∧
              (CanSend cfg weights ↔ Packs cfg s.sender.offset s.sender.weights)
        | .placing =>
            packed = [] ∧ (CanSend cfg weights ↔ Packs cfg 0 s.sender.weights) ∧
              s.sender.weights ≠ []
        | .done => packed = [] ∧ s.sender.weights = [] ∧ CanSend cfg weights
  | .done =>
      Idle s flight ∧ packed = [] ∧ s.receiver.pc = .done ∧ s.sender.weights = [] ∧
        CanSend cfg weights
  | .raised _ =>
      Idle s flight ∧ (s.receiver.pc = .start ∨ s.receiver.pc = .receiving) ∧
        ¬ CanSend cfg weights

/-- The weights are the delivered ones, the ones of the message under way, the
ones of the bucket, and the rest. -/
structure Ok (cfg : BucketedConfig) (weights : List Weight) (s : BucketedState)
    (delivered flight packed : List Weight) : Prop where
  split : weights = delivered ++ (flight ++ (packed ++ s.sender.weights))
  received : s.receiver.received.flatten = delivered.map Weight.tensor
  length : s.buffer.length = cfg.bucketSize
  copies : CopiesFit cfg.bucketSize s.sender.copies
  pc : PcOk cfg weights s flight packed

/-! ## Steps of the sender -/

variable {weights delivered flight packed : List Weight} {s t : BucketedState}

theorem Filled.nil (hentries : s.sender.bucketMeta.entries = []) (hoffset : s.sender.offset = 0) :
    Filled cfg s [] where
  entries := hentries
  offset := hoffset
  fits := hoffset ▸ Nat.zero_le _
  data := by rw [hoffset, slice, List.take_zero]; rfl
  aligned := trivial

theorem Filled.eq_nil (h : Filled cfg s packed) (hentries : s.sender.bucketMeta.entries = []) :
    packed = [] := by
  rw [h.entries] at hentries
  cases packed with
  | nil => rfl
  | cons w ws => cases hentries

/-- The bucket can be read as soon as the copies are done. -/
theorem Filled.messageOk (h : Filled cfg s packed)
    (hlength : (applyCopies s.buffer s.sender.copies).length = cfg.bucketSize) {isLast : Bool}
    {after : AfterAck} (hlast : isLast = true ↔ after = .done) :
    MessageOk cfg (applyCopies s.buffer s.sender.copies) after packed
      (.bucket s.sender.bucketMeta isLast) := by
  refine ⟨hlast, ?_⟩
  rw [h.entries]
  have hfits := h.fits
  have hdata := h.data
  rw [h.offset] at hfits hdata
  exact mapM_loadItem_layout h.aligned (by rw [hlength, Nat.zero_add]; exact hfits) hdata

theorem Ok.length_applied (h : Ok cfg weights s delivered flight packed) :
    (applyCopies s.buffer s.sender.copies).length = cfg.bucketSize := by
  rw [length_applyCopies (h.length ▸ h.copies), h.length]

/-- The message that was just sent. -/
theorem InFlight.send {message : BucketMessage} {after : AfterAck} (hidle : s.requests = [])
    (hreplies : s.replies = 0) (hpc : s.receiver.pc = waitingFor message)
    (hmessage : MessageOk cfg (applyCopies s.buffer s.sender.copies) after flight message) :
    InFlight cfg (s.send message after) after flight := by
  refine .queued message ?_ hreplies hpc hmessage
  show s.requests ++ [message] = [message]
  rw [hidle, List.nil_append]

/-- The sender sends a message that holds `flight`. -/
theorem Ok.send (h : Ok cfg weights s delivered [] packed) {message : BucketMessage}
    {after : AfterAck} {flight packed' : List Weight} (rest : List Weight)
    (hsplit : packed ++ s.sender.weights = flight ++ (packed' ++ rest))
    (hpc : PcOk cfg weights ({ s with sender := { s.sender with weights := rest } }.send
      message after) flight packed') :
    Ok cfg weights ({ s with sender := { s.sender with weights := rest } }.send message after)
      delivered flight packed' where
  split := h.split.trans (by rw [List.nil_append, hsplit]; rfl)
  received := h.received
  length := h.length_applied
  copies := nofun
  pc := hpc

theorem Ok.raise (h : Ok cfg weights s delivered flight packed) (hidle : Idle s flight)
    (hreceiver : s.receiver.pc = .start ∨ s.receiver.pc = .receiving)
    (hcannot : ¬ CanSend cfg weights) (error : Py.Error) :
    Ok cfg weights (s.raise error) delivered flight packed where
  split := h.split
  received := h.received
  length := h.length
  copies := h.copies
  pc := ⟨⟨hidle.requests, hidle.replies, hidle.flight⟩, hreceiver, hcannot⟩

theorem Ok.next_createBuffer (h : Ok cfg weights s delivered flight packed)
    (hstep : next cfg s .createBuffer = some t) :
    ∃ delivered flight packed, Ok cfg weights t delivered flight packed := by
  rw [next] at hstep
  split at hstep
  next hpc =>
    obtain rfl := Option.some.inj hstep
    have hok := h.pc
    rw [PcOk, hpc] at hok
    obtain ⟨hidle, rfl, hreceiver, hweights, hentries, hoffset⟩ := hok
    obtain rfl := hidle.flight
    rw [createBuffer]
    split
    next hempty =>
      exact ⟨_, _, _, h.raise hidle (.inl hreceiver) (fun hcan => hcan.1 hempty.1 hempty.2) _⟩
    next hcreate =>
      refine ⟨delivered, [], [], h.send s.sender.weights rfl ⟨rfl, ?_, ?_, rfl, ?_⟩⟩
      · exact InFlight.send hidle.requests hidle.replies hreceiver ⟨rfl, rfl⟩
      · exact Filled.nil hentries hoffset
      · show CanSend cfg weights ↔ Packs cfg s.sender.offset s.sender.weights
        rw [hoffset, hweights]
        exact and_iff_right fun hshm hzero => hcreate ⟨hshm, hzero⟩
  · cases hstep

theorem Ok.next_check (h : Ok cfg weights s delivered flight packed)
    (hstep : next cfg s .check = some t) :
    ∃ delivered flight packed, Ok cfg weights t delivered flight packed := by
  rw [next] at hstep
  split at hstep
  next w ws hpc hweights =>
    obtain rfl := Option.some.inj hstep
    have hok := h.pc
    rw [PcOk, hpc] at hok
    obtain ⟨hidle, hfilled, hreceiver, hcan⟩ := hok
    obtain rfl := hidle.flight
    rw [check]
    split
    next hfull =>
      -- the bucket is flushed
      refine ⟨delivered, packed, [], h.send s.sender.weights rfl ⟨rfl, ?_, rfl, ?_, ?_⟩⟩
      · exact InFlight.send hidle.requests hidle.replies hreceiver
          (hfilled.messageOk h.length_applied (by decide))
      · show CanSend cfg weights ↔ Packs cfg 0 s.sender.weights
        rw [hcan, hweights]
        exact packs_of_full hfull.1
      · show s.sender.weights ≠ []
        rw [hweights]
        exact List.cons_ne_nil w ws
    next hnot =>
      refine ⟨delivered, [], packed, h.split, h.received, h.length, h.copies, ?_⟩
      refine ⟨⟨hidle.requests, hidle.replies, rfl⟩, ?_, hreceiver, hcan, w, ws, hweights, ?_⟩
      · exact ⟨hfilled.entries, hfilled.offset, hfilled.fits, hfilled.data, hfilled.aligned⟩
      · intro hfull
        by_contra hne
        exact hnot ⟨hfull, hne⟩
  · cases hstep

/-- A weight is put into the bucket. -/
theorem Filled.pack (h : Filled cfg s packed)
    (hlength : (applyCopies s.buffer s.sender.copies).length = cfg.bucketSize)
    (hname : w.name ∉ packed.map Weight.name)
    (hfits : s.sender.offset + w.nbytes ≤ cfg.bucketSize)
    (hdvd : w.dtype.itemsize ∣ s.sender.offset) (ws : List Weight) :
    Filled cfg (s.pack w ws) (packed ++ [w]) where
  entries := by
    have hkey : w.name ∉ s.sender.bucketMeta.keys := by
      rw [Dict.keys, h.entries, map_fst_layout]
      exact hname
    rw [layout_concat, ← h.entries, Nat.zero_add, ← h.offset]
    exact Dict.entries_set_of_not_mem hkey _
  offset := by
    rw [totalBytes_concat, ← h.offset]
    rfl
  fits := hfits
  data := by
    show slice (applyCopies s.buffer (s.sender.copies ++ [(s.sender.offset, w.data)])) 0
      (s.sender.offset + w.nbytes) = _
    have hw : s.sender.offset + (w.data.map some).length ≤
        (applyCopies s.buffer s.sender.copies).length := by
      rw [hlength, List.length_map]
      exact hfits
    have hnew := slice_write_self hw
    rw [List.length_map] at hnew
    rw [applyCopies_append, applyCopies_singleton, ← slice_append_slice, contents_concat,
      slice_write_of_le (by omega) (Nat.le_of_add_right_le hw), h.data, Nat.zero_add]
    exact congrArg _ hnew
  aligned := by
    rw [alignedAt_concat, Nat.zero_add, ← h.offset]
    exact ⟨h.aligned, hdvd⟩

theorem Ok.next_place (h : Ok cfg weights s delivered flight packed)
    (hnames : (weights.map Weight.name).Nodup) (hstep : next cfg s .place = some t) :
    ∃ delivered flight packed, Ok cfg weights t delivered flight packed := by
  rw [next] at hstep
  split at hstep
  next w ws hpc hweights =>
    obtain rfl := Option.some.inj hstep
    have hok := h.pc
    rw [PcOk, hpc] at hok
    obtain ⟨hidle, hfilled, hreceiver, hcan, w', ws', hweights', hempty⟩ := hok
    obtain ⟨rfl, rfl⟩ := List.cons.inj (hweights.symm.trans hweights')
    obtain rfl := hidle.flight
    rw [hweights] at hcan
    rw [place]
    split
    next hfull =>
      have hentries := hempty hfull
      obtain rfl := hfilled.eq_nil hentries
      have hoffset : s.sender.offset = 0 := hfilled.offset
      rw [hoffset, Nat.zero_add] at hfull
      rw [packs_of_large hfull] at hcan
      split
      next hshm =>
        refine ⟨_, _, _, h.raise hidle (.inr hreceiver) (fun h' => ?_) _⟩
        rw [hcan, hshm] at h'
        exact absurd h'.1 (by decide)
      next hshm =>
        -- the weight is sent by a handle of its own
        rw [directSend]
        refine ⟨delivered, [w], [], h.send ws ?_ ⟨rfl, ?_, ?_, rfl, ?_⟩⟩
        · rw [hweights]
          rfl
        · refine InFlight.send hidle.requests hidle.replies hreceiver ⟨by decide, ?_⟩
          refine ⟨[.owned { w.tensor with name := w.name }], ?_, rfl⟩
          rw [Dict.entries_set_of_not_mem List.not_mem_nil]
          rfl
        · exact Filled.nil hentries hoffset
        · show CanSend cfg weights ↔ Packs cfg s.sender.offset ws
          rw [hcan, hoffset]
          exact and_iff_right (Bool.not_eq_true _ ▸ hshm)
    next hfits =>
      rw [Nat.not_lt] at hfits
      rw [packs_of_fits hfits] at hcan
      split
      next hview =>
        have hdvd := dvd_of_viewAs hview
        have hname : w.name ∉ packed.map Weight.name := by
          rw [h.split, hweights, List.nil_append, List.map_append, List.map_append,
            List.map_cons] at hnames
          intro hmem
          exact List.disjoint_of_nodup_append (List.Nodup.of_append_right hnames) hmem
            List.mem_cons_self
        have hfilled' := hfilled.pack h.length_applied hname hfits hdvd ws
        refine ⟨delivered, [], packed ++ [w], ?_, h.received, h.length, ?_,
          ⟨hidle.requests, hidle.replies, rfl⟩, hfilled', hreceiver, ?_⟩
        · rw [h.split, hweights, List.append_assoc]
          rfl
        · intro c hc
          rcases List.mem_append.mp hc with hc | hc
          · exact h.copies c hc
          · rw [List.mem_singleton.mp hc]
            exact hfits
        · rw [hcan]
          exact and_iff_right hdvd
      next error hview =>
        refine ⟨_, _, _, h.raise hidle (.inr hreceiver) (fun h' => ?_) _⟩
        have hok := viewAs_of_dvd (hcan.mp h').1
          ((@length_slice _ s.buffer _ _ (by rw [h.length]; exact hfits)).trans w.nbytes_eq_mul)
        rw [hok] at hview
        cases hview
  · cases hstep

theorem Ok.next_finish (h : Ok cfg weights s delivered flight packed)
    (hstep : next cfg s .finish = some t) :
    ∃ delivered flight packed, Ok cfg weights t delivered flight packed := by
  rw [next] at hstep
  split at hstep
  next hpc =>
    obtain rfl := Option.some.inj hstep
    have hok := h.pc
    rw [PcOk, hpc.1] at hok
    obtain ⟨hidle, hfilled, hreceiver, hcan⟩ := hok
    obtain rfl := hidle.flight
    rw [hpc.2] at hcan
    refine ⟨delivered, packed, [], h.send s.sender.weights rfl
      ⟨rfl, ?_, rfl, hpc.2, hcan.mpr trivial⟩⟩
    exact InFlight.send hidle.requests hidle.replies hreceiver
      (hfilled.messageOk h.length_applied (by decide))
  · cases hstep

/-- The reply to a flush empties the bucket. -/
theorem Ok.next_ack (h : Ok cfg weights s delivered flight packed)
    (hstep : next cfg s .ack = some t) :
    ∃ delivered flight packed, Ok cfg weights t delivered flight packed := by
  rw [next] at hstep
  split at hstep
  next after replies hpc hreplies =>
    obtain rfl := Option.some.inj hstep
    have hok := h.pc
    rw [PcOk, hpc] at hok
    obtain ⟨hcopies, hflight, hafter⟩ := hok
    cases hflight with
    | queued _ _ hzero | loading _ _ _ hzero | loaded _ _ hzero =>
        rw [hreplies] at hzero
        cases hzero
    | replied hrequests hone hreceiver hflight =>
        subst hflight
        have hidle : replies = 0 := by omega
        cases after with
        | packing =>
            obtain ⟨hfilled, rfl, hcan⟩ := hafter
            exact ⟨delivered, [], [], h.split, h.received, h.length, h.copies,
              ⟨hrequests, hidle, rfl⟩,
              ⟨hfilled.entries, hfilled.offset, hfilled.fits, hfilled.data, hfilled.aligned⟩,
              hreceiver, hcan⟩
        | placing =>
            obtain ⟨rfl, hcan, hne⟩ := hafter
            obtain ⟨w, ws, hweights⟩ := List.exists_cons_of_ne_nil hne
            exact ⟨delivered, [], [], h.split, h.received, h.length, h.copies,
              ⟨hrequests, hidle, rfl⟩, Filled.nil rfl rfl, hreceiver, hcan, w, ws, hweights,
              fun _ => rfl⟩
        | done =>
            obtain ⟨rfl, hweights, hcan⟩ := hafter
            exact ⟨delivered, [], [], h.split, h.received, h.length, h.copies,
              ⟨hrequests, hidle, rfl⟩, rfl, hreceiver, hweights, hcan⟩
  · cases hstep

/-- The device does a copy. -/
theorem Ok.next_copy (h : Ok cfg weights s delivered flight packed)
    (hstep : next cfg s .copy = some t) :
    ∃ delivered flight packed, Ok cfg weights t delivered flight packed := by
  rw [next] at hstep
  split at hstep
  next c copies hcopies =>
    obtain rfl := Option.some.inj hstep
    have hfit := h.copies
    rw [hcopies] at hfit
    have hlength : (applyCopies s.buffer [c]).length = cfg.bucketSize := by
      rw [length_applyCopies, h.length]
      rw [h.length]
      intro c' hc'
      rw [List.mem_singleton.mp hc']
      exact hfit c List.mem_cons_self
    have hfilled (hs : Filled cfg s packed) : Filled cfg
        { s with sender := { s.sender with copies := copies }, buffer := applyCopies s.buffer [c] }
        packed := by
      refine ⟨hs.entries, hs.offset, hs.fits, ?_, hs.aligned⟩
      rw [← applyCopies_append, List.singleton_append, ← hcopies]
      exact hs.data
    refine ⟨delivered, flight, packed, h.split, h.received, hlength,
      fun c' hc' => hfit c' (List.mem_cons_of_mem c hc'), ?_⟩
    have hok := h.pc
    rw [PcOk] at hok ⊢
    cases hpc : s.sender.pc with
    | start | done | raised error =>
        rw [hpc] at hok
        exact ⟨⟨hok.1.requests, hok.1.replies, hok.1.flight⟩, hok.2⟩
    | packing | placing =>
        rw [hpc] at hok
        exact ⟨⟨hok.1.requests, hok.1.replies, hok.1.flight⟩, hfilled hok.2.1, hok.2.2⟩
    | awaiting after =>
        rw [hpc] at hok
        rw [hok.1] at hcopies
        cases hcopies
  · cases hstep

/-! ## Steps of the receiver -/

/-- While the receiver works on a message the sender waits. -/
theorem Ok.exists_inFlight (h : Ok cfg weights s delivered flight packed)
    (hbusy : s.requests ≠ [] ∨
      s.receiver.pc ≠ .start ∧ s.receiver.pc ≠ .receiving ∧ s.receiver.pc ≠ .done) :
    ∃ after, s.sender.pc = .awaiting after ∧ InFlight cfg s after flight := by
  have hok := h.pc
  rw [PcOk] at hok
  have hwaiting (hidle : Idle s flight) (hpc : s.receiver.pc = .start ∨ s.receiver.pc = .receiving ∨
      s.receiver.pc = .done) : False := by
    rcases hbusy with hrequests | ⟨hstart, hreceiving, hdone⟩
    · exact hrequests hidle.requests
    · rcases hpc with hpc | hpc | hpc
      · exact hstart hpc
      · exact hreceiving hpc
      · exact hdone hpc
  cases hpc : s.sender.pc with
  | start =>
      rw [hpc] at hok
      exact (hwaiting hok.1 (.inl hok.2.2.1)).elim
  | packing =>
      rw [hpc] at hok
      exact (hwaiting hok.1 (.inr (.inl hok.2.2.1))).elim
  | placing =>
      rw [hpc] at hok
      exact (hwaiting hok.1 (.inr (.inl hok.2.2.1))).elim
  | awaiting after =>
      rw [hpc] at hok
      exact ⟨after, rfl, hok.2.1⟩
  | done =>
      rw [hpc] at hok
      exact (hwaiting hok.1 (.inr (.inr hok.2.2.1))).elim
  | raised error =>
      rw [hpc] at hok
      exact (hwaiting hok.1 (hok.2.1.imp id .inl)).elim

/-- The receiver moves a message on.  The sender and the buffer stay. -/
theorem Ok.moveOn (h : Ok cfg weights s delivered flight packed) {after : AfterAck}
    (hpc : s.sender.pc = .awaiting after) (hsender : t.sender = s.sender)
    (hbuffer : t.buffer = s.buffer) {delivered' flight' : List Weight}
    (hsplit : delivered ++ flight = delivered' ++ flight')
    (hreceived : t.receiver.received.flatten = delivered'.map Weight.tensor)
    (hflight : InFlight cfg t after flight') :
    Ok cfg weights t delivered' flight' packed where
  split := by
    rw [h.split, ← List.append_assoc, hsplit, List.append_assoc, hsender]
  received := hreceived
  length := by rw [hbuffer, h.length]
  copies := by
    rw [hsender]
    exact h.copies
  pc := by
    have hok := h.pc
    rw [PcOk, hpc] at hok
    rw [PcOk, hsender, hpc]
    refine ⟨hok.1, hflight, ?_⟩
    cases after with
    | packing =>
        obtain ⟨hfilled, hrest⟩ := hok.2.2
        refine ⟨⟨?_, ?_, ?_, ?_, hfilled.aligned⟩, hrest⟩
        · exact hsender ▸ hfilled.entries
        · exact hsender ▸ hfilled.offset
        · exact hsender ▸ hfilled.fits
        · exact hsender ▸ hbuffer ▸ hfilled.data
    | placing => exact hok.2.2
    | done => exact hok.2.2

theorem Ok.next_attach (h : Ok cfg weights s delivered flight packed)
    (hstep : next cfg s .attach = some t) :
    ∃ delivered flight packed, Ok cfg weights t delivered flight packed := by
  rw [next] at hstep
  split at hstep
  next requests hpc hrequests =>
    obtain rfl := Option.some.inj hstep
    obtain ⟨after, hafter, hflight⟩ := h.exists_inFlight (.inl (hrequests ▸ List.cons_ne_nil _ _))
    cases hflight with
    | queued message hqueue hreplies _ hmessage =>
        rw [hrequests] at hqueue
        obtain ⟨rfl, rfl⟩ := List.cons.inj hqueue
        obtain ⟨rfl, rfl⟩ := hmessage
        refine ⟨delivered, [], packed, h.moveOn hafter ?_ ?_ rfl ?_ ?_⟩
        · rfl
        · rfl
        · exact h.received
        · exact .replied rfl (congrArg (· + 1) hreplies) rfl rfl
    | loading _ _ hnil | loaded _ hnil | replied hnil =>
        rw [hrequests] at hnil
        cases hnil
  · cases hstep

theorem Ok.next_receive (h : Ok cfg weights s delivered flight packed)
    (hstep : next cfg s .receive = some t) :
    ∃ delivered flight packed, Ok cfg weights t delivered flight packed := by
  rw [next] at hstep
  split at hstep
  next bucketMeta isLast requests hpc hrequests =>
    obtain ⟨after, hafter, hflight⟩ := h.exists_inFlight (.inl (hrequests ▸ List.cons_ne_nil _ _))
    cases hflight with
    | queued message hqueue hreplies _ hmessage =>
        rw [hrequests] at hqueue
        obtain ⟨rfl, rfl⟩ := List.cons.inj hqueue
        obtain ⟨hlast, loads, hloads, hread⟩ := hmessage
        rw [hloads] at hstep
        obtain rfl := Option.some.inj hstep
        refine ⟨delivered, flight, packed, h.moveOn hafter ?_ ?_ rfl ?_ ?_⟩
        · rfl
        · rfl
        · exact h.received
        · exact .loading loads isLast rfl hreplies rfl hlast hread
    | loading _ _ hnil | loaded _ hnil | replied hnil =>
        rw [hrequests] at hnil
        cases hnil
  · cases hstep

/-- The callback reads the buffer as it was sent. -/
theorem Ok.next_load (h : Ok cfg weights s delivered flight packed)
    (hstep : next cfg s .load = some t) :
    ∃ delivered flight packed, Ok cfg weights t delivered flight packed := by
  rw [next] at hstep
  split at hstep
  next loads isLast hpc =>
    obtain rfl := Option.some.inj hstep
    obtain ⟨after, hafter, hflight⟩ :=
      h.exists_inFlight (.inr (by rw [hpc]; exact ⟨nofun, nofun, nofun⟩))
    cases hflight with
    | loading loads' isLast' hrequests hreplies hpc' hlast hread =>
        rw [hpc, BucketReceiverPc.loading.injEq] at hpc'
        obtain ⟨rfl, rfl⟩ := hpc'
        have hreceived : (s.receiver.received ++ [loads.map (read s.buffer)]).flatten =
            (delivered ++ flight).map Weight.tensor := by
          rw [List.flatten_append, h.received, List.flatten_singleton, hread, List.map_append]
        refine ⟨delivered ++ flight, [], packed, h.moveOn hafter ?_ ?_ ?_ hreceived ?_⟩
        · rfl
        · rfl
        · rw [List.append_nil]
        · exact .loaded isLast hrequests hreplies rfl hlast rfl
    | queued message _ _ hpc' =>
        rw [hpc] at hpc'
        cases message <;> cases hpc'
    | loaded _ _ _ hpc' =>
        rw [hpc] at hpc'
        cases hpc'
    | replied _ _ hpc' =>
        rw [hpc] at hpc'
        split at hpc' <;> cases hpc'
  · cases hstep

theorem Ok.next_reply (h : Ok cfg weights s delivered flight packed)
    (hstep : next cfg s .reply = some t) :
    ∃ delivered flight packed, Ok cfg weights t delivered flight packed := by
  rw [next] at hstep
  split at hstep
  next isLast hpc =>
    obtain rfl := Option.some.inj hstep
    obtain ⟨after, hafter, hflight⟩ :=
      h.exists_inFlight (.inr (by rw [hpc]; exact ⟨nofun, nofun, nofun⟩))
    cases hflight with
    | loaded isLast' hrequests hreplies hpc' hlast hflight =>
        rw [hpc, BucketReceiverPc.loaded.injEq] at hpc'
        obtain rfl := hpc'
        subst hflight
        refine ⟨delivered, [], packed, h.moveOn hafter ?_ ?_ rfl ?_ ?_⟩
        · rfl
        · rfl
        · exact h.received
        · refine .replied hrequests (congrArg (· + 1) hreplies) ?_ rfl
          simp only [receiverTo, hlast]
    | queued message _ _ hpc' =>
        rw [hpc] at hpc'
        cases message <;> cases hpc'
    | loading _ _ _ _ hpc' =>
        rw [hpc] at hpc'
        cases hpc'
    | replied _ _ hpc' =>
        rw [hpc] at hpc'
        split at hpc' <;> cases hpc'
  · cases hstep

theorem Ok.next (h : Ok cfg weights s delivered flight packed)
    (hnames : (weights.map Weight.name).Nodup) {a : BucketedAct}
    (hstep : BucketedState.next cfg s a = some t) :
    ∃ delivered flight packed, Ok cfg weights t delivered flight packed := by
  cases a with
  | createBuffer => exact h.next_createBuffer hstep
  | check => exact h.next_check hstep
  | place => exact h.next_place hnames hstep
  | finish => exact h.next_finish hstep
  | ack => exact h.next_ack hstep
  | copy => exact h.next_copy hstep
  | attach => exact h.next_attach hstep
  | receive => exact h.next_receive hstep
  | load => exact h.next_load hstep
  | reply => exact h.next_reply hstep

theorem init_ok (cfg : BucketedConfig) (weights : List Weight) :
    Ok cfg weights (init cfg weights) [] [] [] where
  split := rfl
  received := rfl
  length := List.length_replicate
  copies := nofun
  pc := ⟨⟨rfl, rfl, rfl⟩, rfl, rfl, rfl, rfl, rfl⟩

theorem ok_of_exec (hnames : (weights.map Weight.name).Nodup) {acts : List BucketedAct}
    (hrun : Run.exec (BucketedState.next cfg) (init cfg weights) acts = some s) :
    ∃ delivered flight packed, Ok cfg weights s delivered flight packed := by
  refine Run.exec_invariant (P := fun s => ∃ d f p, Ok cfg weights s d f p) ?_
    ⟨_, _, _, init_ok cfg weights⟩ hrun
  intro s a t ⟨_, _, _, hs⟩ hstep
  exact hs.next hnames hstep

/-! ## The run ends -/

/-- What the sender has left to do. -/
def senderWork (s : BucketSender) : Nat :=
  (match s.pc with
    | .start => 10 * s.weights.length + 10
    | .packing | .awaiting .packing => 10 * s.weights.length + 5
    | .placing | .awaiting .placing => 10 * s.weights.length
    | .awaiting .done | .done | .raised _ => 0) + s.copies.length

def receiverWork (pc : BucketReceiverPc) : Nat :=
  match pc with
  | .loading _ _ => 3
  | .loaded _ => 2
  | .start | .receiving | .done | .raised _ => 0

def work (s : BucketedState) : Nat :=
  senderWork s.sender + 4 * s.requests.length + s.replies + receiverWork s.receiver.pc

theorem work_send (s : BucketedState) (message : BucketMessage) (after : AfterAck) :
    (s.send message after).work =
      senderWork { s.sender with pc := .awaiting after, copies := [] } +
        4 * (s.requests.length + 1) + s.replies + receiverWork s.receiver.pc := by
  rw [work, send, List.length_append, List.length_singleton]

theorem work_place_lt {w : Weight} {ws : List Weight} (hpc : s.sender.pc = .placing)
    (hweights : s.sender.weights = w :: ws) : (s.place cfg w ws).work < s.work := by
  rw [place]
  split
  · split
    · rw [raise, work, work, senderWork, senderWork, hpc, hweights, List.length_cons]
      dsimp only
      omega
    · rw [directSend, work_send, work, senderWork, senderWork, hpc, hweights, List.length_cons,
        List.length_nil]
      dsimp only
      omega
  · split
    · rw [pack, work, work, senderWork, senderWork, hpc, hweights, List.length_cons,
        List.length_append, List.length_singleton]
      dsimp only
      omega
    · rw [raise, work, work, senderWork, senderWork, hpc, hweights, List.length_cons]
      dsimp only
      omega

theorem next_work_lt (s : BucketedState) (a : BucketedAct) (t : BucketedState)
    (hstep : BucketedState.next cfg s a = some t) : t.work < s.work := by
  cases a with
  | createBuffer =>
      rw [BucketedState.next] at hstep
      split at hstep
      next hpc =>
        obtain rfl := Option.some.inj hstep
        rw [createBuffer]
        split
        · rw [raise, work, work, senderWork, senderWork, hpc]
          dsimp only
          omega
        · rw [work_send, work, senderWork, senderWork, hpc, List.length_nil]
          dsimp only
          omega
      · cases hstep
  | check =>
      rw [BucketedState.next] at hstep
      split at hstep
      next w ws hpc hweights =>
        obtain rfl := Option.some.inj hstep
        rw [check]
        split
        · rw [work_send, work, senderWork, senderWork, hpc, List.length_nil]
          dsimp only
          omega
        · rw [work, work, senderWork, senderWork, hpc]
          dsimp only
          omega
      · cases hstep
  | place =>
      rw [BucketedState.next] at hstep
      split at hstep
      next w ws hpc hweights =>
        obtain rfl := Option.some.inj hstep
        exact work_place_lt hpc hweights
      · cases hstep
  | finish =>
      rw [BucketedState.next] at hstep
      split at hstep
      next hpc =>
        obtain rfl := Option.some.inj hstep
        rw [work_send, work, senderWork, senderWork, hpc.1, List.length_nil]
        dsimp only
        omega
      · cases hstep
  | ack =>
      rw [BucketedState.next] at hstep
      split at hstep
      next after replies hpc hreplies =>
        obtain rfl := Option.some.inj hstep
        cases after <;>
          · rw [ack, work, work, senderWork, senderWork, hpc, hreplies]
            dsimp only
            omega
      · cases hstep
  | copy =>
      rw [BucketedState.next] at hstep
      split at hstep
      next c copies hcopies =>
        obtain rfl := Option.some.inj hstep
        rw [work, work, senderWork, senderWork, hcopies, List.length_cons]
        dsimp only
        omega
      · cases hstep
  | attach =>
      rw [BucketedState.next] at hstep
      split at hstep
      next requests hpc hrequests =>
        obtain rfl := Option.some.inj hstep
        rw [receiverTo, work, work, hpc, hrequests, List.length_cons]
        dsimp only [receiverWork]
        omega
      · cases hstep
  | receive =>
      rw [BucketedState.next] at hstep
      split at hstep
      next bucketMeta isLast requests hpc hrequests =>
        split at hstep <;>
          · obtain rfl := Option.some.inj hstep
            rw [receiverTo, work, work, hpc, hrequests, List.length_cons]
            dsimp only [receiverWork]
            omega
      · cases hstep
  | load =>
      rw [BucketedState.next] at hstep
      split at hstep
      next loads isLast hpc =>
        obtain rfl := Option.some.inj hstep
        rw [work, work, hpc]
        dsimp only [receiverWork]
        omega
      · cases hstep
  | reply =>
      rw [BucketedState.next] at hstep
      split at hstep
      next isLast hpc =>
        obtain rfl := Option.some.inj hstep
        rw [receiverTo, work, work, hpc]
        cases isLast <;>
          · simp only [if_true, if_false, Bool.false_eq_true, receiverWork]
            omega
      · cases hstep

/-- A state that cannot go on is one in which the sender raised or both parties
are done. -/
theorem Ok.done_of_stuck (h : Ok cfg weights s delivered flight packed)
    (hstuck : ∀ a, BucketedState.next cfg s a = none) :
    (∃ error, s.sender.pc = .raised error) ∨ s.sender.pc = .done := by
  have hok := h.pc
  rw [PcOk] at hok
  cases hpc : s.sender.pc with
  | start =>
      have := hstuck .createBuffer
      rw [BucketedState.next, if_pos hpc] at this
      cases this
  | packing =>
      cases hweights : s.sender.weights with
      | nil =>
          have := hstuck .finish
          rw [BucketedState.next, if_pos ⟨hpc, hweights⟩] at this
          cases this
      | cons w ws =>
          have := hstuck .check
          simp only [BucketedState.next, hpc, hweights] at this
          cases this
  | placing =>
      rw [hpc] at hok
      obtain ⟨_, _, _, _, w, ws, hweights, _⟩ := hok
      have := hstuck .place
      simp only [BucketedState.next, hpc, hweights] at this
      cases this
  | awaiting after =>
      rw [hpc] at hok
      cases hok.2.1 with
      | queued message hrequests _ hreceiver _ =>
          cases message with
          | buffer =>
              have := hstuck .attach
              simp only [BucketedState.next, hreceiver, hrequests, waitingFor] at this
              cases this
          | bucket bucketMeta isLast =>
              have := hstuck .receive
              simp only [BucketedState.next, hreceiver, hrequests, waitingFor] at this
              split at this <;> cases this
      | loading loads isLast _ _ hreceiver =>
          have := hstuck .load
          simp only [BucketedState.next, hreceiver] at this
          cases this
      | loaded isLast _ _ hreceiver =>
          have := hstuck .reply
          simp only [BucketedState.next, hreceiver] at this
          cases this
      | replied _ hreplies =>
          have := hstuck .ack
          simp only [BucketedState.next, hpc, hreplies] at this
          cases this
  | done => exact .inr rfl
  | raised error => exact .inl ⟨error, rfl⟩

/-! ## What is sent through shared memory -/

/-- The weights of a bucket are not larger than the buffer. -/
def SizesFit (cfg : BucketedConfig) (bucketMeta : BucketMeta) : Prop :=
  ∀ item ∈ bucketMeta.entries, item.2.shape.prod * item.2.dtype.itemsize ≤ cfg.bucketSize

/-- Neither the bucket nor a message that was sent has a weight that is larger
than the buffer. -/
structure SmallOnly (cfg : BucketedConfig) (s : BucketedState) : Prop where
  bucket : SizesFit cfg s.sender.bucketMeta
  sent : ∀ bucketMeta isLast, .bucket bucketMeta isLast ∈ s.sent → SizesFit cfg bucketMeta

theorem SmallOnly.send (h : SmallOnly cfg s) (isLast : Bool) (after : AfterAck) :
    SmallOnly cfg (s.send (.bucket s.sender.bucketMeta isLast) after) where
  bucket := h.bucket
  sent bucketMeta isLast' hmem := by
    rcases List.mem_append.mp hmem with hmem | hmem
    · exact h.sent bucketMeta isLast' hmem
    · obtain ⟨rfl, _⟩ := BucketMessage.bucket.inj (List.mem_singleton.mp hmem)
      exact h.bucket

theorem SmallOnly.place (h : SmallOnly cfg s) (hshm : cfg.useShm = true) (w : Weight)
    (ws : List Weight) : SmallOnly cfg (s.place cfg w ws) := by
  rw [BucketedState.place]
  split
  · exact ⟨h.bucket, h.sent⟩
  next hfits =>
    split
    · refine ⟨fun item hitem => ?_, h.sent⟩
      rcases Dict.mem_entries_set hitem with rfl | hitem
      · have := w.nbytes_eq_mul
        show w.shape.prod * w.dtype.itemsize ≤ cfg.bucketSize
        omega
      · exact h.bucket item hitem
    · exact ⟨h.bucket, h.sent⟩

theorem SmallOnly.next (h : SmallOnly cfg s) (hshm : cfg.useShm = true) {a : BucketedAct}
    (hstep : BucketedState.next cfg s a = some t) : SmallOnly cfg t := by
  cases a with
  | createBuffer =>
      rw [BucketedState.next] at hstep
      split at hstep
      · obtain rfl := Option.some.inj hstep
        rw [createBuffer]
        split
        · exact ⟨h.bucket, h.sent⟩
        · refine ⟨h.bucket, fun bucketMeta isLast hmem => ?_⟩
          rcases List.mem_append.mp hmem with hmem | hmem
          · exact h.sent bucketMeta isLast hmem
          · cases List.mem_singleton.mp hmem
      · cases hstep
  | check =>
      rw [BucketedState.next] at hstep
      split at hstep
      · obtain rfl := Option.some.inj hstep
        rw [check]
        split
        · exact h.send false .placing
        · exact ⟨h.bucket, h.sent⟩
      · cases hstep
  | place =>
      rw [BucketedState.next] at hstep
      split at hstep
      next w ws _ _ =>
        obtain rfl := Option.some.inj hstep
        exact h.place hshm w ws
      · cases hstep
  | finish =>
      rw [BucketedState.next] at hstep
      split at hstep
      · obtain rfl := Option.some.inj hstep
        exact h.send true .done
      · cases hstep
  | ack =>
      rw [BucketedState.next] at hstep
      split at hstep
      next after _ _ _ =>
        obtain rfl := Option.some.inj hstep
        cases after with
        | packing | done => exact ⟨h.bucket, h.sent⟩
        | placing => exact ⟨nofun, h.sent⟩
      · cases hstep
  | copy =>
      rw [BucketedState.next] at hstep
      split at hstep
      · obtain rfl := Option.some.inj hstep
        exact ⟨h.bucket, h.sent⟩
      · cases hstep
  | attach | load | reply =>
      rw [BucketedState.next] at hstep
      split at hstep
      · obtain rfl := Option.some.inj hstep
        exact ⟨h.bucket, h.sent⟩
      · cases hstep
  | receive =>
      rw [BucketedState.next] at hstep
      split at hstep
      · split at hstep <;>
          · obtain rfl := Option.some.inj hstep
            exact ⟨h.bucket, h.sent⟩
      · cases hstep

/-! ## The transfer -/

/-- A weight that shared memory cannot hold. -/
def Oversized (cfg : BucketedConfig) (weights : List Weight) : Prop :=
  cfg.useShm = true ∧ ∃ w ∈ weights, cfg.bucketSize < w.nbytes

/-- After the run `acts` nothing was raised, what the callback got is what was
sent, in order, no copy goes beyond the buffer, and the buffer does not change
while a message waits for its reply.  A receiver that stopped has everything.  A
run is bounded, and one that cannot go on is complete. -/
structure Delivers (cfg : BucketedConfig) (weights : List Weight) (acts : List BucketedAct)
    (s : BucketedState) : Prop where
  sender : ∀ error, s.sender.pc ≠ .raised error
  receiver : ∀ error, s.receiver.pc ≠ .raised error
  received : s.receiver.received.flatten <+: weights.map Weight.tensor
  inBounds : CopiesFit cfg.bucketSize s.sender.copies
  untouched : ∀ after, s.sender.pc = .awaiting after →
    ∀ a t, BucketedState.next cfg s a = some t → t.buffer = s.buffer
  stopped : s.receiver.pc = .done →
    s.receiver.received.flatten = weights.map Weight.tensor ∧ s.requests = []
  bounded : acts.length ≤ 10 * weights.length + 10
  complete : (∀ a, BucketedState.next cfg s a = none) →
    s.sender.pc = .done ∧ s.receiver.pc = .done

/-- No message has a weight that is too large.  A run is bounded, and one that
cannot go on has raised in the sender. -/
structure Refuses (cfg : BucketedConfig) (weights : List Weight) (acts : List BucketedAct)
    (s : BucketedState) : Prop where
  sent : ∀ bucketMeta isLast, .bucket bucketMeta isLast ∈ s.sent → SizesFit cfg bucketMeta
  bounded : acts.length ≤ 10 * weights.length + 10
  raised : (∀ a, BucketedState.next cfg s a = none) → ∃ error, s.sender.pc = .raised error

/-- Every run delivers the weights, or refuses them if one is too large. -/
def TransferOk (cfg : BucketedConfig) (weights : List Weight) : Prop :=
  ∀ acts s, Run.exec (BucketedState.next cfg) (init cfg weights) acts = some s →
    (¬ Oversized cfg weights → Delivers cfg weights acts s) ∧
      (Oversized cfg weights → Refuses cfg weights acts s)

theorem not_packs_of_large (hshm : cfg.useShm = true) {w : Weight} {offset : Nat}
    (hw : w ∈ weights) (hlarge : cfg.bucketSize < w.nbytes) : ¬ Packs cfg offset weights := by
  induction weights generalizing offset with
  | nil => cases hw
  | cons v vs ih =>
      intro h
      rw [Packs] at h
      rcases List.mem_cons.mp hw with rfl | hw
      · rw [if_pos hlarge, hshm] at h
        cases h.1
      · split at h
        · rw [hshm] at h
          cases h.1
        · split at h
          · exact ih hw h
          · exact ih hw h.2

theorem length_le (hrun : Run.exec (BucketedState.next cfg) (init cfg weights) acts = some s) :
    acts.length ≤ 10 * weights.length + 10 := by
  have hlength := Run.length_le_of_exec next_work_lt hrun
  have hinit : (init cfg weights).work = 10 * weights.length + 10 := rfl
  omega

/-- While a message waits for its reply nothing is written to the buffer. -/
theorem Ok.buffer_eq (h : Ok cfg weights s delivered flight packed) {after : AfterAck}
    (hpc : s.sender.pc = .awaiting after) {a : BucketedAct}
    (hstep : BucketedState.next cfg s a = some t) : t.buffer = s.buffer := by
  have hok := h.pc
  rw [PcOk, hpc] at hok
  have hcopies := hok.1
  cases a with
  | createBuffer =>
      rw [BucketedState.next, if_neg (by rw [hpc]; nofun)] at hstep
      cases hstep
  | finish =>
      rw [BucketedState.next, if_neg (by rw [hpc]; exact fun hfinish => nomatch hfinish.1)] at hstep
      cases hstep
  | check | place =>
      rw [BucketedState.next, hpc] at hstep
      cases hstep
  | ack =>
      rw [BucketedState.next] at hstep
      split at hstep
      next after' _ _ _ =>
        obtain rfl := Option.some.inj hstep
        cases after' <;> rfl
      · cases hstep
  | copy =>
      rw [BucketedState.next, hcopies] at hstep
      cases hstep
  | attach | load | reply =>
      rw [BucketedState.next] at hstep
      split at hstep
      · obtain rfl := Option.some.inj hstep
        rfl
      · cases hstep
  | receive =>
      rw [BucketedState.next] at hstep
      split at hstep
      · split at hstep <;>
          · obtain rfl := Option.some.inj hstep
            rfl
      · cases hstep

/-- A receiver that is done has everything. -/
theorem Ok.of_receiver_done (h : Ok cfg weights s delivered flight packed)
    (hdone : s.receiver.pc = .done) :
    s.receiver.received.flatten = weights.map Weight.tensor ∧ s.requests = [] := by
  have hall (hflight : flight = []) (hpacked : packed = []) (hweights : s.sender.weights = []) :
      s.receiver.received.flatten = weights.map Weight.tensor := by
    rw [h.received, h.split, hflight, hpacked, hweights, List.append_nil, List.append_nil,
      List.append_nil]
  have hok := h.pc
  rw [PcOk] at hok
  cases hpc : s.sender.pc with
  | start | packing | placing =>
      rw [hpc] at hok
      rw [hok.2.2.1] at hdone
      cases hdone
  | done =>
      rw [hpc] at hok
      exact ⟨hall hok.1.flight hok.2.1 hok.2.2.2.1, hok.1.requests⟩
  | raised error =>
      rw [hpc] at hok
      rcases hok.2.1 with hreceiver | hreceiver <;>
        · rw [hreceiver] at hdone
          cases hdone
  | awaiting after =>
      rw [hpc] at hok
      obtain ⟨_, hflight, hafter⟩ := hok
      cases hflight with
      | queued message _ _ hreceiver =>
          rw [hdone] at hreceiver
          cases message <;> cases hreceiver
      | loading _ _ _ _ hreceiver | loaded _ _ _ hreceiver =>
          rw [hdone] at hreceiver
          cases hreceiver
      | replied hrequests _ hreceiver hflight =>
          rw [hdone] at hreceiver
          cases after with
          | packing | placing => cases hreceiver
          | done => exact ⟨hall hflight hafter.1 hafter.2.1, hrequests⟩

theorem Ok.receiver_not_raised (h : Ok cfg weights s delivered flight packed) (error : Py.Error) :
    s.receiver.pc ≠ .raised error := by
  intro hraised
  obtain ⟨after, _, hflight⟩ :=
    h.exists_inFlight (.inr (by rw [hraised]; exact ⟨nofun, nofun, nofun⟩))
  cases hflight with
  | queued message _ _ hreceiver =>
      rw [hraised] at hreceiver
      cases message <;> cases hreceiver
  | loading _ _ _ _ hreceiver | loaded _ _ _ hreceiver =>
      rw [hraised] at hreceiver
      cases hreceiver
  | replied _ _ hreceiver =>
      rw [hraised] at hreceiver
      split at hreceiver <;> cases hreceiver

/-- The sender raises only when the weights cannot be sent. -/
theorem Ok.sender_not_raised (h : Ok cfg weights s delivered flight packed)
    (hcan : CanSend cfg weights) (error : Py.Error) : s.sender.pc ≠ .raised error := by
  intro hraised
  have hok := h.pc
  rw [PcOk, hraised] at hok
  exact hok.2.2 hcan

theorem Ok.delivers (h : Ok cfg weights s delivered flight packed) (hcan : CanSend cfg weights)
    {acts : List BucketedAct}
    (hrun : Run.exec (BucketedState.next cfg) (init cfg weights) acts = some s) :
    Delivers cfg weights acts s where
  sender := h.sender_not_raised hcan
  receiver := h.receiver_not_raised
  received := by
    rw [h.received, h.split, List.map_append]
    exact List.prefix_append _ _
  inBounds := h.copies
  untouched after hpc a t hstep := h.buffer_eq hpc hstep
  stopped := h.of_receiver_done
  bounded := length_le hrun
  complete hstuck := by
    rcases h.done_of_stuck hstuck with ⟨error, hraised⟩ | hdone
    · exact (h.sender_not_raised hcan error hraised).elim
    · have hok := h.pc
      rw [PcOk, hdone] at hok
      exact ⟨hdone, hok.2.2.1⟩

theorem Ok.refuses (h : Ok cfg weights s delivered flight packed)
    (hover : Oversized cfg weights) {acts : List BucketedAct}
    (hrun : Run.exec (BucketedState.next cfg) (init cfg weights) acts = some s) :
    Refuses cfg weights acts s where
  sent := by
    have hsmall : SmallOnly cfg s :=
      Run.exec_invariant (fun _ _ _ hs hstep => hs.next hover.1 hstep)
        ⟨fun _ hitem => (List.not_mem_nil hitem).elim,
          fun _ _ hmem => (List.not_mem_nil hmem).elim⟩ hrun
    exact hsmall.sent
  bounded := length_le hrun
  raised hstuck := by
    rcases h.done_of_stuck hstuck with hraised | hdone
    · exact hraised
    · have hok := h.pc
      rw [PcOk, hdone] at hok
      obtain ⟨w, hw, hlarge⟩ := hover.2
      exact (not_packs_of_large hover.1 hw hlarge hok.2.2.2.2.2).elim

/-- Exactly the weights that start aligned in their buckets are delivered. -/
theorem transfer_ok_iff (cfg : BucketedConfig) (weights : List Weight)
    (hnames : (weights.map Weight.name).Nodup) :
    TransferOk cfg weights ↔ Oversized cfg weights ∨ CanSend cfg weights := by
  constructor
  · intro h
    by_cases hover : Oversized cfg weights
    · exact .inl hover
    · right
      -- some run cannot go on, and it says whether the weights can be sent
      obtain ⟨acts, s, hrun, hstuck⟩ :=
        Run.exists_stuck (@next_work_lt cfg) (init cfg weights)
      obtain ⟨_, _, _, hs⟩ := ok_of_exec hnames hrun
      have hdone := ((h acts s hrun).1 hover).complete hstuck
      have hok := hs.pc
      rw [PcOk, hdone.1] at hok
      exact hok.2.2.2.2
  · intro h acts s hrun
    obtain ⟨_, _, _, hs⟩ := ok_of_exec hnames hrun
    refine ⟨fun hnot => ?_, fun hover => hs.refuses hover hrun⟩
    rcases h with hover | hcan
    · exact (hnot hover).elim
    · exact hs.delivers hcan hrun

/-- A tensor of one element. -/
def oneElement (name dtype : String) (data : List UInt8) : Weight :=
  ⟨name, [1], ⟨dtype, data.length⟩, data, by simp⟩

/-- One megabyte of memory shared over IPC. -/
def oneMegabyte : BucketedConfig := ⟨1 * 2 ^ 20, false⟩

/-- The larger element comes first, so both are aligned. -/
theorem transfer_ok_iff_two : TransferOk oneMegabyte
    [oneElement "w" "float32" [1, 2, 3, 4], oneElement "v" "bfloat16" [5, 6]] :=
  (transfer_ok_iff oneMegabyte _ (by decide)).mpr (.inr ⟨nofun, by
    rw [packs_of_fits (by decide), packs_of_fits (by decide)]
    exact ⟨by decide, by decide, trivial⟩⟩)

/-- After one element of two bytes, an element of four bytes starts at offset 2
and the sender raises. -/
theorem not_transfer_ok : ¬ TransferOk oneMegabyte
    [oneElement "v" "bfloat16" [5, 6], oneElement "w" "float32" [1, 2, 3, 4]] := by
  intro h
  have hrun : (Run.exec (BucketedState.next oneMegabyte) (init oneMegabyte
        [oneElement "v" "bfloat16" [5, 6], oneElement "w" "float32" [1, 2, 3, 4]])
      [.createBuffer, .attach, .ack, .check, .place, .check, .place]).map (fun s => s.sender.pc) =
        some (.raised
          (.runtime "offset and size must be divisible to view Byte as another dtype")) := by
    rfl
  obtain ⟨s, hs, hpc⟩ := Option.map_eq_some_iff.mp hrun
  exact ((h _ s hs).1 (fun hover => nomatch hover.1)).sender _ hpc

/-- Weights whose sizes are multiples of every element size can be sent, as are
weights of one element size. -/
theorem packs_of_dvd {weights : List Weight}
    (hsizes : ∀ v ∈ weights, ∀ w ∈ weights, w.dtype.itemsize ∣ v.nbytes)
    (hshm : cfg.useShm = true → ∀ w ∈ weights, w.nbytes ≤ cfg.bucketSize) {offset : Nat}
    (hoffset : ∀ w ∈ weights, w.dtype.itemsize ∣ offset) : Packs cfg offset weights := by
  induction weights generalizing offset with
  | nil => trivial
  | cons v vs ih =>
      have hvs (offset : Nat) (h : ∀ w ∈ vs, w.dtype.itemsize ∣ offset) : Packs cfg offset vs :=
        ih (fun u hu w hw => hsizes u (List.mem_cons_of_mem v hu) w (List.mem_cons_of_mem v hw))
          (fun hu w hw => hshm hu w (List.mem_cons_of_mem v hw)) h
      have hv (w : Weight) (hw : w ∈ vs) : w.dtype.itemsize ∣ v.nbytes :=
        hsizes v List.mem_cons_self w (List.mem_cons_of_mem v hw)
      rw [Packs]
      split
      next hlarge =>
        refine ⟨?_, hvs 0 fun w _ => Nat.dvd_zero _⟩
        rw [← Bool.not_eq_true]
        intro hu
        exact absurd (hshm hu v List.mem_cons_self) (Nat.not_le.mpr hlarge)
      · split
        · exact hvs v.nbytes hv
        · exact ⟨hoffset v List.mem_cons_self, hvs _ fun w hw =>
            Nat.dvd_add (hoffset w (List.mem_cons_of_mem v hw)) (hv w hw)⟩

end BucketedState

end Verl
