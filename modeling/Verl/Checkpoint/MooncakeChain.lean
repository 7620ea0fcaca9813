import Verl.Checkpoint.MooncakeBuckets

/-!
# Counting the buckets of the chain

The buckets are known from the start (`packBuckets`), so a state is described by
how far each rank is.  Rank `k` has sent the buckets below `sent`, and has waited
for the magic numbers of those below `cleared`.  Rank `k + 1` has fetched those
below `fetched` and acknowledged those below `idx`.  Then

  `cleared ≤ idx ≤ fetched ≤ sent ≤ cleared + 2`,

the buffers of rank `k` hold the buckets from `cleared` to `sent`, and its slots
are armed for those from `cleared` to `idx` (`MooncakeLinkOk`).

A slot may be armed from the start by an earlier transfer.  The slots of rank `k`
that are so are `stale k`.  They do no harm if no bucket has to wait for them.
-/

namespace Verl

open Slices (slice write)

/-! ## Slots and numbers -/

theorem slotOf_succ (j : Nat) : slotOf (j + 1) = !slotOf j := by
  rw [slotOf, slotOf, ← decide_not]
  exact decide_eq_decide.mpr (by omega)

theorem slotOf_add_two (j : Nat) : slotOf (j + 2) = slotOf j := by
  rw [slotOf_succ, slotOf_succ, Bool.not_not]

theorem slotOf_succ_ne (j : Nat) : slotOf (j + 1) ≠ slotOf j := by
  rw [slotOf_succ]
  exact Bool.not_ne_self _

/-- Of two buckets in a row one has a slot. -/
theorem eq_of_slotOf_eq {i j : Nat} (h : slotOf i = slotOf j) (hle : i ≤ j) (hlt : j < i + 2) :
    i = j := by
  obtain rfl | rfl : j = i ∨ j = i + 1 := by omega
  · rfl
  · exact absurd h.symm (slotOf_succ_ne i)

/-! ## The links -/

/-- Between a rank that has sent the buckets below `sent` and cleared the slots of
those below `cleared`, and the next one, that has fetched those below `fetched` and
acknowledged those below `idx`.  After its last wait a rank is not `live`. -/
structure MooncakeLinkOk (buckets : List MooncakeBucket) (stale : MagicSlots) (live : Prop)
    (sent cleared : Nat) (slots : MagicSlots) (store : List MooncakeInfo) (fetched idx : Nat) :
    Prop where
  store_eq : store = ((buckets.mapIdx MooncakeBucket.info).take sent).drop fetched
  fetched_le : fetched ≤ sent
  idx_le : idx ≤ fetched
  cleared_le : cleared ≤ idx
  flags : live → ∀ i, slots.get i = true ↔
    stale.get i = true ∨ ∃ j, cleared ≤ j ∧ j < idx ∧ slotOf j = i

namespace MooncakeLinkOk

variable {buckets : List MooncakeBucket} {stale slots : MagicSlots} {live : Prop}
  {sent cleared fetched idx : Nat} {store : List MooncakeInfo} {bucket : MooncakeBucket}

/-- A bucket is announced. -/
theorem announce (h : MooncakeLinkOk buckets stale live sent cleared slots store fetched idx)
    (hbucket : buckets[sent]? = some bucket) :
    MooncakeLinkOk buckets stale live (sent + 1) cleared slots (store ++ [bucket.info sent])
      fetched idx where
  store_eq := by
    have hlt : sent < buckets.length := (List.getElem?_eq_some_iff.mp hbucket).1
    have hle : fetched ≤ ((buckets.mapIdx MooncakeBucket.info).take sent).length := by
      rw [List.length_take, List.length_mapIdx]
      exact Nat.le_min.mpr ⟨h.fetched_le, Nat.le_trans h.fetched_le (Nat.le_of_lt hlt)⟩
    rw [List.take_add_one, List.drop_append_of_le_length hle, ← h.store_eq, List.getElem?_mapIdx,
      hbucket]
    rfl
  fetched_le := Nat.le_succ_of_le h.fetched_le
  idx_le := h.idx_le
  cleared_le := h.cleared_le
  flags := h.flags

/-- A slot that is armed and not stale was armed for the bucket that is waited for. -/
theorem cleared_lt (h : MooncakeLinkOk buckets stale live sent cleared slots store fetched idx)
    (hlive : live) (hstale : stale.get (slotOf cleared) = false)
    (harmed : slots.get (slotOf cleared) = true) : cleared < idx := by
  obtain hold | ⟨j, hle, hlt, hslot⟩ := (h.flags hlive _).mp harmed
  · rw [hstale] at hold
    cases hold
  · exact Nat.lt_of_le_of_lt hle hlt

/-- The wait for the bucket `cleared`. -/
theorem complete (h : MooncakeLinkOk buckets stale live sent cleared slots store fetched idx)
    (hlive : live) (hwindow : sent ≤ cleared + 2) (hstale : stale.get (slotOf cleared) = false)
    (harmed : slots.get (slotOf cleared) = true) :
    MooncakeLinkOk buckets stale live sent (cleared + 1) (slots.set (slotOf cleared) false) store
      fetched idx where
  store_eq := h.store_eq
  fetched_le := h.fetched_le
  idx_le := h.idx_le
  cleared_le := h.cleared_lt hlive hstale harmed
  flags := by
    intro _ i
    have hidx : idx ≤ cleared + 2 :=
      Nat.le_trans h.idx_le (Nat.le_trans h.fetched_le hwindow)
    by_cases hi : i = slotOf cleared
    · subst hi
      rw [MagicSlots.get_set_self, hstale]
      refine iff_of_false Bool.false_ne_true fun hex => ?_
      obtain hfalse | ⟨j, hle, hlt, hslot⟩ := hex
      · cases hfalse
      · -- only the bucket behind the one that was waited for is left
        have := eq_of_slotOf_eq hslot.symm (Nat.le_of_succ_le hle) (by omega)
        omega
    · rw [MagicSlots.get_set_of_ne hi, h.flags hlive i]
      refine or_congr_right ⟨?_, ?_⟩
      · rintro ⟨j, hle, hlt, hslot⟩
        refine ⟨j, ?_, hlt, hslot⟩
        obtain rfl | hlt := Nat.eq_or_lt_of_le hle
        · exact absurd hslot.symm hi
        · exact hlt
      · exact fun ⟨j, hle, hlt, hslot⟩ => ⟨j, Nat.le_of_succ_le hle, hlt, hslot⟩

/-- The first message is about the bucket `fetched`. -/
theorem fetch {info : MooncakeInfo} {store' : List MooncakeInfo}
    (h : MooncakeLinkOk buckets stale live sent cleared slots (info :: store') fetched idx) :
    MooncakeLinkOk buckets stale live sent cleared slots store' (fetched + 1) idx ∧
      ∃ bucket, buckets[fetched]? = some bucket ∧ info = bucket.info fetched := by
  have hlt : fetched < ((buckets.mapIdx MooncakeBucket.info).take sent).length := by
    have hlength := congrArg List.length h.store_eq
    rw [List.length_cons, List.length_drop] at hlength
    omega
  have hcons := h.store_eq
  rw [List.drop_eq_getElem_cons hlt] at hcons
  obtain ⟨hinfo, hstore⟩ := List.cons.inj hcons
  have hsent := hlt
  rw [List.length_take] at hsent
  constructor
  · exact ⟨hstore, by omega, Nat.le_succ_of_le h.idx_le, h.cleared_le, h.flags⟩
  · rw [List.getElem_take, List.getElem_mapIdx] at hinfo
    exact ⟨_, List.getElem?_eq_getElem _, hinfo⟩

/-- The bucket `idx` is acknowledged. -/
theorem ack (h : MooncakeLinkOk buckets stale live sent cleared slots store fetched idx)
    (hlt : idx < fetched) :
    MooncakeLinkOk buckets stale live sent cleared (slots.set (slotOf idx) true) store fetched
      (idx + 1) where
  store_eq := h.store_eq
  fetched_le := h.fetched_le
  idx_le := hlt
  cleared_le := Nat.le_succ_of_le h.cleared_le
  flags := by
    intro hlive i
    by_cases hi : i = slotOf idx
    · subst hi
      rw [MagicSlots.get_set_self]
      exact iff_of_true rfl (Or.inr ⟨idx, h.cleared_le, Nat.lt_succ_self idx, rfl⟩)
    · rw [MagicSlots.get_set_of_ne hi, h.flags hlive i]
      refine or_congr_right ⟨?_, ?_⟩
      · exact fun ⟨j, hle, hlt, hslot⟩ => ⟨j, hle, Nat.lt_succ_of_lt hlt, hslot⟩
      · rintro ⟨j, hle, hlt, hslot⟩
        refine ⟨j, hle, ?_, hslot⟩
        obtain hlt | rfl := Nat.lt_succ_iff_lt_or_eq.mp hlt
        · exact hlt
        · exact absurd hslot.symm hi

/-- Nothing depends on the slots once the rank is not live. -/
theorem close {slots' : MagicSlots} {live' : Prop}
    (h : MooncakeLinkOk buckets stale live sent cleared slots store fetched idx)
    (hlive : ¬ live') :
    MooncakeLinkOk buckets stale live' sent cleared slots' store fetched idx :=
  ⟨h.store_eq, h.fetched_le, h.idx_le, h.cleared_le, fun h => absurd h hlive⟩

end MooncakeLinkOk

/-! ## The sender -/

/-- The buffer of the bucket `j` holds its bytes. -/
def Buffers.Holds (bufs : Buffers) (buckets : List MooncakeBucket) (j : Nat) : Prop :=
  ∀ bucket, buckets[j]? = some bucket →
    (bufs.get (slotOf j)).take bucket.data.length = bucket.data

namespace MooncakeSender

/-- Whether the last bucket was sent. -/
def closed (s : MooncakeSender) : Bool :=
  match s.pc with
  | .last | .done => true
  | _ => false

/-- The buckets whose magic number was waited for. -/
def cleared (s : MooncakeSender) (sent : Nat) : Nat :=
  match s.pc with
  | .polling | .last | .done => sent - 2
  | _ => sent - 1

/-- The buckets that are not sent yet. -/
def rest (bucketSize : Nat) (s : MooncakeSender) (bufs : Buffers) : List MooncakeBucket :=
  if s.closed then []
  else packFrom bucketSize s.weights s.bucketMeta ((bufs.get s.idx).take s.offset)

/-- What holds at each program counter. -/
def PcOk (bucketSize sent : Nat) (s : MooncakeSender) : Prop :=
  match s.pc with
  | .filling => True
  | .flushing => ∃ w weights, s.weights = w :: weights ∧ bucketSize < s.offset + w.nbytes
  | .polling => 2 ≤ sent ∧ ∃ w weights, s.weights = w :: weights ∧ s.offset + w.nbytes ≤ bucketSize
  | .placing => ∃ w weights, s.weights = w :: weights ∧ s.offset + w.nbytes ≤ bucketSize
  | .last | .done => 0 < sent
  | .raised => False

theorem cleared_le (s : MooncakeSender) (sent : Nat) : sent ≤ s.cleared sent + 2 := by
  rw [cleared]
  split <;> omega

end MooncakeSender

structure MooncakeSenderOk (bucketSize : Nat) (weights : List Weight) (sent : Nat)
    (s : MooncakeSender) (bufs : Buffers) : Prop where
  pcOk : s.PcOk bucketSize sent
  length_bufs : ∀ i, (bufs.get i).length = bucketSize
  rest_eq : (packBuckets bucketSize weights).drop sent = s.rest bucketSize bufs
  sent_le : sent ≤ (packBuckets bucketSize weights).length
  offset_le : s.offset ≤ bucketSize
  fits : ∀ w ∈ s.weights, w.nbytes ≤ bucketSize
  idx_eq : s.idx = slotOf (if s.closed then sent - 1 else sent)
  shouldWait_eq : s.closed = false → s.shouldWait = decide (0 < sent)
  holds : ∀ j, s.cleared sent ≤ j → j < sent → bufs.Holds (packBuckets bucketSize weights) j

theorem MooncakeSender.init_ok {bucketSize : Nat} {weights : List Weight} {bufs : Buffers}
    (hbufs : ∀ i, (bufs.get i).length = bucketSize) (hfits : ∀ w ∈ weights, w.nbytes ≤ bucketSize) :
    MooncakeSenderOk bucketSize weights 0 (.init weights) bufs where
  pcOk := trivial
  length_bufs := hbufs
  rest_eq := rfl
  sent_le := Nat.zero_le _
  offset_le := Nat.zero_le _
  fits := hfits
  idx_eq := rfl
  shouldWait_eq := fun _ => rfl
  holds := fun j _ hj => absurd hj (Nat.not_lt_zero j)

namespace MooncakeSenderOk

variable {bucketSize sent : Nat} {weights : List Weight} {s t : MooncakeSender} {bufs : Buffers}

/-- The next bucket and those behind it. -/
theorem getElem?_sent {bucket : MooncakeBucket} {rest : List MooncakeBucket}
    (hs : MooncakeSenderOk bucketSize weights sent s bufs)
    (h : s.rest bucketSize bufs = bucket :: rest) :
    (packBuckets bucketSize weights)[sent]? = some bucket ∧
      (packBuckets bucketSize weights).drop (sent + 1) = rest := by
  have hdrop := hs.rest_eq.trans h
  constructor
  · rw [← List.head?_drop, hdrop]
    rfl
  · rw [← List.tail_drop, hdrop]
    rfl

/-- A sender that still packs has a bucket to send. -/
theorem sent_lt (hs : MooncakeSenderOk bucketSize weights sent s bufs) (hpc : s.closed = false) :
    sent < (packBuckets bucketSize weights).length := by
  by_contra hle
  have hnil := List.drop_eq_nil_of_le (Nat.not_lt.mp hle)
  rw [hs.rest_eq, MooncakeSender.rest, hpc] at hnil
  exact packFrom_ne_nil _ _ _ _ hnil

/-- A sender that is not packing any more has sent every bucket. -/
theorem sent_eq (hs : MooncakeSenderOk bucketSize weights sent s bufs) (hpc : s.closed = true) :
    sent = (packBuckets bucketSize weights).length := by
  have hnil := hs.rest_eq
  rw [MooncakeSender.rest, if_pos hpc] at hnil
  exact Nat.le_antisymm hs.sent_le (List.drop_eq_nil_iff.mp hnil)

/-- The bytes of the weights that are placed. -/
theorem length_take (hs : MooncakeSenderOk bucketSize weights sent s bufs) :
    ((bufs.get s.idx).take s.offset).length = s.offset := by
  rw [List.length_take, hs.length_bufs]
  exact Nat.min_eq_left hs.offset_le

end MooncakeSenderOk

/-- What a step of rank 0 does to its link: it does not touch it, announces a bucket,
or takes a magic number, that of an earlier bucket or that of the last one. -/
inductive MooncakeSend (buckets : List MooncakeBucket) (sent : Nat) (s t : MooncakeSender)
    (slots slots' : MagicSlots) (outbox outbox' : List MooncakeInfo) : Nat → Prop where
  | quiet (hslots : slots' = slots) (houtbox : outbox' = outbox)
      (hcleared : t.cleared sent = s.cleared sent) (hopen : t.pc ≠ .done) :
      MooncakeSend buckets sent s t slots slots' outbox outbox' sent
  | announce (bucket : MooncakeBucket) (hbucket : buckets[sent]? = some bucket)
      (hslots : slots' = slots) (houtbox : outbox' = outbox ++ [bucket.info sent])
      (hcleared : t.cleared (sent + 1) = s.cleared sent) (hopen : t.pc ≠ .done) :
      MooncakeSend buckets sent s t slots slots' outbox outbox' (sent + 1)
  | complete (hsent : sent = s.cleared sent + 2) (hlt : sent < buckets.length)
      (harmed : slots.get (slotOf (s.cleared sent)) = true)
      (hslots : slots' = slots.set (slotOf (s.cleared sent)) false) (houtbox : outbox' = outbox)
      (hcleared : t.cleared sent = s.cleared sent + 1) (hopen : t.pc ≠ .done) :
      MooncakeSend buckets sent s t slots slots' outbox outbox' sent
  | close (hdone : t.pc = .done) (hsent : sent = buckets.length)
      (harmed : slots.get (slotOf (sent - 1)) = true)
      (hslots : slots' = slots.set (slotOf (sent - 1)) false) (houtbox : outbox' = outbox)
      (hold : s.cleared sent = sent - 2) (hcleared : t.cleared sent = sent - 2) :
      MooncakeSend buckets sent s t slots slots' outbox outbox' sent

namespace MooncakeSenderOk

variable {bucketSize sent : Nat} {weights : List Weight} {s t : MooncakeSender}
  {memory memory' : MooncakeMemory} {outbox outbox' : List MooncakeInfo}

/-- A step that packs nothing and waits for nothing. -/
theorem setPc (hs : MooncakeSenderOk bucketSize weights sent s memory.bufs) {pc : MooncakeSenderPc}
    (hok : ({ s with pc := pc } : MooncakeSender).PcOk bucketSize sent)
    (hclosed : ({ s with pc := pc } : MooncakeSender).closed = s.closed)
    (hcleared : s.cleared sent ≤ ({ s with pc := pc } : MooncakeSender).cleared sent) :
    MooncakeSenderOk bucketSize weights sent { s with pc := pc } memory.bufs where
  pcOk := hok
  length_bufs := hs.length_bufs
  rest_eq := by
    rw [MooncakeSender.rest, hclosed]
    exact hs.rest_eq
  sent_le := hs.sent_le
  offset_le := hs.offset_le
  fits := hs.fits
  idx_eq := by
    rw [hclosed]
    exact hs.idx_eq
  shouldWait_eq := by
    rw [hclosed]
    exact hs.shouldWait_eq
  holds := fun j hle hlt => hs.holds j (Nat.le_trans hcleared hle) hlt

theorem check (hs : MooncakeSenderOk bucketSize weights sent s memory.bufs)
    (h : s.next bucketSize memory outbox .check = some (t, memory', outbox')) :
    ∃ sent', MooncakeSend (packBuckets bucketSize weights) sent s t memory.slots memory'.slots
      outbox outbox' sent' ∧ MooncakeSenderOk bucketSize weights sent' t memory'.bufs := by
  simp only [MooncakeSender.next] at h
  split at h
  next w ws hpc hweights =>
    cases h
    have hclosed : s.closed = false := by rw [MooncakeSender.closed, hpc]
    have hcleared : s.cleared sent = sent - 1 := by rw [MooncakeSender.cleared, hpc]
    by_cases hfull : bucketSize < s.offset + w.nbytes
    · rw [if_pos hfull]
      exact ⟨sent, .quiet rfl rfl hcleared.symm (by simp),
        hs.setPc ⟨w, ws, hweights, hfull⟩ hclosed.symm (Nat.le_of_eq hcleared)⟩
    · rw [if_neg hfull]
      exact ⟨sent, .quiet rfl rfl hcleared.symm (by simp),
        hs.setPc ⟨w, ws, hweights, Nat.not_lt.mp hfull⟩ hclosed.symm (Nat.le_of_eq hcleared)⟩
  · cases h

/-- The message about the bucket that is filled. -/
theorem info_eq (hs : MooncakeSenderOk bucketSize weights sent s memory.bufs)
    (hpc : s.closed = false) (isLast : Bool) :
    s.info isLast = (MooncakeBucket.mk s.bucketMeta.entries
      ((memory.bufs.get s.idx).take s.offset) isLast).info sent := by
  have hidx := hs.idx_eq
  rw [hpc] at hidx
  rw [MooncakeSender.info, MooncakeBucket.info, hs.length_take, hidx]
  rfl

/-- The bucket that is filled is held. -/
theorem holds_current (hs : MooncakeSenderOk bucketSize weights sent s memory.bufs)
    (hpc : s.closed = false) {isLast : Bool}
    (hbucket : (packBuckets bucketSize weights)[sent]? = some
      ⟨s.bucketMeta.entries, (memory.bufs.get s.idx).take s.offset, isLast⟩) :
    memory.bufs.Holds (packBuckets bucketSize weights) sent := by
  intro bucket h
  rw [hbucket] at h
  cases h
  have hidx := hs.idx_eq
  rw [hpc] at hidx
  rw [hs.length_take, hidx]
  rfl

theorem flush (hs : MooncakeSenderOk bucketSize weights sent s memory.bufs)
    (h : s.next bucketSize memory outbox .flush = some (t, memory', outbox')) :
    ∃ sent', MooncakeSend (packBuckets bucketSize weights) sent s t memory.slots memory'.slots
      outbox outbox' sent' ∧ MooncakeSenderOk bucketSize weights sent' t memory'.bufs := by
  obtain ⟨hpc, h⟩ := Option.ite_none_right_eq_some.mp h
  cases h
  have hclosed : s.closed = false := by rw [MooncakeSender.closed, hpc]
  obtain ⟨w, ws, hweights, hfull⟩ : ∃ w weights, s.weights = w :: weights ∧
      bucketSize < s.offset + w.nbytes := by
    have hok := hs.pcOk
    rw [MooncakeSender.PcOk, hpc] at hok
    exact hok
  have hw : w.nbytes ≤ bucketSize := hs.fits w (by rw [hweights]; exact List.mem_cons_self)
  have hrest : s.rest bucketSize memory.bufs =
      ⟨s.bucketMeta.entries, (memory.bufs.get s.idx).take s.offset, false⟩ ::
        packFrom bucketSize ws (Py.Dict.empty.set w.name (metaAt w 0)) w.data := by
    rw [MooncakeSender.rest, hclosed, hweights]
    exact packFrom_cons_of_lt (by rw [hs.length_take]; exact hfull)
  obtain ⟨hbucket, hdrop⟩ := hs.getElem?_sent hrest
  have hwait := hs.shouldWait_eq hclosed
  have hcleared : s.cleared sent = sent - 1 := by rw [MooncakeSender.cleared, hpc]
  have hempty : packFrom bucketSize ws (Py.Dict.empty.set w.name (metaAt w 0)) w.data =
      packFrom bucketSize s.weights .empty [] := by
    rw [hweights, packFrom_cons_empty hw]
  have hidx : (!s.idx) = slotOf (sent + 1) := by
    rw [slotOf_succ, hs.idx_eq, hclosed]
    rfl
  have hholds : ∀ j, sent - 1 ≤ j → j < sent + 1 →
      memory.bufs.Holds (packBuckets bucketSize weights) j := by
    intro j hle hlt
    obtain hlt | rfl := Nat.lt_succ_iff_lt_or_eq.mp hlt
    · exact hs.holds j (hcleared ▸ hle) hlt
    · exact hs.holds_current hclosed hbucket
  by_cases hpos : 0 < sent
  · rw [hwait, decide_eq_true hpos, if_pos rfl]
    refine ⟨sent + 1, .announce _ hbucket rfl (by rw [hs.info_eq hclosed]) ?_ (by simp),
      ⟨?_, hs.length_bufs, ?_, hs.sent_lt hclosed, Nat.zero_le _, hs.fits, hidx, ?_, ?_⟩⟩
    · simp only [MooncakeSender.cleared, hpc]
      omega
    · exact ⟨by omega, w, ws, hweights, by rw [Nat.zero_add]; exact hw⟩
    · rw [hdrop, hempty]
      rfl
    · exact fun _ => (decide_eq_true (Nat.succ_pos sent)).symm
    · exact fun j hle hlt => hholds j (by simp only [MooncakeSender.cleared] at hle; omega) hlt
  · rw [hwait, decide_eq_false hpos, if_neg Bool.false_ne_true]
    refine ⟨sent + 1, .announce _ hbucket rfl (by rw [hs.info_eq hclosed]) ?_ (by simp),
      ⟨?_, hs.length_bufs, ?_, hs.sent_lt hclosed, Nat.zero_le _, hs.fits, hidx, ?_, ?_⟩⟩
    · simp only [MooncakeSender.cleared, hpc]
      omega
    · exact ⟨w, ws, hweights, by rw [Nat.zero_add]; exact hw⟩
    · rw [hdrop, hempty]
      rfl
    · exact fun _ => (decide_eq_true (Nat.succ_pos sent)).symm
    · exact fun j hle hlt => hholds j (by simp only [MooncakeSender.cleared] at hle; omega) hlt

theorem complete (hs : MooncakeSenderOk bucketSize weights sent s memory.bufs)
    (h : s.next bucketSize memory outbox .complete = some (t, memory', outbox')) :
    ∃ sent', MooncakeSend (packBuckets bucketSize weights) sent s t memory.slots memory'.slots
      outbox outbox' sent' ∧ MooncakeSenderOk bucketSize weights sent' t memory'.bufs := by
  obtain ⟨⟨hpc, harmed⟩, h⟩ := Option.ite_none_right_eq_some.mp h
  cases h
  have hclosed : s.closed = false := by rw [MooncakeSender.closed, hpc]
  have hcleared : s.cleared sent = sent - 2 := by rw [MooncakeSender.cleared, hpc]
  have hok := hs.pcOk
  rw [MooncakeSender.PcOk, hpc] at hok
  have hidx : s.idx = slotOf (s.cleared sent) := by
    rw [hs.idx_eq, hclosed, hcleared, ← slotOf_add_two (sent - 2), Nat.sub_add_cancel hok.1]
    rfl
  rw [hidx] at harmed
  refine ⟨sent, .complete (by omega) (hs.sent_lt hclosed) harmed (by rw [hidx]) rfl ?_ (by simp),
    hs.setPc hok.2 hclosed.symm ?_⟩
  · simp only [MooncakeSender.cleared, hpc]
    omega
  · simp only [MooncakeSender.cleared, hpc]
    omega

theorem place (hs : MooncakeSenderOk bucketSize weights sent s memory.bufs)
    (h : s.next bucketSize memory outbox .place = some (t, memory', outbox')) :
    ∃ sent', MooncakeSend (packBuckets bucketSize weights) sent s t memory.slots memory'.slots
      outbox outbox' sent' ∧ MooncakeSenderOk bucketSize weights sent' t memory'.bufs := by
  simp only [MooncakeSender.next] at h
  split at h
  next w ws hpc hweights =>
    have hclosed : s.closed = false := by rw [MooncakeSender.closed, hpc]
    have hcleared : s.cleared sent = sent - 1 := by rw [MooncakeSender.cleared, hpc]
    obtain ⟨w', ws', hweights', hfits⟩ : ∃ w weights, s.weights = w :: weights ∧
        s.offset + w.nbytes ≤ bucketSize := by
      have hok := hs.pcOk
      rw [MooncakeSender.PcOk, hpc] at hok
      exact hok
    rw [hweights] at hweights'
    cases hweights'
    rw [if_pos hfits] at h
    cases h
    have hidx : s.idx = slotOf sent := by
      rw [hs.idx_eq, hclosed]
      rfl
    have hlength : s.offset + w.data.length ≤ (memory.bufs.get s.idx).length := by
      rw [hs.length_bufs]
      exact hfits
    have htake : (write (memory.bufs.get s.idx) s.offset w.data).take (s.offset + w.nbytes) =
        (memory.bufs.get s.idx).take s.offset ++ w.data :=
      List.take_left' (by rw [List.length_append, hs.length_take, Weight.nbytes])
    refine ⟨sent, .quiet rfl rfl hcleared.symm (by simp),
      ⟨trivial, ?_, ?_, hs.sent_le, hfits, ?_, ?_, ?_, ?_⟩⟩
    · intro i
      by_cases hi : i = s.idx
      · rw [hi, Buffers.get_set_self, Slices.length_write hlength]
        exact hs.length_bufs _
      · rw [Bool.eq_not_of_ne hi, Buffers.get_not_set]
        exact hs.length_bufs _
    · have hrest := hs.rest_eq
      rw [MooncakeSender.rest, hclosed, hweights] at hrest
      refine hrest.trans ((packFrom_cons_of_le (by rw [hs.length_take]; exact hfits)).trans ?_)
      rw [hs.length_take]
      simp only [MooncakeSender.rest, MooncakeSender.closed, Buffers.get_set_self, htake]
      rfl
    · exact fun w hw => hs.fits w (by rw [hweights]; exact List.mem_cons_of_mem _ hw)
    · exact hidx
    · exact fun _ => hs.shouldWait_eq hclosed
    · intro j hle hlt
      have hslot : slotOf j = !s.idx := by
        have hle : sent - 1 ≤ j := hle
        rw [hidx, show sent = j + 1 by omega, slotOf_succ, Bool.not_not]
      intro bucket hbucket
      rw [hslot, Buffers.get_not_set, ← hslot]
      exact hs.holds j (hcleared ▸ hle) hlt bucket hbucket
  · cases h

theorem startLast (hs : MooncakeSenderOk bucketSize weights sent s memory.bufs)
    (h : s.next bucketSize memory outbox .startLast = some (t, memory', outbox')) :
    ∃ sent', MooncakeSend (packBuckets bucketSize weights) sent s t memory.slots memory'.slots
      outbox outbox' sent' ∧ MooncakeSenderOk bucketSize weights sent' t memory'.bufs := by
  obtain ⟨⟨hpc, hweights⟩, h⟩ := Option.ite_none_right_eq_some.mp h
  cases h
  have hclosed : s.closed = false := by rw [MooncakeSender.closed, hpc]
  have hcleared : s.cleared sent = sent - 1 := by rw [MooncakeSender.cleared, hpc]
  have hrest : s.rest bucketSize memory.bufs =
      [⟨s.bucketMeta.entries, (memory.bufs.get s.idx).take s.offset, true⟩] := by
    rw [MooncakeSender.rest, hclosed, hweights]
    rfl
  obtain ⟨hbucket, hdrop⟩ := hs.getElem?_sent hrest
  refine ⟨sent + 1, .announce _ hbucket rfl (by rw [hs.info_eq hclosed]) ?_ (by simp),
    ⟨Nat.succ_pos sent, hs.length_bufs, hdrop, hs.sent_lt hclosed, hs.offset_le, hs.fits, ?_, ?_,
      ?_⟩⟩
  · simp only [MooncakeSender.cleared, hpc]
    omega
  · have hidx := hs.idx_eq
    rw [hclosed] at hidx
    exact hidx
  · exact fun h => by cases h
  · intro j hle hlt
    obtain hlt | rfl := Nat.lt_succ_iff_lt_or_eq.mp hlt
    · exact hs.holds j (hcleared ▸ hle) hlt
    · exact hs.holds_current hclosed hbucket

theorem endSend (hs : MooncakeSenderOk bucketSize weights sent s memory.bufs)
    (h : s.next bucketSize memory outbox .endSend = some (t, memory', outbox')) :
    ∃ sent', MooncakeSend (packBuckets bucketSize weights) sent s t memory.slots memory'.slots
      outbox outbox' sent' ∧ MooncakeSenderOk bucketSize weights sent' t memory'.bufs := by
  obtain ⟨⟨hpc, harmed⟩, h⟩ := Option.ite_none_right_eq_some.mp h
  cases h
  have hclosed : s.closed = true := by rw [MooncakeSender.closed, hpc]
  have hcleared : s.cleared sent = sent - 2 := by rw [MooncakeSender.cleared, hpc]
  have hidx : s.idx = slotOf (sent - 1) := by rw [hs.idx_eq, hclosed, if_pos rfl]
  rw [hidx] at harmed
  have hok := hs.pcOk
  rw [MooncakeSender.PcOk, hpc] at hok
  exact ⟨sent, .close rfl (hs.sent_eq hclosed) harmed (by rw [hidx]) rfl hcleared rfl,
    hs.setPc hok hclosed.symm (Nat.le_of_eq hcleared)⟩

/-- Every step of rank 0 is one of these. -/
theorem next {a : MooncakeSendAct} (hs : MooncakeSenderOk bucketSize weights sent s memory.bufs)
    (h : s.next bucketSize memory outbox a = some (t, memory', outbox')) :
    ∃ sent', MooncakeSend (packBuckets bucketSize weights) sent s t memory.slots memory'.slots
      outbox outbox' sent' ∧ MooncakeSenderOk bucketSize weights sent' t memory'.bufs := by
  cases a with
  | check => exact hs.check h
  | flush => exact hs.flush h
  | complete => exact hs.complete h
  | place => exact hs.place h
  | startLast => exact hs.startLast h
  | endSend => exact hs.endSend h

end MooncakeSenderOk

end Verl
