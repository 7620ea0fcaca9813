import Verl.Checkpoint.MooncakeProgress

/-!
# The next transfer can be corrupted

The slots are cleared when an engine is made, not between two transfers.  After a
transfer of an even number of buckets the first slot of rank 0 is armed.  So in the
next transfer rank 0 does not wait before it fills the first buffer again, and rank
1 may read the third bucket when it was told to read the first one
(`mooncake_resync_corrupts`).

`Refill` is the invariant of the run in which only rank 0 moves.  It cannot stop
before the third bucket is announced, and then the first buffer holds that bucket.
-/

namespace Verl

open Slices (slice)

/-! ## Rank 0 alone -/

/-- Rank 0 has moved, from a start with the first slot armed. -/
structure Refill (bucketSize : Nat) (weights : List Weight) (memory : Nat → MooncakeMemory)
    (s : MooncakeState) (sent : Nat) : Prop where
  sender : MooncakeSenderOk bucketSize weights sent s.sender (s.memory 0).bufs
  receivers_eq : s.receivers = fun _ => .init
  memory_eq : ∀ k, s.memory (k + 1) = memory (k + 1)
  store_eq : s.store 0 = ((packBuckets bucketSize weights).mapIdx MooncakeBucket.info).take sent
  notDone : s.sender.pc ≠ .done
  cleared_le : s.sender.cleared sent ≤ 2
  first : s.sender.cleared sent = 0 → (s.memory 0).slots.get false = true
  armed : ∀ i, (s.memory 0).slots.get i = true → s.sender.cleared sent ≤ i.toNat

namespace Refill

variable {n bucketSize itemsize sent : Nat} {weights : List Weight}
  {memory : Nat → MooncakeMemory} {s t : MooncakeState}

theorem start_ok (hw : MooncakeWeightsOk bucketSize itemsize weights)
    (hmemory : ∀ i, ((memory 0).bufs.get i).length = bucketSize)
    (harmed : (memory 0).slots.get false = true) :
    Refill bucketSize weights memory (.start memory weights) 0 where
  sender := MooncakeSender.init_ok hmemory hw.fits
  receivers_eq := rfl
  memory_eq := fun _ => rfl
  store_eq := rfl
  notDone := by simp [MooncakeState.start, MooncakeSender.init]
  cleared_le := Nat.zero_le _
  first := fun _ => harmed
  armed := fun _ _ => Nat.zero_le _

/-- The first two waits of rank 0 find a slot armed, and a third one does not. -/
theorem flags_next (hs : Refill bucketSize weights memory s sent)
    (hthree : 3 ≤ (packBuckets bucketSize weights).length) {sender : MooncakeSender}
    {slots : MagicSlots} {outbox : List MooncakeInfo} {sent' : Nat}
    (h : MooncakeSend (packBuckets bucketSize weights) sent s.sender sender (s.memory 0).slots
      slots (s.store 0) outbox sent') :
    sender.pc ≠ .done ∧ sender.cleared sent' ≤ 2 ∧
      (sender.cleared sent' = 0 → slots.get false = true) ∧
      ∀ i, slots.get i = true → sender.cleared sent' ≤ i.toNat := by
  have hparity : ∀ j, (slotOf j).toNat = j % 2 := by
    intro j
    rw [slotOf]
    obtain h | h := Nat.mod_two_eq_zero_or_one j <;> rw [h] <;> rfl
  cases h with
  | quiet hslots houtbox hcleared hopen =>
      rw [hslots, hcleared]
      exact ⟨hopen, hs.cleared_le, hs.first, hs.armed⟩
  | announce bucket hbucket hslots houtbox hcleared hopen =>
      rw [hslots, hcleared]
      exact ⟨hopen, hs.cleared_le, hs.first, hs.armed⟩
  | complete hsent hlt harmed hslots houtbox hcleared hopen =>
      have hle := hs.armed _ harmed
      rw [hparity] at hle
      rw [hslots, hcleared]
      refine ⟨hopen, by omega, fun hzero => by omega, fun i hi => ?_⟩
      by_cases hslot : i = slotOf (s.sender.cleared sent)
      · rw [hslot, MagicSlots.get_set_self] at hi
        cases hi
      · rw [MagicSlots.get_set_of_ne hslot] at hi
        have hold := hs.armed i hi
        -- the other slot is that of the next bucket
        rw [Bool.eq_not_of_ne hslot, ← slotOf_succ, hparity] at hold ⊢
        omega
  | close hdone hsent harmed hslots houtbox hold hcleared =>
      have hle := hs.armed _ harmed
      rw [hparity, hold] at hle
      omega

theorem next_ok (hs : Refill bucketSize weights memory s sent)
    (hthree : 3 ≤ (packBuckets bucketSize weights).length) {a : MooncakeSendAct}
    (h : s.next n bucketSize (.send a) = some t) :
    ∃ sent', Refill bucketSize weights memory t sent' := by
  obtain ⟨⟨sender, memory', outbox⟩, hstep, rfl⟩ := Option.map_eq_some_iff.mp h
  obtain ⟨sent', hsend, hsender⟩ := hs.sender.next hstep
  obtain ⟨hopen, hcleared, hfirst, harmed⟩ := hs.flags_next hthree hsend
  refine ⟨sent', ?_, hs.receivers_eq, fun k => ?_, ?_, hopen, hcleared, ?_, ?_⟩
  · rw [MooncakeState.setSender_memory_zero]
    exact hsender
  · rw [MooncakeState.setSender_memory_succ]
    exact hs.memory_eq k
  · rw [MooncakeState.setSender_store_zero]
    cases hsend with
    | quiet hslots houtbox => rw [houtbox, hs.store_eq]
    | complete hsent hlt harmed hslots houtbox => rw [houtbox, hs.store_eq]
    | close hdone hsent harmed hslots houtbox => rw [houtbox, hs.store_eq]
    | announce bucket hbucket hslots houtbox =>
        rw [houtbox, hs.store_eq, List.take_add_one, List.getElem?_mapIdx, hbucket]
        rfl
  · rw [MooncakeState.setSender_memory_zero]
    exact hfirst
  · rw [MooncakeState.setSender_memory_zero]
    exact harmed

/-- When rank 0 cannot go on alone, three buckets are announced. -/
theorem three_le (hs : Refill bucketSize weights memory s sent)
    (hthree : 3 ≤ (packBuckets bucketSize weights).length)
    (hstuck : ∀ a, s.next n bucketSize (.send a) = none) : 3 ≤ sent := by
  have hnone : ∀ a, s.sender.next bucketSize (s.memory 0) (s.store 0) a = none := by
    intro a
    exact Option.map_eq_none_iff.mp (hstuck a)
  have hok := hs.sender.pcOk
  cases hpc : s.sender.pc with
  | done => exact absurd hpc hs.notDone
  | raised =>
      rw [MooncakeSender.PcOk, hpc] at hok
      exact hok.elim
  | filling =>
      cases hweights : s.sender.weights with
      | nil =>
          have hstep := hnone .startLast
          simp only [MooncakeSender.next, hpc, hweights, and_self, if_true, reduceCtorEq] at hstep
      | cons w weights =>
          have hstep := hnone .check
          simp only [MooncakeSender.next, hpc, hweights, reduceCtorEq] at hstep
  | flushing =>
      have hstep := hnone .flush
      simp only [MooncakeSender.next, hpc, if_true, reduceCtorEq] at hstep
  | placing =>
      rw [MooncakeSender.PcOk, hpc] at hok
      obtain ⟨w, ws, hweights, hfits⟩ := hok
      have hstep := hnone .place
      simp only [MooncakeSender.next, hpc, hweights, if_pos hfits, reduceCtorEq] at hstep
  | polling =>
      rw [MooncakeSender.PcOk, hpc] at hok
      have htwo := hok.1
      by_contra hlt
      have hsent : sent = 2 := by omega
      have hcleared : s.sender.cleared sent = 0 := by
        rw [MooncakeSender.cleared, hpc, hsent]
      have hidx : s.sender.idx = false := by
        have hclosed : s.sender.closed = false := by rw [MooncakeSender.closed, hpc]
        rw [hs.sender.idx_eq, hclosed, hsent]
        rfl
      have harmed := hs.first hcleared
      rw [← hidx] at harmed
      have hstep := hnone .complete
      simp only [MooncakeSender.next, hpc, harmed, and_self, if_true, reduceCtorEq] at hstep
  | last =>
      have hclosed : s.sender.closed = true := by rw [MooncakeSender.closed, hpc]
      rw [hs.sender.sent_eq hclosed]
      exact hthree

end Refill

/-- Rank 0 alone announces three buckets, and then the first buffer holds the third. -/
theorem exists_refill {n bucketSize itemsize : Nat} {weights : List Weight}
    {memory : Nat → MooncakeMemory} (hn : 0 < n)
    (hw : MooncakeWeightsOk bucketSize itemsize weights)
    (hmemory : ∀ i, ((memory 0).bufs.get i).length = bucketSize)
    (hthree : 3 ≤ (packBuckets bucketSize weights).length)
    (harmed : (memory 0).slots.get false = true) :
    ∃ acts s sent, Run.exec (MooncakeState.next n bucketSize) (.start memory weights) acts = some s ∧
      Refill bucketSize weights memory s sent ∧ 3 ≤ sent ∧
      (s.memory 0).bufs.Holds (packBuckets bucketSize weights) 2 := by
  have hlower : ∀ (s : MooncakeState) (a : MooncakeSendAct) (t : MooncakeState),
      s.next n bucketSize (.send a) = some t → t.work n < s.work n :=
    fun _ _ _ h => MooncakeState.next_work_lt hn h
  obtain ⟨as, s, hrun, hstuck⟩ := Run.exists_stuck hlower (.start memory weights)
  obtain ⟨sent, hs⟩ := Run.exec_invariant
    (P := fun s => ∃ sent, Refill bucketSize weights memory s sent)
    (fun _ _ _ ⟨_, hs⟩ hstep => hs.next_ok hthree hstep) ⟨0, Refill.start_ok hw hmemory harmed⟩
    hrun
  have hsent := hs.three_le hthree hstuck
  refine ⟨as.map .send, s, sent, (Run.exec_map _ _).trans hrun, hs, hsent,
    hs.sender.holds 2 hs.cleared_le hsent⟩

/-! ## What rank 1 reads -/

/-- Later weights do not move the first ones of a bucket. -/
theorem packFrom_head {bucketSize : Nat} {weights : List Weight}
    {bucketMeta : Py.Dict String MooncakeMeta} {data : List UInt8}
    (hnames : (bucketMeta.keys ++ weights.map Weight.name).Nodup) :
    ∃ bucket rest more, packFrom bucketSize weights bucketMeta data = bucket :: rest ∧
      bucket.bucketMeta = bucketMeta.entries ++ more := by
  induction weights generalizing bucketMeta data with
  | nil => exact ⟨_, [], [], rfl, (List.append_nil _).symm⟩
  | cons w weights ih =>
      rw [List.map_cons] at hnames
      by_cases hfull : bucketSize < data.length + w.nbytes
      · rw [packFrom_cons_of_lt hfull]
        exact ⟨_, _, [], rfl, (List.append_nil _).symm⟩
      · rw [packFrom_cons_of_le (Nat.not_lt.mp hfull)]
        have hname : w.name ∉ bucketMeta.keys := fun hin =>
          (List.nodup_append.mp hnames).2.2 _ hin _ List.mem_cons_self rfl
        have hnames' : ((bucketMeta.set w.name (metaAt w data.length)).keys ++
            weights.map Weight.name).Nodup := by
          rw [Py.Dict.keys_set, if_neg hname, List.append_assoc]
          exact hnames
        obtain ⟨bucket, rest, more, hpack, hmeta⟩ := @ih _ (data ++ w.data) hnames'
        refine ⟨bucket, rest, (w.name, metaAt w data.length) :: more, hpack, ?_⟩
        rw [hmeta, Py.Dict.entries_set_of_not_mem hname, List.append_assoc]
        rfl

/-- The first bucket begins with the first weight. -/
theorem packBuckets_cons {bucketSize itemsize : Nat} {w : Weight} {weights : List Weight}
    (hw : MooncakeWeightsOk bucketSize itemsize (w :: weights)) :
    ∃ bucket rest more, packBuckets bucketSize (w :: weights) = bucket :: rest ∧
      bucket.bucketMeta = (w.name, metaAt w 0) :: more := by
  rw [packBuckets, packFrom_cons_empty (hw.fits w List.mem_cons_self)]
  have hempty : w.name ∉ (Py.Dict.empty : Py.Dict String MooncakeMeta).keys := List.not_mem_nil
  refine packFrom_head ?_
  rw [Py.Dict.keys_set, if_neg hempty]
  exact hw.names

/-- A read that is not disturbed copies all bytes. -/
theorem exists_copied (bucketSize : Nat) {n : Nat} (hn : 0 < n) {info : MooncakeInfo} (todo : List Nat)
    {s : MooncakeState} {yielded : List Tensor}
    (hpc : s.receivers 0 = ⟨.reading info todo, 0, yielded⟩)
    (hlength : ∀ pos ∈ todo, pos < ((s.memory 1).bufs.get false).length)
    (hsource : ∀ pos ∈ todo, pos < ((s.memory 0).bufs.get info.ptr).length) :
    ∃ acts t, Run.exec (MooncakeState.next n bucketSize) s acts = some t ∧
      t.receivers 0 = ⟨.reading info [], 0, yielded⟩ ∧
      ∀ pos, ((t.memory 1).bufs.get false)[pos]? =
        if pos ∈ todo then ((s.memory 0).bufs.get info.ptr)[pos]?
        else ((s.memory 1).bufs.get false)[pos]? := by
  induction todo generalizing s with
  | nil => exact ⟨[], s, rfl, hpc, fun pos => (if_neg List.not_mem_nil).symm⟩
  | cons i todo ih =>
      let v : MooncakeView := { s.view 0 with
        memory := { s.memory 1 with
          bufs := (s.memory 1).bufs.set false (((s.memory 1).bufs.get false).set i
            (((s.memory 0).bufs.get info.ptr).getD i 0)) } }
      have hstep : s.next n bucketSize (.recv 0 (.copy i)) =
          some (s.set 0 ⟨.reading info todo, 0, yielded⟩ v) := by
        simp only [MooncakeState.next, if_pos hn, MooncakeReceiver.next, hpc,
          if_pos List.mem_cons_self, List.erase_cons_head, Option.map_some]
        rfl
      have hzero : (s.set 0 ⟨.reading info todo, 0, yielded⟩ v).memory 0 = s.memory 0 :=
        MooncakeState.set_memory_self
      have hone : ((s.set 0 ⟨.reading info todo, 0, yielded⟩ v).memory 1).bufs.get false =
          ((s.memory 1).bufs.get false).set i (((s.memory 0).bufs.get info.ptr).getD i 0) := by
        have hmemory : (s.set 0 ⟨.reading info todo, 0, yielded⟩ v).memory (0 + 1) = v.memory :=
          MooncakeState.set_memory_succ
        rw [hmemory]
        exact Buffers.get_set_self _ _ _
      obtain ⟨acts, t, hrun, hreceivers, hbytes⟩ := ih
        (s := s.set 0 ⟨.reading info todo, 0, yielded⟩ v) MooncakeState.set_receivers_self
        (fun pos hpos => by
          rw [hone, List.length_set]
          exact hlength pos (List.mem_cons_of_mem i hpos))
        (fun pos hpos => by
          rw [hzero]
          exact hsource pos (List.mem_cons_of_mem i hpos))
      refine ⟨.recv 0 (.copy i) :: acts, t, Run.exec_cons_eq_some.mpr ⟨_, hstep, hrun⟩, hreceivers,
        fun pos => ?_⟩
      have hlt := hsource i List.mem_cons_self
      rw [hbytes, hzero, hone]
      by_cases hpos : pos ∈ todo
      · rw [if_pos hpos, if_pos (List.mem_cons_of_mem i hpos)]
      · rw [if_neg hpos]
        by_cases hi : pos = i
        · subst hi
          rw [if_pos List.mem_cons_self,
            List.getElem?_set_self (hlength pos List.mem_cons_self),
            List.getD_eq_getElem?_getD, List.getElem?_eq_getElem hlt, Option.getD_some]
        · rw [List.getElem?_set_ne (Ne.symm hi), if_neg]
          exact List.not_mem_cons_of_ne_of_not_mem hi hpos

/-- When the bytes are there, the first weight is yielded with them. -/
theorem exists_consumed {n bucketSize : Nat} (hn : 0 < n) {info : MooncakeInfo} {w : Weight}
    {more : List (String × MooncakeMeta)} {s : MooncakeState}
    (hreading : s.receivers 0 = ⟨.reading info [], 0, []⟩)
    (hmeta : info.bucketMeta = (w.name, metaAt w 0) :: more) (hfits : w.nbytes ≤ bucketSize) :
    ∃ t, Run.exec (MooncakeState.next n bucketSize) s
        [.recv 0 .forward, .recv 0 .yield, .recv 0 .consume] = some t ∧
      (t.receivers 0).yielded = [⟨w.name, w.shape, w.dtype,
        (slice ((s.memory 1).bufs.get false) 0 w.nbytes).map some⟩] := by
  let item : String × MooncakeMeta := (w.name, metaAt w 0)
  let forwarded := s.set 0 ⟨.yielding info info.bucketMeta, 0, []⟩ { s.view 0 with
    outbox := (s.view 0).outbox ++
      if decide (0 + 1 < n) then [{ info with ptr := slotOf 0, magicPtr := slotOf 0 }] else [] }
  let holding := forwarded.set 0 ⟨.holding info item more, 0, []⟩ (forwarded.view 0)
  have hforward : s.next n bucketSize (.recv 0 .forward) = some forwarded := by
    simp only [MooncakeState.next, if_pos hn, MooncakeReceiver.next, hreading, Option.map_some]
    rfl
  have hyielding : forwarded.receivers 0 = ⟨.yielding info (item :: more), 0, []⟩ :=
    MooncakeState.set_receivers_self.trans (by rw [hmeta])
  have hview : MooncakeReceiver.viewable bucketSize ⟨.yielding info (item :: more), 0, []⟩
      (metaAt w 0) = true :=
    decide_eq_true ⟨Nat.zero_mod _, by rw [size_metaAt]; exact (Nat.zero_add _).symm ▸ hfits⟩
  have hyield : forwarded.next n bucketSize (.recv 0 .yield) = some holding := by
    simp only [MooncakeState.next, if_pos hn, MooncakeReceiver.next, hyielding, Option.map_some]
    rw [if_pos hview]
  have hholding : holding.receivers 0 = ⟨.holding info item more, 0, []⟩ :=
    MooncakeState.set_receivers_self
  have hconsume : holding.next n bucketSize (.recv 0 .consume) = some (holding.set 0
      ⟨.yielding info more, 0, [MooncakeReceiver.held ⟨.holding info item more, 0, []⟩
        (holding.view 0).memory item]⟩ (holding.view 0)) := by
    simp only [MooncakeState.next, if_pos hn, MooncakeReceiver.next, hholding, Option.map_some]
    rfl
  have hforwarded : forwarded.memory (0 + 1) = s.memory 1 := MooncakeState.set_memory_succ
  have hmemory : holding.memory (0 + 1) = forwarded.memory 1 := MooncakeState.set_memory_succ
  refine ⟨_, Run.exec_cons_eq_some.mpr ⟨_, hforward, Run.exec_cons_eq_some.mpr ⟨_, hyield,
    Run.exec_cons_eq_some.mpr ⟨_, hconsume, rfl⟩⟩⟩, ?_⟩
  have hview : (holding.view 0).memory = s.memory 1 := hmemory.trans hforwarded
  rw [MooncakeState.set_receivers_self, hview, MooncakeReceiver.held, size_metaAt]
  rfl

/-- Rank 1 takes the first message and yields the first weight with the bytes that are
in the first buffer of rank 0. -/
theorem exists_yielded {n bucketSize : Nat} (hn : 0 < n) {info : MooncakeInfo}
    {store : List MooncakeInfo} {w : Weight} {more : List (String × MooncakeMeta)}
    {s : MooncakeState} (hreceiver : s.receivers 0 = .init) (hstore : s.store 0 = info :: store)
    (hptr : info.ptr = false) (hmeta : info.bucketMeta = (w.name, metaAt w 0) :: more)
    (hlen : w.nbytes ≤ info.len) (hfits : info.len ≤ bucketSize)
    (hzero : ((s.memory 0).bufs.get false).length = bucketSize)
    (hone : ((s.memory 1).bufs.get false).length = bucketSize) :
    ∃ acts t, Run.exec (MooncakeState.next n bucketSize) s acts = some t ∧
      (t.receivers 0).yielded =
        [⟨w.name, w.shape, w.dtype,
          (((s.memory 0).bufs.get false).take w.nbytes).map some⟩] := by
  -- the message
  have hfetch : s.next n bucketSize (.recv 0 .fetch) =
      some (s.set 0 ⟨.reading info (List.range info.len), 0, []⟩
        { s.view 0 with inbox := store }) := by
    have hinbox : (s.view 0).inbox = info :: store := hstore
    simp only [MooncakeState.next, if_pos hn, MooncakeReceiver.next, hreceiver,
      MooncakeReceiver.init, hinbox, Option.map_some]
    rfl
  -- the bytes
  obtain ⟨acts, t, hrun, hreading, hbytes⟩ := exists_copied bucketSize hn
    (List.range info.len)
    (s := s.set 0 ⟨.reading info (List.range info.len), 0, []⟩ { s.view 0 with inbox := store })
    MooncakeState.set_receivers_self
    (fun pos hpos => by
      have hmemory : (s.set 0 ⟨.reading info (List.range info.len), 0, []⟩
        { s.view 0 with inbox := store }).memory (0 + 1) = s.memory 1 :=
          MooncakeState.set_memory_succ
      rw [hmemory, hone]
      exact Nat.lt_of_lt_of_le (List.mem_range.mp hpos) hfits)
    (fun pos hpos => by
      rw [MooncakeState.set_memory_self, hptr]
      exact hzero ▸ Nat.lt_of_lt_of_le (List.mem_range.mp hpos) hfits)
  have hone' : ∀ pos < info.len, ((t.memory 1).bufs.get false)[pos]? =
      ((s.memory 0).bufs.get false)[pos]? := by
    intro pos hpos
    rw [hbytes, if_pos (List.mem_range.mpr hpos), MooncakeState.set_memory_self, hptr]
    rfl
  -- the weight
  obtain ⟨u, hweight, hyielded⟩ := exists_consumed hn hreading hmeta (Nat.le_trans hlen hfits)
  refine ⟨.recv 0 .fetch :: (acts ++ [.recv 0 .forward, .recv 0 .yield, .recv 0 .consume]), u,
    Run.exec_cons_eq_some.mpr ⟨_, hfetch, (Run.exec_append hrun).trans hweight⟩, ?_⟩
  have htake : slice ((t.memory 1).bufs.get false) 0 w.nbytes =
      ((s.memory 0).bufs.get false).take w.nbytes := by
    rw [slice, List.drop_zero]
    refine List.ext_getElem? fun pos => ?_
    by_cases hpos : pos < w.nbytes
    · rw [List.getElem?_take_of_lt hpos, List.getElem?_take_of_lt hpos]
      exact hone' pos (Nat.lt_of_lt_of_le hpos hlen)
    · rw [List.getElem?_eq_none (by rw [List.length_take]; omega),
        List.getElem?_eq_none (by rw [List.length_take]; omega)]
  rw [hyielded, htake]

/-- After a transfer of an even number of buckets from clear slots, the next transfer of
at least three buckets can go wrong, whatever its weights are: in some interleaving rank
1 yields the first weight with the bytes of the third bucket. -/
theorem mooncake_resync_corrupts (n bucketSize itemsize : Nat) (weights : List Weight)
    (w : Weight) (weights' : List Weight) (third : MooncakeBucket)
    (memory : Nat → MooncakeMemory) (hn : 0 < n)
    (hw : MooncakeWeightsOk bucketSize itemsize weights)
    (hw' : MooncakeWeightsOk bucketSize itemsize (w :: weights'))
    (hmemory : ∀ k i, ((memory k).bufs.get i).length = bucketSize)
    (hclear : ∀ k < n, ∀ i, (memory k).slots.get i = false)
    (heven : (packBuckets bucketSize weights).length % 2 = 0)
    (hthird : (packBuckets bucketSize (w :: weights'))[2]? = some third)
    (acts : List MooncakeAct) (s : MooncakeState)
    (hrun : Run.exec (MooncakeState.next n bucketSize) (.start memory weights) acts = some s)
    (hstuck : ∀ a, s.next n bucketSize a = none) :
    ∃ acts' t tensor,
      Run.exec (MooncakeState.next n bucketSize) (.start s.memory (w :: weights')) acts' = some t ∧
        (t.receivers 0).yielded = [tensor] ∧ tensor.name = w.name ∧
          tensor.data.take third.data.length = (third.data.take w.nbytes).map some := by
  obtain ⟨sent, hs⟩ := mooncake_run_ok hn hw hmemory
    (fun k hk j _ _ => hclear k hk (slotOf j)) hrun
  have hlast := mooncake_run_last hrun
  have hpos := length_packBuckets_pos bucketSize weights
  have hzero := hs.sender.length_bufs
  have hone := (hs.receiver 0 hn).length_bufs
  -- the first slot of rank 0 is armed
  have harmed : (s.memory 0).slots.get false = true := by
    refine (hs.slots_zero hlast hn hstuck (hclear 0 hn) false).mpr ⟨by omega, ?_⟩
    exact (decide_eq_false (by omega)).symm
  have hthree := (List.getElem?_eq_some_iff.mp hthird).1
  obtain ⟨acts', t, sent', hrefill, ht, hsent, hholds⟩ :=
    exists_refill (n := n) hn hw' hzero hthree harmed
  obtain ⟨bucket, rest, more, hbuckets, hmeta⟩ := packBuckets_cons hw'
  have hbucketOk := packBuckets_ok hw' (show bucket ∈ packBuckets bucketSize (w :: weights') by
    rw [hbuckets]
    exact List.mem_cons_self)
  have hlen : w.nbytes ≤ bucket.data.length := by
    have hle := (hbucketOk.items (w.name, metaAt w 0) (by rw [hmeta]; exact List.mem_cons_self)).2.2
    rw [size_metaAt] at hle
    exact Nat.le_trans (Nat.le_add_left _ _) hle
  obtain ⟨store, hstore⟩ : ∃ store, t.store 0 = bucket.info 0 :: store := by
    rw [ht.store_eq, hbuckets, List.mapIdx_cons, show sent' = (sent' - 1) + 1 by omega,
      List.take_succ_cons]
    exact ⟨_, rfl⟩
  obtain ⟨acts'', u, hread, hyielded⟩ := exists_yielded hn (congrFun ht.receivers_eq 0) hstore rfl
    hmeta hlen hbucketOk.length_le (ht.sender.length_bufs false) (by
      have hmemory := ht.memory_eq 0
      rw [Nat.zero_add] at hmemory
      rw [hmemory]
      exact hone false)
  refine ⟨acts' ++ acts'', u, _, (Run.exec_append hrefill).trans hread, hyielded, rfl, ?_⟩
  have hdata := hholds third hthird
  rw [← List.map_take, List.take_take, Nat.min_comm, ← List.take_take]
  exact congrArg (fun bytes => (bytes.take w.nbytes).map some) hdata

/-- After two buckets, three buckets: the weight `"a"` is yielded with the byte of `"c"`. -/
theorem mooncake_resync_corrupts_two_three :
    ∃ s acts t tensor,
      Run.exec (MooncakeState.next 1 1) (.start byteMemory [byteWeight "x" 1, byteWeight "y" 2])
          [.send .check, .send .place, .send .check, .send .flush, .send .place, .send .startLast,
            .recv 0 .fetch, .recv 0 (.copy 0), .recv 0 .forward, .recv 0 .yield, .recv 0 .consume,
            .recv 0 .ack, .recv 0 .fetch, .recv 0 (.copy 0), .recv 0 .forward, .recv 0 .yield,
            .recv 0 .consume, .recv 0 .ack, .send .endSend] = some s ∧
        Run.exec (MooncakeState.next 1 1)
          (.start s.memory [byteWeight "a" 7, byteWeight "b" 8, byteWeight "c" 9]) acts = some t ∧
        (t.receivers 0).yielded = [tensor] ∧ tensor.name = "a" ∧
        tensor.data.take 1 = [some 9] := by
  have hw := byteWeights_ok [("x", 1), ("y", 2)] (by decide)
  have hw' := byteWeights_ok [("a", 7), ("b", 8), ("c", 9)] (by decide)
  have hpcs : (Run.exec (MooncakeState.next 1 1)
      (.start byteMemory [byteWeight "x" 1, byteWeight "y" 2])
      [.send .check, .send .place, .send .check, .send .flush, .send .place, .send .startLast,
        .recv 0 .fetch, .recv 0 (.copy 0), .recv 0 .forward, .recv 0 .yield, .recv 0 .consume,
        .recv 0 .ack, .recv 0 .fetch, .recv 0 (.copy 0), .recv 0 .forward, .recv 0 .yield,
        .recv 0 .consume, .recv 0 .ack, .send .endSend]).map
      (fun s => (s.sender.pc, (s.receivers 0).pc)) = some (.done, .done) := by
    rfl
  obtain ⟨s, hrun, hdone⟩ := Option.map_eq_some_iff.mp hpcs
  obtain ⟨hsender, hreceiver⟩ := Prod.mk.inj hdone
  have hstuck := MooncakeState.next_of_done 1 1 hsender fun k hk => by
    rw [show k = 0 by omega]
    exact hreceiver
  obtain ⟨acts, t, tensor, hrun', hyielded, hname, hdata⟩ := mooncake_resync_corrupts 1 1 1 _
    (byteWeight "a" 7) [byteWeight "b" 8, byteWeight "c" 9]
    ⟨[("c", metaAt (byteWeight "c" 9) 0)], [9], true⟩ byteMemory Nat.one_pos hw hw'
    length_byteMemory (fun _ _ i => by cases i <;> rfl) rfl rfl _ s hrun hstuck
  exact ⟨s, acts, t, tensor, hrun, hrun', hyielded, hname, hdata⟩

end Verl
