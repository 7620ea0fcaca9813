import Verl.Checkpoint.MooncakeChain

/-!
# The chain is safe if no bucket waits for a stale slot

`MooncakeOk` is the invariant of the chain.  A step of rank 0 is one of the cases
of `MooncakeSend`, and a step of another rank changes its two links as
`MooncakeLinkOk` allows.  A byte is copied from a buffer that holds the bucket
which is read, since the rank before has not cleared its slot.

Only a wait needs that its slot is not stale.  The buckets that wait are those
from the third on, so a chain that starts with clear slots is safe, and so is
every chain with two buckets (`mooncake_chain_safe`).
-/

namespace Verl

open Slices (slice)

/-! ## The receivers -/

namespace MooncakeReceiver

/-- The buckets that the rank has announced, or could have. -/
def sent (r : MooncakeReceiver) : Nat :=
  match r.pc with
  | .yielding _ _ | .holding _ _ _ => r.idx + 1
  | _ => r.idx

/-- The buckets that the rank has had a message about. -/
def fetched (r : MooncakeReceiver) : Nat :=
  match r.pc with
  | .fetching | .done | .raised => r.idx
  | _ => r.idx + 1

/-- The buckets whose magic number was waited for. -/
def cleared (r : MooncakeReceiver) : Nat :=
  match r.pc with
  | .fetching | .polling _ | .done | .raised => r.idx - 2
  | _ => r.idx - 1

/-- What holds at each program counter. -/
def PcOk (buckets : List MooncakeBucket) (r : MooncakeReceiver) (bufs : Buffers) : Prop :=
  let before := (buckets.take r.idx).flatMap MooncakeBucket.tensors
  match r.pc with
  | .fetching => r.idx < buckets.length ∧ r.yielded = before
  | .polling info =>
      2 ≤ r.idx ∧ (∃ bucket, buckets[r.idx]? = some bucket ∧ info = bucket.info r.idx) ∧
        r.yielded = before
  | .reading info todo =>
      ∃ bucket, buckets[r.idx]? = some bucket ∧ info = bucket.info r.idx ∧ r.yielded = before ∧
        ∀ pos < bucket.data.length, pos ∉ todo →
          (bufs.get (slotOf r.idx))[pos]? = bucket.data[pos]?
  | .yielding info pending =>
      ∃ bucket processed, buckets[r.idx]? = some bucket ∧ info = bucket.info r.idx ∧
        bucket.bucketMeta = processed ++ pending ∧
        r.yielded = before ++ processed.map (tensorAt bucket.data)
  | .holding info item pending =>
      ∃ bucket processed, buckets[r.idx]? = some bucket ∧ info = bucket.info r.idx ∧
        bucket.bucketMeta = processed ++ item :: pending ∧
        r.yielded = before ++ processed.map (tensorAt bucket.data)
  | .done => r.idx = buckets.length ∧ r.yielded = before
  | .raised => False

theorem sent_le (r : MooncakeReceiver) : r.sent ≤ r.cleared + 2 := by
  rw [sent, cleared]
  cases r.pc <;> simp only <;> omega

end MooncakeReceiver

structure MooncakeReceiverOk (bucketSize : Nat) (buckets : List MooncakeBucket)
    (r : MooncakeReceiver) (bufs : Buffers) : Prop where
  pcOk : r.PcOk buckets bufs
  length_bufs : ∀ i, (bufs.get i).length = bucketSize
  holds : ∀ j, r.cleared ≤ j → j < r.sent → bufs.Holds buckets j

/-! ## The invariant -/

namespace MooncakeState

/-- The buckets that rank `k` has announced, when rank 0 has announced `sent`. -/
def sentBy (s : MooncakeState) (sent : Nat) : Nat → Nat
  | 0 => sent
  | k + 1 => (s.receivers k).sent

def clearedBy (s : MooncakeState) (sent : Nat) : Nat → Nat
  | 0 => s.sender.cleared sent
  | k + 1 => (s.receivers k).cleared

section

variable {s : MooncakeState} {sender : MooncakeSender} {memory : MooncakeMemory}
  {outbox : List MooncakeInfo} {r : MooncakeReceiver} {v : MooncakeView} {i k : Nat}

@[simp] theorem setSender_memory_zero : (s.setSender sender memory outbox).memory 0 = memory := by
  simp [setSender]

@[simp] theorem setSender_memory_succ :
    (s.setSender sender memory outbox).memory (k + 1) = s.memory (k + 1) := by
  simp [setSender]

@[simp] theorem setSender_store_zero : (s.setSender sender memory outbox).store 0 = outbox := by
  simp [setSender]

@[simp] theorem setSender_store_succ :
    (s.setSender sender memory outbox).store (k + 1) = s.store (k + 1) := by
  simp [setSender]

@[simp] theorem set_receivers_self : (s.set k r v).receivers k = r := by simp [set]

theorem set_receivers_of_ne (h : i ≠ k) : (s.set k r v).receivers i = s.receivers i := by
  simp [set, h]

@[simp] theorem set_memory_self : (s.set k r v).memory k = v.source := by simp [set]

@[simp] theorem set_memory_succ : (s.set k r v).memory (k + 1) = v.memory := by simp [set]

theorem set_memory_of_ne (h : i ≠ k) (h' : i ≠ k + 1) : (s.set k r v).memory i = s.memory i := by
  simp [set, h, h']

@[simp] theorem set_store_self : (s.set k r v).store k = v.inbox := by simp [set]

@[simp] theorem set_store_succ : (s.set k r v).store (k + 1) = v.outbox := by simp [set]

theorem set_store_of_ne (h : i ≠ k) (h' : i ≠ k + 1) : (s.set k r v).store i = s.store i := by
  simp [set, h, h']

end

end MooncakeState

structure MooncakeOk (n bucketSize : Nat) (weights : List Weight) (stale : Nat → MagicSlots)
    (s : MooncakeState) (sent : Nat) : Prop where
  sender : MooncakeSenderOk bucketSize weights sent s.sender (s.memory 0).bufs
  receiver : ∀ k < n, MooncakeReceiverOk bucketSize (packBuckets bucketSize weights)
    (s.receivers k) (s.memory (k + 1)).bufs
  link : ∀ k < n, MooncakeLinkOk (packBuckets bucketSize weights) (stale k)
    (k = 0 → s.sender.pc ≠ .done) (s.sentBy sent k) (s.clearedBy sent k) (s.memory k).slots
    (s.store k) (s.receivers k).fetched (s.receivers k).idx
  /-- Rank 0 leaves the slot armed that it did not wait for. -/
  closing : s.sender.pc = .done →
    (stale 0).get (slotOf ((packBuckets bucketSize weights).length - 1)) = false →
      (s.receivers 0).idx = (packBuckets bucketSize weights).length ∧
        ∀ i, (s.memory 0).slots.get i = true ↔ (stale 0).get i = true ∨
          2 ≤ (packBuckets bucketSize weights).length ∧
            i = slotOf (packBuckets bucketSize weights).length

/-- The buckets that wait for a slot are those from the third on. -/
def SlotsOk (n : Nat) (buckets : List MooncakeBucket) (stale : Nat → MagicSlots) : Prop :=
  ∀ k < n, ∀ j, 2 ≤ j → j < buckets.length → (stale k).get (slotOf j) = false

section

variable {n bucketSize itemsize : Nat} {weights : List Weight} {memory : Nat → MooncakeMemory}

theorem mooncake_start_ok (hw : MooncakeWeightsOk bucketSize itemsize weights)
    (hmemory : ∀ k i, ((memory k).bufs.get i).length = bucketSize) :
    MooncakeOk n bucketSize weights (fun k => (memory k).slots) (.start memory weights) 0 where
  sender := MooncakeSender.init_ok (hmemory 0) hw.fits
  receiver := fun k _ =>
    ⟨⟨length_packBuckets_pos bucketSize weights, rfl⟩, hmemory (k + 1), fun j _ hj => absurd hj (Nat.not_lt_zero j)⟩
  link := by
    intro k _
    have hsent : (MooncakeState.start memory weights).sentBy 0 k = 0 := by cases k <;> rfl
    have hcleared : (MooncakeState.start memory weights).clearedBy 0 k = 0 := by cases k <;> rfl
    rw [hsent, hcleared]
    refine ⟨rfl, Nat.le_refl 0, Nat.le_refl 0, Nat.le_refl 0, fun _ i => ?_⟩
    refine (or_iff_left fun hex => ?_).symm
    obtain ⟨j, -, hj, -⟩ := hex
    exact absurd hj (Nat.not_lt_zero j)
  closing := fun h => by cases h

end

namespace MooncakeOk

variable {n bucketSize itemsize sent : Nat} {weights : List Weight} {stale : Nat → MagicSlots}
  {s : MooncakeState} {k : Nat} {r : MooncakeReceiver} {v : MooncakeView}

/-! ## Steps of rank 0 -/

theorem next_send (hs : MooncakeOk n bucketSize weights stale s sent) (hn : 0 < n)
    (hslots : SlotsOk n (packBuckets bucketSize weights) stale) {sender : MooncakeSender}
    {memory : MooncakeMemory} {outbox : List MooncakeInfo} {a : MooncakeSendAct}
    (h : s.sender.next bucketSize (s.memory 0) (s.store 0) a = some (sender, memory, outbox)) :
    ∃ sent', MooncakeOk n bucketSize weights stale (s.setSender sender memory outbox) sent' := by
  obtain ⟨sent', hsend, hsender⟩ := hs.sender.next h
  have hlive : s.sender.pc ≠ .done := by
    intro hdone
    cases a <;> simp [MooncakeSender.next, hdone] at h
  have hzero := hs.link 0 hn
  have hlink : MooncakeLinkOk (packBuckets bucketSize weights) (stale 0) (sender.pc ≠ .done) sent'
      (sender.cleared sent') memory.slots outbox (s.receivers 0).fetched (s.receivers 0).idx := by
    have hopen : MooncakeLinkOk (packBuckets bucketSize weights) (stale 0) (sender.pc ≠ .done) sent
        (s.sender.cleared sent) (s.memory 0).slots (s.store 0) (s.receivers 0).fetched
        (s.receivers 0).idx :=
      ⟨hzero.store_eq, hzero.fetched_le, hzero.idx_le, hzero.cleared_le,
        fun _ => hzero.flags fun _ => hlive⟩
    cases hsend with
    | quiet hslots' houtbox hcleared hopen' =>
        rw [hslots', houtbox, hcleared]
        exact hopen
    | announce bucket hbucket hslots' houtbox hcleared hopen' =>
        rw [hslots', houtbox, hcleared]
        exact hopen.announce hbucket
    | complete hsent hlt harmed hslots' houtbox hcleared hopen' =>
        have hstale : (stale 0).get (slotOf (s.sender.cleared sent)) = false := by
          rw [← slotOf_add_two, ← hsent]
          exact hslots 0 hn sent (by omega) hlt
        rw [hslots', houtbox, hcleared]
        exact hopen.complete hopen' (Nat.le_of_eq hsent) hstale harmed
    | close hdone hsent harmed hslots' houtbox hold hcleared =>
        rw [houtbox, hcleared, ← hold]
        exact hopen.close fun h => h hdone
  refine ⟨sent', ?_, ?_, ?_, ?_⟩
  · rw [MooncakeState.setSender_memory_zero]
    exact hsender
  · intro k hk
    rw [MooncakeState.setSender_memory_succ]
    exact hs.receiver k hk
  · intro k hk
    cases k with
    | zero =>
        rw [MooncakeState.setSender_memory_zero, MooncakeState.setSender_store_zero]
        exact ⟨hlink.store_eq, hlink.fetched_le, hlink.idx_le, hlink.cleared_le,
          fun h => hlink.flags (h rfl)⟩
    | succ k =>
        have hk := hs.link (k + 1) hk
        rw [MooncakeState.setSender_memory_succ, MooncakeState.setSender_store_succ]
        exact ⟨hk.store_eq, hk.fetched_le, hk.idx_le, hk.cleared_le,
          fun _ => hk.flags fun h => absurd h (Nat.succ_ne_zero k)⟩
  · intro hdone hstale
    rw [MooncakeState.setSender_memory_zero]
    cases hsend with
    | quiet hslots' houtbox hcleared hopen => exact absurd hdone hopen
    | announce bucket hbucket hslots' houtbox hcleared hopen => exact absurd hdone hopen
    | complete hsent hlt harmed hslots' houtbox hcleared hopen => exact absurd hdone hopen
    | close hdone' hsent harmed hslots' houtbox hold hcleared =>
        have hflags := hzero.flags fun _ => hlive
        have hwindow := hzero.idx_le
        have hfetched := hzero.fetched_le
        simp only [MooncakeState.sentBy, MooncakeState.clearedBy, hold] at hflags hfetched
        have hpos := length_packBuckets_pos bucketSize weights
        -- the armed slot is that of the last bucket
        have hidx : (s.receivers 0).idx = (packBuckets bucketSize weights).length := by
          obtain hfalse | ⟨j, hle, hlt, hslot⟩ := (hflags _).mp harmed
          · rw [hsent, hstale] at hfalse
            cases hfalse
          · have := eq_of_slotOf_eq hslot (by omega) (by omega)
            omega
        refine ⟨hidx, fun i => ?_⟩
        rw [hslots']
        by_cases hi : i = slotOf (sent - 1)
        · subst hi
          rw [MagicSlots.get_set_self, hsent, hstale]
          refine iff_of_false Bool.false_ne_true fun hex => ?_
          obtain hfalse | ⟨htwo, hslot⟩ := hex
          · cases hfalse
          · refine slotOf_succ_ne ((packBuckets bucketSize weights).length - 1) ?_
            rw [Nat.sub_add_cancel hpos]
            exact hslot.symm
        · rw [MagicSlots.get_set_of_ne hi, hflags i]
          refine or_congr_right ⟨?_, ?_⟩
          · rintro ⟨j, hle, hlt, hslot⟩
            have hne : j ≠ sent - 1 := fun h => hi (by rw [← hslot, h])
            refine ⟨by omega, ?_⟩
            rw [← hslot, ← slotOf_add_two j]
            exact congrArg slotOf (by omega)
          · rintro ⟨htwo, hslot⟩
            refine ⟨sent - 2, Nat.le_refl _, by omega, ?_⟩
            rw [hslot, ← slotOf_add_two (sent - 2)]
            exact congrArg slotOf (by omega)

/-! ## Steps of the other ranks -/

/-- A rank that keeps its two links as they must be. -/
theorem setReceiver (hs : MooncakeOk n bucketSize weights stale s sent) (hk : k < n)
    (hr : MooncakeReceiverOk bucketSize (packBuckets bucketSize weights) r v.memory.bufs)
    (hbufs : v.source.bufs = (s.memory k).bufs)
    (hlink : MooncakeLinkOk (packBuckets bucketSize weights) (stale k)
      (k = 0 → s.sender.pc ≠ .done) (s.sentBy sent k) (s.clearedBy sent k) v.source.slots v.inbox
      r.fetched r.idx)
    (hnext : k + 1 < n → MooncakeLinkOk (packBuckets bucketSize weights) (stale (k + 1))
      (k + 1 = 0 → s.sender.pc ≠ .done) r.sent r.cleared v.memory.slots v.outbox
      (s.receivers (k + 1)).fetched (s.receivers (k + 1)).idx)
    (hclosing : k = 0 → s.sender.pc = .done →
      (stale 0).get (slotOf ((packBuckets bucketSize weights).length - 1)) = false →
        v.source.slots = (s.memory k).slots ∧ r.idx = (s.receivers k).idx) :
    MooncakeOk n bucketSize weights stale (s.set k r v) sent where
  sender := by
    cases k with
    | zero =>
        rw [MooncakeState.set_memory_self, hbufs]
        exact hs.sender
    | succ k =>
        rw [MooncakeState.set_memory_of_ne (by omega) (by omega)]
        exact hs.sender
  receiver := by
    intro i hi
    by_cases hik : i = k
    · subst hik
      rw [MooncakeState.set_receivers_self, MooncakeState.set_memory_succ]
      exact hr
    · rw [MooncakeState.set_receivers_of_ne hik]
      by_cases hik' : i + 1 = k
      · subst hik'
        rw [MooncakeState.set_memory_self, hbufs]
        exact hs.receiver i hi
      · rw [MooncakeState.set_memory_of_ne hik' (by omega)]
        exact hs.receiver i hi
  link := by
    intro i hi
    by_cases hik : i = k
    · subst hik
      have hsent : (s.set i r v).sentBy sent i = s.sentBy sent i := by
        cases i with
        | zero => rfl
        | succ j =>
            rw [MooncakeState.sentBy, MooncakeState.set_receivers_of_ne (by omega)]
            rfl
      have hcleared : (s.set i r v).clearedBy sent i = s.clearedBy sent i := by
        cases i with
        | zero => rfl
        | succ j =>
            rw [MooncakeState.clearedBy, MooncakeState.set_receivers_of_ne (by omega)]
            rfl
      rw [hsent, hcleared, MooncakeState.set_memory_self, MooncakeState.set_store_self,
        MooncakeState.set_receivers_self]
      exact hlink
    · rw [MooncakeState.set_receivers_of_ne hik]
      by_cases hik' : i = k + 1
      · subst hik'
        rw [MooncakeState.sentBy, MooncakeState.clearedBy, MooncakeState.set_receivers_self,
          MooncakeState.set_memory_succ, MooncakeState.set_store_succ]
        exact hnext hi
      · have hsent : (s.set k r v).sentBy sent i = s.sentBy sent i := by
          cases i with
          | zero => rfl
          | succ j =>
              rw [MooncakeState.sentBy, MooncakeState.set_receivers_of_ne (by omega)]
              rfl
        have hcleared : (s.set k r v).clearedBy sent i = s.clearedBy sent i := by
          cases i with
          | zero => rfl
          | succ j =>
              rw [MooncakeState.clearedBy, MooncakeState.set_receivers_of_ne (by omega)]
              rfl
        rw [hsent, hcleared, MooncakeState.set_memory_of_ne hik hik',
          MooncakeState.set_store_of_ne hik hik']
        exact hs.link i hi
  closing := by
    intro hdone hstale
    obtain ⟨hidx, hflags⟩ := hs.closing hdone hstale
    cases k with
    | zero =>
        obtain ⟨hslots, hsame⟩ := hclosing rfl hdone hstale
        rw [MooncakeState.set_receivers_self, MooncakeState.set_memory_self, hsame, hslots]
        exact ⟨hidx, hflags⟩
    | succ k =>
        rw [MooncakeState.set_receivers_of_ne (by omega),
          MooncakeState.set_memory_of_ne (by omega) (by omega)]
        exact ⟨hidx, hflags⟩

/-- The buffers of a rank hold what the next one may read. -/
theorem source_holds (hs : MooncakeOk n bucketSize weights stale s sent) (hk : k < n) {j : Nat}
    (hle : s.clearedBy sent k ≤ j) (hlt : j < s.sentBy sent k) :
    (s.memory k).bufs.Holds (packBuckets bucketSize weights) j := by
  cases k with
  | zero => exact hs.sender.holds j hle hlt
  | succ k => exact (hs.receiver k (by omega)).holds j hle hlt

/-- The link behind a rank that announces nothing and waits for nothing. -/
theorem link_succ (hs : MooncakeOk n bucketSize weights stale s sent) (hk : k + 1 < n)
    (hsent : r.sent = (s.receivers k).sent) (hcleared : r.cleared = (s.receivers k).cleared) :
    MooncakeLinkOk (packBuckets bucketSize weights) (stale (k + 1))
      (k + 1 = 0 → s.sender.pc ≠ .done) r.sent r.cleared (s.memory (k + 1)).slots
      (s.store (k + 1)) (s.receivers (k + 1)).fetched (s.receivers (k + 1)).idx := by
  rw [hsent, hcleared]
  exact hs.link (k + 1) hk

theorem fetch (hs : MooncakeOk n bucketSize weights stale s sent) (hk : k < n)
    (h : (s.receivers k).next bucketSize (k + 1 < n) (s.view k) .fetch = some (r, v)) :
    MooncakeOk n bucketSize weights stale (s.set k r v) sent := by
  simp only [MooncakeReceiver.next] at h
  split at h
  next info inbox hpc hinbox =>
    cases h
    have hr := hs.receiver k hk
    have hok := hr.pcOk
    rw [MooncakeReceiver.PcOk, hpc] at hok
    have hfetched : (s.receivers k).fetched = (s.receivers k).idx := by
      rw [MooncakeReceiver.fetched, hpc]
    have hsent : (s.receivers k).sent = (s.receivers k).idx := by
      rw [MooncakeReceiver.sent, hpc]
    have hcleared : (s.receivers k).cleared = (s.receivers k).idx - 2 := by
      rw [MooncakeReceiver.cleared, hpc]
    have hlink := hs.link k hk
    have hstore : s.store k = info :: inbox := hinbox
    rw [hstore, hfetched] at hlink
    obtain ⟨hlink, bucket, hbucket, hinfo⟩ := hlink.fetch
    by_cases hwait : 2 ≤ (s.receivers k).idx ∧ k + 1 < n
    · rw [if_pos (by simpa using hwait)]
      refine hs.setReceiver hk ⟨⟨hwait.1, ⟨bucket, hbucket, hinfo⟩, hok.2⟩, hr.length_bufs, ?_⟩ rfl
        hlink (fun hnext => hs.link_succ hnext hsent.symm hcleared.symm)
        (fun _ _ _ => ⟨rfl, rfl⟩)
      exact fun j hle hlt => hr.holds j (hcleared ▸ hle) (hsent ▸ hlt)
    · rw [if_neg (by simpa using hwait)]
      refine hs.setReceiver hk
        ⟨⟨bucket, hbucket, hinfo, hok.2, fun pos hpos hnot => ?_⟩, hr.length_bufs, ?_⟩ rfl
        hlink (fun hnext => hs.link_succ hnext hsent.symm ?_) (fun _ _ _ => ⟨rfl, rfl⟩)
      · rw [hinfo] at hnot
        exact absurd (List.mem_range.mpr hpos) hnot
      · intro j hle hlt
        have hle : (s.receivers k).idx - 1 ≤ j := hle
        exact hr.holds j (by omega) (hsent ▸ hlt)
      · rw [hcleared]
        simp only [MooncakeReceiver.cleared]
        omega
  · cases h

theorem complete (hs : MooncakeOk n bucketSize weights stale s sent)
    (hslots : SlotsOk n (packBuckets bucketSize weights) stale) (hk : k < n)
    (h : (s.receivers k).next bucketSize (k + 1 < n) (s.view k) .complete = some (r, v)) :
    MooncakeOk n bucketSize weights stale (s.set k r v) sent := by
  simp only [MooncakeReceiver.next] at h
  split at h
  next info hpc =>
    obtain ⟨harmed, h⟩ := Option.ite_none_right_eq_some.mp h
    cases h
    have hr := hs.receiver k hk
    have hok := hr.pcOk
    rw [MooncakeReceiver.PcOk, hpc] at hok
    obtain ⟨htwo, ⟨bucket, hbucket, hinfo⟩, hyielded⟩ := hok
    have hsent : (s.receivers k).sent = (s.receivers k).idx := by
      rw [MooncakeReceiver.sent, hpc]
    have hcleared : (s.receivers k).cleared = (s.receivers k).idx - 2 := by
      rw [MooncakeReceiver.cleared, hpc]
    have hfetched : (s.receivers k).fetched = (s.receivers k).idx + 1 := by
      rw [MooncakeReceiver.fetched, hpc]
    have hslot : slotOf ((s.receivers k).idx - 2) = slotOf (s.receivers k).idx := by
      rw [← slotOf_add_two, Nat.sub_add_cancel htwo]
    have hlink := hs.link k hk
    rw [hfetched] at hlink
    refine hs.setReceiver hk
      ⟨⟨bucket, hbucket, hinfo, hyielded, fun pos hpos hnot => ?_⟩, hr.length_bufs, ?_⟩ rfl hlink
      (fun hnext => ?_) (fun _ _ _ => ⟨rfl, rfl⟩)
    · rw [hinfo] at hnot
      exact absurd (List.mem_range.mpr hpos) hnot
    · intro j hle hlt
      have hle : (s.receivers k).idx - 1 ≤ j := hle
      exact hr.holds j (by omega) (hsent ▸ hlt)
    · have hbehind := hs.link (k + 1) hnext
      simp only [MooncakeState.sentBy, MooncakeState.clearedBy, hsent, hcleared] at hbehind
      have hstale : (stale (k + 1)).get (slotOf ((s.receivers k).idx - 2)) = false := by
        rw [hslot]
        exact hslots (k + 1) hnext _ htwo (List.getElem?_eq_some_iff.mp hbucket).1
      have hcomplete := hbehind.complete (fun h => absurd h (Nat.succ_ne_zero k)) (by omega) hstale
        (by rw [hslot]; exact harmed)
      rw [hslot, show (s.receivers k).idx - 2 + 1 = (s.receivers k).idx - 1 by omega] at hcomplete
      exact hcomplete
  · cases h

theorem copy (hs : MooncakeOk n bucketSize weights stale s sent) (hk : k < n) {pos : Nat}
    (h : (s.receivers k).next bucketSize (k + 1 < n) (s.view k) (.copy pos) = some (r, v)) :
    MooncakeOk n bucketSize weights stale (s.set k r v) sent := by
  simp only [MooncakeReceiver.next] at h
  split at h
  next info todo hpc =>
    obtain ⟨hmem, h⟩ := Option.ite_none_right_eq_some.mp h
    cases h
    have hr := hs.receiver k hk
    have hok := hr.pcOk
    rw [MooncakeReceiver.PcOk, hpc] at hok
    obtain ⟨bucket, hbucket, rfl, hyielded, hcopied⟩ := hok
    have hsent : (s.receivers k).sent = (s.receivers k).idx := by
      rw [MooncakeReceiver.sent, hpc]
    have hcleared : (s.receivers k).cleared = (s.receivers k).idx - 1 := by
      rw [MooncakeReceiver.cleared, hpc]
    have hfetched : (s.receivers k).fetched = (s.receivers k).idx + 1 := by
      rw [MooncakeReceiver.fetched, hpc]
    have hlink := hs.link k hk
    -- the rank before still holds the bucket
    have hsource := hs.source_holds hk hlink.cleared_le
      (Nat.lt_of_lt_of_le (by omega) hlink.fetched_le) bucket hbucket
    rw [hfetched] at hlink
    refine hs.setReceiver hk ⟨⟨bucket, hbucket, rfl, hyielded, fun i hi hnot => ?_⟩, ?_, ?_⟩ rfl
      hlink (fun hnext => hs.link_succ hnext hsent.symm hcleared.symm) (fun _ _ _ => ⟨rfl, rfl⟩)
    · rw [Buffers.get_set_self]
      by_cases hpos : pos = i
      · subst hpos
        have hread : ((s.memory k).bufs.get (slotOf (s.receivers k).idx))[pos]? =
            bucket.data[pos]? := by
          rw [← hsource, List.getElem?_take_of_lt hi]
        have hdata : bucket.data[pos]? = some bucket.data[pos] := List.getElem?_eq_getElem hi
        have hlength : pos < ((s.receivers k).current (s.memory (k + 1))).length := by
          have hle := congrArg List.length hsource
          have hbuf : ((s.memory k).bufs.get (slotOf (s.receivers k).idx)).length = bucketSize := by
            cases k with
            | zero => exact hs.sender.length_bufs _
            | succ k => exact (hs.receiver k (by omega)).length_bufs _
          rw [List.length_take, hbuf] at hle
          rw [MooncakeReceiver.current, hr.length_bufs]
          omega
        have hset := List.getElem?_set_self (a := bucket.data[pos]) hlength
        have hbyte : ((s.memory k).bufs.get (slotOf (s.receivers k).idx)).getD pos 0 =
            bucket.data[pos] := by
          rw [List.getD_eq_getElem?_getD, hread, hdata, Option.getD_some]
        exact (congrArg (fun byte => (((s.receivers k).current (s.memory (k + 1))).set pos
          byte)[pos]?) hbyte).trans (hset.trans hdata.symm)
      · rw [List.getElem?_set_ne hpos]
        refine hcopied i hi fun hin => hnot ?_
        exact (List.mem_erase_of_ne (fun h => hpos h.symm)).mpr hin
    · intro i
      by_cases hi : i = slotOf (s.receivers k).idx
      · rw [hi, Buffers.get_set_self, List.length_set]
        exact hr.length_bufs _
      · rw [Bool.eq_not_of_ne hi, Buffers.get_not_set]
        exact hr.length_bufs _
    · intro j hle hlt bucket' hbucket'
      have hle : (s.receivers k).idx - 1 ≤ j := hle
      have hlt : j < (s.receivers k).idx := hlt
      have hslot : slotOf j = !slotOf (s.receivers k).idx := by
        rw [show (s.receivers k).idx = j + 1 by omega, slotOf_succ, Bool.not_not]
      rw [hslot, Buffers.get_not_set, ← hslot]
      exact hr.holds j (by omega) (by omega) bucket' hbucket'
  · cases h

/-- The bytes that were copied are those of the bucket. -/
theorem take_eq_data {xs data : List UInt8} (hle : data.length ≤ xs.length)
    (h : ∀ pos < data.length, xs[pos]? = data[pos]?) : xs.take data.length = data := by
  refine List.ext_getElem? fun pos => ?_
  by_cases hpos : pos < data.length
  · rw [List.getElem?_take_of_lt hpos]
    exact h pos hpos
  · rw [List.getElem?_eq_none (by rw [List.length_take]; omega),
      List.getElem?_eq_none (Nat.not_lt.mp hpos)]

theorem forward (hs : MooncakeOk n bucketSize weights stale s sent)
    (hw : MooncakeWeightsOk bucketSize itemsize weights) (hk : k < n)
    (h : (s.receivers k).next bucketSize (k + 1 < n) (s.view k) .forward = some (r, v)) :
    MooncakeOk n bucketSize weights stale (s.set k r v) sent := by
  simp only [MooncakeReceiver.next] at h
  split at h
  next info hpc =>
    cases h
    have hr := hs.receiver k hk
    have hok := hr.pcOk
    rw [MooncakeReceiver.PcOk, hpc] at hok
    obtain ⟨bucket, hbucket, rfl, hyielded, hcopied⟩ := hok
    have hsent : (s.receivers k).sent = (s.receivers k).idx := by
      rw [MooncakeReceiver.sent, hpc]
    have hcleared : (s.receivers k).cleared = (s.receivers k).idx - 1 := by
      rw [MooncakeReceiver.cleared, hpc]
    have hfetched : (s.receivers k).fetched = (s.receivers k).idx + 1 := by
      rw [MooncakeReceiver.fetched, hpc]
    have hlink := hs.link k hk
    rw [hfetched] at hlink
    refine hs.setReceiver hk
      ⟨⟨bucket, [], hbucket, rfl, rfl, by rw [List.map_nil, List.append_nil]; exact hyielded⟩,
        hr.length_bufs, ?_⟩ rfl hlink (fun hnext => ?_) (fun _ _ _ => ⟨rfl, rfl⟩)
    · intro j hle hlt
      have hle : (s.receivers k).idx - 1 ≤ j := hle
      have hlt : j < (s.receivers k).idx + 1 := hlt
      obtain hlt | rfl := Nat.lt_succ_iff_lt_or_eq.mp hlt
      · exact hr.holds j (by omega) (by omega)
      · intro bucket' hbucket'
        rw [hbucket] at hbucket'
        cases hbucket'
        refine take_eq_data ?_ fun pos hpos => hcopied pos hpos List.not_mem_nil
        have hbuf : ((s.memory (k + 1)).bufs.get (slotOf (s.receivers k).idx)).length =
            bucketSize := hr.length_bufs _
        exact hbuf ▸ (packBuckets_ok hw (List.mem_of_getElem? hbucket)).length_le
    · have hbehind := hs.link (k + 1) hnext
      simp only [MooncakeState.sentBy, MooncakeState.clearedBy, hsent, hcleared] at hbehind
      have hannounce := hbehind.announce hbucket
      rw [decide_eq_true hnext]
      exact hannounce
  · cases h

theorem yield (hs : MooncakeOk n bucketSize weights stale s sent)
    (hw : MooncakeWeightsOk bucketSize itemsize weights) (hk : k < n)
    (h : (s.receivers k).next bucketSize (k + 1 < n) (s.view k) .yield = some (r, v)) :
    MooncakeOk n bucketSize weights stale (s.set k r v) sent := by
  simp only [MooncakeReceiver.next] at h
  split at h
  next info item pending hpc =>
    cases h
    have hr := hs.receiver k hk
    have hok := hr.pcOk
    rw [MooncakeReceiver.PcOk, hpc] at hok
    obtain ⟨bucket, processed, hbucket, rfl, hmeta, hyielded⟩ := hok
    have hsent : (s.receivers k).sent = (s.receivers k).idx + 1 := by
      rw [MooncakeReceiver.sent, hpc]
    have hcleared : (s.receivers k).cleared = (s.receivers k).idx - 1 := by
      rw [MooncakeReceiver.cleared, hpc]
    have hfetched : (s.receivers k).fetched = (s.receivers k).idx + 1 := by
      rw [MooncakeReceiver.fetched, hpc]
    have hlink := hs.link k hk
    rw [hfetched] at hlink
    have hview : (s.receivers k).viewable bucketSize item.2 = true := by
      have hbucketOk := packBuckets_ok hw (List.mem_of_getElem? hbucket)
      obtain ⟨hsize, hoffset, hle⟩ := hbucketOk.items item (by rw [hmeta]; simp)
      have hlength := hbucketOk.length_le
      refine decide_eq_true ⟨?_, by omega⟩
      rw [hsize]
      refine Nat.mod_eq_zero_of_dvd (Nat.dvd_add ?_ hoffset)
      split
      · exact hw.itemsize_dvd
      · exact Nat.dvd_zero _
    rw [if_pos hview]
    refine hs.setReceiver hk
      ⟨⟨bucket, processed, hbucket, rfl, hmeta, hyielded⟩, hr.length_bufs, ?_⟩ rfl hlink
      (fun hnext => hs.link_succ hnext hsent.symm hcleared.symm) (fun _ _ _ => ⟨rfl, rfl⟩)
    exact fun j hle hlt => hr.holds j (hcleared ▸ hle) (hsent ▸ hlt)
  · cases h

/-- What the consumer sees is the tensor of the bucket. -/
theorem held_eq {memory : MooncakeMemory} {buckets : List MooncakeBucket}
    {bucket : MooncakeBucket} {item : String × MooncakeMeta}
    (hholds : memory.bufs.Holds buckets r.idx) (hbucket : buckets[r.idx]? = some bucket)
    (hle : item.2.offset + item.2.size ≤ bucket.data.length) :
    r.held memory item = tensorAt bucket.data item := by
  have hsplit : r.current memory =
      bucket.data ++ (r.current memory).drop bucket.data.length := by
    refine (List.take_append_drop bucket.data.length _).symm.trans ?_
    rw [MooncakeReceiver.current, hholds bucket hbucket]
  calc r.held memory item = tensorAt (r.current memory) item := rfl
    _ = tensorAt (bucket.data ++ (r.current memory).drop bucket.data.length) item :=
        congrArg (tensorAt · item) hsplit
    _ = tensorAt bucket.data item := tensorAt_append hle _

theorem consume (hs : MooncakeOk n bucketSize weights stale s sent)
    (hw : MooncakeWeightsOk bucketSize itemsize weights) (hk : k < n)
    (h : (s.receivers k).next bucketSize (k + 1 < n) (s.view k) .consume = some (r, v)) :
    MooncakeOk n bucketSize weights stale (s.set k r v) sent := by
  simp only [MooncakeReceiver.next] at h
  split at h
  next info item pending hpc =>
    cases h
    have hr := hs.receiver k hk
    have hok := hr.pcOk
    rw [MooncakeReceiver.PcOk, hpc] at hok
    obtain ⟨bucket, processed, hbucket, rfl, hmeta, hyielded⟩ := hok
    have hsent : (s.receivers k).sent = (s.receivers k).idx + 1 := by
      rw [MooncakeReceiver.sent, hpc]
    have hcleared : (s.receivers k).cleared = (s.receivers k).idx - 1 := by
      rw [MooncakeReceiver.cleared, hpc]
    have hfetched : (s.receivers k).fetched = (s.receivers k).idx + 1 := by
      rw [MooncakeReceiver.fetched, hpc]
    have hlink := hs.link k hk
    rw [hfetched] at hlink
    have hitem : item ∈ bucket.bucketMeta := by
      rw [hmeta]
      simp
    have hheld : (s.receivers k).held (s.view k).memory item = tensorAt bucket.data item := by
      refine held_eq (hr.holds (s.receivers k).idx ?_ ?_) hbucket
        ((packBuckets_ok hw (List.mem_of_getElem? hbucket)).items item hitem).2.2
      · rw [hcleared]
        omega
      · rw [hsent]
        omega
    rw [hheld]
    refine hs.setReceiver hk
      ⟨⟨bucket, processed ++ [item], hbucket, rfl, ?_, ?_⟩, hr.length_bufs, ?_⟩ rfl hlink
      (fun hnext => hs.link_succ hnext hsent.symm hcleared.symm) (fun _ _ _ => ⟨rfl, rfl⟩)
    · rw [hmeta, List.append_assoc]
      rfl
    · rw [hyielded, List.map_append, List.append_assoc]
      rfl
    · exact fun j hle hlt => hr.holds j (hcleared ▸ hle) (hsent ▸ hlt)
  · cases h

theorem ack (hs : MooncakeOk n bucketSize weights stale s sent) (hk : k < n)
    (h : (s.receivers k).next bucketSize (k + 1 < n) (s.view k) .ack = some (r, v)) :
    MooncakeOk n bucketSize weights stale (s.set k r v) sent := by
  simp only [MooncakeReceiver.next] at h
  split at h
  next info hpc =>
    cases h
    have hr := hs.receiver k hk
    have hok := hr.pcOk
    rw [MooncakeReceiver.PcOk, hpc] at hok
    obtain ⟨bucket, processed, hbucket, rfl, hmeta, hyielded⟩ := hok
    rw [List.append_nil] at hmeta
    have hlt := (List.getElem?_eq_some_iff.mp hbucket).1
    have hlast : bucket.isLast = decide ((s.receivers k).idx + 1 =
        (packBuckets bucketSize weights).length) := packFrom_isLast hbucket
    have hsent : (s.receivers k).sent = (s.receivers k).idx + 1 := by
      rw [MooncakeReceiver.sent, hpc]
    have hcleared : (s.receivers k).cleared = (s.receivers k).idx - 1 := by
      rw [MooncakeReceiver.cleared, hpc]
    have hfetched : (s.receivers k).fetched = (s.receivers k).idx + 1 := by
      rw [MooncakeReceiver.fetched, hpc]
    have hlink := hs.link k hk
    rw [hfetched] at hlink
    have hack := hlink.ack (Nat.lt_succ_self _)
    have hall : (s.receivers k).yielded =
        ((packBuckets bucketSize weights).take ((s.receivers k).idx + 1)).flatMap
          MooncakeBucket.tensors := by
      rw [List.take_add_one, hbucket, List.flatMap_append, hyielded, ← hmeta]
      exact congrArg _ (List.append_nil _).symm
    have hholds : ∀ j, (s.receivers k).idx + 1 - 2 ≤ j → j < (s.receivers k).idx + 1 →
        (s.memory (k + 1)).bufs.Holds (packBuckets bucketSize weights) j :=
      fun j hle hlt => hr.holds j (by omega) (by omega)
    have hclosing : k = 0 → s.sender.pc = .done →
        (stale 0).get (slotOf ((packBuckets bucketSize weights).length - 1)) = false → False := by
      intro hzero hdone hstale
      subst hzero
      exact Nat.ne_of_lt hlt (hs.closing hdone hstale).1
    by_cases hend : (s.receivers k).idx + 1 = (packBuckets bucketSize weights).length
    · have hmark : (bucket.info (s.receivers k).idx).isLast = true :=
        hlast.trans (decide_eq_true hend)
      rw [if_pos hmark]
      refine hs.setReceiver hk ⟨⟨hend, hall⟩, hr.length_bufs, hholds⟩ rfl hack
        (fun hnext => hs.link_succ hnext hsent.symm ?_)
        (fun hzero hdone hstale => (hclosing hzero hdone hstale).elim)
      rw [hcleared]
      rfl
    · have hmark : ¬ (bucket.info (s.receivers k).idx).isLast = true := by
        refine Bool.eq_false_iff.mp (hlast.trans (decide_eq_false hend))
      rw [if_neg hmark]
      refine hs.setReceiver hk ⟨⟨Nat.lt_of_le_of_ne hlt hend, hall⟩, hr.length_bufs, hholds⟩ rfl hack
        (fun hnext => hs.link_succ hnext hsent.symm ?_)
        (fun hzero hdone hstale => (hclosing hzero hdone hstale).elim)
      rw [hcleared]
      rfl
  · cases h

/-! ## Runs -/

/-- Every step of the chain keeps the invariant. -/
theorem next (hs : MooncakeOk n bucketSize weights stale s sent) (hn : 0 < n)
    (hw : MooncakeWeightsOk bucketSize itemsize weights)
    (hslots : SlotsOk n (packBuckets bucketSize weights) stale) {a : MooncakeAct}
    {t : MooncakeState} (h : s.next n bucketSize a = some t) :
    ∃ sent', MooncakeOk n bucketSize weights stale t sent' := by
  cases a with
  | send a =>
      obtain ⟨⟨sender, memory, outbox⟩, hstep, rfl⟩ := Option.map_eq_some_iff.mp h
      exact hs.next_send hn hslots hstep
  | recv k a =>
      obtain ⟨hk, h⟩ := Option.ite_none_right_eq_some.mp h
      obtain ⟨⟨r, v⟩, hstep, rfl⟩ := Option.map_eq_some_iff.mp h
      cases a with
      | fetch => exact ⟨sent, hs.fetch hk hstep⟩
      | complete => exact ⟨sent, hs.complete hslots hk hstep⟩
      | copy pos => exact ⟨sent, hs.copy hk hstep⟩
      | forward => exact ⟨sent, hs.forward hw hk hstep⟩
      | yield => exact ⟨sent, hs.yield hw hk hstep⟩
      | consume => exact ⟨sent, hs.consume hw hk hstep⟩
      | ack => exact ⟨sent, hs.ack hk hstep⟩

/-- A rank has yielded a part of the weights. -/
theorem yielded_prefix (hs : MooncakeOk n bucketSize weights stale s sent)
    (hw : MooncakeWeightsOk bucketSize itemsize weights) (hk : k < n) :
    (s.receivers k).yielded <+: weights.map Weight.tensor := by
  have hok := (hs.receiver k hk).pcOk
  have hbefore : ((packBuckets bucketSize weights).take (s.receivers k).idx).flatMap
      MooncakeBucket.tensors <+: weights.map Weight.tensor := by
    rw [← tensors_packBuckets hw]
    exact ⟨((packBuckets bucketSize weights).drop (s.receivers k).idx).flatMap
      MooncakeBucket.tensors, by rw [← List.flatMap_append, List.take_append_drop]⟩
  have hcurrent : ∀ {bucket processed rest}, (packBuckets bucketSize weights)[(s.receivers k).idx]? =
      some bucket → bucket.bucketMeta = processed ++ rest →
      ((packBuckets bucketSize weights).take (s.receivers k).idx).flatMap MooncakeBucket.tensors ++
        processed.map (tensorAt bucket.data) <+: weights.map Weight.tensor := by
    intro bucket processed rest hbucket hmeta
    have htensors : processed.map (tensorAt bucket.data) <+: bucket.tensors := by
      rw [MooncakeBucket.tensors, hmeta, List.map_append]
      exact List.prefix_append _ _
    have hall : ((packBuckets bucketSize weights).take ((s.receivers k).idx + 1)).flatMap
        MooncakeBucket.tensors <+: weights.map Weight.tensor := by
      rw [← tensors_packBuckets hw]
      exact ⟨((packBuckets bucketSize weights).drop ((s.receivers k).idx + 1)).flatMap
        MooncakeBucket.tensors, by rw [← List.flatMap_append, List.take_append_drop]⟩
    rw [List.take_add_one, hbucket, List.flatMap_append] at hall
    refine ((List.prefix_append_right_inj _).mpr ?_).trans hall
    rw [Option.toList, List.flatMap_singleton]
    exact htensors
  rw [MooncakeReceiver.PcOk] at hok
  split at hok
  · exact hok.2 ▸ hbefore
  · exact hok.2.2 ▸ hbefore
  · obtain ⟨bucket, -, -, hyielded, -⟩ := hok
    exact hyielded ▸ hbefore
  · obtain ⟨bucket, processed, hbucket, -, hmeta, hyielded⟩ := hok
    exact hyielded ▸ hcurrent hbucket hmeta
  · obtain ⟨bucket, processed, hbucket, -, hmeta, hyielded⟩ := hok
    exact hyielded ▸ hcurrent hbucket hmeta
  · exact hok.2 ▸ hbefore
  · exact hok.elim

end MooncakeOk

section

variable {n bucketSize itemsize : Nat} {weights : List Weight} {memory : Nat → MooncakeMemory}

/-- Every run keeps the invariant. -/
theorem mooncake_run_ok (hn : 0 < n) (hw : MooncakeWeightsOk bucketSize itemsize weights)
    (hmemory : ∀ k i, ((memory k).bufs.get i).length = bucketSize)
    (hslots : SlotsOk n (packBuckets bucketSize weights) fun k => (memory k).slots)
    {acts : List MooncakeAct} {s : MooncakeState}
    (hrun : Run.exec (MooncakeState.next n bucketSize) (.start memory weights) acts = some s) :
    ∃ sent, MooncakeOk n bucketSize weights (fun k => (memory k).slots) s sent :=
  Run.exec_invariant
    (P := fun s => ∃ sent, MooncakeOk n bucketSize weights (fun k => (memory k).slots) s sent)
    (fun _ _ _ ⟨_, hs⟩ hstep => hs.next hn hw hslots hstep)
    ⟨0, mooncake_start_ok hw hmemory⟩ hrun

/-- Whatever the memory holds at the start, if no bucket from the third on waits for a
slot that is armed already, no interleaving of the ranks fails, and every rank yields
the weights that were sent. -/
theorem mooncake_chain_safe (n bucketSize itemsize : Nat) (weights : List Weight)
    (memory : Nat → MooncakeMemory) (hn : 0 < n)
    (hw : MooncakeWeightsOk bucketSize itemsize weights)
    (hmemory : ∀ k i, ((memory k).bufs.get i).length = bucketSize)
    (hslots : SlotsOk n (packBuckets bucketSize weights) fun k => (memory k).slots)
    (acts : List MooncakeAct) (s : MooncakeState)
    (hrun : Run.exec (MooncakeState.next n bucketSize) (.start memory weights) acts = some s) :
    s.sender.pc ≠ .raised ∧ ∀ k < n,
      (s.receivers k).pc ≠ .raised ∧ (s.receivers k).yielded <+: weights.map Weight.tensor := by
  obtain ⟨sent, hs⟩ := mooncake_run_ok hn hw hmemory hslots hrun
  refine ⟨fun hraised => ?_, fun k hk => ⟨fun hraised => ?_, hs.yielded_prefix hw hk⟩⟩
  · have hok := hs.sender.pcOk
    rw [MooncakeSender.PcOk, hraised] at hok
    exact hok
  · have hok := (hs.receiver k hk).pcOk
    rw [MooncakeReceiver.PcOk, hraised] at hok
    exact hok

end

/-- A weight of one byte, and a memory of two buffers of one byte. -/
def byteWeight (name : String) (byte : UInt8) : Weight := ⟨name, [1], ⟨"uint8", 1⟩, [byte], rfl⟩

def byteMemory : Nat → MooncakeMemory := fun _ => ⟨⟨[0], [0]⟩, ⟨false, false⟩⟩

theorem length_byteMemory (k : Nat) (i : Bool) : ((byteMemory k).bufs.get i).length = 1 := by
  cases i <;> rfl

theorem byteWeights_ok (names : List (String × UInt8)) (hnames : (names.map Prod.fst).Nodup) :
    MooncakeWeightsOk 1 1 (names.map fun p => byteWeight p.1 p.2) where
  itemsize_dvd := Nat.dvd_refl 1
  names := by
    rw [List.map_map]
    exact hnames
  fits := by
    intro w hw
    obtain ⟨p, -, rfl⟩ := List.mem_map.mp hw
    exact Nat.le_refl 1
  itemsize_eq := by
    intro w hw
    obtain ⟨p, -, rfl⟩ := List.mem_map.mp hw
    rfl

/-- Three buckets go to one rank, which has yielded two of them. -/
theorem mooncake_chain_safe_three_buckets :
    ∃ s, Run.exec (MooncakeState.next 1 1)
        (.start byteMemory [byteWeight "a" 7, byteWeight "b" 8, byteWeight "c" 9])
        [.send .check, .send .place, .send .check, .send .flush, .send .place, .send .check,
          .send .flush, .recv 0 .fetch, .recv 0 (.copy 0), .recv 0 .forward, .recv 0 .yield,
          .recv 0 .consume, .recv 0 .ack, .send .complete, .send .place, .recv 0 .fetch,
          .send .startLast, .recv 0 (.copy 0), .recv 0 .forward, .recv 0 .yield,
          .recv 0 .consume] = some s ∧
      (s.receivers 0).yielded.length = 2 ∧
      (s.receivers 0).yielded <+:
        [(byteWeight "a" 7).tensor, (byteWeight "b" 8).tensor, (byteWeight "c" 9).tensor] := by
  have hw := byteWeights_ok [("a", 7), ("b", 8), ("c", 9)] (by decide)
  have hyielded : (Run.exec (MooncakeState.next 1 1)
      (.start byteMemory [byteWeight "a" 7, byteWeight "b" 8, byteWeight "c" 9])
      [.send .check, .send .place, .send .check, .send .flush, .send .place, .send .check,
        .send .flush, .recv 0 .fetch, .recv 0 (.copy 0), .recv 0 .forward, .recv 0 .yield,
        .recv 0 .consume, .recv 0 .ack, .send .complete, .send .place, .recv 0 .fetch,
        .send .startLast, .recv 0 (.copy 0), .recv 0 .forward, .recv 0 .yield,
        .recv 0 .consume]).map (fun s => (s.receivers 0).yielded.length) = some 2 := by
    rfl
  obtain ⟨s, hrun, hlength⟩ := Option.map_eq_some_iff.mp hyielded
  exact ⟨s, hrun, hlength, ((mooncake_chain_safe 1 1 1 _ byteMemory Nat.one_pos hw
    length_byteMemory (fun _ _ j _ _ => by cases slotOf j <;> rfl) _ s hrun).2 0 Nat.one_pos).2⟩

end Verl
