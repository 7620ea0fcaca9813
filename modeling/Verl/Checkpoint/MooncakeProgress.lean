import Mathlib.Algebra.GroupWithZero.Nat
import Verl.Checkpoint.MooncakeSafe
import Verl.Checkpoint.NixlProgress

/-!
# The chain delivers, and leaves slots armed

Every step does some of the work that is left (`MooncakeState.next_work_lt`).  In a
state in which no step is enabled no rank waits for a slot, from the last rank on,
so every rank is done and has yielded all weights.

A rank waits for the magic number of a bucket when it fills the same buffer again,
so those of the last two buckets are not waited for, up to the very last one by
rank 0.  `mooncake_chain_delivers` says which slots are armed in the end.
-/

namespace Verl

/-! ## The work that is left -/

/-- The steps that one rank needs for a bucket. -/
def MooncakeInfo.hopWork (info : MooncakeInfo) : Nat := info.len + 4 + 2 * info.bucketMeta.length

/-- The steps that `ranks` ranks need for the messages. -/
def storeWork (ranks : Nat) (store : List MooncakeInfo) : Nat :=
  (store.map fun info => ranks * info.hopWork).sum

/-- `ranks` is the number of ranks after this one. -/
def MooncakeReceiver.work (ranks : Nat) (r : MooncakeReceiver) : Nat :=
  match r.pc with
  | .polling info => info.len + 3 + 2 * info.bucketMeta.length + ranks * info.hopWork
  | .reading info todo => todo.length + 2 + 2 * info.bucketMeta.length + ranks * info.hopWork
  | .yielding _ pending => 1 + 2 * pending.length
  | .holding _ _ pending => 2 + 2 * pending.length
  | .fetching | .done | .raised => 0

/-- A weight may need a bucket of its own. -/
def weightsWork (ranks : Nat) (weights : List Weight) : Nat :=
  (weights.map fun w => ranks * (w.nbytes + 6) + 4).sum

def MooncakeSender.work (ranks : Nat) (s : MooncakeSender) : Nat :=
  let filled := s.offset + 2 * s.bucketMeta.entries.length
  match s.pc with
  | .filling => weightsWork ranks s.weights + ranks * (filled + 4) + 3
  | .flushing => weightsWork ranks s.weights + ranks * (filled + 4) + 2
  | .polling => weightsWork ranks s.weights + ranks * filled + 1
  | .placing => weightsWork ranks s.weights + ranks * filled
  | .last => 1
  | .done | .raised => 0

def MooncakeState.work (n : Nat) (s : MooncakeState) : Nat :=
  s.sender.work n + ∑ k ∈ Finset.range n, (s.receivers k).work (n - (k + 1)) +
    ∑ k ∈ Finset.range n, storeWork (n - k) (s.store k)

section

variable {ranks bucketSize : Nat}

theorem storeWork_append (store store' : List MooncakeInfo) :
    storeWork ranks (store ++ store') = storeWork ranks store + storeWork ranks store' := by
  rw [storeWork, List.map_append, List.sum_append]
  rfl

theorem storeWork_singleton (info : MooncakeInfo) :
    storeWork ranks [info] = ranks * info.hopWork := by
  rw [storeWork, List.map_singleton, List.sum_singleton]

theorem storeWork_cons (info : MooncakeInfo) (store : List MooncakeInfo) :
    storeWork ranks (info :: store) = ranks * info.hopWork + storeWork ranks store := by
  rw [storeWork, List.map_cons, List.sum_cons]
  rfl

theorem length_setEntries_le {K V : Type} [DecidableEq K] (k : K) (v : V) (es : List (K × V)) :
    (Py.Dict.setEntries k v es).length ≤ es.length + 1 := by
  induction es with
  | nil => exact Nat.le_refl 1
  | cons e es ih =>
      rw [Py.Dict.setEntries]
      split
      · simp
      · rw [List.length_cons, List.length_cons]
        omega

theorem MooncakeSender.next_work_lt (ranks : Nat) {s t : MooncakeSender} {memory memory' : MooncakeMemory}
    {outbox outbox' : List MooncakeInfo} {a : MooncakeSendAct}
    (h : s.next bucketSize memory outbox a = some (t, memory', outbox')) :
    t.work ranks + storeWork ranks outbox' < s.work ranks + storeWork ranks outbox := by
  have hinfo : ∀ isLast, (s.info isLast).hopWork =
      s.offset + 2 * s.bucketMeta.entries.length + 4 := fun isLast => by
    simp only [MooncakeInfo.hopWork, info]
    omega
  cases a with
  | check =>
      simp only [next] at h
      split at h
      next w ws hpc hweights =>
        cases h
        split
        · simp only [work, hpc]
          omega
        · simp only [work, hpc, Nat.mul_add]
          omega
      · cases h
  | flush =>
      obtain ⟨hpc, h⟩ := Option.ite_none_right_eq_some.mp h
      cases h
      rw [storeWork_append, storeWork_singleton, hinfo]
      split
      · simp only [work, hpc, Py.Dict.empty, List.length_nil, Nat.mul_zero, Nat.add_zero]
        omega
      · simp only [work, hpc, Py.Dict.empty, List.length_nil, Nat.mul_zero, Nat.add_zero]
        omega
  | complete =>
      obtain ⟨⟨hpc, -⟩, h⟩ := Option.ite_none_right_eq_some.mp h
      cases h
      simp only [work, hpc]
      omega
  | place =>
      simp only [next] at h
      split at h
      next w ws hpc hweights =>
        split at h
        · cases h
          have hlength := length_setEntries_le w.name (metaAt w s.offset) s.bucketMeta.entries
          have hmul := Nat.mul_le_mul_left ranks (Nat.mul_le_mul_left 2 hlength)
          have hset : (s.bucketMeta.set w.name ⟨w.name, w.shape, w.dtype, s.offset⟩).entries =
            Py.Dict.setEntries w.name (metaAt w s.offset) s.bucketMeta.entries := rfl
          simp only [work, hpc, hweights, weightsWork, List.map_cons, List.sum_cons, hset,
            Nat.mul_add] at hmul ⊢
          omega
        · cases h
          simp only [work, hpc, hweights, weightsWork, List.map_cons, List.sum_cons]
          omega
      · cases h
  | startLast =>
      obtain ⟨⟨hpc, hweights⟩, h⟩ := Option.ite_none_right_eq_some.mp h
      cases h
      rw [storeWork_append, storeWork_singleton, hinfo]
      simp only [work, hpc]
      omega
  | endSend =>
      obtain ⟨⟨hpc, -⟩, h⟩ := Option.ite_none_right_eq_some.mp h
      cases h
      simp only [work, hpc]
      omega

/-- A bucket is work for this rank and, from its message on, for those behind. -/
theorem MooncakeReceiver.next_work_lt (ranks : Nat) {hasNext : Bool} {r t : MooncakeReceiver}
    {v v' : MooncakeView} {a : MooncakeRecvAct}
    (h : r.next bucketSize hasNext v a = some (t, v')) :
    t.work ranks + storeWork (ranks + 1) v'.inbox + (if hasNext then storeWork ranks v'.outbox else 0) <
      r.work ranks + storeWork (ranks + 1) v.inbox +
        (if hasNext then storeWork ranks v.outbox else 0) := by
  cases a with
  | fetch =>
      simp only [next] at h
      split at h
      next info inbox hpc hinbox =>
        cases h
        rw [hinbox, storeWork_cons, Nat.add_mul, Nat.one_mul]
        split
        · simp only [work, hpc, MooncakeInfo.hopWork]
          omega
        · simp only [work, hpc, MooncakeInfo.hopWork, List.length_range]
          omega
      · cases h
  | complete =>
      simp only [next] at h
      split at h
      next info hpc =>
        obtain ⟨-, h⟩ := Option.ite_none_right_eq_some.mp h
        cases h
        simp only [work, hpc, List.length_range]
        omega
      · cases h
  | copy pos =>
      simp only [next] at h
      split at h
      next info todo hpc =>
        obtain ⟨hmem, h⟩ := Option.ite_none_right_eq_some.mp h
        cases h
        have hlength := List.length_erase_of_mem hmem
        have hpos := List.length_pos_of_mem hmem
        simp only [work, hpc]
        omega
      · cases h
  | forward =>
      simp only [next] at h
      split at h
      next info hpc =>
        cases h
        cases hasNext with
        | true =>
            simp only [work, hpc, if_true, storeWork_append, storeWork_singleton, List.length_nil]
            simp only [MooncakeInfo.hopWork]
            omega
        | false =>
            simp only [work, hpc, Bool.false_eq_true, if_false, List.length_nil]
            omega
      · cases h
  | yield =>
      simp only [next] at h
      split at h
      next info item pending hpc =>
        cases h
        split
        · simp only [work, hpc, List.length_cons]
          omega
        · simp only [work, hpc, List.length_cons]
          omega
      · cases h
  | consume =>
      simp only [next] at h
      split at h
      next info item pending hpc =>
        cases h
        simp only [work, hpc]
        omega
      · cases h
  | ack =>
      simp only [next] at h
      split at h
      next info hpc =>
        cases h
        split
        · simp only [work, hpc, List.length_nil]
          omega
        · simp only [work, hpc, List.length_nil]
          omega
      · cases h

/-- Every step does some of the work. -/
theorem MooncakeState.next_work_lt {n : Nat} {s t : MooncakeState} {a : MooncakeAct}
    (hn : 0 < n) (h : s.next n bucketSize a = some t) : t.work n < s.work n := by
  cases a with
  | send a =>
      obtain ⟨⟨sender, memory, outbox⟩, hstep, rfl⟩ := Option.map_eq_some_iff.mp h
      have hlt := MooncakeSender.next_work_lt n hstep
      have hsum := sum_update (fun k store => storeWork (n - k) store) s.store outbox hn
      simp only [Nat.sub_zero] at hsum
      simp only [work, setSender]
      omega
  | recv k a =>
      obtain ⟨hk, h⟩ := Option.ite_none_right_eq_some.mp h
      obtain ⟨⟨r, v⟩, hstep, rfl⟩ := Option.map_eq_some_iff.mp h
      have hlt := MooncakeReceiver.next_work_lt (n - (k + 1)) hstep
      rw [show n - (k + 1) + 1 = n - k by omega] at hlt
      have hreceivers := sum_update (fun k r => MooncakeReceiver.work (n - (k + 1)) r)
        s.receivers r hk
      have hinbox := sum_update (fun k store => storeWork (n - k) store) s.store v.inbox hk
      simp only [work, set, view] at hlt ⊢
      by_cases hnext : k + 1 < n
      · have houtbox := sum_update (fun k store => storeWork (n - k) store)
          (Function.update s.store k v.inbox) v.outbox hnext
        rw [Function.update_of_ne (show k + 1 ≠ k by omega)] at houtbox
        simp only [decide_eq_true hnext, if_true] at hlt
        omega
      · have houtbox := sum_update_of_le (fun k store => storeWork (n - k) store)
          (Function.update s.store k v.inbox) v.outbox (Nat.le_of_not_lt hnext)
        simp only [decide_eq_false hnext, Bool.false_eq_true, if_false] at hlt
        omega

end

/-! ## Deadlock freedom -/

/-- The last rank waits for nobody. -/
def LastOk (n : Nat) (s : MooncakeState) : Prop :=
  ∀ k, k + 1 = n → ∀ info, (s.receivers k).pc ≠ .polling info

theorem MooncakeReceiver.next_ne_polling {bucketSize : Nat} {r t : MooncakeReceiver}
    {v v' : MooncakeView} {a : MooncakeRecvAct} (hr : ∀ info, r.pc ≠ .polling info)
    (h : r.next bucketSize false v a = some (t, v')) (info : MooncakeInfo) :
    t.pc ≠ .polling info := by
  cases a with
  | fetch =>
      simp only [next] at h
      split at h
      · cases h
        simp
      · cases h
  | complete =>
      cases hpc : r.pc with
      | polling info' => exact absurd hpc (hr info')
      | _ => simp only [next, hpc, reduceCtorEq] at h
  | copy pos =>
      simp only [next] at h
      split at h
      · obtain ⟨-, h⟩ := Option.ite_none_right_eq_some.mp h
        cases h
        simp
      · cases h
  | forward =>
      simp only [next] at h
      split at h
      · cases h
        simp
      · cases h
  | yield =>
      simp only [next] at h
      split at h
      · cases h
        split <;> simp
      · cases h
  | consume =>
      simp only [next] at h
      split at h
      · cases h
        simp
      · cases h
  | ack =>
      simp only [next] at h
      split at h
      · cases h
        split <;> simp
      · cases h

theorem LastOk.next {n bucketSize : Nat} {s t : MooncakeState} {a : MooncakeAct}
    (hs : LastOk n s) (h : s.next n bucketSize a = some t) : LastOk n t := by
  cases a with
  | send a =>
      obtain ⟨⟨sender, memory, outbox⟩, -, rfl⟩ := Option.map_eq_some_iff.mp h
      exact hs
  | recv k a =>
      obtain ⟨hk, h⟩ := Option.ite_none_right_eq_some.mp h
      obtain ⟨⟨r, v⟩, hstep, rfl⟩ := Option.map_eq_some_iff.mp h
      intro i hi info
      by_cases hik : i = k
      · subst hik
        rw [MooncakeState.set_receivers_self]
        rw [decide_eq_false (by omega)] at hstep
        exact MooncakeReceiver.next_ne_polling (hs i hi) hstep info
      · rw [MooncakeState.set_receivers_of_ne hik]
        exact hs i hi info

namespace MooncakeOk

variable {n bucketSize itemsize sent : Nat} {weights : List Weight} {stale : Nat → MagicSlots}
  {s : MooncakeState} {k : Nat}

/-- A rank without a step waits for a message or for a slot, or is done. -/
theorem pc_cases (hs : MooncakeOk n bucketSize weights stale s sent) (hk : k < n)
    (hstuck : ∀ a, s.next n bucketSize a = none) :
    (s.receivers k).pc = .fetching ∧ s.store k = [] ∨
      (∃ info, (s.receivers k).pc = .polling info ∧
        (s.memory (k + 1)).slots.get (slotOf (s.receivers k).idx) = false) ∨
      (s.receivers k).pc = .done := by
  have hnone : ∀ a, (s.receivers k).next bucketSize (k + 1 < n) (s.view k) a = none := by
    intro a
    have ha := hstuck (.recv k a)
    simp only [MooncakeState.next, if_pos hk] at ha
    exact Option.map_eq_none_iff.mp ha
  have hok := (hs.receiver k hk).pcOk
  cases hpc : (s.receivers k).pc with
  | fetching =>
      refine Or.inl ⟨rfl, ?_⟩
      have hfetch := hnone .fetch
      cases hstore : s.store k with
      | nil => rfl
      | cons info store =>
          simp only [MooncakeReceiver.next, hpc, MooncakeState.view, hstore, reduceCtorEq] at hfetch
  | polling info =>
      refine Or.inr (Or.inl ⟨info, rfl, ?_⟩)
      have hcomplete := hnone .complete
      simp only [MooncakeReceiver.next, hpc] at hcomplete
      cases hslot : (s.view k).memory.slots.get (slotOf (s.receivers k).idx) with
      | false => exact hslot
      | true =>
          rw [if_pos hslot] at hcomplete
          cases hcomplete
  | reading info todo =>
      cases todo with
      | nil =>
          have hforward := hnone .forward
          simp only [MooncakeReceiver.next, hpc, reduceCtorEq] at hforward
      | cons pos todo =>
          have hcopy := hnone (.copy pos)
          simp only [MooncakeReceiver.next, hpc, if_pos List.mem_cons_self, reduceCtorEq] at hcopy
  | yielding info pending =>
      cases pending with
      | nil =>
          have hack := hnone .ack
          simp only [MooncakeReceiver.next, hpc, reduceCtorEq] at hack
      | cons item pending =>
          have hyield := hnone .yield
          simp only [MooncakeReceiver.next, hpc, reduceCtorEq] at hyield
  | holding info item pending =>
      have hconsume := hnone .consume
      simp only [MooncakeReceiver.next, hpc, reduceCtorEq] at hconsume
  | done => exact Or.inr (Or.inr rfl)
  | raised =>
      rw [MooncakeReceiver.PcOk, hpc] at hok
      exact hok.elim

/-- A rank that does not wait for a slot has acknowledged what was announced to it. -/
theorem settled (hs : MooncakeOk n bucketSize weights stale s sent) (hk : k < n)
    (hstuck : ∀ a, s.next n bucketSize a = none)
    (hpc : ∀ info, (s.receivers k).pc ≠ .polling info) :
    (s.receivers k).idx = s.sentBy sent k ∨
      (s.receivers k).idx = (packBuckets bucketSize weights).length := by
  obtain ⟨hfetching, hstore⟩ | ⟨info, hpolling, -⟩ | hdone := hs.pc_cases hk hstuck
  · left
    have hlink := hs.link k hk
    have hfetched : (s.receivers k).fetched = (s.receivers k).idx := by
      rw [MooncakeReceiver.fetched, hfetching]
    have hle := hlink.fetched_le
    have hok := (hs.receiver k hk).pcOk
    rw [MooncakeReceiver.PcOk, hfetching] at hok
    have hempty := hlink.store_eq
    rw [hstore, hfetched] at hempty
    have hlength := congrArg List.length hempty
    rw [List.length_nil, List.length_drop, List.length_take, List.length_mapIdx] at hlength
    omega
  · exact absurd hpolling (hpc info)
  · right
    have hok := (hs.receiver k hk).pcOk
    rw [MooncakeReceiver.PcOk, hdone] at hok
    exact hok.1

/-- No rank waits for a slot, from the last rank on. -/
theorem not_polling (hs : MooncakeOk n bucketSize weights stale s sent) (hlast : LastOk n s)
    (hstuck : ∀ a, s.next n bucketSize a = none) (d : Nat) :
    ∀ k, k + 1 + d = n → ∀ info, (s.receivers k).pc ≠ .polling info := by
  induction d with
  | zero => exact hlast
  | succ d ih =>
      intro k hk info hpc
      have hnext : k + 1 < n := by omega
      have hok := (hs.receiver k (by omega)).pcOk
      rw [MooncakeReceiver.PcOk, hpc] at hok
      obtain ⟨htwo, ⟨bucket, hbucket, -⟩, -⟩ := hok
      have hlt := (List.getElem?_eq_some_iff.mp hbucket).1
      have hsent : s.sentBy sent (k + 1) = (s.receivers k).idx := by
        rw [MooncakeState.sentBy, MooncakeReceiver.sent, hpc]
      have hcleared : s.clearedBy sent (k + 1) = (s.receivers k).idx - 2 := by
        rw [MooncakeState.clearedBy, MooncakeReceiver.cleared, hpc]
      have hlink := hs.link (k + 1) hnext
      have hidx := Nat.le_trans hlink.idx_le hlink.fetched_le
      have hsettled := hs.settled hnext hstuck (ih (k + 1) (by omega))
      rw [hsent] at hidx hsettled
      obtain ⟨hfetching, -⟩ | ⟨info', hpolling, hslot⟩ | hdone :=
        hs.pc_cases (show k < n by omega) hstuck
      · rw [hpc] at hfetching
        cases hfetching
      · -- the bucket that was in the buffer is acknowledged
        have harmed : (s.memory (k + 1)).slots.get (slotOf (s.receivers k).idx) = true := by
          refine (hlink.flags (fun h => absurd h (Nat.succ_ne_zero k)) _).mpr (Or.inr
            ⟨(s.receivers k).idx - 2, Nat.le_of_eq hcleared, by omega, ?_⟩)
          rw [← slotOf_add_two, Nat.sub_add_cancel htwo]
        rw [hslot] at harmed
        cases harmed
      · rw [hpc] at hdone
        cases hdone

theorem sender_done (hs : MooncakeOk n bucketSize weights stale s sent) (hlast : LastOk n s)
    (hn : 0 < n) (hstuck : ∀ a, s.next n bucketSize a = none) : s.sender.pc = .done := by
  have hsettled := hs.settled hn hstuck (hs.not_polling hlast hstuck (n - 1) 0 (by omega))
  have hlink := hs.link 0 hn
  have hnone : ∀ a, s.sender.next bucketSize (s.memory 0) (s.store 0) a = none := by
    intro a
    exact Option.map_eq_none_iff.mp (hstuck (.send a))
  have hok := hs.sender.pcOk
  cases hpc : s.sender.pc with
  | done => rfl
  | raised =>
      rw [MooncakeSender.PcOk, hpc] at hok
      exact hok.elim
  | filling =>
      cases hweights : s.sender.weights with
      | nil =>
          have hstep := hnone .startLast
          simp only [MooncakeSender.next, hpc, hweights, and_self, if_true, reduceCtorEq] at hstep
      | cons w weights =>
          have hstep := hnone .check
          simp only [MooncakeSender.next, hpc, hweights, reduceCtorEq] at hstep
  | flushing =>
      have hstep := hnone .flush
      simp only [MooncakeSender.next, hpc, if_true, reduceCtorEq] at hstep
  | placing =>
      rw [MooncakeSender.PcOk, hpc] at hok
      obtain ⟨w, ws, hweights, hfits⟩ := hok
      have hstep := hnone .place
      simp only [MooncakeSender.next, hpc, hweights, if_pos hfits, reduceCtorEq] at hstep
  | polling =>
      rw [MooncakeSender.PcOk, hpc] at hok
      have hclosed : s.sender.closed = false := by rw [MooncakeSender.closed, hpc]
      have hlt := hs.sender.sent_lt hclosed
      have hcleared : s.sender.cleared sent = sent - 2 := by rw [MooncakeSender.cleared, hpc]
      have hidx := Nat.le_trans hlink.idx_le hlink.fetched_le
      simp only [MooncakeState.sentBy] at hidx hsettled
      have harmed : (s.memory 0).slots.get s.sender.idx = true := by
        rw [hs.sender.idx_eq, hclosed]
        refine (hlink.flags (fun _ => by rw [hpc]; simp) _).mpr (Or.inr
          ⟨sent - 2, Nat.le_of_eq hcleared, by omega, ?_⟩)
        rw [← slotOf_add_two, Nat.sub_add_cancel hok.1]
        rfl
      have hstep := hnone .complete
      simp only [MooncakeSender.next, hpc, harmed, and_self, if_true, reduceCtorEq] at hstep
  | last =>
      rw [MooncakeSender.PcOk, hpc] at hok
      have hok : 0 < sent := hok
      have hclosed : s.sender.closed = true := by rw [MooncakeSender.closed, hpc]
      have hsent := hs.sender.sent_eq hclosed
      have hcleared : s.sender.cleared sent = sent - 2 := by rw [MooncakeSender.cleared, hpc]
      simp only [MooncakeState.sentBy] at hsettled
      have harmed : (s.memory 0).slots.get s.sender.idx = true := by
        rw [hs.sender.idx_eq, hclosed, if_pos rfl]
        refine (hlink.flags (fun _ => by rw [hpc]; simp) _).mpr (Or.inr
          ⟨sent - 1, ?_, by omega, rfl⟩)
        simp only [MooncakeState.clearedBy, hcleared]
        omega
      have hstep := hnone .endSend
      simp only [MooncakeSender.next, hpc, harmed, and_self, if_true, reduceCtorEq] at hstep

/-- Without a step, every rank has announced and acknowledged every bucket. -/
theorem all_done (hs : MooncakeOk n bucketSize weights stale s sent) (hlast : LastOk n s)
    (hn : 0 < n) (hstuck : ∀ a, s.next n bucketSize a = none) :
    ∀ k, k < n → s.sentBy sent k = (packBuckets bucketSize weights).length ∧
      (s.receivers k).pc = .done := by
  have hdone := hs.sender_done hlast hn hstuck
  have hrank : ∀ k, k < n → s.sentBy sent k = (packBuckets bucketSize weights).length →
      (s.receivers k).pc = .done := by
    intro k hk hsent
    obtain ⟨hfetching, -⟩ | ⟨info, hpolling, -⟩ | hdone := hs.pc_cases hk hstuck
    · have hpc := hs.not_polling hlast hstuck (n - (k + 1)) k (by omega)
      have hsettled := hs.settled hk hstuck hpc
      have hok := (hs.receiver k hk).pcOk
      rw [MooncakeReceiver.PcOk, hfetching] at hok
      have := hok.1
      omega
    · exact absurd hpolling (hs.not_polling hlast hstuck (n - (k + 1)) k (by omega) info)
    · exact hdone
  intro k
  induction k with
  | zero =>
      intro hk
      have hsent := hs.sender.sent_eq (by rw [MooncakeSender.closed, hdone])
      exact ⟨hsent, hrank 0 hk hsent⟩
  | succ k ih =>
      intro hk
      have hpc := (ih (Nat.lt_of_succ_lt hk)).2
      have hok := (hs.receiver k (Nat.lt_of_succ_lt hk)).pcOk
      rw [MooncakeReceiver.PcOk, hpc] at hok
      have hsent : s.sentBy sent (k + 1) = (packBuckets bucketSize weights).length := by
        rw [MooncakeState.sentBy, MooncakeReceiver.sent, hpc]
        exact hok.1
      exact ⟨hsent, hrank (k + 1) hk hsent⟩

/-- Every rank has yielded all weights, and no message is left. -/
theorem delivered (hs : MooncakeOk n bucketSize weights stale s sent) (hlast : LastOk n s)
    (hn : 0 < n) (hw : MooncakeWeightsOk bucketSize itemsize weights)
    (hstuck : ∀ a, s.next n bucketSize a = none) (hk : k < n) :
    (s.receivers k).pc = .done ∧ (s.receivers k).yielded = weights.map Weight.tensor ∧
      s.store k = [] := by
  obtain ⟨hsent, hdone⟩ := hs.all_done hlast hn hstuck k hk
  have hok := (hs.receiver k hk).pcOk
  rw [MooncakeReceiver.PcOk, hdone] at hok
  refine ⟨hdone, ?_, ?_⟩
  · rw [hok.2, hok.1, List.take_length]
    exact tensors_packBuckets hw
  · have hfetched : (s.receivers k).fetched = (s.receivers k).idx := by
      rw [MooncakeReceiver.fetched, hdone]
    rw [(hs.link k hk).store_eq, hfetched, hok.1, hsent]
    exact List.drop_eq_nil_of_le (by rw [List.length_take]; exact Nat.min_le_left _ _)

/-- Rank 0 has not waited for the bucket before the last one. -/
theorem slots_zero (hs : MooncakeOk n bucketSize weights stale s sent) (hlast : LastOk n s)
    (hn : 0 < n) (hstuck : ∀ a, s.next n bucketSize a = none)
    (hclear : ∀ i, (stale 0).get i = false) (i : Bool) :
    (s.memory 0).slots.get i = true ↔ 2 ≤ (packBuckets bucketSize weights).length ∧
      i = slotOf (packBuckets bucketSize weights).length := by
  rw [(hs.closing (hs.sender_done hlast hn hstuck) (hclear _)).2 i, hclear i]
  exact or_iff_right Bool.false_ne_true

/-- The other ranks have not waited for the last two buckets. -/
theorem slots_succ (hs : MooncakeOk n bucketSize weights stale s sent) (hlast : LastOk n s)
    (hn : 0 < n) (hstuck : ∀ a, s.next n bucketSize a = none) (hk : k + 1 < n)
    (hclear : ∀ i, (stale (k + 1)).get i = false) :
    (s.memory (k + 1)).slots.first = true ∧
      ((s.memory (k + 1)).slots.second = true ↔ 2 ≤ (packBuckets bucketSize weights).length) := by
  have hpos := length_packBuckets_pos bucketSize weights
  have hdone := (hs.all_done hlast hn hstuck k (Nat.lt_of_succ_lt hk)).2
  have hnext := (hs.all_done hlast hn hstuck (k + 1) hk).2
  have hok := (hs.receiver k (Nat.lt_of_succ_lt hk)).pcOk
  have hok' := (hs.receiver (k + 1) hk).pcOk
  rw [MooncakeReceiver.PcOk, hdone] at hok
  rw [MooncakeReceiver.PcOk, hnext] at hok'
  have hcleared : s.clearedBy sent (k + 1) = (packBuckets bucketSize weights).length - 2 := by
    rw [MooncakeState.clearedBy, MooncakeReceiver.cleared, hdone]
    exact congrArg (· - 2) hok.1
  have hflags : ∀ i, (s.memory (k + 1)).slots.get i = true ↔
      ∃ j, (packBuckets bucketSize weights).length - 2 ≤ j ∧
        j < (packBuckets bucketSize weights).length ∧ slotOf j = i := by
    intro i
    rw [(hs.link (k + 1) hk).flags (fun h => absurd h (Nat.succ_ne_zero k)) i, hclear i, hcleared,
      hok'.1]
    exact or_iff_right Bool.false_ne_true
  have hparity : ∀ i, 2 ≤ (packBuckets bucketSize weights).length →
      (s.memory (k + 1)).slots.get i = true := by
    intro i htwo
    by_cases hi : slotOf ((packBuckets bucketSize weights).length - 2) = i
    · exact (hflags i).mpr ⟨_, Nat.le_refl _, by omega, hi⟩
    · refine (hflags i).mpr ⟨(packBuckets bucketSize weights).length - 1, by omega, by omega, ?_⟩
      rw [show (packBuckets bucketSize weights).length - 1 =
        (packBuckets bucketSize weights).length - 2 + 1 by omega, slotOf_succ]
      exact (Bool.eq_not_of_ne (Ne.symm hi)).symm
  by_cases htwo : 2 ≤ (packBuckets bucketSize weights).length
  · exact ⟨hparity false htwo, iff_of_true (hparity true htwo) htwo⟩
  · refine ⟨(hflags false).mpr ⟨0, by omega, hpos, rfl⟩, iff_of_false (fun harmed => ?_) htwo⟩
    obtain ⟨j, -, hlt, hslot⟩ := (hflags true).mp harmed
    rw [show j = 0 by omega] at hslot
    cases hslot

end MooncakeOk

/-- The steps that all ranks need. -/
def mooncakeWork (n : Nat) (weights : List Weight) : Nat := weightsWork n weights + n * 4 + 3

section

variable {n bucketSize itemsize : Nat} {weights : List Weight} {memory : Nat → MooncakeMemory}

theorem length_le_mooncakeWork (hn : 0 < n) {acts : List MooncakeAct} {s : MooncakeState}
    (hrun : Run.exec (MooncakeState.next n bucketSize) (.start memory weights) acts = some s) :
    acts.length ≤ mooncakeWork n weights := by
  have hlength := Run.length_le_of_exec (fun _ _ _ h => MooncakeState.next_work_lt hn h) hrun
  have hstart : (MooncakeState.start memory weights).work n = mooncakeWork n weights := by
    have hreceivers : ∑ k ∈ Finset.range n, MooncakeReceiver.init.work (n - (k + 1)) =
        (Finset.range n).card * 0 := Finset.sum_const_nat fun _ _ => rfl
    have hstore : ∑ k ∈ Finset.range n, storeWork (n - k) [] = (Finset.range n).card * 0 :=
      Finset.sum_const_nat fun _ _ => rfl
    rw [MooncakeState.work, MooncakeState.start, hreceivers, hstore]
    simp only [MooncakeSender.work, MooncakeSender.init, Py.Dict.empty, mooncakeWork,
      List.length_nil]
    omega
  omega

theorem mooncake_run_last {acts : List MooncakeAct} {s : MooncakeState}
    (hrun : Run.exec (MooncakeState.next n bucketSize) (.start memory weights) acts = some s) :
    LastOk n s :=
  Run.exec_invariant (P := LastOk n) (fun _ _ _ hs hstep => hs.next hstep)
    (fun _ _ _ => by simp [MooncakeState.start, MooncakeReceiver.init]) hrun

/-- From clear slots the chain makes progress: a run is bounded, and one that cannot go
on has delivered every weight to every rank.  But it leaves slots armed.  With `m`
buckets these are the slot of the bucket before the last one on rank 0, and those of
the last two buckets on every rank between the first and the last. -/
theorem mooncake_chain_delivers (n bucketSize itemsize : Nat) (weights : List Weight)
    (memory : Nat → MooncakeMemory) (hn : 0 < n)
    (hw : MooncakeWeightsOk bucketSize itemsize weights)
    (hmemory : ∀ k i, ((memory k).bufs.get i).length = bucketSize)
    (hclear : ∀ k < n, ∀ i, (memory k).slots.get i = false)
    (acts : List MooncakeAct) (s : MooncakeState)
    (hrun : Run.exec (MooncakeState.next n bucketSize) (.start memory weights) acts = some s) :
    acts.length ≤ mooncakeWork n weights ∧
      ((∀ a, s.next n bucketSize a = none) →
        s.sender.pc = .done ∧
        (∀ k < n, (s.receivers k).pc = .done ∧
          (s.receivers k).yielded = weights.map Weight.tensor ∧ s.store k = []) ∧
        (∀ i, (s.memory 0).slots.get i = true ↔ 2 ≤ (packBuckets bucketSize weights).length ∧
          i = slotOf (packBuckets bucketSize weights).length) ∧
        ∀ k, k + 1 < n → (s.memory (k + 1)).slots.first = true ∧
          ((s.memory (k + 1)).slots.second = true ↔
            2 ≤ (packBuckets bucketSize weights).length)) := by
  obtain ⟨sent, hs⟩ := mooncake_run_ok hn hw hmemory
    (fun k hk j _ _ => hclear k hk (slotOf j)) hrun
  have hlast := mooncake_run_last hrun
  refine ⟨length_le_mooncakeWork hn hrun, fun hstuck => ⟨hs.sender_done hlast hn hstuck,
    fun k hk => hs.delivered hlast hn hw hstuck hk,
    fun i => hs.slots_zero hlast hn hstuck (hclear 0 hn) i,
    fun k hk => hs.slots_succ hlast hn hstuck hk (hclear (k + 1) hk)⟩⟩

end

/-- Ranks that are done do not move. -/
theorem MooncakeState.next_of_done (n bucketSize : Nat) {s : MooncakeState}
    (hsender : s.sender.pc = .done) (hreceivers : ∀ k < n, (s.receivers k).pc = .done)
    (a : MooncakeAct) : s.next n bucketSize a = none := by
  cases a with
  | send a => cases a <;> simp [next, MooncakeSender.next, hsender]
  | recv k a =>
      by_cases hk : k < n
      · cases a <;> simp [next, MooncakeReceiver.next, hreceivers k hk]
      · exact if_neg hk

/-- A transfer of two buckets leaves the first slot of rank 0 armed. -/
theorem mooncake_chain_delivers_two_buckets :
    ∃ s, Run.exec (MooncakeState.next 1 1) (.start byteMemory [byteWeight "a" 7, byteWeight "b" 8])
        [.send .check, .send .place, .send .check, .send .flush, .send .place, .send .startLast,
          .recv 0 .fetch, .recv 0 (.copy 0), .recv 0 .forward, .recv 0 .yield, .recv 0 .consume,
          .recv 0 .ack, .recv 0 .fetch, .recv 0 (.copy 0), .recv 0 .forward, .recv 0 .yield,
          .recv 0 .consume, .recv 0 .ack, .send .endSend] = some s ∧
      (s.receivers 0).yielded = [(byteWeight "a" 7).tensor, (byteWeight "b" 8).tensor] ∧
        ((s.memory 0).slots.get false = true ↔ 2 ≤ 2 ∧ false = slotOf 2) := by
  have hw := byteWeights_ok [("a", 7), ("b", 8)] (by decide)
  have hpcs : (Run.exec (MooncakeState.next 1 1)
      (.start byteMemory [byteWeight "a" 7, byteWeight "b" 8])
      [.send .check, .send .place, .send .check, .send .flush, .send .place, .send .startLast,
        .recv 0 .fetch, .recv 0 (.copy 0), .recv 0 .forward, .recv 0 .yield, .recv 0 .consume,
        .recv 0 .ack, .recv 0 .fetch, .recv 0 (.copy 0), .recv 0 .forward, .recv 0 .yield,
        .recv 0 .consume, .recv 0 .ack, .send .endSend]).map
      (fun s => (s.sender.pc, (s.receivers 0).pc)) = some (.done, .done) := by
    rfl
  obtain ⟨s, hrun, hdone⟩ := Option.map_eq_some_iff.mp hpcs
  obtain ⟨hsender, hreceiver⟩ := Prod.mk.inj hdone
  have hstuck := MooncakeState.next_of_done 1 1 hsender fun k hk => by
    rw [show k = 0 by omega]
    exact hreceiver
  obtain ⟨-, hdelivered, hslots, -⟩ := (mooncake_chain_delivers 1 1 1 _ byteMemory Nat.one_pos hw
    length_byteMemory (fun _ _ i => by cases i <;> rfl) _ s hrun).2 hstuck
  exact ⟨s, hrun, (hdelivered 0 Nat.one_pos).2.1, hslots false⟩

end Verl
