import Mathlib.Algebra.BigOperators.Group.Finset.Basic
import Verl.Checkpoint.NcclProgress
import Verl.Checkpoint.NixlRelay

/-!
# The chain delivers every weight to every rank

Every step does some of the work that is left, so a run is bounded
(`next_work_lt`).  A bucket is work for every rank that has not got it.

In a state in which no step is enabled, no rank waits for the next one: the last
rank never does, and a rank whose follower has read its buckets does not
(`NixlOk.settled`).  So rank 0 is done, and from it on every rank has taken all
buckets (`NixlOk.all_done`).
-/

namespace Verl

/-! ## The work that is left -/

/-- The steps that one rank needs for a bucket, from the message on. -/
def Metadata.hopWork (bucketSize : Nat) (metadata : Metadata) : Nat :=
  bucketSize + 5 + 2 * metadata.bucketMeta.length

theorem Metadata.mul_hopWork (bucketSize ranks : Nat) (metadata : Metadata) :
    ranks * metadata.hopWork bucketSize =
      ranks * (bucketSize + 5) + 2 * ranks * metadata.bucketMeta.length := by
  rw [hopWork, Nat.mul_add, ← Nat.mul_assoc, Nat.mul_comm ranks 2]

/-- The steps that the ranks from the one that reads the message on need. -/
def ReadableMessage.work (bucketSize ranks : Nat) (message : ReadableMessage) : Nat :=
  ranks * message.metadata.hopWork bucketSize

def NixlLink.work (bucketSize ranks : Nat) (l : NixlLink) : Nat :=
  (l.messages.map (ReadableMessage.work bucketSize ranks)).sum

/-- `ranks` is the number of ranks after rank 0. -/
def NixlSender.work (bucketSize ranks : Nat) (s : NixlSender) : Nat :=
  let bucket := ranks * (bucketSize + 5)
  let chunk := bucket + 2 * ranks + 3
  match s.pc with
  | .filling => chunk * s.chunks.length + bucket + 2 * ranks * s.bucketMeta.length + 2
  | .flushing => chunk * s.chunks.length + bucket + 2 * ranks * s.bucketMeta.length + 1
  | .placing => chunk * s.chunks.length + 2 * ranks * s.bucketMeta.length
  | .last => 1
  | .done | .raised => 0

/-- `ranks` is the number of ranks after this one. -/
def NixlReceiver.work (bucketSize ranks : Nat) (r : NixlReceiver) : Nat :=
  (match r.pc with
    | .start => 2 * r.pending.length + 3
    | .fetching | .yielding => 2 * r.pending.length + 2
    | .holding _ => 2 * r.pending.length + 3
    | .draining => 1
    | .waiting | .done | .raised => 0) +
  match r.readOp with
  | some (.reading message todo) =>
      todo.length + 4 + 2 * message.metadata.bucketMeta.length + message.work bucketSize ranks
  | some (.done message) =>
      3 + 2 * message.metadata.bucketMeta.length + message.work bucketSize ranks
  | _ => 0

def NixlState.work (n bucketSize : Nat) (s : NixlState) : Nat :=
  s.sender.work bucketSize n +
    ∑ k ∈ Finset.range n, (s.receivers k).work bucketSize (n - (k + 1)) +
    ∑ k ∈ Finset.range n, (s.links k).work bucketSize (n - k)

/-- What a change of one entry does to a sum. -/
theorem sum_update {α : Type*} {n k : Nat} (f : Nat → α → Nat) (g : Nat → α) (x : α)
    (hk : k < n) :
    ∑ j ∈ Finset.range n, f j (Function.update g k x j) + f k (g k) =
      ∑ j ∈ Finset.range n, f j (g j) + f k x := by
  have hmem := Finset.mem_range.mpr hk
  have hrest : ∑ j ∈ (Finset.range n).erase k, f j (Function.update g k x j) =
      ∑ j ∈ (Finset.range n).erase k, f j (g j) := by
    refine Finset.sum_congr rfl fun j hj => ?_
    rw [Function.update_of_ne (Finset.ne_of_mem_erase hj)]
  rw [← Finset.add_sum_erase _ _ hmem, ← Finset.add_sum_erase _ (fun j => f j (g j)) hmem, hrest,
    Function.update_self]
  omega

/-- A change outside the range does nothing to it. -/
theorem sum_update_of_le {α : Type*} {n k : Nat} (f : Nat → α → Nat) (g : Nat → α) (x : α)
    (hk : n ≤ k) :
    ∑ j ∈ Finset.range n, f j (Function.update g k x j) = ∑ j ∈ Finset.range n, f j (g j) := by
  refine Finset.sum_congr rfl fun j hj => ?_
  rw [Function.update_of_ne (Nat.ne_of_lt ((Finset.mem_range.mp hj).trans_le hk))]

namespace NixlLink

variable {bucketSize ranks : Nat} {l l' : NixlLink}

theorem work_publish (bucket : Bool) (metadata : Metadata) :
    (l.publish bucket metadata).work bucketSize ranks =
      l.work bucketSize ranks + ranks * metadata.hopWork bucketSize := by
  rw [work, work, publish, List.map_append, List.sum_append]
  rfl

/-- A notification is no work. -/
theorem work_await (bucketSize ranks : Nat) {op : Option Nat} {ok : Bool} (h : l.await op = some (ok, l')) :
    l'.work bucketSize ranks = l.work bucketSize ranks := by
  cases op with
  | none =>
      cases h
      rfl
  | some notifyKey =>
      simp only [await] at h
      split at h
      · cases h
      · cases h
        rfl

end NixlLink

theorem NixlSender.next_work_lt (ranks : Nat) {bucketSize : Nat} {s t : NixlSender} {l l' : NixlLink}
    {a : NixlAct} (h : s.next bucketSize l a = some (t, l')) :
    t.work bucketSize ranks + l'.work bucketSize ranks <
      s.work bucketSize ranks + l.work bucketSize ranks := by
  cases a with
  | check =>
      simp only [next] at h
      split at h
      next chunk chunks hpc hchunks =>
        cases h
        split <;> simp only [work, hpc] <;> omega
      · cases h
  | flush =>
      obtain ⟨hpc, h⟩ := Option.ite_none_right_eq_some.mp h
      obtain ⟨⟨ok, l''⟩, hl, h⟩ := Option.map_eq_some_iff.mp h
      have hawait := NixlLink.work_await bucketSize ranks hl
      cases ok with
      | true =>
          cases h
          rw [NixlLink.work_publish, hawait, Metadata.mul_hopWork]
          simp only [work, hpc, List.length_nil]
          omega
      | false =>
          cases h
          simp only [work, hpc, hawait]
          omega
  | place =>
      simp only [next] at h
      split at h
      next chunk chunks hpc hchunks =>
        split at h
        · cases h
          simp only [work, hpc, hchunks, placeChunk, List.length_cons, List.length_append,
            List.length_nil, Nat.mul_add, Nat.mul_one]
          omega
        · cases h
          simp only [work, hpc, hchunks, List.length_cons, Nat.mul_add]
          omega
      · cases h
  | startLast =>
      obtain ⟨⟨hpc, hchunks⟩, h⟩ := Option.ite_none_right_eq_some.mp h
      obtain ⟨⟨ok, l''⟩, hl, h⟩ := Option.map_eq_some_iff.mp h
      have hawait := NixlLink.work_await bucketSize ranks hl
      cases ok with
      | true =>
          cases h
          rw [NixlLink.work_publish, hawait, Metadata.mul_hopWork]
          simp only [work, hpc, hchunks, List.length_nil]
          omega
      | false =>
          cases h
          simp only [work, hpc, hawait]
          omega
  | endSend =>
      obtain ⟨hpc, h⟩ := Option.ite_none_right_eq_some.mp h
      obtain ⟨⟨ok, l''⟩, hl, h⟩ := Option.map_eq_some_iff.mp h
      have hawait := NixlLink.work_await bucketSize ranks hl
      cases ok <;> cases h <;> simp only [work, hpc, hawait] <;> omega
  | _ => cases h

namespace NixlReceiver

variable {bucketSize : Nat} {r t : NixlReceiver} {l l' : NixlLink} {a : NixlAct}

theorem yieldNext_work_lt (ranks : Nat) (h : r.yieldNext bucketSize a = some t) :
    t.work bucketSize ranks < r.work bucketSize ranks := by
  cases a with
  | begin k =>
      obtain ⟨hpc, h⟩ := Option.ite_none_right_eq_some.mp h
      cases h
      simp only [work, hpc]
      omega
  | chunk k =>
      simp only [yieldNext] at h
      split at h
      next tensorMeta pending hpc hpending =>
        split at h <;> cases h <;> simp only [work, hpc, hpending, List.length_cons] <;> omega
      · cases h
  | consume k =>
      simp only [yieldNext] at h
      split at h
      next merged hpc =>
        cases h
        simp only [work, hpc]
        omega
      · cases h
  | endBucket k =>
      simp only [yieldNext] at h
      split at h
      next hpc hpending =>
        cases h
        simp only [work, hpc, hpending, List.length_nil]
        omega
      · cases h
  | _ => cases h

/-- What is left of a bucket that is announced to a rank. -/
theorem readNext_work_lt (ranks : Nat) {source : Buffers}
    (h : r.readNext bucketSize source l a = some (l', t)) :
    t.work bucketSize ranks + l'.work bucketSize (ranks + 1) <
      r.work bucketSize ranks + l.work bucketSize (ranks + 1) := by
  cases a with
  | fetch k =>
      simp only [readNext] at h
      split at h
      next message messages hpc hmessages =>
        cases h
        have hmessage : message.work bucketSize (ranks + 1) =
            message.work bucketSize ranks +
              (bucketSize + 5 + 2 * message.metadata.bucketMeta.length) := by
          rw [ReadableMessage.work, ReadableMessage.work, Nat.add_mul, Nat.one_mul]
          rfl
        by_cases hnone : r.metadata = none
        · simp only [work, hpc, if_pos hnone, NixlLink.work, hmessages, List.map_cons,
            List.sum_cons, hmessage, List.length_range]
          omega
        · simp only [work, hpc, if_neg hnone, NixlLink.work, hmessages, List.map_cons,
            List.sum_cons, hmessage, List.length_range]
          omega
      · cases h
  | copy k pos =>
      simp only [readNext] at h
      split at h
      next message todo hreadOp =>
        split at h
        next hmem =>
          cases h
          have hlength := List.length_erase_of_mem hmem
          have hpos := List.length_pos_of_mem hmem
          simp only [work, hreadOp]
          omega
        · cases h
      · cases h
  | finish k =>
      simp only [readNext] at h
      split at h
      next message hreadOp =>
        cases h
        simp only [work, hreadOp, NixlLink.work, List.length_nil]
        omega
      · cases h
  | _ => cases h

theorem sendNext_work_lt (bucketSize ranks : Nat) (h : r.sendNext true l a = some (t, l')) :
    t.work bucketSize ranks + l'.work bucketSize ranks <
      r.work bucketSize ranks + l.work bucketSize ranks := by
  cases a with
  | take k =>
      simp only [sendNext] at h
      split at h
      next message hpc hreadOp =>
        cases h
        rw [NixlLink.work_publish]
        simp only [work, takeBucket, hpc, hreadOp, ReadableMessage.work]
        cases message.metadata.isLast <;> simp only [if_true, Bool.false_eq_true, if_false] <;> omega
      · cases h
  | drain k =>
      simp only [sendNext] at h
      split at h
      next metadata hpc hmetadata =>
        obtain ⟨⟨ok, l''⟩, hl, h⟩ := Option.map_eq_some_iff.mp h
        have hawait := NixlLink.work_await bucketSize ranks hl
        cases ok with
        | true =>
            cases h
            rw [hawait]
            simp only [work, hpc]
            cases metadata.isLast <;> simp only [if_true, Bool.false_eq_true, if_false] <;> omega
        | false =>
            cases h
            rw [hawait]
            simp only [work, hpc]
            omega
      · cases h
  | _ => cases h

/-- The last rank announces nothing. -/
theorem sendNext_work_lt_last (bucketSize : Nat) (h : r.sendNext false l a = some (t, l')) :
    t.work bucketSize 0 < r.work bucketSize 0 := by
  cases a with
  | take k =>
      simp only [sendNext] at h
      split at h
      next message hpc hreadOp =>
        cases h
        simp only [work, takeBucket, hpc, hreadOp]
        cases message.metadata.isLast <;> simp only [if_true, Bool.false_eq_true, if_false] <;> omega
      · cases h
  | drain k =>
      simp only [sendNext] at h
      split at h
      next metadata hpc hmetadata =>
        obtain ⟨⟨ok, l''⟩, hl, h⟩ := Option.map_eq_some_iff.mp h
        cases ok with
        | true =>
            cases h
            simp only [work, hpc]
            cases metadata.isLast <;> simp only [if_true, Bool.false_eq_true, if_false] <;> omega
        | false =>
            cases h
            simp only [work, hpc]
            omega
      · cases h
  | _ => cases h

end NixlReceiver

/-- Every step does some of the work. -/
theorem NixlState.next_work_lt {n bucketSize : Nat} {s t : NixlState} {a : NixlAct} (hn : 0 < n)
    (h : s.next n bucketSize a = some t) : t.work n bucketSize < s.work n bucketSize := by
  cases a with
  | check | flush | place | startLast | endSend =>
      obtain ⟨⟨sender, l⟩, hstep, rfl⟩ := Option.map_eq_some_iff.mp h
      have hlt := NixlSender.next_work_lt n hstep
      have hsum := sum_update (fun k l => NixlLink.work bucketSize (n - k) l) s.links l hn
      simp only [Nat.sub_zero] at hsum
      simp only [work]
      omega
  | begin k | chunk k | consume k | endBucket k =>
      obtain ⟨hk, h⟩ := Option.ite_none_right_eq_some.mp h
      obtain ⟨r, hstep, rfl⟩ := Option.map_eq_some_iff.mp h
      have hlt := NixlReceiver.yieldNext_work_lt (n - (k + 1)) hstep
      have hsum := sum_update (fun k r => NixlReceiver.work bucketSize (n - (k + 1)) r)
        s.receivers r hk
      simp only [work, set, Function.update_eq_self]
      omega
  | fetch k | copy k pos | finish k =>
      obtain ⟨hk, h⟩ := Option.ite_none_right_eq_some.mp h
      obtain ⟨⟨l, r⟩, hstep, rfl⟩ := Option.map_eq_some_iff.mp h
      have hlt := NixlReceiver.readNext_work_lt (n - (k + 1)) hstep
      have hreceivers := sum_update (fun k r => NixlReceiver.work bucketSize (n - (k + 1)) r)
        s.receivers r hk
      have hlinks := sum_update (fun k l => NixlLink.work bucketSize (n - k) l) s.links l hk
      rw [show n - (k + 1) + 1 = n - k by omega] at hlt
      simp only [work, set]
      omega
  | take k | drain k =>
      obtain ⟨hk, h⟩ := Option.ite_none_right_eq_some.mp h
      obtain ⟨⟨r, l⟩, hstep, rfl⟩ := Option.map_eq_some_iff.mp h
      have hreceivers := sum_update (fun k r => NixlReceiver.work bucketSize (n - (k + 1)) r)
        s.receivers r hk
      simp only [work, set]
      by_cases hnext : k + 1 < n
      · have hlinks := sum_update (fun k l => NixlLink.work bucketSize (n - k) l) s.links l hnext
        rw [decide_eq_true hnext] at hstep
        have hlt := NixlReceiver.sendNext_work_lt bucketSize (n - (k + 1)) hstep
        omega
      · have hlinks := sum_update_of_le (fun k l => NixlLink.work bucketSize (n - k) l) s.links l
          (Nat.le_of_not_lt hnext)
        rw [decide_eq_false hnext] at hstep
        have hlt := NixlReceiver.sendNext_work_lt_last bucketSize hstep
        rw [show n - (k + 1) = 0 by omega] at hreceivers
        omega

/-! ## Deadlock freedom -/

/-- Nothing comes after the message that is marked as the last. -/
theorem LastClosed.eq_of_prefix {closed : Bool} {messages xs : List Metadata}
    (h : LastClosed closed messages) (htaken : xs <+: messages) {metadata : Metadata}
    (hmem : metadata ∈ xs) (hlast : metadata.isLast = true) : xs = messages := by
  obtain ⟨ys, hys⟩ := htaken
  cases ys with
  | nil => rw [← hys, List.append_nil]
  | cons y ys =>
      have hdrop : metadata ∈ messages.dropLast := by
        rw [← hys, List.dropLast_append_of_ne_nil (List.cons_ne_nil y ys)]
        exact List.mem_append_left _ hmem
      rw [h.dropLast metadata hdrop] at hlast
      cases hlast

namespace NixlOk

variable {n bucketSize itemsize : Nat} {weights : List Weight} {s : NixlState}
  {got : Nat → List Bucket} {k : Nat}

/-- A rank that has the last bucket has all of them. -/
theorem eq_zero_of_isLast (hs : NixlOk n bucketSize weights s got) (hgot : Relay.Ordered got)
    {metadata : Metadata} {bytes : List UInt8} (h : (got k).getLast? = some (metadata, bytes))
    (hlast : metadata.isLast = true) : got k = got 0 := by
  have htaken := hgot.prefix_zero k
  have hmem : metadata ∈ (got k).map Prod.fst := List.mem_map_of_mem (List.mem_of_getLast? h)
  have heq := hs.sender.lastClosed.eq_of_prefix (htaken.map Prod.fst) hmem hlast
  exact htaken.eq_of_length (by rw [← List.length_map (f := Prod.fst), heq, List.length_map])

/-- In a state without steps no transfer is under way. -/
theorem not_busy (hk : k < n) (hstuck : ∀ a, s.next n bucketSize a = none) :
    ReadOp.busy (s.receivers k).readOp = false := by
  cases hread : (s.receivers k).readOp with
  | none => rfl
  | some readOp =>
      cases readOp with
      | opened => rfl
      | done message => rfl
      | reading message todo =>
          cases todo with
          | nil =>
              have hfinish := hstuck (.finish k)
              simp only [NixlState.next, if_pos hk, NixlReceiver.readNext, hread,
                Option.map_some, reduceCtorEq] at hfinish
          | cons pos todo =>
              have hcopy := hstuck (.copy k pos)
              simp only [NixlState.next, if_pos hk, NixlReceiver.readNext, hread,
                if_pos List.mem_cons_self, Option.map_some, reduceCtorEq] at hcopy

/-- A rank then waits for a message or for the next rank, or is done. -/
theorem pc_cases (hs : NixlOk n bucketSize weights s got) (hk : k < n)
    (hstuck : ∀ a, s.next n bucketSize a = none) :
    (s.receivers k).pc = .fetching ∨ (s.receivers k).pc = .draining ∨
      (s.receivers k).pc = .done := by
  have hok := (hs.receiver k hk).pcOk
  have hbusy := not_busy hk hstuck
  rw [NixlReceiver.PcOk] at hok
  have hyield : ∀ a, ((s.receivers k).yieldNext bucketSize a).isSome = true →
      (a = .begin k ∨ a = .chunk k ∨ a = .consume k ∨ a = .endBucket k) → False := by
    intro a hsome ha
    obtain ⟨r, hstep⟩ := Option.isSome_iff_exists.mp hsome
    have hnone := hstuck a
    obtain rfl | rfl | rfl | rfl := ha <;>
      simp only [NixlState.next, if_pos hk, hstep, Option.map_some, reduceCtorEq] at hnone
  cases hpc : (s.receivers k).pc with
  | fetching => exact Or.inl rfl
  | draining => exact Or.inr (Or.inl rfl)
  | done => exact Or.inr (Or.inr rfl)
  | start =>
      refine (hyield (.begin k) ?_ (by simp)).elim
      simp only [NixlReceiver.yieldNext, hpc, if_true, Option.isSome_some]
  | holding merged =>
      refine (hyield (.consume k) ?_ (by simp)).elim
      simp only [NixlReceiver.yieldNext, hpc, Option.isSome_some]
  | yielding =>
      cases hpending : (s.receivers k).pending with
      | nil =>
          refine (hyield (.endBucket k) ?_ (by simp)).elim
          simp only [NixlReceiver.yieldNext, hpc, hpending, Option.isSome_some]
      | cons tensorMeta pending =>
          refine (hyield (.chunk k) ?_ (by simp)).elim
          simp only [NixlReceiver.yieldNext, hpc, hpending]
          split <;> rfl
  | waiting =>
      rw [hpc] at hok
      have htake := hstuck (.take k)
      cases hread : (s.receivers k).readOp with
      | none =>
          rw [hread] at hok
          exact absurd rfl hok.2.1
      | some readOp =>
          rw [hread] at hok hbusy
          cases readOp with
          | opened => exact absurd rfl hok.2.1
          | reading message todo => cases hbusy
          | done message =>
              simp only [NixlState.next, if_pos hk, NixlReceiver.sendNext, hpc, hread] at htake
              split at htake <;> cases htake
  | raised =>
      rw [hpc] at hok
      exact hok.elim

/-- A rank that does not wait for the next one has taken what was announced. -/
theorem settled (hs : NixlOk n bucketSize weights s got) (hgot : Relay.Ordered got) (hk : k < n)
    (hstuck : ∀ a, s.next n bucketSize a = none) (hpc : (s.receivers k).pc ≠ .draining) :
    (s.links k).messages = [] := by
  obtain hfetching | hdraining | hdone := hs.pc_cases hk hstuck
  · cases hmessages : (s.links k).messages with
    | nil => rfl
    | cons message messages =>
        have hfetch := hstuck (.fetch k)
        simp only [NixlState.next, if_pos hk, NixlReceiver.readNext, hfetching, hmessages,
          Option.map_some, reduceCtorEq] at hfetch
  · exact absurd hdraining hpc
  · have hok := (hs.receiver k hk).pcOk
    rw [NixlReceiver.PcOk, hdone] at hok
    obtain ⟨-, -, -, metadata, hholds, hlast⟩ := hok
    have hall := hs.eq_zero_of_isLast hgot hholds.2 hlast
    have hlink := hs.link k hk
    cases hlink with
    | quiet hop hmessages => exact hmessages
    | reading message todo hop hmessages => exact hmessages
    | notified notifyKey hop hmessages => exact hmessages
    | posted message hop hmessages hnotifs hbucket hread hsent =>
        -- the rank before cannot have published more than rank 0
        have hle := (hgot.prefix_zero k).length_le
        rw [hsent, ← hall] at hle
        simp only [List.length_append, List.length_cons, List.length_nil] at hle
        omega

/-- No rank waits for the next one, from the last rank on. -/
theorem not_draining (hs : NixlOk n bucketSize weights s got) (hgot : Relay.Ordered got)
    (hstuck : ∀ a, s.next n bucketSize a = none) (d : Nat) :
    ∀ k, k + 1 + d = n → (s.receivers k).pc ≠ .draining := by
  induction d with
  | zero =>
      intro k hk hpc
      have hok := (hs.receiver k (by omega)).pcOk
      rw [NixlReceiver.PcOk, hpc] at hok
      obtain ⟨-, metadata, hholds, -⟩ := hok
      have hdrain := hstuck (.drain k)
      simp only [NixlState.next, if_pos (show k < n by omega), NixlReceiver.sendNext, hpc,
        hholds.1, hs.last k (by omega), NixlLink.await, Option.map_some, reduceCtorEq] at hdrain
  | succ d ih =>
      intro k hk hpc
      have hnext : k + 1 < n := by omega
      have hok := (hs.receiver k (by omega)).pcOk
      rw [NixlReceiver.PcOk, hpc] at hok
      obtain ⟨-, metadata, hholds, -⟩ := hok
      have hmessages := hs.settled hgot hnext hstuck (ih (k + 1) (by omega))
      obtain ⟨l, hl⟩ := (hs.link (k + 1) hnext).await_isSome hmessages (not_busy hnext hstuck)
      have hdrain := hstuck (.drain k)
      have hop : (s.links (k + 1)).await (s.receivers k).op = some (true, l) := hl
      simp only [NixlState.next, if_pos (show k < n by omega), NixlReceiver.sendNext, hpc,
        hholds.1, hop, Option.map_some, reduceCtorEq] at hdrain

theorem sender_done (hs : NixlOk n bucketSize weights s got) (hgot : Relay.Ordered got)
    (hn : 0 < n) (hstuck : ∀ a, s.next n bucketSize a = none) : s.sender.pc = .done := by
  have hmessages := hs.settled hgot hn hstuck (hs.not_draining hgot hstuck (n - 1) 0 (by omega))
  obtain ⟨l, hl⟩ := (hs.link 0 hn).await_isSome hmessages (not_busy hn hstuck)
  have hop : (s.links 0).await s.sender.op = some (true, l) := hl
  cases hpc : s.sender.pc with
  | done => rfl
  | raised => exact absurd hpc hs.sender.notRaised
  | filling =>
      cases hchunks : s.sender.chunks with
      | nil =>
          have hstep := hstuck .startLast
          simp only [NixlState.next, NixlSender.next, hpc, hchunks, and_self, if_true, hop,
            Option.map_some, reduceCtorEq] at hstep
      | cons chunk chunks =>
          have hstep := hstuck .check
          simp only [NixlState.next, NixlSender.next, hpc, hchunks, Option.map_some,
            reduceCtorEq] at hstep
  | flushing =>
      have hstep := hstuck .flush
      simp only [NixlState.next, NixlSender.next, hpc, if_true, hop, Option.map_some,
        reduceCtorEq] at hstep
  | placing =>
      cases hchunks : s.sender.chunks with
      | nil => exact absurd hchunks (hs.sender.some_chunk (Or.inl hpc))
      | cons chunk chunks =>
          have hstep := hstuck .place
          simp only [NixlState.next, NixlSender.next, hpc, hchunks] at hstep
          split at hstep <;> cases hstep
  | last =>
      have hstep := hstuck .endSend
      simp only [NixlState.next, NixlSender.next, hpc, if_true, hop, Option.map_some,
        reduceCtorEq] at hstep

/-- Without a step, every rank is done and has taken every bucket. -/
theorem all_done (hs : NixlOk n bucketSize weights s got) (hgot : Relay.Ordered got) (hn : 0 < n)
    (hstuck : ∀ a, s.next n bucketSize a = none) :
    ∀ k ≤ n, got k = got 0 ∧ s.op k = none ∧ ∀ j < k, (s.receivers j).pc = .done := by
  have hsender := hs.sender_done hgot hn hstuck
  obtain ⟨m, hclosed⟩ := hs.sender.lastClosed
  have hlast : ∃ bucket, (got 0).getLast? = some bucket ∧ bucket.1.isLast = true := by
    have h := congrArg List.getLast? hclosed
    rw [NixlSender.closed, hsender, if_pos rfl, List.getLast?_concat, List.map_map,
      List.getLast?_map] at h
    exact Option.map_eq_some_iff.mp h
  obtain ⟨bucket, hbucket, hislast⟩ := hlast
  intro k
  induction k with
  | zero =>
      intro _
      exact ⟨rfl, hs.sender.done_op hsender, fun j hj => absurd hj (Nat.not_lt_zero j)⟩
  | succ k ih =>
      intro hk
      obtain ⟨hall, hop, hbefore⟩ := ih (Nat.le_of_succ_le hk)
      have hok := (hs.receiver k hk).pcOk
      have hdone : (s.receivers k).pc = .done := by
        obtain hfetching | hdraining | hdone := hs.pc_cases hk hstuck
        · -- a rank that still fetches has not got the last bucket
          rw [NixlReceiver.PcOk, hfetching] at hok
          obtain ⟨hread, hok⟩ := hok
          have hlink := hs.link k hk
          rw [hop, hread, hall] at hlink
          cases hlink with
          | posted message hkey => cases hkey
          | reading message todo hkey => cases hkey
          | notified notifyKey hkey => cases hkey
          | quiet hkey hmessages hnotifs hbusy hsent =>
              have hsame : got 0 = got (k + 1) := hsent.trans (List.append_nil _)
              obtain ⟨hfresh, -⟩ | ⟨metadata, hholds, hnot⟩ := hok
              · rw [hsame, hfresh.1] at hbucket
                cases hbucket
              · rw [hsame, hholds.2] at hbucket
                cases hbucket
                rw [hnot] at hislast
                cases hislast
        · exact absurd hdraining (hs.not_draining hgot hstuck (n - (k + 1)) k (by omega))
        · exact hdone
      rw [NixlReceiver.PcOk, hdone] at hok
      obtain ⟨hop, -, -, metadata, hholds, hmark⟩ := hok
      refine ⟨hs.eq_zero_of_isLast hgot hholds.2 hmark, hop, fun j hj => ?_⟩
      obtain hj | rfl := Nat.lt_succ_iff_lt_or_eq.mp hj
      · exact hbefore j hj
      · exact hdone

/-- A rank that has taken every bucket has yielded every weight. -/
theorem yielded_eq_of_done (hs : NixlOk n bucketSize weights s got)
    (hw : WeightsOk bucketSize itemsize weights) (hk : k < n) (hall : got (k + 1) = got 0)
    (hsender : s.sender.pc = .done) (hdone : (s.receivers k).pc = .done) :
    (s.receivers k).yielded = weights.map Weight.tensor := by
  have hr := hs.receiver k hk
  have hok := hr.pcOk
  rw [NixlReceiver.PcOk, hdone] at hok
  obtain ⟨processed, hchunks, hmerge⟩ := hr.consumed
  have hconserve := hs.sender.conserve
  have hcurrent : s.sender.current = [] := by
    rw [NixlSender.current, NixlSender.packing, hsender]
    rfl
  have hclosed : s.sender.closed = true := by rw [NixlSender.closed, hsender]
  rw [hcurrent, hs.sender.no_chunk hclosed, ← hall, hchunks, NixlReceiver.unread, hok.2.2.1] at hconserve
  simp only [bucketChunks, List.map_nil, List.append_nil] at hconserve
  have hfinal := mergeChunks_splitWeightChunks hw.size_pos hw.nbytes_pos
  rw [← hconserve, hmerge, NixlReceiver.heldList, hdone, List.append_nil] at hfinal
  exact (Prod.mk.inj (Except.ok.inj hfinal)).2

end NixlOk

/-- The steps that all ranks need. -/
def nixlWork (n bucketSize : Nat) (weights : List Weight) : Nat :=
  (n * (bucketSize + 7) + 3) * (splitWeightChunks bucketSize weights).length +
    n * (bucketSize + 8) + 2

/-- The chain makes progress: a run is bounded, and one that cannot go on has
delivered every weight to every rank and leaves no message and no notification
behind. -/
theorem nixl_chain_delivers (n bucketSize itemsize : Nat) (weights : List Weight) (hn : 0 < n)
    (hw : WeightsOk bucketSize itemsize weights) (acts : List NixlAct) (s : NixlState)
    (hrun : Run.exec (NixlState.next n bucketSize) (.init bucketSize weights) acts = some s) :
    acts.length ≤ nixlWork n bucketSize weights ∧
      ((∀ a, s.next n bucketSize a = none) →
        s.sender.pc = .done ∧ ∀ k < n,
          (s.receivers k).pc = .done ∧
          (s.receivers k).yielded = weights.map Weight.tensor ∧
          (s.links k).messages = [] ∧ (s.links k).notifs = []) := by
  obtain ⟨bs, got, -, hs, hgot⟩ := nixl_refines_relay hn hw hrun
  constructor
  · have hlength := Run.length_le_of_exec (fun _ _ _ h => NixlState.next_work_lt hn h) hrun
    have hinit : (NixlState.init bucketSize weights).work n bucketSize =
        nixlWork n bucketSize weights := by
      have hreceivers : ∑ k ∈ Finset.range n, (NixlReceiver.init bucketSize).work bucketSize
          (n - (k + 1)) = (Finset.range n).card * 3 := Finset.sum_const_nat fun _ _ => rfl
      have hlinks : ∑ k ∈ Finset.range n, NixlLink.init.work bucketSize (n - k) =
          (Finset.range n).card * 0 := Finset.sum_const_nat fun _ _ => rfl
      rw [NixlState.work, NixlState.init, hreceivers, hlinks, Finset.card_range]
      simp only [NixlSender.work, NixlSender.init, nixlWork, List.length_nil]
      rw [Nat.mul_add n bucketSize 5, Nat.mul_add n bucketSize 7, Nat.mul_add n bucketSize 8,
        show n * bucketSize + n * 5 + 2 * n + 3 = n * bucketSize + n * 7 + 3 by omega]
      omega
    omega
  · intro hstuck
    have hsender := hs.sender_done hgot hn hstuck
    refine ⟨hsender, fun k hk => ?_⟩
    obtain ⟨hall, -, hdone⟩ := hs.all_done hgot hn hstuck (k + 1) hk
    obtain ⟨-, hop, -⟩ := hs.all_done hgot hn hstuck k (Nat.le_of_lt hk)
    have hdone := hdone k (Nat.lt_succ_self k)
    refine ⟨hdone, hs.yielded_eq_of_done hw hk hall hsender hdone, ?_⟩
    have hlink := hs.link k hk
    rw [hop] at hlink
    cases hlink with
    | quiet hkey hmessages hnotifs hbusy hsent => exact ⟨hmessages, hnotifs⟩
    | posted message hkey => cases hkey
    | reading message todo hkey => cases hkey
    | notified notifyKey hkey => cases hkey

/-- A weight of two bytes goes through buckets of one byte to two ranks. -/
theorem nixl_chain_delivers_two_ranks :
    let w : Weight := ⟨"w", [2], ⟨"uint8", 1⟩, [7, 9], rfl⟩
    ∃ s, Run.exec (NixlState.next 2 1) (.init 1 [w])
        [.check, .place, .check, .flush, .place, .begin 0, .fetch 0, .copy 0 0, .finish 0,
          .startLast, .take 0, .fetch 0, .copy 0 0, .finish 0, .endSend, .chunk 0, .endBucket 0,
          .begin 1, .fetch 1, .copy 1 0, .finish 1, .drain 0, .take 0, .chunk 0, .consume 0,
          .endBucket 0, .take 1, .fetch 1, .copy 1 0, .finish 1, .drain 0, .chunk 1, .endBucket 1,
          .drain 1, .take 1, .chunk 1, .consume 1, .endBucket 1, .drain 1] = some s ∧
      ∀ k < 2, (s.receivers k).yielded = [w.tensor] := by
  intro w
  have hw : WeightsOk 1 1 [w] := by
    refine ⟨Nat.one_pos, Nat.dvd_refl 1, by simp, ?_, ?_⟩
    · intro w' hw'
      rw [List.mem_singleton.mp hw']
      decide
    · intro w' hw'
      rw [List.mem_singleton.mp hw']
  have hsome : (Run.exec (NixlState.next 2 1) (.init 1 [w])
      [.check, .place, .check, .flush, .place, .begin 0, .fetch 0, .copy 0 0, .finish 0,
        .startLast, .take 0, .fetch 0, .copy 0 0, .finish 0, .endSend, .chunk 0, .endBucket 0,
        .begin 1, .fetch 1, .copy 1 0, .finish 1, .drain 0, .take 0, .chunk 0, .consume 0,
        .endBucket 0, .take 1, .fetch 1, .copy 1 0, .finish 1, .drain 0, .chunk 1, .endBucket 1,
        .drain 1, .take 1, .chunk 1, .consume 1, .endBucket 1, .drain 1]).isSome = true := by
    rfl
  obtain ⟨s, hrun⟩ := Option.isSome_iff_exists.mp hsome
  refine ⟨s, hrun, fun k hk => ?_⟩
  refine (((nixl_chain_delivers 2 1 1 [w] (by decide) hw _ s hrun).2 fun a => ?_).2 k hk).2.1
  have hpcs : (Run.exec (NixlState.next 2 1) (.init 1 [w])
      [.check, .place, .check, .flush, .place, .begin 0, .fetch 0, .copy 0 0, .finish 0,
        .startLast, .take 0, .fetch 0, .copy 0 0, .finish 0, .endSend, .chunk 0, .endBucket 0,
        .begin 1, .fetch 1, .copy 1 0, .finish 1, .drain 0, .take 0, .chunk 0, .consume 0,
        .endBucket 0, .take 1, .fetch 1, .copy 1 0, .finish 1, .drain 0, .chunk 1, .endBucket 1,
        .drain 1, .take 1, .chunk 1, .consume 1, .endBucket 1, .drain 1]).map
      (fun s => (s.sender.pc, [0, 1].map fun k => ((s.receivers k).pc, (s.receivers k).readOp))) =
      some (.done, [(.done, none), (.done, none)]) := by
    rfl
  rw [hrun] at hpcs
  obtain ⟨hsender, hpcs⟩ := Prod.mk.inj (Option.some.inj hpcs)
  have hranks : ∀ k < 2, (s.receivers k).pc = .done ∧ (s.receivers k).readOp = none := by
    intro k hk
    have hmem := List.mem_map_of_mem (f := fun k => ((s.receivers k).pc, (s.receivers k).readOp))
      (show k ∈ [0, 1] by simp; omega)
    rw [hpcs] at hmem
    simpa using hmem
  cases a with
  | check | flush | place | startLast | endSend =>
      simp only [NixlState.next, NixlSender.next, hsender, reduceCtorEq, false_and, if_false,
        Option.map_none]
  | begin k | fetch k | finish k | take k | chunk k | consume k | endBucket k | drain k
  | copy k pos =>
      by_cases hk : k < 2
      · simp only [NixlState.next, if_pos hk, NixlReceiver.yieldNext, NixlReceiver.readNext,
          NixlReceiver.sendNext, (hranks k hk).1, (hranks k hk).2, reduceCtorEq, if_false,
          Option.map_none]
      · exact if_neg hk

end Verl
