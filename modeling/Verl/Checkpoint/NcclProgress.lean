import Verl.Checkpoint.NcclLossless

/-!
# The chunked transfer ends

Every step does some of the work that is left, so a run is bounded
(`next_work_lt`).  A state in which no step is enabled is one in which both
parties are done (`NcclOk.exists_next`).  A run that cannot go on has therefore
delivered every weight.
-/

namespace Verl

/-! ## The work that is left -/

/-- The steps that a metadata message needs, and two for each of its chunks. -/
def Metadata.work (metadata : Metadata) : Nat := 5 + 2 * metadata.bucketMeta.length

def Sender.work (s : Sender) : Nat :=
  (match s.pc with
    | .filling => 12 * s.chunks.length + 9 + 2 * s.bucketMeta.length
    | .flushing => 12 * s.chunks.length + 8 + 2 * s.bucketMeta.length
    | .placing => 12 * s.chunks.length + 2 * s.bucketMeta.length
    | .last => 1
    | .done | .raised => 0) +
  match s.op with
  | some ⟨_, metadata, .started⟩ => 2 + metadata.work
  | some ⟨_, _, .metaSent⟩ => 1
  | _ => 0

def Receiver.work (r : Receiver) : Nat :=
  (match r.pc, r.metadata with
    | .start, _ => 1
    | .head, some metadata => 2 + 2 * metadata.bucketMeta.length
    | .yielding, _ => 1 + 2 * r.pending.length
    | .holding _, _ => 2 + 2 * r.pending.length
    | _, _ => 0) +
  match r.op with
  | some ⟨_, .gotMeta metadata⟩ => 4 + 2 * metadata.bucketMeta.length
  | some ⟨_, .complete metadata⟩ => 3 + 2 * metadata.bucketMeta.length
  | _ => 0

def NcclState.work (s : NcclState) : Nat :=
  s.sender.work + (s.metaQueue.map Metadata.work).sum + s.receiver.work

/-- An idle sender has no broadcast to work on. -/
theorem Sender.work_of_idle {s : Sender} (h : s.idle = true) :
    (match s.op with
      | some ⟨_, metadata, .started⟩ => 2 + metadata.work
      | some ⟨_, _, .metaSent⟩ => 1
      | _ => 0) = 0 := by
  rw [idle] at h
  split at h
  next hop => rw [hop]
  next op hop =>
    obtain ⟨bucket, metadata, phase⟩ := op
    rw [decide_eq_true_eq] at h
    subst h
    rw [hop]

theorem Sender.next_work_lt {bucketSize : Nat} {s t : Sender} {a : NcclAct}
    (h : s.next bucketSize a = some t) : t.work < s.work := by
  cases a with
  | check =>
      simp only [Sender.next] at h
      split at h
      next chunk chunks hpc hchunks =>
        rw [Option.some.injEq] at h
        subst h
        simp only [work, hpc]
        split_ifs <;> simp only [] <;> omega
      · cases h
  | flush =>
      simp only [Sender.next] at h
      split at h
      next hpc =>
        rw [Option.some.injEq] at h
        subst h
        have hop := work_of_idle hpc.2
        simp only [work, hpc.1, broadcast, Metadata.work, List.length_nil]
        omega
      · cases h
  | place =>
      simp only [Sender.next] at h
      split at h
      next chunk chunks hpc hchunks =>
        split at h
        · rw [Option.some.injEq] at h
          subst h
          simp only [work, placeChunk, hpc, hchunks, List.length_append, List.length_cons,
            List.length_nil]
          omega
        · rw [Option.some.injEq] at h
          subst h
          simp only [work, hpc, hchunks, List.length_cons]
          omega
      · cases h
  | startLast =>
      simp only [Sender.next] at h
      split at h
      next hpc =>
        rw [Option.some.injEq] at h
        subst h
        simp only [work, hpc.1, hpc.2.1, broadcast, Metadata.work, List.length_nil]
        omega
      · cases h
  | endSend =>
      simp only [Sender.next] at h
      split at h
      next hpc =>
        rw [Option.some.injEq] at h
        subst h
        simp only [work, hpc.1]
        omega
      · cases h
  | _ => cases h

theorem Receiver.next_work_lt {bucketSize : Nat} {r t : Receiver} {a : NcclAct}
    (h : r.next bucketSize a = some t) : t.work < r.work := by
  cases a with
  | begin =>
      simp only [Receiver.next] at h
      split at h
      next hpc =>
        rw [Option.some.injEq] at h
        subst h
        simp only [work, hpc]
        omega
      · cases h
  | take =>
      simp only [Receiver.next] at h
      split at h
      next bucket metadata hpc hop =>
        rw [Option.some.injEq] at h
        subst h
        simp only [work, hpc, hop]
        omega
      · cases h
  | loop =>
      simp only [Receiver.next] at h
      split at h
      next metadata hpc hmetadata =>
        rw [Option.some.injEq] at h
        subst h
        cases hlast : metadata.isLast <;> simp [work, hpc, hmetadata] <;> omega
      · cases h
  | chunk =>
      simp only [Receiver.next] at h
      split at h
      next tensorMeta pending hpc hpending =>
        split at h <;> rw [Option.some.injEq] at h <;> subst h <;>
          simp only [work, hpc, hpending, List.length_cons] <;> omega
      · cases h
  | consume =>
      simp only [Receiver.next] at h
      split at h
      next merged hpc =>
        rw [Option.some.injEq] at h
        subst h
        simp only [work, hpc]
        omega
      · cases h
  | endBucket =>
      simp only [Receiver.next] at h
      split at h
      next metadata hpc hpending hmetadata =>
        rw [Option.some.injEq] at h
        subst h
        cases hlast : metadata.isLast <;> simp [work, hpc]
      · cases h
  | _ => cases h

/-- Every step does some of the work. -/
theorem NcclState.next_work_lt {rendezvous : Bool} {bucketSize : Nat} {s t : NcclState}
    {a : NcclAct} (h : s.next rendezvous bucketSize a = some t) : t.work < s.work := by
  have hsender : ∀ sender, s.sender.next bucketSize a = some sender →
      ({ s with sender := sender } : NcclState).work < s.work := by
    intro sender hstep
    have := Sender.next_work_lt hstep
    simp only [work]
    omega
  have hreceiver : ∀ receiver, s.receiver.next bucketSize a = some receiver →
      ({ s with receiver := receiver } : NcclState).work < s.work := by
    intro receiver hstep
    have := Receiver.next_work_lt hstep
    simp only [work]
    omega
  cases a with
  | sendMeta =>
      simp only [NcclState.next, broadcastNext] at h
      split at h
      next bucket metadata hop =>
        rw [Option.some.injEq] at h
        subst h
        simp only [work, Sender.work, hop, List.map_append, List.map_singleton, List.sum_append,
          List.sum_singleton]
        omega
      · cases h
  | transmit =>
      simp only [NcclState.next, broadcastNext] at h
      split at h
      next bucket metadata hop =>
        split at h
        · rw [Option.some.injEq] at h
          subst h
          simp only [work, Sender.work, hop]
          omega
        · cases h
      · cases h
  | recvMeta =>
      simp only [NcclState.next, broadcastNext] at h
      split at h
      next bucket metadata metaQueue hop hqueue =>
        rw [Option.some.injEq] at h
        subst h
        simp only [work, Receiver.work, hop, hqueue, List.map_cons, List.sum_cons, Metadata.work]
        omega
      · cases h
  | deliver =>
      simp only [NcclState.next, broadcastNext] at h
      split at h
      next bucket metadata bytes dataQueue hop hqueue =>
        rw [Option.some.injEq] at h
        subst h
        simp only [work, Receiver.work, hop]
        omega
      · cases h
  | check | flush | place | startLast | endSend =>
      obtain ⟨sender, hstep, rfl⟩ := Option.map_eq_some_iff.mp h
      exact hsender sender hstep
  | begin | take | loop | chunk | consume | endBucket =>
      obtain ⟨receiver, hstep, rfl⟩ := Option.map_eq_some_iff.mp h
      exact hreceiver receiver hstep

/-! ## Progress -/

namespace NcclOk

variable {bucketSize itemsize : Nat} {weights : List Weight} {s : NcclState}

/-- A sender whose broadcast is complete goes on until it is done. -/
theorem sender_exists_next (hs : NcclOk bucketSize weights s) (rendezvous : Bool)
    (hidle : s.sender.idle = true) (hdone : s.sender.pc ≠ .done) :
    ∃ a t, s.next rendezvous bucketSize a = some t := by
  have hstep : ∀ a, (s.sender.next bucketSize a).isSome = true →
      (a = .check ∨ a = .flush ∨ a = .place ∨ a = .startLast ∨ a = .endSend) →
      ∃ a t, s.next rendezvous bucketSize a = some t := by
    intro a h ha
    obtain ⟨sender, h⟩ := Option.isSome_iff_exists.mp h
    refine ⟨a, { s with sender := sender }, ?_⟩
    obtain rfl | rfl | rfl | rfl | rfl := ha <;>
      exact Option.map_eq_some_iff.mpr ⟨sender, h, rfl⟩
  cases hpc : s.sender.pc with
  | filling =>
      cases hchunks : s.sender.chunks with
      | nil =>
          refine hstep .startLast ?_ (by simp)
          simp only [Sender.next, hpc, hchunks, hidle, and_self, if_true, Option.isSome_some]
      | cons chunk chunks =>
          refine hstep .check ?_ (by simp)
          simp only [Sender.next, hpc, hchunks, Option.isSome_some]
  | flushing =>
      refine hstep .flush ?_ (by simp)
      simp only [Sender.next, hpc, hidle, and_self, if_true, Option.isSome_some]
  | placing =>
      cases hchunks : s.sender.chunks with
      | nil => exact absurd hchunks (hs.sender.some_chunk (Or.inl hpc))
      | cons chunk chunks =>
          refine hstep .place ?_ (by simp)
          simp only [Sender.next, hpc, hchunks]
          split <;> rfl
  | last =>
      refine hstep .endSend ?_ (by simp)
      simp only [Sender.next, hpc, hidle, and_self, if_true, Option.isSome_some]
  | done => exact absurd hpc hdone
  | raised => exact absurd hpc hs.sender.notRaised

/-- A sender with nothing on the way is idle. -/
theorem idle_of_datas_eq_nil (hmetas : s.metas = []) (hdatas : s.datas = []) :
    s.sender.idle = true := by
  have hmeta := (List.append_eq_nil_iff.mp hmetas).2
  have hdata := (List.append_eq_nil_iff.mp hdatas).2
  rw [Sender.unsentMeta] at hmeta
  rw [Sender.unsentData] at hdata
  rw [Sender.idle]
  cases hop : s.sender.op with
  | none => rfl
  | some op =>
      obtain ⟨bucket, metadata, phase⟩ := op
      rw [hop] at hmeta hdata
      cases phase with
      | started => cases hmeta
      | metaSent => cases hdata
      | complete => rfl

theorem datas_eq_nil (hs : NcclOk bucketSize weights s) (h : s.metas = []) : s.datas = [] := by
  have hpaired := hs.paired
  rw [h] at hpaired
  exact List.eq_nil_of_length_eq_zero hpaired.symm

/-- A broadcast of the sender goes on when the receiver takes part. -/
theorem broadcast_exists_next (rendezvous : Bool) (hdata : s.sender.unsentData ≠ [])
    (hawaits : s.awaitsData = true) : ∃ a t, s.next rendezvous bucketSize a = some t := by
  rw [Sender.unsentData] at hdata
  split at hdata
  next bucket metadata hop =>
    refine ⟨.sendMeta, ?_⟩
    simp only [NcclState.next, NcclState.broadcastNext, hop]
    exact ⟨_, rfl⟩
  next bucket metadata hop =>
    refine ⟨.transmit, ?_⟩
    simp only [NcclState.next, NcclState.broadcastNext, hop, if_pos (Or.inr hawaits)]
    exact ⟨_, rfl⟩
  · exact absurd rfl hdata

/-- When the receiver reads the last bucket, there is nothing behind it. -/
theorem metas_eq_nil_of_isLast (hs : NcclOk bucketSize weights s) {metadata : Metadata}
    (hmetadata : s.receiver.metadata = some metadata) (hlast : metadata.isLast = true) :
    s.metas = [] ∧ s.sender.closed = true := by
  obtain ⟨n, hn⟩ := hs.pipelineClosed
  rw [NcclState.pipeline, hmetadata, Option.toList_some, List.append_assoc, List.map_append,
    List.map_singleton, hlast] at hn
  cases n with
  | succ n => cases hn
  | zero =>
      cases hclosed : s.sender.closed with
      | false =>
          rw [hclosed] at hn
          cases hn
      | true =>
          rw [hclosed] at hn
          have hnil : (s.receiver.arrivedMeta ++ s.metas).map Metadata.isLast = [] :=
            (List.cons.inj hn).2
          exact ⟨(List.append_eq_nil_iff.mp (List.map_eq_nil_iff.mp hnil)).2, rfl⟩

/-- While the receiver waits for a bucket, some step is enabled. -/
theorem waiting_exists_next (hs : NcclOk bucketSize weights s) (rendezvous : Bool)
    (hpc : s.receiver.pc = .waiting) : ∃ a t, s.next rendezvous bucketSize a = some t := by
  have hok := hs.receiver.pcOk
  rw [Receiver.PcOk, hpc] at hok
  obtain ⟨hop, hnotLast, -⟩ := hok
  obtain ⟨⟨bucket, phase⟩, hop⟩ := Option.ne_none_iff_exists'.mp hop
  cases phase with
  | complete metadata =>
      refine ⟨.take, ?_⟩
      simp only [NcclState.next, Receiver.next, hpc, hop, Option.map_some]
      exact ⟨_, rfl⟩
  | gotMeta metadata =>
      cases hqueue : s.dataQueue with
      | cons bytes dataQueue =>
          refine ⟨.deliver, ?_⟩
          simp only [NcclState.next, NcclState.broadcastNext, hop, hqueue]
          exact ⟨_, rfl⟩
      | nil =>
          refine broadcast_exists_next rendezvous (fun hnone => ?_) ?_
          · have hpaired := hs.paired
            rw [NcclState.datas, hqueue, hnone, NcclState.metas, Receiver.gotMeta, hop] at hpaired
            cases hpaired
          · simp only [NcclState.awaitsData, hop, hqueue, decide_true]
  | started =>
      cases hqueue : s.metaQueue with
      | cons metadata metaQueue =>
          refine ⟨.recvMeta, ?_⟩
          simp only [NcclState.next, NcclState.broadcastNext, hop, hqueue]
          exact ⟨_, rfl⟩
      | nil =>
          by_cases hnone : s.sender.unsentMeta = []
          · have hmetas : s.metas = [] := by
              rw [NcclState.metas, Receiver.gotMeta, hop, hqueue, hnone]
              rfl
            refine hs.sender_exists_next rendezvous
              (idle_of_datas_eq_nil hmetas (hs.datas_eq_nil hmetas)) fun hdone => ?_
            -- The last message would be the one that the receiver reads.
            obtain ⟨n, hn⟩ := hs.pipelineClosed
            rw [NcclState.pipeline, Receiver.arrivedMeta, hop, hmetas, Sender.closed, hdone] at hn
            cases hmetadata : s.receiver.metadata with
            | none =>
                rw [hmetadata] at hn
                cases n <;> cases hn
            | some metadata =>
                rw [hmetadata] at hn
                have hfalse := hnotLast metadata hmetadata
                have hn' : [metadata.isLast] = List.replicate n false ++ [true] := hn
                rw [hfalse] at hn'
                cases n with
                | zero => cases hn'
                | succ n => cases n <;> cases hn'
          · rw [Sender.unsentMeta] at hnone
            split at hnone
            next bucket metadata hsend =>
              refine ⟨.sendMeta, ?_⟩
              simp only [NcclState.next, NcclState.broadcastNext, hsend]
              exact ⟨_, rfl⟩
            · exact absurd rfl hnone

/-- No state but the final one is stuck. -/
theorem exists_next (hs : NcclOk bucketSize weights s) (rendezvous : Bool)
    (h : ¬ (s.sender.pc = .done ∧ s.receiver.pc = .done)) :
    ∃ a t, s.next rendezvous bucketSize a = some t := by
  have hok := hs.receiver.pcOk
  have hstep : ∀ a, (s.receiver.next bucketSize a).isSome = true →
      (a = .begin ∨ a = .loop ∨ a = .chunk ∨ a = .consume ∨ a = .endBucket) →
      ∃ a t, s.next rendezvous bucketSize a = some t := by
    intro a h ha
    obtain ⟨receiver, h⟩ := Option.isSome_iff_exists.mp h
    refine ⟨a, { s with receiver := receiver }, ?_⟩
    obtain rfl | rfl | rfl | rfl | rfl := ha <;>
      exact Option.map_eq_some_iff.mpr ⟨receiver, h, rfl⟩
  cases hpc : s.receiver.pc with
  | start =>
      refine hstep .begin ?_ (by simp)
      simp only [Receiver.next, hpc, if_true, Option.isSome_some]
  | waiting => exact hs.waiting_exists_next rendezvous hpc
  | head =>
      rw [Receiver.PcOk, hpc] at hok
      obtain ⟨metadata, hmetadata⟩ := Option.ne_none_iff_exists'.mp hok.2.1
      refine hstep .loop ?_ (by simp)
      simp only [Receiver.next, hpc, hmetadata, Option.isSome_some]
  | yielding =>
      rw [Receiver.PcOk, hpc] at hok
      obtain ⟨metadata, hmetadata, -⟩ := hok
      cases hpending : s.receiver.pending with
      | nil =>
          refine hstep .endBucket ?_ (by simp)
          simp only [Receiver.next, hpc, hpending, hmetadata, Option.isSome_some]
      | cons tensorMeta pending =>
          refine hstep .chunk ?_ (by simp)
          simp only [Receiver.next, hpc, hpending]
          split <;> rfl
  | holding merged =>
      refine hstep .consume ?_ (by simp)
      simp only [Receiver.next, hpc, Option.isSome_some]
  | done =>
      rw [Receiver.PcOk, hpc] at hok
      obtain ⟨-, ⟨metadata, hmetadata, hlast⟩, -⟩ := hok
      obtain ⟨hmetas, -⟩ := hs.metas_eq_nil_of_isLast hmetadata hlast
      exact hs.sender_exists_next rendezvous
        (idle_of_datas_eq_nil hmetas (hs.datas_eq_nil hmetas)) fun hdone => h ⟨hdone, hpc⟩
  | raised =>
      rw [Receiver.PcOk, hpc] at hok
      exact absurd hok id

/-! ## Delivery -/

/-- What the consumer got is what was sent first. -/
theorem yielded_prefix (hs : NcclOk bucketSize weights s)
    (hw : WeightsOk bucketSize itemsize weights) :
    s.receiver.yielded <+: weights.map Weight.tensor := by
  obtain ⟨processed, hsplit, hmerge⟩ := hs.conserve
  have hall := mergeChunks_splitWeightChunks hw.size_pos hw.nbytes_pos
  rw [← hsplit, List.append_assoc, mergeChunks_append_of_ok hmerge] at hall
  obtain ⟨⟨merging, tensors⟩, -, htensors⟩ := Py.bind_eq_ok.mp hall
  rw [← (Prod.mk.inj (Except.ok.inj htensors)).2, List.append_assoc]
  exact List.prefix_append _ _

/-- When both parties are done, every weight has been delivered. -/
theorem yielded_eq_of_done (hs : NcclOk bucketSize weights s)
    (hw : WeightsOk bucketSize itemsize weights) (hsender : s.sender.pc = .done)
    (hreceiver : s.receiver.pc = .done) :
    s.receiver.yielded = weights.map Weight.tensor := by
  have hok := hs.receiver.pcOk
  rw [Receiver.PcOk, hreceiver] at hok
  obtain ⟨hop, ⟨metadata, hmetadata, hlast⟩, hpending⟩ := hok
  obtain ⟨hmetas, hclosed⟩ := hs.metas_eq_nil_of_isLast hmetadata hlast
  have hplaced : s.placed = [] := by
    rw [NcclState.placed, hmetas, Receiver.unread, hreceiver, hpending, Receiver.arrived, hop,
      Sender.current, Sender.packing, hsender]
    rfl
  obtain ⟨processed, hsplit, hmerge⟩ := hs.conserve
  have hall := mergeChunks_splitWeightChunks hw.size_pos hw.nbytes_pos
  rw [hplaced, hs.sender.no_chunk hclosed, List.map_nil, List.append_nil, List.append_nil] at hsplit
  rw [← hsplit, hmerge, Receiver.heldList, hreceiver, List.append_nil] at hall
  exact (Prod.mk.inj (Except.ok.inj hall)).2

end NcclOk

/-- Every message but the last one is not marked as the last. -/
theorem LastClosed.dropLast {closed : Bool} {messages : List Metadata}
    (h : LastClosed closed messages) : ∀ metadata ∈ messages.dropLast, metadata.isLast = false := by
  obtain ⟨n, hn⟩ := h
  have hdrop := congrArg List.dropLast hn
  rw [← List.map_dropLast] at hdrop
  intro metadata hmetadata
  have hmem : metadata.isLast ∈ (messages.dropLast).map Metadata.isLast :=
    List.mem_map_of_mem hmetadata
  rw [hdrop] at hmem
  cases closed with
  | true =>
      rw [if_pos rfl, List.dropLast_concat] at hmem
      exact List.eq_of_mem_replicate hmem
  | false =>
      rw [if_neg Bool.false_ne_true, List.append_nil] at hmem
      exact List.eq_of_mem_replicate (List.dropLast_subset _ hmem)

/-- The chunked transfer, under every interleaving: no assertion fails, no
buffer is written while it is broadcast or read while it is received, every
bucket fits, only the last message is marked as the last, and what is yielded
is what was sent.  A run is bounded, and one that cannot go on has delivered
every weight. -/
theorem nccl_lossless (rendezvous : Bool) (bucketSize itemsize : Nat) (weights : List Weight)
    (hw : WeightsOk bucketSize itemsize weights) (acts : List NcclAct) (s : NcclState)
    (hrun : Run.exec (NcclState.next rendezvous bucketSize) (.init bucketSize weights) acts =
      some s) :
    s.sender.pc ≠ .raised ∧
      (s.sender.pc = .placing → ∀ op, s.sender.op = some op → op.phase ≠ .complete →
        op.bucket ≠ s.sender.sendBuf) ∧
      (∀ metadata ∈ s.sent, bucketBytes metadata.bucketMeta ≤ bucketSize) ∧
      (∀ metadata ∈ s.sent.dropLast, metadata.isLast = false) ∧
      (∀ op, s.receiver.op = some op → op.bucket ≠ s.receiver.sendBuf) ∧
      s.receiver.pc ≠ .raised ∧
      s.receiver.yielded <+: weights.map Weight.tensor ∧
      acts.length ≤ 12 * (splitWeightChunks bucketSize weights).length + 10 ∧
      ((∀ a, s.next rendezvous bucketSize a = none) →
        s.receiver.yielded = weights.map Weight.tensor ∧
          ∃ metadata, s.sent.getLast? = some metadata ∧ metadata.isLast = true) := by
  have hs : NcclOk bucketSize weights s :=
    Run.exec_invariant (fun _ _ _ hs hstep => hs.next hw hstep) (init_ok hw) hrun
  refine ⟨hs.sender.notRaised, ?_, ?_, ?_, ?_, ?_, hs.yielded_prefix hw, ?_, ?_⟩
  · intro hpc op hop _
    rw [hs.sender.otherBuf (by rw [Sender.packing, hpc]) op hop]
    exact Bool.not_ne_self _
  · exact fun metadata h => hs.bytes_le metadata (List.mem_append_left _ h)
  · intro metadata h
    refine hs.messagesClosed.dropLast metadata ?_
    rw [NcclState.messages]
    cases hunsent : s.sender.unsentMeta with
    | nil => rwa [List.append_nil]
    | cons unsent rest =>
        rw [List.dropLast_append_of_ne_nil (List.cons_ne_nil _ _)]
        exact List.mem_append_left _ (List.dropLast_subset _ h)
  · intro op hop
    rw [hs.receiver.otherBuf op hop]
    exact Bool.not_ne_self _
  · intro hraised
    have hok := hs.receiver.pcOk
    rw [Receiver.PcOk, hraised] at hok
    exact hok
  · have hlength := Run.length_le_of_exec (fun _ _ _ h => NcclState.next_work_lt h) hrun
    have hinit : (NcclState.init bucketSize weights).work =
        12 * (splitWeightChunks bucketSize weights).length + 10 := rfl
    omega
  · intro hstuck
    have hdone : s.sender.pc = .done ∧ s.receiver.pc = .done := by
      by_contra hnot
      obtain ⟨a, t, hstep⟩ := hs.exists_next rendezvous hnot
      rw [hstuck a] at hstep
      cases hstep
    refine ⟨hs.yielded_eq_of_done hw hdone.1 hdone.2, ?_⟩
    obtain ⟨n, hn⟩ := hs.messagesClosed
    rw [NcclState.messages, (Sender.unsent_of_idle (hs.sender.last_idle hdone.1)).1,
      List.append_nil, Sender.closed, hdone.1] at hn
    have hlast := congrArg List.getLast? hn
    rw [List.getLast?_map, if_pos rfl, List.getLast?_concat] at hlast
    exact Option.map_eq_some_iff.mp hlast

/-- A weight of two bytes goes through a bucket of one byte. -/
theorem nccl_lossless_two_buckets :
    let w : Weight := ⟨"w", [2], ⟨"uint8", 1⟩, [7, 9], rfl⟩
    ∃ s, Run.exec (NcclState.next true 1) (.init 1 [w])
        [.begin, .check, .place, .check, .flush, .sendMeta, .recvMeta, .transmit, .deliver, .take,
          .loop, .chunk, .place, .endBucket, .startLast, .sendMeta, .recvMeta, .transmit, .deliver,
          .endSend, .take, .loop, .chunk, .consume, .endBucket] = some s ∧
      s.receiver.yielded = [w.tensor] := by
  intro w
  have hw : WeightsOk 1 1 [w] := by
    refine ⟨Nat.one_pos, Nat.dvd_refl 1, by simp, ?_, ?_⟩
    · intro w' hw'
      rw [List.mem_singleton.mp hw']
      decide
    · intro w' hw'
      rw [List.mem_singleton.mp hw']
  have hsome : (Run.exec (NcclState.next true 1) (.init 1 [w])
      [.begin, .check, .place, .check, .flush, .sendMeta, .recvMeta, .transmit, .deliver, .take,
        .loop, .chunk, .place, .endBucket, .startLast, .sendMeta, .recvMeta, .transmit, .deliver,
        .endSend, .take, .loop, .chunk, .consume, .endBucket]).isSome = true := by
    decide
  obtain ⟨s, hrun⟩ := Option.isSome_iff_exists.mp hsome
  have hstuck : ∀ a, (Run.exec (NcclState.next true 1) (.init 1 [w])
      [.begin, .check, .place, .check, .flush, .sendMeta, .recvMeta, .transmit, .deliver, .take,
        .loop, .chunk, .place, .endBucket, .startLast, .sendMeta, .recvMeta, .transmit, .deliver,
        .endSend, .take, .loop, .chunk, .consume, .endBucket]).bind
          (fun s => s.next true 1 a) = none := by
    intro a
    cases a <;> decide
  refine ⟨s, hrun, ((nccl_lossless true 1 1 [w] hw _ s hrun).2.2.2.2.2.2.2.2 fun a => ?_).1⟩
  have := hstuck a
  rw [hrun] at this
  exact this

end Verl
