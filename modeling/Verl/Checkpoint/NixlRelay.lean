import Verl.Checkpoint.NixlChain

/-!
# Every rank of the chain yields the weights

The steps of the receivers, and with them that every run of the chain is a run
of the relay.  A rank has therefore taken a part of what rank 0 published, and
what it yields is what the merger makes of it.
-/

namespace Verl

open Slices (slice write)

/-! ## States with one rank changed -/

namespace NixlState

variable {s : NixlState} {k i j : Nat} {r : NixlReceiver} {l : NixlLink}

theorem set_receivers_self : (s.set k r i l).receivers k = r := Function.update_self _ _ _

theorem set_receivers_of_ne (h : j ≠ k) : (s.set k r i l).receivers j = s.receivers j :=
  Function.update_of_ne h _ _

theorem set_links_self : (s.set k r i l).links i = l := Function.update_self _ _ _

theorem set_links_of_ne (h : j ≠ i) : (s.set k r i l).links j = s.links j :=
  Function.update_of_ne h _ _

theorem set_op_of_ne (h : j ≠ k + 1) : (s.set k r i l).op j = s.op j := by
  cases j with
  | zero => rfl
  | succ j =>
      rw [op, op, set_receivers_of_ne (fun hj => h (congrArg Nat.succ hj))]

theorem set_published_of_ne (h : j ≠ k + 1) : (s.set k r i l).published j = s.published j := by
  cases j with
  | zero => rfl
  | succ j =>
      rw [published, published, set_receivers_of_ne (fun hj => h (congrArg Nat.succ hj))]

theorem set_bufs_of_ne (h : j ≠ k + 1) : (s.set k r i l).bufs j = s.bufs j := by
  cases j with
  | zero => rfl
  | succ j =>
      rw [bufs, bufs, set_receivers_of_ne (fun hj => h (congrArg Nat.succ hj))]

end NixlState

namespace NixlOk

variable {n bucketSize itemsize : Nat} {weights : List Weight} {s t : NixlState}
  {got : Nat → List Bucket} {k i : Nat} {r : NixlReceiver} {l : NixlLink}

/-- A step of a rank concerns the links on both sides of it. -/
theorem setReceiver (hs : NixlOk n bucketSize weights s got) (taken : List Bucket)
    (hi : i = k ∨ i = k + 1) (hreceiver : NixlReceiverOk bucketSize taken r)
    (hbefore : NixlLinkOk bucketSize (got k) taken (s.op k) (s.published k)
      ((s.bufs k).get (s.published k)) ((s.set k r i l).links k) r.readOp
      (r.bufs.get (!r.sendBuf)))
    (hafter : k + 1 < n → NixlLinkOk bucketSize taken (got (k + 2)) r.op r.sendBuf
      (r.bufs.get r.sendBuf) ((s.set k r i l).links (k + 1)) (s.receivers (k + 1)).readOp
      ((s.receivers (k + 1)).bufs.get (!(s.receivers (k + 1)).sendBuf)))
    (hlast : ¬ k + 1 < n → r.op = none) :
    NixlOk n bucketSize weights (s.set k r i l) (Function.update got (k + 1) taken) where
  sender := by
    rw [Function.update_of_ne (Nat.succ_ne_zero k).symm]
    exact hs.sender
  receiver := by
    intro j hj
    by_cases hjk : j = k
    · subst hjk
      rw [Function.update_self, NixlState.set_receivers_self]
      exact hreceiver
    · rw [Function.update_of_ne (fun h => hjk (Nat.succ.inj h)), NixlState.set_receivers_of_ne hjk]
      exact hs.receiver j hj
  link := by
    intro j hj
    by_cases hjk : j = k
    · subst hjk
      rw [NixlState.set_op_of_ne (Nat.lt_succ_self j).ne,
        NixlState.set_published_of_ne (Nat.lt_succ_self j).ne,
        NixlState.set_bufs_of_ne (Nat.lt_succ_self j).ne, Function.update_self,
        Function.update_of_ne (Nat.lt_succ_self j).ne, NixlState.set_receivers_self]
      exact hbefore
    · rw [Function.update_of_ne (fun h => hjk (Nat.succ.inj h)),
        NixlState.set_receivers_of_ne hjk]
      by_cases hjk' : j = k + 1
      · subst hjk'
        rw [Function.update_self, NixlState.op, NixlState.published, NixlState.bufs,
          NixlState.set_receivers_self]
        exact hafter hj
      · have hlinks : (s.set k r i l).links j = s.links j := by
          obtain rfl | rfl := hi
          · exact NixlState.set_links_of_ne hjk
          · exact NixlState.set_links_of_ne hjk'
        rw [NixlState.set_op_of_ne hjk', NixlState.set_published_of_ne hjk',
          NixlState.set_bufs_of_ne hjk', Function.update_of_ne hjk', hlinks]
        exact hs.link j hj
  last := by
    intro j hj
    by_cases hjk : j = k
    · subst hjk
      rw [NixlState.set_receivers_self]
      exact hlast hj
    · rw [NixlState.set_receivers_of_ne hjk]
      exact hs.last j hj

/-- A step of a rank on its own, or with the link before. -/
theorem moveReceiver (hs : NixlOk n bucketSize weights s got)
    (hreceiver : NixlReceiverOk bucketSize (got (k + 1)) r)
    (hop : r.op = (s.receivers k).op) (hsendBuf : r.sendBuf = (s.receivers k).sendBuf)
    (hbuf : r.bufs.get r.sendBuf = (s.receivers k).bufs.get (s.receivers k).sendBuf)
    (hbefore : NixlLinkOk bucketSize (got k) (got (k + 1)) (s.op k) (s.published k)
      ((s.bufs k).get (s.published k)) l r.readOp (r.bufs.get (!r.sendBuf))) :
    NixlOk n bucketSize weights (s.set k r k l) got := by
  have hbefore' := hbefore
  rw [← NixlState.set_links_self (s := s) (k := k) (i := k) (l := l) (r := r)] at hbefore'
  have h := hs.setReceiver _ (Or.inl rfl) hreceiver hbefore' (fun hk => by
      rw [NixlState.set_links_of_ne (Nat.succ_ne_self k), hop, hbuf, hsendBuf]
      exact hs.link (k + 1) hk) (fun hk => by
      rw [hop]
      exact hs.last k hk)
  rwa [Function.update_eq_self] at h

/-- A step of a rank that its neighbours do not see. -/
theorem stepReceiver (hs : NixlOk n bucketSize weights s got) (hk : k < n)
    (hreceiver : NixlReceiverOk bucketSize (got (k + 1)) r)
    (hop : r.op = (s.receivers k).op) (hreadOp : r.readOp = (s.receivers k).readOp)
    (hsendBuf : r.sendBuf = (s.receivers k).sendBuf) (hbufs : r.bufs = (s.receivers k).bufs) :
    NixlOk n bucketSize weights (s.set k r k (s.links k)) got := by
  refine hs.moveReceiver hreceiver hop hsendBuf (by rw [hbufs, hsendBuf]) ?_
  rw [hreadOp, hbufs, hsendBuf]
  exact hs.link k hk

/-! ## Yielding -/

theorem begin (hs : NixlOk n bucketSize weights s got) (hk : k < n)
    (h : (s.receivers k).yieldNext bucketSize (.begin k) = some r) :
    NixlOk n bucketSize weights (s.set k r k (s.links k)) got := by
  simp only [NixlReceiver.yieldNext] at h
  split at h
  next hpc =>
    cases h
    have hr := hs.receiver k hk
    have hok := hr.pcOk
    rw [NixlReceiver.PcOk, hpc] at hok
    obtain ⟨hop, hreadOp, hfresh⟩ := hok
    have hlink := hs.link k hk
    refine hs.moveReceiver ⟨⟨rfl, Or.inl ⟨hfresh, hop⟩⟩, hr.length_bufs, ?_⟩ rfl rfl rfl ?_
    · obtain ⟨processed, hchunks, hmerge⟩ := hr.consumed
      refine ⟨processed, hchunks, ?_⟩
      rw [hmerge, NixlReceiver.heldList, hpc]
      rfl
    · rw [hreadOp] at hlink
      cases hlink with
      | quiet hop hmessages hnotifs hread hsent => exact .quiet hop hmessages hnotifs rfl hsent
      | posted message hop hmessages hnotifs hbucket hread hsent =>
          exact .posted message hop hmessages hnotifs hbucket rfl hsent
      | reading message todo hop hmessages hnotifs hbucket hread => cases hread
      | notified notifyKey hop hmessages hnotifs hread hsent =>
          exact .notified notifyKey hop hmessages hnotifs rfl hsent
  · cases h

theorem endBucket (hs : NixlOk n bucketSize weights s got) (hk : k < n)
    (h : (s.receivers k).yieldNext bucketSize (.endBucket k) = some r) :
    NixlOk n bucketSize weights (s.set k r k (s.links k)) got := by
  simp only [NixlReceiver.yieldNext] at h
  split at h
  next hpc hpending =>
    cases h
    have hr := hs.receiver k hk
    have hok := hr.pcOk
    rw [NixlReceiver.PcOk, hpc] at hok
    refine hs.stepReceiver hk ⟨⟨hpending, hok⟩, hr.length_bufs, ?_⟩ rfl rfl rfl rfl
    obtain ⟨processed, hchunks, hmerge⟩ := hr.consumed
    refine ⟨processed, hchunks, ?_⟩
    rw [hmerge, NixlReceiver.heldList, hpc]
    rfl
  · cases h

theorem consume (hs : NixlOk n bucketSize weights s got) (hk : k < n)
    (h : (s.receivers k).yieldNext bucketSize (.consume k) = some r) :
    NixlOk n bucketSize weights (s.set k r k (s.links k)) got := by
  simp only [NixlReceiver.yieldNext] at h
  split at h
  next merged hpc =>
    cases h
    have hr := hs.receiver k hk
    have hok := hr.pcOk
    rw [NixlReceiver.PcOk, hpc] at hok
    refine hs.stepReceiver hk ⟨hok, hr.length_bufs, ?_⟩ rfl rfl rfl rfl
    obtain ⟨processed, hchunks, hmerge⟩ := hr.consumed
    refine ⟨processed, hchunks, ?_⟩
    rw [hmerge, NixlReceiver.heldList, hpc, NixlReceiver.heldList, List.append_nil]
  · cases h

/-- The chunks that a rank has taken are the first ones. -/
theorem exists_rest (hs : NixlOk n bucketSize weights s got) (hgot : Relay.Ordered got) (k : Nat) :
    ∃ rest, ((got k).flatMap Bucket.chunks).map Chunk.unplaced ++ rest =
      splitWeightChunks bucketSize weights := by
  obtain ⟨buckets, hbuckets⟩ := hgot.prefix_zero k
  refine ⟨(buckets.flatMap Bucket.chunks ++ s.sender.current).map Chunk.unplaced ++
    s.sender.chunks, ?_⟩
  rw [← hs.sender.conserve, ← hbuckets, List.flatMap_append]
  simp only [List.map_append, List.append_assoc]

/-- The merger takes the next chunk without an error. -/
theorem mergeTensor_next (hs : NixlOk n bucketSize weights s got) (hgot : Relay.Ordered got)
    (hw : WeightsOk bucketSize itemsize weights) (hk : k < n) {chunk : Chunk} {rest : List Chunk}
    (hunread : (s.receivers k).unread = chunk :: rest) :
    ∃ processed merging tensor, (got (k + 1)).flatMap Bucket.chunks = processed ++ rest ∧
      mergeTensor bucketSize (s.receivers k).merging chunk = .ok (merging, tensor) ∧
      mergeChunks bucketSize none (processed.map Chunk.unplaced) = .ok (merging,
        (s.receivers k).yielded ++ (s.receivers k).heldList ++ tensor.toList) := by
  obtain ⟨processed, hchunks, hmerge⟩ := (hs.receiver k hk).consumed
  obtain ⟨later, hsplit⟩ := hs.exists_rest hgot (k + 1)
  have hmem : chunk ∈ (got 0).flatMap Bucket.chunks := by
    obtain ⟨buckets, hbuckets⟩ := hgot.prefix_zero (k + 1)
    rw [← hbuckets, List.flatMap_append, hchunks, hunread]
    exact List.mem_append_left _ (List.mem_append_right _ List.mem_cons_self)
  have haligned : mergeTensor bucketSize (s.receivers k).merging chunk.unplaced =
      mergeTensor bucketSize (s.receivers k).merging chunk :=
    mergeTensor_unplaced (hs.sender.aligned chunk (List.mem_append_left _ hmem))
  have hall := mergeChunks_splitWeightChunks hw.size_pos hw.nbytes_pos
  rw [← hsplit, hchunks, hunread, List.map_append, List.map_cons, List.append_assoc,
    List.cons_append, mergeChunks_append_of_ok hmerge] at hall
  obtain ⟨result, hrest, -⟩ := Py.bind_eq_ok.mp hall
  rw [mergeChunks, haligned] at hrest
  obtain ⟨⟨merging, tensor⟩, hok, -⟩ := Py.bind_eq_ok.mp hrest
  refine ⟨processed ++ [chunk], merging, tensor, ?_, hok, ?_⟩
  · rw [hchunks, hunread, List.append_assoc]
    rfl
  · rw [List.map_append, List.map_singleton, mergeChunks_append_of_ok hmerge, mergeChunks, haligned,
      hok]
    simp only [mergeChunks, Py.ok_bind, Py.pure_eq_ok, List.append_nil]

theorem chunk (hs : NixlOk n bucketSize weights s got) (hgot : Relay.Ordered got)
    (hw : WeightsOk bucketSize itemsize weights) (hk : k < n)
    (h : (s.receivers k).yieldNext bucketSize (.chunk k) = some r) :
    NixlOk n bucketSize weights (s.set k r k (s.links k)) got := by
  simp only [NixlReceiver.yieldNext] at h
  split at h
  next tensorMeta pending hpc hpending =>
    have hr := hs.receiver k hk
    have hpcOk := hr.pcOk
    rw [NixlReceiver.PcOk, hpc] at hpcOk
    have hunread : (s.receivers k).unread = (tensorMeta, (s.receivers k).read tensorMeta) ::
        bucketChunks ((s.receivers k).bufs.get (s.receivers k).sendBuf) pending := by
      rw [NixlReceiver.unread, hpending]
      rfl
    obtain ⟨processed, merging, tensor, hchunks, hok, hmerge⟩ := hs.mergeTensor_next hgot hw hk hunread
    have hnone : (s.receivers k).heldList = [] := by rw [NixlReceiver.heldList, hpc]
    rw [hnone, List.append_nil] at hmerge
    obtain ⟨⟨merging', merged⟩, hmerged, hresult⟩ := Py.bind_eq_ok.mp hok
    obtain ⟨rfl, rfl⟩ := Prod.mk.inj (Except.ok.inj hresult)
    rw [hmerged] at h
    cases merged with
    | none =>
        cases h
        refine hs.stepReceiver hk ⟨?_, hr.length_bufs, processed, hchunks, ?_⟩ rfl rfl rfl rfl
        · simp only [NixlReceiver.PcOk, hpc]
          exact hpcOk
        · rw [hmerge, NixlReceiver.heldList, hpc]
          rfl
    | some merged =>
        cases h
        refine hs.stepReceiver hk ⟨hpcOk, hr.length_bufs, processed, hchunks, ?_⟩ rfl rfl rfl rfl
        rw [hmerge]
        cases merged with
        | view tensorMeta' =>
            rw [mergeChunk_view hmerged]
            rfl
        | owned tensor => rfl
  · cases h

/-! ## Reading from the rank before -/

theorem fetch (hs : NixlOk n bucketSize weights s got) (hk : k < n)
    (h : (s.receivers k).readNext bucketSize (s.bufs k) (s.links k) (.fetch k) = some (l, r)) :
    NixlOk n bucketSize weights (s.set k r k l) got := by
  simp only [NixlReceiver.readNext] at h
  split at h
  next message messages hpc hmessages =>
    cases h
    have hr := hs.receiver k hk
    have hok := hr.pcOk
    rw [NixlReceiver.PcOk, hpc] at hok
    obtain ⟨hreadOp, hok⟩ := hok
    refine hs.moveReceiver ⟨?_, hr.length_bufs, ?_⟩ rfl rfl rfl ?_
    · obtain ⟨hfresh, hop⟩ | ⟨metadata, hholds, hlast⟩ := hok
      · rw [if_pos hfresh.2.1]
        exact ⟨hop, Option.some_ne_none _, hfresh.2.2, Or.inl hfresh⟩
      · rw [if_neg (fun hnone => by rw [hholds.1] at hnone; cases hnone)]
        refine ⟨metadata, hholds, ?_⟩
        rw [hlast]
        exact Option.some_ne_none _
    · obtain ⟨processed, hchunks, hmerge⟩ := hr.consumed
      refine ⟨processed, hchunks, ?_⟩
      rw [hmerge, NixlReceiver.heldList, hpc]
      by_cases hnone : (s.receivers k).metadata = none
      · simp only [NixlReceiver.heldList, if_pos hnone]
      · simp only [NixlReceiver.heldList, if_neg hnone]
    · have hlink := hs.link k hk
      rw [hreadOp] at hlink
      cases hlink with
      | posted message' hop hposted hnotifs hbucket hread hsent =>
          rw [hmessages] at hposted
          cases hposted
          refine .reading message (List.range bucketSize) hop rfl hnotifs hbucket rfl ?_ ?_
          · exact fun pos hpos hnot => absurd (List.mem_range.mpr hpos) hnot
          · rw [hsent, show ReadOp.arrived _ (some ReadOp.opened) = [] from rfl, List.append_nil]
      | quiet hop hnone =>
          rw [hmessages] at hnone
          cases hnone
      | reading message' todo hop hnone =>
          rw [hmessages] at hnone
          cases hnone
      | notified notifyKey hop hnone =>
          rw [hmessages] at hnone
          cases hnone
  · cases h

/-- The program counter allows another state of the same transfer, and another
buffer to read into. -/
theorem setReadOp {taken : List Bucket} (hr : NixlReceiverOk bucketSize taken r)
    {bufs : Buffers} {readOp : ReadOp} (hmessage : ReadOp.message r.readOp ≠ none)
    (hmessage' : ReadOp.message (some readOp) ≠ none)
    (hlength : ∀ i, (bufs.get i).length = bucketSize)
    (hbufs : bufs.get r.sendBuf = r.bufs.get r.sendBuf) :
    NixlReceiverOk bucketSize taken { r with bufs := bufs, readOp := some readOp } := by
  have hne : r.readOp ≠ none := fun h => hmessage (by rw [h]; rfl)
  have hholds : ∀ metadata, r.Holds taken metadata →
      ({ r with bufs := bufs, readOp := some readOp } : NixlReceiver).Holds taken metadata := by
    intro metadata hholds
    refine ⟨hholds.1, ?_⟩
    rw [hholds.2, hbufs]
  have hlast : ∀ metadata : Metadata,
      (if metadata.isLast then r.readOp = none else ReadOp.message r.readOp ≠ none) →
      if metadata.isLast then some readOp = none else ReadOp.message (some readOp) ≠ none := by
    intro metadata h
    cases hl : metadata.isLast with
    | true =>
        rw [hl] at h
        exact absurd h hne
    | false => exact hmessage'
  refine ⟨?_, hlength, ?_⟩
  · have hok := hr.pcOk
    rw [NixlReceiver.PcOk] at hok ⊢
    cases hpc : r.pc with
    | start =>
        rw [hpc] at hok
        exact absurd hok.2.1 hne
    | fetching =>
        rw [hpc] at hok
        rw [hok.1] at hmessage
        exact absurd rfl hmessage
    | yielding =>
        rw [hpc] at hok
        obtain ⟨metadata, h, hread⟩ := hok
        exact ⟨metadata, hholds metadata h, hlast metadata hread⟩
    | holding merged =>
        rw [hpc] at hok
        obtain ⟨metadata, h, hread⟩ := hok
        exact ⟨metadata, hholds metadata h, hlast metadata hread⟩
    | draining =>
        rw [hpc] at hok
        obtain ⟨hpending, metadata, h, hread⟩ := hok
        exact ⟨hpending, metadata, hholds metadata h, hlast metadata hread⟩
    | waiting =>
        rw [hpc] at hok
        obtain ⟨hop, -, hpending, hfresh | ⟨metadata, h, hnot⟩⟩ := hok
        · exact ⟨hop, hmessage', hpending, Or.inl hfresh⟩
        · exact ⟨hop, hmessage', hpending, Or.inr ⟨metadata, hholds metadata h, hnot⟩⟩
    | done =>
        rw [hpc] at hok
        exact absurd hok.2.1 hne
    | raised =>
        rw [hpc] at hok
        exact hok
  · obtain ⟨processed, hchunks, hmerge⟩ := hr.consumed
    refine ⟨processed, ?_, ?_⟩
    · rw [hchunks, NixlReceiver.unread, NixlReceiver.unread, hbufs]
    · have hheld : ({ r with bufs := bufs, readOp := some readOp } : NixlReceiver).heldList =
          r.heldList := NixlReceiver.heldList_eq rfl hbufs
      rw [hmerge, hheld]

theorem copy (hs : NixlOk n bucketSize weights s got) (hk : k < n) {pos : Nat}
    (hsource : ((s.bufs k).get (s.published k)).length = bucketSize)
    (h : (s.receivers k).readNext bucketSize (s.bufs k) (s.links k) (.copy k pos) =
      some (l, r)) :
    NixlOk n bucketSize weights (s.set k r k l) got := by
  simp only [NixlReceiver.readNext] at h
  split at h
  next message todo hreadOp =>
    split at h
    next hmem =>
      cases h
      have hr := hs.receiver k hk
      have hmessage : ReadOp.message (s.receivers k).readOp ≠ none := by
        rw [hreadOp]
        exact Option.some_ne_none _
      have hsame := Buffers.get_set_not (s.receivers k).bufs (s.receivers k).sendBuf
        (((s.receivers k).bufs.get (!(s.receivers k).sendBuf)).set pos
          (((s.bufs k).get message.bucket).getD pos 0))
      refine hs.moveReceiver (setReadOp hr hmessage (Option.some_ne_none _) ?_ hsame) rfl rfl
        hsame ?_
      · intro i
        by_cases hi : i = (s.receivers k).sendBuf
        · rw [hi, hsame]
          exact hr.length_bufs _
        · rw [Bool.eq_not_of_ne hi, Buffers.get_set_self, List.length_set]
          exact hr.length_bufs _
      · have hlink := hs.link k hk
        rw [hreadOp] at hlink
        cases hlink with
        | reading message' todo' hop hmessages hnotifs hbucket hread hcopied hsent =>
            cases hread
            refine .reading message (todo.erase pos) hop hmessages hnotifs hbucket rfl ?_ hsent
            intro i hi hnot
            rw [Buffers.get_set_self, hbucket]
            by_cases hpos : pos = i
            · subst hpos
              rw [List.getElem?_set_self (by rw [hr.length_bufs]; exact hi),
                List.getD_eq_getElem?_getD,
                List.getElem?_eq_getElem (hsource ▸ hi), Option.getD_some]
            · rw [List.getElem?_set_ne hpos]
              refine hcopied i hi fun hin => hnot ?_
              exact (List.mem_erase_of_ne (fun h => hpos h.symm)).mpr hin
        | quiet hop hmessages hnotifs hread => cases hread
        | posted message' hop hmessages hnotifs hbucket hread => cases hread
        | notified notifyKey hop hmessages hnotifs hread => cases hread
    · cases h
  · cases h

theorem finish (hs : NixlOk n bucketSize weights s got) (hk : k < n)
    (hsource : ((s.bufs k).get (s.published k)).length = bucketSize)
    (h : (s.receivers k).readNext bucketSize (s.bufs k) (s.links k) (.finish k) = some (l, r)) :
    NixlOk n bucketSize weights (s.set k r k l) got := by
  simp only [NixlReceiver.readNext] at h
  split at h
  next message hreadOp =>
    cases h
    have hr := hs.receiver k hk
    have hmessage : ReadOp.message (s.receivers k).readOp ≠ none := by
      rw [hreadOp]
      exact Option.some_ne_none _
    refine hs.moveReceiver (setReadOp hr hmessage (Option.some_ne_none _) hr.length_bufs rfl) rfl
      rfl rfl ?_
    have hlink := hs.link k hk
    rw [hreadOp] at hlink
    cases hlink with
    | reading message' todo' hop hmessages hnotifs hbucket hread hcopied hsent =>
        cases hread
        -- no byte is left, so the buffers agree
        have hcopy : (s.receivers k).bufs.get (!(s.receivers k).sendBuf) =
            (s.bufs k).get (s.published k) := by
          refine List.ext_getElem? fun i => ?_
          by_cases hi : i < bucketSize
          · exact hcopied i hi List.not_mem_nil
          · rw [List.getElem?_eq_none (by rw [hr.length_bufs]; omega),
              List.getElem?_eq_none (by rw [hsource]; omega)]
        refine .notified message.notifyKey hop hmessages (by rw [hnotifs]; rfl) rfl ?_
        rw [hcopy]
        exact hsent
    | quiet hop hmessages hnotifs hread => cases hread
    | posted message' hop hmessages hnotifs hbucket hread => cases hread
    | notified notifyKey hop hmessages hnotifs hread => cases hread
  · cases h

/-- The buffers of all ranks are as long as a bucket. -/
theorem length_source (hs : NixlOk n bucketSize weights s got) (hk : k < n) :
    ((s.bufs k).get (s.published k)).length = bucketSize := by
  cases k with
  | zero => exact hs.sender.length_bufs _
  | succ k => exact (hs.receiver k (Nat.lt_of_succ_lt hk)).length_bufs _

/-! ## Publishing to the next rank -/

/-- The receiver after the swap. -/
theorem takeBucket_ok {taken : List Bucket} (hr : NixlReceiverOk bucketSize taken r)
    (hpc : r.pc = .waiting) (metadata : Metadata) (op : Option Nat) :
    NixlReceiverOk bucketSize (taken ++ [(metadata, r.bufs.get (!r.sendBuf))])
      (r.takeBucket metadata op) := by
  have hok := hr.pcOk
  rw [NixlReceiver.PcOk, hpc] at hok
  have hholds : (r.takeBucket metadata op).Holds
      (taken ++ [(metadata, r.bufs.get (!r.sendBuf))]) metadata :=
    ⟨rfl, List.getLast?_concat⟩
  refine ⟨?_, hr.length_bufs, ?_⟩
  · cases hlast : metadata.isLast with
    | true =>
        simp only [NixlReceiver.PcOk, NixlReceiver.takeBucket, hlast, if_true]
        refine ⟨metadata, ?_, ?_⟩
        · simpa only [NixlReceiver.takeBucket, hlast, if_true] using hholds
        · rw [if_pos hlast]
          trivial
    | false =>
        simp only [NixlReceiver.PcOk, NixlReceiver.takeBucket, hlast, Bool.false_eq_true, if_false]
        refine ⟨trivial, Or.inr ⟨metadata, ?_, hlast⟩⟩
        simpa only [NixlReceiver.takeBucket, hlast, Bool.false_eq_true, if_false] using hholds
  · obtain ⟨processed, hchunks, hmerge⟩ := hr.consumed
    refine ⟨processed, ?_, ?_⟩
    · rw [NixlReceiver.unread, hok.2.2.1] at hchunks
      rw [List.flatMap_append, List.flatMap_singleton, hchunks]
      simp only [bucketChunks, List.map_nil, List.append_nil]
      rfl
    · rw [hmerge, NixlReceiver.heldList, hpc, NixlReceiver.heldList]
      cases hlast : metadata.isLast with
      | true =>
          simp only [NixlReceiver.takeBucket, hlast, if_true]
      | false =>
          simp only [NixlReceiver.takeBucket, hlast, Bool.false_eq_true, if_false]

/-- The bucket that has arrived is taken. -/
theorem take_link {sent taken : List Bucket} {op : Option Nat} {published : Bool}
    {source recv : List UInt8} {message : ReadableMessage} {readOp : Option ReadOp}
    (recv' : List UInt8)
    (h : NixlLinkOk bucketSize sent taken op published source l (some (.done message)) recv)
    (hreadOp : readOp = none ∨ readOp = some .opened) :
    NixlLinkOk bucketSize sent (taken ++ [(message.metadata, recv)]) op published source l readOp
      recv' := by
  have hbusy : ReadOp.busy readOp = false := by obtain rfl | rfl := hreadOp <;> rfl
  have harrived : ReadOp.arrived recv' readOp = [] := by obtain rfl | rfl := hreadOp <;> rfl
  cases h with
  | quiet hop hmessages hnotifs hread hsent =>
      refine .quiet hop hmessages hnotifs hbusy ?_
      rw [hsent, harrived, List.append_nil]
      rfl
  | posted message' hop hmessages hnotifs hbucket hread hsent =>
      refine .posted message' hop hmessages hnotifs hbucket hbusy ?_
      rw [hsent, harrived, List.append_nil]
      rfl
  | reading message' todo hop hmessages hnotifs hbucket hread => cases hread
  | notified notifyKey hop hmessages hnotifs hread hsent =>
      refine .notified notifyKey hop hmessages hnotifs hbusy ?_
      rw [hsent, harrived, List.append_nil]
      rfl

theorem take (hs : NixlOk n bucketSize weights s got) (hk : k < n)
    (h : (s.receivers k).sendNext (k + 1 < n) (s.links (k + 1)) (.take k) = some (r, l)) :
    ∃ bs got', Run.exec Relay.next got bs = some got' ∧
      NixlOk n bucketSize weights (s.set k r (k + 1) l) got' := by
  simp only [NixlReceiver.sendNext] at h
  split at h
  next message hpc hreadOp =>
    have hr := hs.receiver k hk
    have hok := hr.pcOk
    rw [NixlReceiver.PcOk, hpc] at hok
    obtain ⟨hop, -, hpending, -⟩ := hok
    have hlink := hs.link k hk
    rw [hreadOp] at hlink
    -- the bucket that has arrived is the next one of the rank before
    have hnext : ∃ rest, got k = got (k + 1) ++ (message.metadata,
        (s.receivers k).bufs.get (!(s.receivers k).sendBuf)) :: rest := by
      obtain ⟨rest, hrest⟩ := (take_link [] hlink (Or.inl rfl)).prefix_sent
      exact ⟨rest, by rw [← hrest, List.append_assoc]; rfl⟩
    obtain ⟨rest, hnext⟩ := hnext
    refine ⟨[.forward k], Function.update got (k + 1) (got (k + 1) ++ [(message.metadata,
      (s.receivers k).bufs.get (!(s.receivers k).sendBuf))]), ?_, ?_⟩
    · rw [Run.exec_cons, Relay.next_forward hnext]
      rfl
    · have hopened : ∀ op, ((s.receivers k).takeBucket message.metadata op).readOp = none ∨
          ((s.receivers k).takeBucket message.metadata op).readOp = some .opened := by
        intro op
        rw [NixlReceiver.takeBucket]
        cases message.metadata.isLast with
        | true => exact Or.inl rfl
        | false => exact Or.inr rfl
      by_cases hnextRank : k + 1 < n
      · simp only [hnextRank, decide_true, if_true] at h
        cases h
        refine hs.setReceiver _ (Or.inr rfl) (takeBucket_ok hr hpc _ _) ?_ ?_ ?_
        · rw [NixlState.set_links_of_ne (Nat.lt_succ_self k).ne]
          exact take_link _ hlink (hopened _)
        · intro _
          rw [NixlState.set_links_self]
          have hafter := hs.link (k + 1) hnextRank
          rw [NixlState.op, hop] at hafter
          exact hafter.publish _ _ _
        · exact fun hnot => absurd hnextRank hnot
      · simp only [hnextRank, decide_false, Bool.false_eq_true, if_false] at h
        cases h
        refine hs.setReceiver _ (Or.inr rfl) (takeBucket_ok hr hpc _ _) ?_ ?_ ?_
        · rw [NixlState.set_links_of_ne (Nat.lt_succ_self k).ne]
          exact take_link _ hlink (hopened _)
        · exact fun hrank => absurd hrank hnextRank
        · exact fun _ => rfl
  · cases h

theorem drain (hs : NixlOk n bucketSize weights s got) (hk : k < n)
    (h : (s.receivers k).sendNext (k + 1 < n) (s.links (k + 1)) (.drain k) = some (r, l)) :
    NixlOk n bucketSize weights (s.set k r (k + 1) l) got := by
  simp only [NixlReceiver.sendNext] at h
  split at h
  next metadata hpc hmetadata =>
    obtain ⟨⟨ok, l'⟩, hl, h⟩ := Option.map_eq_some_iff.mp h
    have hr := hs.receiver k hk
    have hpcOk := hr.pcOk
    rw [NixlReceiver.PcOk, hpc] at hpcOk
    obtain ⟨hpending, metadata', hholds, hread⟩ := hpcOk
    obtain rfl : metadata = metadata' := Option.some.inj (hmetadata.symm.trans hholds.1)
    have hok : ok = true ∧ (k + 1 < n → NixlLinkOk bucketSize (got (k + 1)) (got (k + 2)) none
        (s.receivers k).sendBuf ((s.receivers k).bufs.get (s.receivers k).sendBuf) l'
        (s.receivers (k + 1)).readOp
        ((s.receivers (k + 1)).bufs.get (!(s.receivers (k + 1)).sendBuf))) := by
      by_cases hnextRank : k + 1 < n
      · have hlink := (hs.link (k + 1) hnextRank).await hl
        exact ⟨hlink.1, fun _ => hlink.2⟩
      · rw [hs.last k hnextRank] at hl
        cases hl
        exact ⟨rfl, fun hrank => absurd hrank hnextRank⟩
    obtain ⟨rfl, hafter⟩ := hok
    cases h
    have hset := hs.setReceiver (k := k) (i := k + 1) (l := l) (r := { s.receivers k with
        pc := if metadata.isLast then .done else .waiting, op := none }) (got (k + 1)) (Or.inr rfl)
      ⟨?_, hr.length_bufs, ?_⟩ ?_ ?_ (fun _ => rfl)
    · rwa [Function.update_eq_self] at hset
    · cases hlast : metadata.isLast with
      | true =>
          rw [hlast] at hread
          exact ⟨rfl, hread, hpending, metadata, ⟨hmetadata, hholds.2⟩, hlast⟩
      | false =>
          rw [hlast] at hread
          exact ⟨rfl, hread, hpending, Or.inr ⟨metadata, ⟨hmetadata, hholds.2⟩, hlast⟩⟩
    · obtain ⟨processed, hchunks, hmerge⟩ := hr.consumed
      refine ⟨processed, hchunks, ?_⟩
      rw [hmerge, NixlReceiver.heldList, hpc]
      cases hlast : metadata.isLast with
      | true => simp only [NixlReceiver.heldList, if_true]
      | false => simp only [NixlReceiver.heldList, Bool.false_eq_true, if_false]
    · rw [NixlState.set_links_of_ne (Nat.lt_succ_self k).ne]
      exact hs.link k hk
    · intro hrank
      rw [NixlState.set_links_self]
      exact hafter hrank
  · cases h

/-! ## All steps -/

/-- Every step of the chain is a step of the relay, or none. -/
theorem next (hs : NixlOk n bucketSize weights s got) (hgot : Relay.Ordered got)
    (hw : WeightsOk bucketSize itemsize weights) (hn : 0 < n) {a : NixlAct}
    (h : s.next n bucketSize a = some t) :
    ∃ bs got', Run.exec Relay.next got bs = some got' ∧ NixlOk n bucketSize weights t got' := by
  cases a with
  | check =>
      obtain ⟨⟨sender, l⟩, hstep, rfl⟩ := Option.map_eq_some_iff.mp h
      exact ⟨[], got, rfl, hs.check hn hstep⟩
  | flush =>
      obtain ⟨⟨sender, l⟩, hstep, rfl⟩ := Option.map_eq_some_iff.mp h
      exact hs.flush hw hn hstep
  | place =>
      obtain ⟨⟨sender, l⟩, hstep, rfl⟩ := Option.map_eq_some_iff.mp h
      exact ⟨[], got, rfl, hs.place hw hn hstep⟩
  | startLast =>
      obtain ⟨⟨sender, l⟩, hstep, rfl⟩ := Option.map_eq_some_iff.mp h
      exact hs.startLast hn hstep
  | endSend =>
      obtain ⟨⟨sender, l⟩, hstep, rfl⟩ := Option.map_eq_some_iff.mp h
      exact ⟨[], got, rfl, hs.endSend hn hstep⟩
  | begin k =>
      obtain ⟨hk, h⟩ := Option.ite_none_right_eq_some.mp h
      obtain ⟨r, hstep, rfl⟩ := Option.map_eq_some_iff.mp h
      exact ⟨[], got, rfl, hs.begin hk hstep⟩
  | chunk k =>
      obtain ⟨hk, h⟩ := Option.ite_none_right_eq_some.mp h
      obtain ⟨r, hstep, rfl⟩ := Option.map_eq_some_iff.mp h
      exact ⟨[], got, rfl, hs.chunk hgot hw hk hstep⟩
  | consume k =>
      obtain ⟨hk, h⟩ := Option.ite_none_right_eq_some.mp h
      obtain ⟨r, hstep, rfl⟩ := Option.map_eq_some_iff.mp h
      exact ⟨[], got, rfl, hs.consume hk hstep⟩
  | endBucket k =>
      obtain ⟨hk, h⟩ := Option.ite_none_right_eq_some.mp h
      obtain ⟨r, hstep, rfl⟩ := Option.map_eq_some_iff.mp h
      exact ⟨[], got, rfl, hs.endBucket hk hstep⟩
  | fetch k =>
      obtain ⟨hk, h⟩ := Option.ite_none_right_eq_some.mp h
      obtain ⟨⟨l, r⟩, hstep, rfl⟩ := Option.map_eq_some_iff.mp h
      exact ⟨[], got, rfl, hs.fetch hk hstep⟩
  | copy k pos =>
      obtain ⟨hk, h⟩ := Option.ite_none_right_eq_some.mp h
      obtain ⟨⟨l, r⟩, hstep, rfl⟩ := Option.map_eq_some_iff.mp h
      exact ⟨[], got, rfl, hs.copy hk (hs.length_source hk) hstep⟩
  | finish k =>
      obtain ⟨hk, h⟩ := Option.ite_none_right_eq_some.mp h
      obtain ⟨⟨l, r⟩, hstep, rfl⟩ := Option.map_eq_some_iff.mp h
      exact ⟨[], got, rfl, hs.finish hk (hs.length_source hk) hstep⟩
  | take k =>
      obtain ⟨hk, h⟩ := Option.ite_none_right_eq_some.mp h
      obtain ⟨⟨r, l⟩, hstep, rfl⟩ := Option.map_eq_some_iff.mp h
      exact hs.take hk hstep
  | drain k =>
      obtain ⟨hk, h⟩ := Option.ite_none_right_eq_some.mp h
      obtain ⟨⟨r, l⟩, hstep, rfl⟩ := Option.map_eq_some_iff.mp h
      exact ⟨[], got, rfl, hs.drain hk hstep⟩

/-- What the consumer of a rank got is what was sent first. -/
theorem yielded_prefix (hs : NixlOk n bucketSize weights s got) (hgot : Relay.Ordered got)
    (hw : WeightsOk bucketSize itemsize weights) (hk : k < n) :
    (s.receivers k).yielded <+: weights.map Weight.tensor := by
  obtain ⟨processed, hchunks, hmerge⟩ := (hs.receiver k hk).consumed
  obtain ⟨rest, hrest⟩ := hs.exists_rest hgot (k + 1)
  have hall := mergeChunks_splitWeightChunks hw.size_pos hw.nbytes_pos
  rw [← hrest, hchunks, List.map_append, List.append_assoc, mergeChunks_append_of_ok hmerge] at hall
  obtain ⟨⟨merging, tensors⟩, -, htensors⟩ := Py.bind_eq_ok.mp hall
  rw [← (Prod.mk.inj (Except.ok.inj htensors)).2, List.append_assoc]
  exact List.prefix_append _ _

/-- The buffer that is read is the one that was published. -/
theorem reading_published (hs : NixlOk n bucketSize weights s got) (hk : k < n)
    {message : ReadableMessage} {todo : List Nat}
    (h : (s.receivers k).readOp = some (.reading message todo)) :
    message.bucket = s.published k := by
  have hlink := hs.link k hk
  rw [h] at hlink
  cases hlink with
  | reading message' todo' hop hmessages hnotifs hbucket hread =>
      cases hread
      exact hbucket
  | quiet hop hmessages hnotifs hread => cases hread
  | posted message' hop hmessages hnotifs hbucket hread => cases hread
  | notified notifyKey hop hmessages hnotifs hread => cases hread

end NixlOk

/-! ## Safety -/

namespace NixlSender

/-- The sender does not write the buffer that it published. -/
theorem next_bufs {bucketSize : Nat} {s t : NixlSender} {l l' : NixlLink} {a : NixlAct}
    (h : s.next bucketSize l a = some (t, l')) :
    t.bufs.get s.published = s.bufs.get s.published := by
  cases a with
  | place =>
      simp only [next] at h
      split at h
      next chunk chunks hpc hchunks =>
        have hpublished : s.published = !s.sendBuf := by
          rw [published, closed, hpc]
          rfl
        split at h
        · cases h
          rw [hpublished]
          exact Buffers.get_not_set _ _ _
        · cases h
          rfl
      · cases h
  | check =>
      simp only [next] at h
      split at h
      · cases h
        rfl
      · cases h
  | flush =>
      obtain ⟨-, h⟩ := Option.ite_none_right_eq_some.mp h
      obtain ⟨⟨ok, l''⟩, -, h⟩ := Option.map_eq_some_iff.mp h
      cases ok <;> cases h <;> rfl
  | startLast =>
      obtain ⟨-, h⟩ := Option.ite_none_right_eq_some.mp h
      obtain ⟨⟨ok, l''⟩, -, h⟩ := Option.map_eq_some_iff.mp h
      cases ok <;> cases h <;> rfl
  | endSend =>
      obtain ⟨-, h⟩ := Option.ite_none_right_eq_some.mp h
      obtain ⟨⟨ok, l''⟩, -, h⟩ := Option.map_eq_some_iff.mp h
      cases ok <;> cases h <;> rfl
  | _ => cases h

end NixlSender

namespace NixlReceiver

variable {bucketSize : Nat} {r t : NixlReceiver} {l l' : NixlLink} {a : NixlAct}

theorem yieldNext_bufs (h : r.yieldNext bucketSize a = some t) : t.bufs = r.bufs := by
  cases a with
  | begin k =>
      obtain ⟨-, h⟩ := Option.ite_none_right_eq_some.mp h
      cases h
      rfl
  | chunk k =>
      simp only [yieldNext] at h
      split at h
      · split at h <;> cases h <;> rfl
      · cases h
  | consume k =>
      simp only [yieldNext] at h
      split at h
      · cases h
        rfl
      · cases h
  | endBucket k =>
      simp only [yieldNext] at h
      split at h
      · cases h
        rfl
      · cases h
  | _ => cases h

/-- A transfer writes the buffer that the rank did not publish. -/
theorem readNext_bufs {source : Buffers} (h : r.readNext bucketSize source l a = some (l', t)) :
    t.bufs.get r.sendBuf = r.bufs.get r.sendBuf := by
  cases a with
  | fetch k =>
      simp only [readNext] at h
      split at h
      · cases h
        rfl
      · cases h
  | copy k pos =>
      simp only [readNext] at h
      split at h
      · split at h
        · cases h
          exact Buffers.get_set_not _ _ _
        · cases h
      · cases h
  | finish k =>
      simp only [readNext] at h
      split at h
      · cases h
        rfl
      · cases h
  | _ => cases h

theorem sendNext_bufs {hasNext : Bool} (h : r.sendNext hasNext l a = some (t, l')) :
    t.bufs = r.bufs := by
  cases a with
  | take k =>
      simp only [sendNext] at h
      split at h
      · split at h <;> cases h <;> rfl
      · cases h
  | drain k =>
      simp only [sendNext] at h
      split at h
      · obtain ⟨⟨ok, l''⟩, -, h⟩ := Option.map_eq_some_iff.mp h
        cases ok <;> cases h <;> rfl
      · cases h
  | _ => cases h

end NixlReceiver

/-- No step writes the buffer that a rank published last. -/
theorem NixlState.next_bufs {n bucketSize : Nat} {s t : NixlState} {a : NixlAct}
    (h : s.next n bucketSize a = some t) (j : Nat) :
    (t.bufs j).get (s.published j) = (s.bufs j).get (s.published j) := by
  -- a step of rank `k + 1` that keeps the bytes of its own published buffer
  have hset : ∀ k r i l, r.bufs.get (s.receivers k).sendBuf =
      (s.receivers k).bufs.get (s.receivers k).sendBuf →
      ((s.set k r i l).bufs j).get (s.published j) = (s.bufs j).get (s.published j) := by
    intro k r i l hr
    by_cases hj : j = k + 1
    · subst hj
      rw [NixlState.bufs, NixlState.set_receivers_self]
      exact hr
    · rw [NixlState.set_bufs_of_ne hj]
  cases a with
  | check | flush | place | startLast | endSend =>
      obtain ⟨⟨sender, l⟩, hstep, rfl⟩ := Option.map_eq_some_iff.mp h
      cases j with
      | zero => exact NixlSender.next_bufs hstep
      | succ j => rfl
  | begin k | chunk k | consume k | endBucket k =>
      obtain ⟨-, h⟩ := Option.ite_none_right_eq_some.mp h
      obtain ⟨r, hstep, rfl⟩ := Option.map_eq_some_iff.mp h
      exact hset k r _ _ (by rw [NixlReceiver.yieldNext_bufs hstep])
  | fetch k | finish k | copy k pos =>
      obtain ⟨-, h⟩ := Option.ite_none_right_eq_some.mp h
      obtain ⟨⟨l, r⟩, hstep, rfl⟩ := Option.map_eq_some_iff.mp h
      exact hset k r _ _ (NixlReceiver.readNext_bufs hstep)
  | take k | drain k =>
      obtain ⟨-, h⟩ := Option.ite_none_right_eq_some.mp h
      obtain ⟨⟨r, l⟩, hstep, rfl⟩ := Option.map_eq_some_iff.mp h
      exact hset k r _ _ (by rw [NixlReceiver.sendNext_bufs hstep])

/-- A run of the chain does what a run of the relay does. -/
theorem nixl_refines_relay {n bucketSize itemsize : Nat} {weights : List Weight} (hn : 0 < n)
    (hw : WeightsOk bucketSize itemsize weights) {acts : List NixlAct} {s : NixlState}
    (hrun : Run.exec (NixlState.next n bucketSize) (.init bucketSize weights) acts = some s) :
    ∃ bs got, Run.exec Relay.next Relay.init bs = some got ∧
      NixlOk n bucketSize weights s got ∧ Relay.Ordered got := by
  refine Run.exec_simulates (R := fun s got => NixlOk n bucketSize weights s got ∧
    Relay.Ordered got) ?_ ⟨nixl_init_ok n bucketSize weights, Relay.init_ordered⟩ hrun
  intro s a t got ⟨hs, hgot⟩ hstep
  obtain ⟨bs, got', hexec, hs'⟩ := hs.next hgot hw hn hstep
  exact ⟨bs, got', hexec, hs', hgot.exec hexec⟩

/-- The chain is safe under every interleaving of its ranks and of the bytes of
the transfers: no assertion fails on any rank, what a rank has yielded is what
was sent first, and no step writes a buffer that the next rank is reading. -/
theorem nixl_chain_safe (n bucketSize itemsize : Nat) (weights : List Weight) (hn : 0 < n)
    (hw : WeightsOk bucketSize itemsize weights) (acts : List NixlAct) (s : NixlState)
    (hrun : Run.exec (NixlState.next n bucketSize) (.init bucketSize weights) acts = some s) :
    s.sender.pc ≠ .raised ∧ ∀ k < n,
      (s.receivers k).pc ≠ .raised ∧
      (s.receivers k).yielded <+: weights.map Weight.tensor ∧
      ∀ message todo, (s.receivers k).readOp = some (.reading message todo) →
        ∀ a t, s.next n bucketSize a = some t →
          (t.bufs k).get message.bucket = (s.bufs k).get message.bucket := by
  obtain ⟨bs, got, -, hs, hgot⟩ := nixl_refines_relay hn hw hrun
  refine ⟨hs.sender.notRaised, fun k hk => ⟨?_, hs.yielded_prefix hgot hw hk, ?_⟩⟩
  · intro hraised
    have hok := (hs.receiver k hk).pcOk
    rw [NixlReceiver.PcOk, hraised] at hok
    exact hok
  · intro message todo hreading a t hstep
    rw [hs.reading_published hk hreading]
    exact NixlState.next_bufs hstep k

/-- Rank 2 is reading the first of two buckets while rank 1 reads the second. -/
theorem nixl_chain_safe_two_ranks :
    let w : Weight := ⟨"w", [2], ⟨"uint8", 1⟩, [7, 9], rfl⟩
    ∃ s, Run.exec (NixlState.next 2 1) (.init 1 [w])
        [.check, .place, .check, .flush, .place, .begin 0, .fetch 0, .copy 0 0, .finish 0,
          .startLast, .take 0, .fetch 0, .begin 1, .fetch 1, .chunk 0, .copy 0 0] = some s ∧
      (s.receivers 1).yielded <+: [w.tensor] := by
  intro w
  have hw : WeightsOk 1 1 [w] := by
    refine ⟨Nat.one_pos, Nat.dvd_refl 1, by simp, ?_, ?_⟩
    · intro w' hw'
      rw [List.mem_singleton.mp hw']
      decide
    · intro w' hw'
      rw [List.mem_singleton.mp hw']
  have hsome : (Run.exec (NixlState.next 2 1) (.init 1 [w])
      [.check, .place, .check, .flush, .place, .begin 0, .fetch 0, .copy 0 0, .finish 0,
        .startLast, .take 0, .fetch 0, .begin 1, .fetch 1, .chunk 0, .copy 0 0]).isSome = true := by
    rfl
  obtain ⟨s, hrun⟩ := Option.isSome_iff_exists.mp hsome
  exact ⟨s, hrun, ((nixl_chain_safe 2 1 1 [w] (by decide) hw _ s hrun).2 1 (by decide)).2.1⟩

end Verl
