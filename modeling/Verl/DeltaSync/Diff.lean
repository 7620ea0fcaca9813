import Verl.DeltaSync.Apply

/-!
# What the trainer keeps, and what it finds changed

Every rank keeps a snapshot of its shard and the placement of every parameter.
`Seeded` says that the snapshots are the shards of the last sync.  Then what the
ranks find changed are the changes of the parameters since that sync
(`foldlM_diffParam`), and the snapshots are the new shards afterwards
(`Seeded.visitAll`).
-/

namespace Verl.DeltaSync

variable {T : Torch} {ps : List (Param T)}

/-! ## What the ranks keep -/

/-- What was kept under the name of a parameter fits the parameter. -/
structure Trainer.Fits (trainer : Trainer T) (p : Param T) : Prop where
  dtype : ∀ rank snap, (trainer.shardSnap rank).get? p.name = some snap → snap.dtype = p.dtype
  placement : ∀ rank got, (trainer.placements rank).get? p.name = some got →
    got = derivePlacement p.spec rank

/-- Every rank's snapshots are its shards. -/
structure Seeded (w : WeightState ps) (trainer : Trainer T) : Prop where
  fits : ∀ p ∈ ps, trainer.Fits p
  shardSnap : ∀ p ∈ ps, ∀ rank,
    (trainer.shardSnap rank).get? p.name = some ⟨p.dtype, p.shard (w.value p) rank⟩

namespace Trainer

variable {trainer : Trainer T} {p : Param T}

theorem placement_eq (h : trainer.Fits p) (xs : List (T.Val p.dtype)) (rank : Nat) :
    trainer.placement (p.toExport xs) rank = derivePlacement p.spec rank := by
  rw [placement]
  split
  next got hgot => exact h.placement rank got hgot
  · rfl

/-- Another parameter changes nothing. -/
theorem get?_visit_of_ne {e : ShardExport T} {name : String} (h : name ≠ e.name) (rank : Nat) :
    ((trainer.visit e).shardSnap rank).get? name = (trainer.shardSnap rank).get? name ∧
      ((trainer.visit e).placements rank).get? name = (trainer.placements rank).get? name := by
  rw [shardSnap_visit, placements_visit, Py.Dict.get?_set, Py.Dict.get?_set, if_neg h, if_neg h]
  exact ⟨rfl, rfl⟩

theorem Fits.visit_of_ne (h : trainer.Fits p) {e : ShardExport T} (hne : p.name ≠ e.name) :
    (trainer.visit e).Fits p where
  dtype rank snap hsnap := by
    rw [(get?_visit_of_ne hne rank).1] at hsnap
    exact h.dtype rank snap hsnap
  placement rank got hgot := by
    rw [(get?_visit_of_ne hne rank).2] at hgot
    exact h.placement rank got hgot

theorem get?_visit_self (hT : T.Lawful) (h : trainer.Fits p) (xs : List (T.Val p.dtype))
    (rank : Nat) :
    ((trainer.visit (p.toExport xs)).shardSnap rank).get? p.name =
        some ⟨p.dtype, p.shard xs rank⟩ ∧
      ((trainer.visit (p.toExport xs)).placements rank).get? p.name =
        some (derivePlacement p.spec rank) := by
  obtain ⟨ys, hys⟩ : ∃ ys, snapshotOf (trainer.shardSnap rank) p.name
      ⟨p.dtype, p.shard xs rank⟩ = ⟨p.dtype, ys⟩ := by
    rw [snapshotOf]
    split
    · exact ⟨_, rfl⟩
    next snap hsnap =>
      obtain ⟨d, ys⟩ := snap
      obtain rfl : d = p.dtype := h.dtype rank _ hsnap
      split
      · exact ⟨_, rfl⟩
      · exact ⟨ys, rfl⟩
  rw [shardSnap_visit, placements_visit, Py.Dict.get?_set, Py.Dict.get?_set, placement_eq h]
  refine ⟨(if_pos rfl).trans (congrArg some ?_), if_pos rfl⟩
  exact (congrArg (Flat.copy · _) hys).trans (copy_self hT ys _)

/-- What is kept after the parameters `qs`. -/
def visitAll (value : (p : Param T) → List (T.Val p.dtype)) (qs : List (Param T))
    (trainer : Trainer T) : Trainer T :=
  qs.foldl (fun trainer p => trainer.visit (p.toExport (value p))) trainer

theorem visitAll_cons (value : (p : Param T) → List (T.Val p.dtype)) (q : Param T)
    (qs : List (Param T)) (trainer : Trainer T) :
    visitAll value (q :: qs) trainer = visitAll value qs (trainer.visit (q.toExport (value q))) :=
  rfl

theorem get?_visitAll_of_not_mem (value : (p : Param T) → List (T.Val p.dtype))
    {qs : List (Param T)} {name : String} (h : name ∉ qs.map Param.name) (rank : Nat) :
    ((visitAll value qs trainer).shardSnap rank).get? name =
        (trainer.shardSnap rank).get? name ∧
      ((visitAll value qs trainer).placements rank).get? name =
        (trainer.placements rank).get? name := by
  induction qs generalizing trainer with
  | nil => exact ⟨rfl, rfl⟩
  | cons q qs ih =>
      rw [List.map_cons, List.mem_cons, not_or] at h
      obtain ⟨hsnap, hplacement⟩ := @get?_visit_of_ne T trainer
        (q.toExport (value q)) name h.1 rank
      rw [visitAll_cons, (ih h.2).1, (ih h.2).2, hsnap, hplacement]
      exact ⟨rfl, rfl⟩

theorem get?_visitAll (hT : T.Lawful) (value : (p : Param T) → List (T.Val p.dtype))
    {qs : List (Param T)} (hnames : (qs.map Param.name).Nodup) (h : ∀ p ∈ qs, trainer.Fits p)
    (hp : p ∈ qs) (rank : Nat) :
    ((visitAll value qs trainer).shardSnap rank).get? p.name =
        some ⟨p.dtype, p.shard (value p) rank⟩ ∧
      ((visitAll value qs trainer).placements rank).get? p.name =
        some (derivePlacement p.spec rank) := by
  induction qs generalizing trainer with
  | nil => exact (List.not_mem_nil hp).elim
  | cons q qs ih =>
      rw [List.map_cons, List.nodup_cons] at hnames
      rw [visitAll_cons]
      rcases List.mem_cons.mp hp with rfl | hp
      · obtain ⟨hsnap, hplacement⟩ := @get?_visitAll_of_not_mem T
          (trainer.visit (p.toExport (value p))) value qs p.name hnames.1 rank
        rw [hsnap, hplacement]
        exact get?_visit_self hT (h p List.mem_cons_self) (value p) rank
      · refine ih hnames.2 (fun p' hp' => ?_) hp
        have hne : p'.name ≠ q.name := fun heq => hnames.1 (heq ▸ List.mem_map_of_mem hp')
        exact (h p' (List.mem_cons_of_mem q hp')).visit_of_ne hne

end Trainer

/-- After all parameters every rank's snapshots are its shards. -/
theorem Seeded.visitAll (hT : T.Lawful) (hnames : (ps.map Param.name).Nodup)
    (w : WeightState ps) {trainer : Trainer T} (h : ∀ p ∈ ps, trainer.Fits p) :
    Seeded w { Trainer.visitAll w.value ps trainer with shardSeeded := true } where
  fits p hp := by
    refine ⟨fun rank snap hsnap => ?_, fun rank got hgot => ?_⟩
    · obtain rfl := Option.some.inj
        (hsnap.symm.trans (Trainer.get?_visitAll hT w.value hnames h hp rank).1)
      rfl
    · exact Option.some.inj
        (hgot.symm.trans (Trainer.get?_visitAll hT w.value hnames h hp rank).2)
  shardSnap p hp rank := (Trainer.get?_visitAll hT w.value hnames h hp rank).1

/-! ## The changes of a parameter -/

namespace Param

variable (p : Param T) (old new : List (T.Val p.dtype))

/-- What the rank `r` of the group of `p` finds changed. -/
def rankDelta (r : Nat) : Delta T where
  idx := (p.partChanges old new r).map fun x => (x.1 : Int)
  val := ⟨p.dtype, (p.partChanges old new r).map Prod.snd⟩

def groupEntry : GroupEntry T where
  name := p.name
  dtype := p.dtype
  fullShape := p.spec.fullShape
  deltas := (List.range p.spec.ranks.length).map (p.rankDelta old new)
  group := (derivePlacement p.spec 0).group

variable {p old new}

theorem delta_groupEntry {r : Nat} (hr : r < p.spec.ranks.length) :
    (p.groupEntry old new).delta r = p.rankDelta old new r := by
  rw [GroupEntry.delta, groupEntry, List.getD_eq_getElem?_getD, List.getElem?_map,
    List.getElem?_range hr]
  rfl

/-- The positions are positions in the parameter. -/
theorem lt_of_mem_wholeChanges (hT : T.Lawful) (hold : old.length = prodshape p.spec.fullShape)
    (hnew : new.length = prodshape p.spec.fullShape) {x : Nat × T.Val p.dtype}
    (hx : x ∈ p.wholeChanges old new) : x.1 < 2 ^ 31 := by
  obtain ⟨hlt, -⟩ := List.getElem?_eq_some_iff.mp ((changes_wholeChanges hT hold hnew).sound x hx)
  have hbound := p.numel_lt
  omega

/-- The diff of one rank against its snapshot. -/
theorem localDelta_eq (hT : T.Lawful) (hold : old.length = prodshape p.spec.fullShape)
    (hnew : new.length = prodshape p.spec.fullShape) {trainer : Trainer T} (hfits : trainer.Fits p)
    (hsnap : ∀ rank, (trainer.shardSnap rank).get? p.name = some ⟨p.dtype, p.shard old rank⟩)
    {r : Nat} (hr : r < p.spec.ranks.length) :
    localDelta trainer (p.toExport new) (p.spec.ranks.getD r 0) =
      .ok (p.rankDelta old new r) := by
  have hbase : snapshotOf (trainer.shardSnap (p.spec.ranks.getD r 0)) p.name
      ⟨p.dtype, p.shard new (p.spec.ranks.getD r 0)⟩ = ⟨p.dtype, p.part old r⟩ := by
    rw [snapshotOf, hsnap]
    refine (if_neg (not_not_intro ?_)).trans (congrArg (Flat.mk _) (shard_ranks hold hr))
    exact length_shard_congr (hold.trans hnew.symm) _
  have hdiff := shardDeltaIndices_eq hT p.floating (p.part old r) (p.part new r) 0
  have hwrap : ∀ x ∈ changes (p.part old r) (p.part new r),
      Bytes.wrap32 (((x.1 + 0 : Nat) : Int) + ((p.spec.sizes.take r).sum : Nat)) =
        ((x.1 + (p.spec.sizes.take r).sum : Nat) : Int) := by
    intro x hx
    have hmem : (x.1 + (p.spec.sizes.take r).sum, x.2) ∈ p.wholeChanges old new :=
      List.mem_flatMap.mpr ⟨r, List.mem_range.mpr hr, List.mem_map_of_mem hx⟩
    have hlt : x.1 + (p.spec.sizes.take r).sum < 2 ^ 31 :=
      lt_of_mem_wholeChanges hT hold hnew hmem
    rw [Nat.add_zero, ← Int.natCast_add]
    exact Bytes.wrap32_natCast hlt
  have hidx : ((changes (p.part old r) (p.part new r)).map fun x => x.1 + 0).map (fun i : Nat =>
      Bytes.wrap32 (i + (derivePlacement p.spec (p.spec.ranks.getD r 0)).offset)) =
        (p.partChanges old new r).map fun x => (x.1 : Int) := by
    simp only [partChanges, List.map_map, Function.comp_def, p.spec.offset_ranks hr]
    exact List.map_congr_left hwrap
  have hsnd : (changes (p.part old r) (p.part new r)).map Prod.snd =
      (p.partChanges old new r).map Prod.snd := by
    rw [partChanges, List.map_map]
    rfl
  rw [localDelta, Trainer.placement_eq hfits]
  refine (if_pos (p.spec.contributes_ranks r)).trans ?_
  have hnewShard : (p.toExport new).shard (p.spec.ranks.getD r 0) = ⟨p.dtype, p.part new r⟩ :=
    congrArg (Flat.mk p.dtype) (shard_ranks hnew hr)
  rw [← hbase, ← hnewShard] at hdiff
  rw [rankDelta, ← hidx, ← hsnd]
  exact congrArg (· >>= _) hdiff

end Param

/-- The loop diffs every parameter and groups what it found. -/
theorem foldlM_diffParam (hT : T.Lawful) (cfg : EngineConfig T) (old new : WeightState ps)
    {qs : List (Param T)} (hqs : ∀ p ∈ qs, p ∈ ps) (hnames : (qs.map Param.name).Nodup)
    {trainer : Trainer T} (hfits : ∀ p ∈ qs, trainer.Fits p)
    (hsnap : ∀ p ∈ qs, ∀ rank,
      (trainer.shardSnap rank).get? p.name = some ⟨p.dtype, p.shard (old.value p) rank⟩)
    (group : Batching.Buffered (Buckets T) (GroupEntry T) Unit) :
    (qs.map fun p => p.toExport (new.value p)).foldlM (diffParam cfg) ⟨trainer, group⟩ =
      ((qs.map fun p => p.groupEntry (old.value p) (new.value p)).foldlM (grouper cfg).push
        group).map fun group => ⟨.visitAll new.value qs trainer, group⟩ := by
  induction qs generalizing trainer group with
  | nil => rfl
  | cons q qs ih =>
      have hq := hqs q List.mem_cons_self
      have hfitsq := hfits q List.mem_cons_self
      rw [List.map_cons, List.nodup_cons] at hnames
      have hdeltas : q.spec.ranks.mapM (localDelta trainer (q.toExport (new.value q))) =
          .ok ((List.range q.spec.ranks.length).map (q.rankDelta (old.value q) (new.value q))) := by
        have hranks := Py.map_getD_range q.spec.ranks 0
        rw [← hranks, List.length_map, List.length_range]
        refine Py.mapM_map_eq_ok fun r hr => ?_
        exact Param.localDelta_eq hT (old.length_value q hq) (new.length_value q hq) hfitsq
          (hsnap q List.mem_cons_self) (List.mem_range.mp hr)
      have hentry : (⟨q.name, q.dtype, q.spec.fullShape,
          (List.range q.spec.ranks.length).map (q.rankDelta (old.value q) (new.value q)),
          (trainer.placement (q.toExport (new.value q)) 0).group⟩ : GroupEntry T) =
            q.groupEntry (old.value q) (new.value q) := by
        rw [Trainer.placement_eq hfitsq, Param.groupEntry]
      have hstep : diffParam cfg ⟨trainer, group⟩ (q.toExport (new.value q)) =
          ((grouper cfg).push group (q.groupEntry (old.value q) (new.value q))).map fun group =>
            ⟨trainer.visit (q.toExport (new.value q)), group⟩ := by
        change (q.spec.ranks.mapM (localDelta trainer (q.toExport (new.value q))) >>= fun deltas =>
          (grouper cfg).push group ⟨q.name, q.dtype, q.spec.fullShape, deltas,
            (trainer.placement (q.toExport (new.value q)) 0).group⟩ >>= fun group =>
              .ok (SparseLoop.mk (trainer.visit (q.toExport (new.value q))) group)) = _
        rw [hdeltas, Py.ok_bind, hentry]
        cases (grouper cfg).push group (q.groupEntry (old.value q) (new.value q)) <;> rfl
      rw [List.map_cons, List.foldlM_cons, hstep, List.map_cons, List.foldlM_cons]
      cases (grouper cfg).push group (q.groupEntry (old.value q) (new.value q)) with
      | error e => rfl
      | ok group' =>
          have hne : ∀ p ∈ qs, p.name ≠ q.name := fun p hp heq =>
            hnames.1 (heq ▸ List.mem_map_of_mem hp)
          refine ih (fun p hp => hqs p (List.mem_cons_of_mem q hp)) hnames.2
            (fun p hp => (hfits p (List.mem_cons_of_mem q hp)).visit_of_ne (hne p hp))
            (fun p hp rank => ?_) group'
          rw [(Trainer.get?_visit_of_ne (hne p hp) rank).1]
          exact hsnap p (List.mem_cons_of_mem q hp) rank

end Verl.DeltaSync
