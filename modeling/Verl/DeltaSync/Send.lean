import Verl.DeltaSync.Diff

/-!
# What a sync publishes

A sparse sync publishes entries that cover every change since the snapshots
(`sendWeights_seeded`), and the first sync publishes every parameter as a whole
(`sendWeights_unseeded`).  Either way the flushes form one stream.
-/

namespace Verl.DeltaSync

open Batching (Batcher Held writeStream)
open Overlay (overlay)
open Slices (slice)

variable {T : Torch} {ps : List (Param T)}

/-! ## Entries -/

section Entries

variable {old new : WeightState ps} {cfg : EngineConfig T}

/-- The entries list changes, and every change of the parameters `qs`. -/
structure Publishes (old new : WeightState ps) (qs : List (Param T)) (es : List (Entry T)) :
    Prop where
  ok : ∀ e ∈ es, e.Ok new
  covers : ∀ p ∈ qs, ∀ x ∈ p.wholeChanges (old.value p) (new.value p), ∃ e ∈ es, (p, x.1) ∈ e.cover

theorem Publishes.append {qs qs' : List (Param T)} {es es' : List (Entry T)}
    (h : Publishes old new qs es) (h' : Publishes old new qs' es') :
    Publishes old new (qs ++ qs') (es ++ es') where
  ok e he := (List.mem_append.mp he).elim (h.ok e) (h'.ok e)
  covers p hp x hx := by
    rcases List.mem_append.mp hp with hp | hp
    · obtain ⟨e, he, hmem⟩ := h.covers p hp x hx
      exact ⟨e, List.mem_append_left _ he, hmem⟩
    · obtain ⟨e, he, hmem⟩ := h'.covers p hp x hx
      exact ⟨e, List.mem_append_right _ he, hmem⟩

/-- The changes of all ranks are in the delta. -/
structure Param.Gathered (p : Param T) (old new : List (T.Val p.dtype)) (delta : Delta T) :
    Prop where
  idx : delta.idx = (p.wholeChanges old new).map fun x => (x.1 : Int)
  val : Holds delta.val p.dtype ((p.wholeChanges old new).map Prod.snd)

/-- Every position is in one of the slices. -/
theorem exists_mem_entries (g : GroupEntry T) (delta : Delta T) {i : Int} (hi : i ∈ delta.idx) :
    ∃ e ∈ g.entries cfg delta, e.name = g.name ∧ i ∈ e.idx := by
  obtain ⟨j, hj, rfl⟩ := List.getElem_of_mem hi
  obtain ⟨m, hm⟩ : ∃ m, m = cfg.maxEntryElems := ⟨_, rfl⟩
  have hpos : 0 < m := hm ▸ cfg.maxEntryElems_pos
  have hdiv := Nat.div_add_mod j m
  have hmod := Nat.mod_lt j hpos
  rw [Nat.mul_comm] at hdiv
  have hlt : j / m < (delta.idx.length + m - 1) / m := by
    rw [Nat.lt_div_iff_mul_lt hpos]
    omega
  refine ⟨_, List.mem_map_of_mem (List.mem_range.mpr (hm ▸ hlt)), rfl, ?_⟩
  simp only [← hm]
  refine List.mem_of_getElem? (i := j % m) ?_
  rw [slice, List.getElem?_take, if_pos (by omega), List.getElem?_drop, hdiv,
    List.getElem?_eq_getElem hj]

theorem entries_publishes (hT : T.Lawful) {p : Param T} (hp : p ∈ ps) {delta : Delta T}
    (h : p.Gathered (old.value p) (new.value p) delta) :
    Publishes old new [p] ((p.groupEntry (old.value p) (new.value p)).entries cfg delta) where
  ok e he := by
    obtain ⟨k, -, rfl⟩ := List.mem_map.mp he
    refine ⟨p, slice (p.wholeChanges (old.value p) (new.value p)) (k * cfg.maxEntryElems)
      (min (k * cfg.maxEntryElems + cfg.maxEntryElems) delta.idx.length - k * cfg.maxEntryElems),
      ⟨hp, rfl, rfl, rfl, ?_, ?_, fun x hx => ?_⟩⟩
    · refine (congrArg (slice · _ _) h.idx).trans ?_
      rw [slice, slice, List.map_take, List.map_drop]
    · rw [slice, List.map_take, List.map_drop]
      exact h.val.slice _ _
    · exact (Param.changes_wholeChanges hT (old.length_value p hp) (new.length_value p hp)).sound x
        (List.mem_of_mem_drop (List.mem_of_mem_take hx))
  covers q hq x hx := by
    obtain rfl := List.mem_singleton.mp hq
    have hi : (x.1 : Int) ∈ delta.idx := by
      rw [h.idx]
      exact List.mem_map_of_mem hx
    obtain ⟨e, he, hname, hmem⟩ := exists_mem_entries
      (q.groupEntry (old.value q) (new.value q)) delta hi
    exact ⟨e, he, hname.symm, hmem⟩

theorem consume_eq (buckets : Buckets T) (g : GroupEntry T) (delta : Delta T) :
    consume cfg buckets g delta = (g.entries cfg delta).foldlM (bucketer cfg).push buckets := by
  rw [consume]
  split
  next hzero =>
    have hlt : 0 + cfg.maxEntryElems - 1 < cfg.maxEntryElems := by
      have hpos := cfg.maxEntryElems_pos
      omega
    rw [GroupEntry.entries, hzero, Nat.div_eq_of_lt hlt]
    rfl
  · rfl

/-! ## Groups -/

theorem Param.holds_rankDelta (hT : T.Lawful) {p : Param T} (hp : p ∈ ps) {r : Nat}
    (hr : r < p.spec.ranks.length) :
    Holds (p.rankDelta (old.value p) (new.value p) r).val p.dtype
      ((p.partChanges (old.value p) (new.value p) r).map Prod.snd) := by
  refine Holds.refl p.floating fun v hv => ?_
  obtain ⟨x, hx, rfl⟩ := List.mem_map.mp hv
  have hmem : x ∈ p.wholeChanges (old.value p) (new.value p) :=
    List.mem_flatMap.mpr ⟨r, List.mem_range.mpr hr, hx⟩
  have hsound := (changes_wholeChanges hT (old.length_value p hp) (new.length_value p hp)).sound x
    hmem
  exact new.notNan p hp x.2 (List.mem_of_getElem? hsound)

/-- The delta of an unsharded parameter needs no gathering. -/
theorem Param.gathered_delta (hT : T.Lawful) {p : Param T} (hp : p ∈ ps)
    (hgroup : (derivePlacement p.spec 0).group = none) :
    p.Gathered (old.value p) (new.value p)
      ((p.groupEntry (old.value p) (new.value p)).delta 0) := by
  have hranks := congrArg List.length (p.spec.ranks_of_group_eq_none hgroup)
  have hwhole : p.wholeChanges (old.value p) (new.value p) =
      p.partChanges (old.value p) (new.value p) 0 := by
    rw [wholeChanges, hranks]
    exact List.flatMap_singleton ..
  rw [delta_groupEntry p.spec.ranks_pos]
  refine ⟨by rw [hwhole, rankDelta], ?_⟩
  rw [hwhole]
  exact holds_rankDelta hT hp p.spec.ranks_pos

/-- One round gathers the changes of all its parameters. -/
theorem gatherVBatched_gathered (hT : T.Lawful) {qs : List (Param T)} (hqs : ∀ p ∈ qs, p ∈ ps)
    {group : ProcessGroup} (hgroup : ∀ p ∈ qs, (derivePlacement p.spec 0).group = some group) :
    List.Forall₂ (fun p delta => p.Gathered (old.value p) (new.value p) delta) qs
      (gatherVBatchedToRank0 group.ranks.length fun r =>
        Batch.of (qs.map fun p => (p.groupEntry (old.value p) (new.value p)).delta r)) := by
  have hworld : ∀ p ∈ qs, p.spec.ranks.length = group.ranks.length := fun p hp =>
    congrArg List.length (p.spec.ranks_of_group_eq_some (hgroup p hp))
  have hpos : 0 < group.ranks.length := List.length_pos_of_mem (List.mem_of_head? group.head_ranks)
  have hdelta : ∀ r < group.ranks.length, ∀ p ∈ qs,
      (p.groupEntry (old.value p) (new.value p)).delta r =
        p.rankDelta (old.value p) (new.value p) r :=
    fun r hr p hp => Param.delta_groupEntry (hworld p hp ▸ hr)
  have hholding : Holding group.ranks.length qs
      (fun r p => (p.groupEntry (old.value p) (new.value p)).delta r) Param.dtype
      (fun r p => (p.partChanges (old.value p) (new.value p) r).map Prod.snd) := by
    refine ⟨fun r hr p hp => ?_, fun r hr p hp => ?_⟩
    · rw [hdelta r hr p hp]
      exact Param.holds_rankDelta hT (hqs p hp) (hworld p hp ▸ hr)
    · rw [hdelta r hr p hp, Param.rankDelta, List.length_map, List.length_map]
  refine ((List.forall₂_and_left _ _).mpr
    ⟨fun p hp => hp, gatherVBatched_spec hT hpos hholding⟩).imp ?_
  rintro p delta ⟨hp, hidx, hval⟩
  refine ⟨?_, ?_⟩
  · rw [hidx, Param.wholeChanges, List.map_flatMap, hworld p hp]
    rw [List.flatMap_def, List.flatMap_def]
    congr 1
    refine List.map_congr_left fun r hr => ?_
    rw [hdelta r (List.mem_range.mp hr) p hp, Param.rankDelta]
  · rw [Param.wholeChanges, List.map_flatMap, hworld p hp]
    exact hval

variable (old new cfg) in
/-- A group of parameters becomes entries for the buckets. -/
theorem flushGroup_publishes (hT : T.Lawful) {qs : List (Param T)} (hqs : ∀ p ∈ qs, p ∈ ps)
    {group : Option ProcessGroup} (hgroup : ∀ p ∈ qs, (derivePlacement p.spec 0).group = group)
    (hne : qs ≠ []) :
    ∃ es, Publishes old new qs es ∧ ∀ buckets,
      flushGroup cfg buckets (qs.map fun p => p.groupEntry (old.value p) (new.value p)) =
        es.foldlM (bucketer cfg).push buckets := by
  -- what is consumed, parameter by parameter
  obtain ⟨deltas, hdeltas, hflush⟩ : ∃ deltas : List (Delta T),
      List.Forall₂ (fun p delta => p.Gathered (old.value p) (new.value p) delta) qs deltas ∧
      ∀ buckets, flushGroup cfg buckets
          (qs.map fun p => p.groupEntry (old.value p) (new.value p)) =
        (qs.zip deltas).foldlM (fun buckets x => consume cfg buckets
          (x.1.groupEntry (old.value x.1) (new.value x.1)) x.2) buckets := by
    have hhead : (qs.map fun p => p.groupEntry (old.value p) (new.value p)).head?.bind
        GroupEntry.group = group := by
      cases qs with
      | nil => exact (hne rfl).elim
      | cons q qs => exact hgroup q List.mem_cons_self
    cases group with
    | none =>
        refine ⟨qs.map fun p => (p.groupEntry (old.value p) (new.value p)).delta 0, ?_,
          fun buckets => ?_⟩
        · rw [List.forall₂_map_right_iff, List.forall₂_same]
          exact fun p hp => Param.gathered_delta hT (hqs p hp) (hgroup p hp)
        · rw [flushGroup, hhead, ← List.map_prod_left_eq_zip, List.foldlM_map, List.foldlM_map]
    | some group =>
        refine ⟨_, gatherVBatched_gathered hT hqs hgroup, fun buckets => ?_⟩
        rw [flushGroup, hhead]
        simp only [List.map_map, Function.comp_def, List.zip_map_left, List.foldlM_map]
        rfl
  refine ⟨(qs.zip deltas).flatMap fun x =>
    (x.1.groupEntry (old.value x.1) (new.value x.1)).entries cfg x.2, ?_, fun buckets => ?_⟩
  · clear hflush hne hgroup
    induction hdeltas with
    | nil => exact ⟨fun e he => (List.not_mem_nil he).elim, fun p hp => (List.not_mem_nil hp).elim⟩
    | cons hhead _ ih =>
        rw [List.zip_cons_cons, List.flatMap_cons]
        exact (entries_publishes hT (hqs _ List.mem_cons_self) hhead).append
          (ih fun p hp => hqs p (List.mem_cons_of_mem _ hp))
  · rw [hflush, ← Batcher.foldlM_flatMap]
    simp only [consume_eq]

/-- The parameters of a group are gathered by one process group. -/
def OneGroup (g : List (GroupEntry T)) : Prop := ∃ group, ∀ x ∈ g, x.group = group

theorem grouper_keeps (cfg : EngineConfig T) : (grouper cfg).Keeps OneGroup where
  single x := ⟨x.group, fun y hy => congrArg _ (List.mem_singleton.mp hy)⟩
  concat buffer count x h hbefore := by
    obtain ⟨group, hgroup⟩ := h
    refine ⟨x.group, fun y hy => ?_⟩
    rcases List.mem_append.mp hy with hy | hy
    · have hne := List.ne_nil_of_mem hy
      have hlast := List.getLast_mem hne
      have hbefore : (buffer.getLast?.any fun last => decide (last.group ≠ x.group)) = false :=
        hbefore
      rw [List.getLast?_eq_some_getLast hne, Option.any_some, decide_eq_false_iff_not,
        not_not] at hbefore
      rw [hgroup y hy, ← hbefore, hgroup _ hlast]
    · exact congrArg _ (List.mem_singleton.mp hy)

variable (old new cfg) in
theorem foldlM_flushGroup (hT : T.Lawful) {groups : List (List (GroupEntry T))}
    (hgroups : ∀ g ∈ groups, g ≠ [] ∧ OneGroup g) {qs : List (Param T)} (hqs : ∀ p ∈ qs, p ∈ ps)
    (hflatten : groups.flatten = qs.map fun p => p.groupEntry (old.value p) (new.value p)) :
    ∃ es, Publishes old new qs es ∧ ∀ buckets,
      groups.foldlM (flushGroup cfg) buckets = es.foldlM (bucketer cfg).push buckets := by
  induction groups generalizing qs with
  | nil =>
      obtain rfl := List.map_eq_nil_iff.mp hflatten.symm
      exact ⟨[], ⟨fun e he => (List.not_mem_nil he).elim, fun p hp => (List.not_mem_nil hp).elim⟩,
        fun _ => rfl⟩
  | cons g groups ih =>
      rw [List.flatten_cons, List.append_eq_map_iff] at hflatten
      obtain ⟨qs₁, qs₂, rfl, rfl, hrest⟩ := hflatten
      obtain ⟨hne, group, hgroup⟩ := hgroups _ List.mem_cons_self
      obtain ⟨es₁, hes₁, hflush⟩ := flushGroup_publishes old new cfg hT
        (fun p hp => hqs p (List.mem_append_left _ hp))
        (fun p hp => hgroup _ (List.mem_map_of_mem hp))
        fun hnil => hne (List.map_eq_nil_iff.mpr hnil)
      obtain ⟨es₂, hes₂, hloop⟩ := ih (fun g hg => hgroups g (List.mem_cons_of_mem _ hg))
        (fun p hp => hqs p (List.mem_append_right _ hp)) hrest.symm
      refine ⟨es₁ ++ es₂, hes₁.append hes₂, fun buckets => ?_⟩
      rw [List.foldlM_cons, hflush, List.foldlM_append]
      exact congrArg _ (funext hloop)

/-- What all groups add up to. -/
theorem grouper_run (hT : T.Lawful) (cfg : EngineConfig T) (old new : WeightState ps) :
    ∃ es, Publishes old new ps es ∧ ∀ buckets,
      (grouper cfg).run ((grouper cfg).init buckets)
          (ps.map fun p => p.groupEntry (old.value p) (new.value p)) =
        es.foldlM (bucketer cfg).push buckets := by
  have hgroups := Batcher.forall_groups (grouper_keeps cfg) () (fun hnil => (hnil rfl).elim)
    (ps.map fun p => p.groupEntry (old.value p) (new.value p))
  obtain ⟨es, hes, hloop⟩ := foldlM_flushGroup old new cfg hT hgroups (fun p hp => hp)
    (Batcher.flatten_groups [] () _)
  refine ⟨es, hes, fun buckets => ?_⟩
  rw [Batcher.init, Batcher.run_eq]
  exact hloop buckets

end Entries

/-! ## Streams -/

/-- The flush takes a model to the values in `w` at what its entries cover. -/
structure Framing.Moves {F E : Type} (framing : Framing T F) (w : WeightState ps)
    (cover : E → Set (Cell T)) (bucket : List E) (flush : F) : Prop where
  reads : framing.Reads flush
  applies : ∀ model content, Stores ps model content →
    ∃ model', applyDelta model (framing.named flush) = .ok model' ∧
      Stores ps model' (bucket.foldl (fun c e => overlay w.content (cover e) c) content)

/-- A sparse sync: its flushes cover every change since the snapshots. -/
theorem sendWeights_seeded (hT : T.Lawful) (hnames : (ps.map Param.name).Nodup)
    (cfg : EngineConfig T) {old : WeightState ps} (new : WeightState ps) {trainer : Trainer T}
    (hseeded : trainer.shardSeeded = true) (hold : Seeded old trainer) (wire : Wire T) :
    ∃ trainer' buckets flushes, sendWeights cfg trainer wire new.toExports =
        .ok (trainer', writeStream (deltaFraming false).publish (publishTerminal false) wire
          flushes) ∧
      trainer'.shardSeeded = true ∧ Seeded new trainer' ∧
      List.Forall₂ ((deltaFraming false).Moves new Entry.cover) buckets flushes ∧
      Publishes old new ps buckets.flatten := by
  obtain ⟨es, hes, hgroups⟩ := grouper_run hT cfg old new
  -- the buckets
  obtain ⟨buckets, flushes, st, st', hflatten, hmoves, hpush, hspill, hclose⟩ :=
    Batcher.stream_spec (b := bucketer cfg) (publishFlush (T := T) false) (publishTerminal false)
      (assembleFlush cfg) ((deltaFraming false).Moves new Entry.cover) es
      (fun held bucket => by
        change (assembleFlush cfg bucket >>= _) = _
        cases assembleFlush cfg bucket <;> rfl)
      (fun bucket hne hsub => by
        obtain ⟨flush, hflush, hfloating, happlies⟩ := assembleFlush_stores hT hnames cfg hne
          fun e he => hes.ok e (hsub e he)
        exact ⟨flush, hflush, deltaFraming_reads hT false hfloating, happlies⟩)
      wire
  -- the groups
  have hrun := hgroups ((bucketer cfg).init ⟨wire, none⟩)
  rw [hpush] at hrun
  obtain ⟨g, g', hgroupPush, hgroupSpill, hout⟩ := Batcher.of_run_eq_ok hrun
  have hloop := foldlM_diffParam hT cfg old new (fun p hp => hp) hnames hold.fits hold.shardSnap
    ((grouper cfg).init ((bucketer cfg).init ⟨wire, none⟩))
  rw [hgroupPush, Except.map] at hloop
  rw [← hout] at hspill
  refine ⟨_, buckets, flushes, ?_, rfl, Seeded.visitAll hT hnames new hold.fits, hmoves,
    hflatten ▸ hes⟩
  have hsend : sendWeights cfg trainer wire new.toExports =
      .ok ({ Trainer.visitAll new.value ps trainer with shardSeeded := true },
        st'.out.close (publishFlush false) (publishTerminal false)) := by
    rw [sendWeights, if_pos hseeded, WeightState.toExports, hloop, Py.ok_bind, hgroupSpill,
      Py.ok_bind, hspill]
    rfl
  rw [hsend, hclose, publishFlush_eq]

/-! ## The dense first sync -/

/-- Rank 0 puts the whole parameter together. -/
theorem assembleDense_eq (hT : T.Lawful) {trainer : Trainer T} {p : Param T}
    (hfits : trainer.Fits p) {xs : List (T.Val p.dtype)}
    (h : xs.length = prodshape p.spec.fullShape) :
    assembleDense trainer (p.toExport xs) = .ok (some ⟨p.spec.fullShape, ⟨p.dtype, xs⟩⟩) := by
  have hview : (Flat.mk p.dtype xs).view p.spec.fullShape =
      .ok ⟨p.spec.fullShape, ⟨p.dtype, xs⟩⟩ := if_pos h.symm
  simp only [assembleDense, Trainer.placement_eq hfits]
  split
  next hgroup =>
    have hcontributes := p.spec.contributes_ranks 0
    rw [p.spec.ranks_of_group_eq_none hgroup] at hcontributes
    have hwhole : p.shard xs 0 = xs := by rw [Param.shard, p.spec.sharding_eq_none hgroup]
    have hshard : (p.toExport xs).shard 0 = ⟨p.dtype, xs⟩ := congrArg (Flat.mk p.dtype) hwhole
    refine (if_pos hcontributes).trans ?_
    rw [hshard]
    exact congrArg (· >>= _) hview
  next group hgroup =>
    have hranks : p.spec.ranks = group.ranks := p.spec.ranks_of_group_eq_some hgroup
    rw [← hranks]
    have hparts : ∀ n ≤ p.spec.ranks.length, (List.range n).flatMap
        (fun r => p.shard xs (p.spec.ranks.getD r 0)) = (List.range n).flatMap (p.part xs) := by
      intro n hn
      rw [List.flatMap_def, List.flatMap_def]
      congr 1
      exact List.map_congr_left fun r hr =>
        Param.shard_ranks h ((List.mem_range.mp hr).trans_le hn)
    have hgather := gatherDense_eq hT p.spec.ranks.length
      (fun r => p.shard xs (p.spec.ranks.getD r 0))
      (fun r => (derivePlacement p.spec (p.spec.ranks.getD r 0)).offset) fun r hr => by
        rw [hparts r (Nat.le_of_lt hr), Param.length_flatMap_part h, p.spec.offset_ranks hr]
    rw [hparts _ (Nat.le_refl _), Param.flatMap_part h, h] at hgather
    simp only [Param.toExport, p.spec.contributes_ranks, if_true, hgather, hview]
    rfl

def Param.denseEntry (p : Param T) (xs : List (T.Val p.dtype)) : DenseEntry T :=
  ⟨p.name, p.dtype, p.spec.fullShape, ⟨p.dtype, xs⟩⟩

/-- The loop buckets every parameter. -/
theorem foldlM_seedParam (hT : T.Lawful) (cfg : EngineConfig T) (w : WeightState ps)
    {qs : List (Param T)} (hqs : ∀ p ∈ qs, p ∈ ps) (hnames : (qs.map Param.name).Nodup)
    {trainer : Trainer T} (hfits : ∀ p ∈ qs, trainer.Fits p)
    (buckets : Batching.Buffered (Held (Wire T) (DenseFlush T)) (DenseEntry T) Nat) :
    (qs.map fun p => p.toExport (w.value p)).foldlM (seedParam cfg) ⟨trainer, buckets⟩ =
      ((qs.map fun p => p.denseEntry (w.value p)).foldlM (denseBucketer cfg).push buckets).map
        fun buckets => ⟨.visitAll w.value qs trainer, buckets⟩ := by
  induction qs generalizing trainer buckets with
  | nil => rfl
  | cons q qs ih =>
      rw [List.map_cons, List.nodup_cons] at hnames
      have hassemble := assembleDense_eq hT (hfits q List.mem_cons_self)
        (w.length_value q (hqs q List.mem_cons_self))
      have hstep : seedParam cfg ⟨trainer, buckets⟩ (q.toExport (w.value q)) =
          ((denseBucketer cfg).push buckets (q.denseEntry (w.value q))).map fun buckets =>
            ⟨trainer.visit (q.toExport (w.value q)), buckets⟩ := by
        refine (congrArg (· >>= _) hassemble).trans ?_
        change ((denseBucketer cfg).push buckets (q.denseEntry (w.value q))) >>= _ = _
        cases (denseBucketer cfg).push buckets (q.denseEntry (w.value q)) <;> rfl
      rw [List.map_cons, List.foldlM_cons, hstep, List.map_cons, List.foldlM_cons]
      cases (denseBucketer cfg).push buckets (q.denseEntry (w.value q)) with
      | error e => rfl
      | ok buckets' =>
          refine ih (fun p hp => hqs p (List.mem_cons_of_mem q hp)) hnames.2
            (fun p hp => ?_) buckets'
          have hne : p.name ≠ q.name := fun heq => hnames.1 (heq ▸ List.mem_map_of_mem hp)
          exact (hfits p (List.mem_cons_of_mem q hp)).visit_of_ne hne

/-- The first sync: its flushes cover every parameter. -/
theorem sendWeights_unseeded (hT : T.Lawful) (hnames : (ps.map Param.name).Nodup)
    (cfg : EngineConfig T) (w : WeightState ps) {trainer : Trainer T}
    (hseeded : trainer.shardSeeded = false) (hfits : ∀ p ∈ ps, trainer.Fits p) (wire : Wire T) :
    ∃ trainer' buckets flushes, sendWeights cfg trainer wire w.toExports =
        .ok (trainer', writeStream denseFraming.publish (publishTerminal true) wire flushes) ∧
      trainer'.shardSeeded = true ∧ Seeded w trainer' ∧
      List.Forall₂ (denseFraming.Moves w DenseEntry.cover) buckets flushes ∧
      buckets.flatten = ps.map fun p => p.denseEntry (w.value p) := by
  have hok : ∀ e ∈ ps.map fun p => p.denseEntry (w.value p), e.Ok w := by
    intro e he
    obtain ⟨p, hp, rfl⟩ := List.mem_map.mp he
    exact ⟨p, hp, rfl⟩
  obtain ⟨buckets, flushes, st, st', hflatten, hmoves, hpush, hspill, hclose⟩ :=
    Batcher.stream_spec (b := denseBucketer cfg) (publishDenseFlush (T := T))
      (publishTerminal true)
      (fun bucket => .ok ⟨denseParams 0 bucket, .cat (bucket.map DenseEntry.flat)⟩)
      (denseFraming.Moves w DenseEntry.cover) (ps.map fun p => p.denseEntry (w.value p))
      (fun _ _ => rfl)
      (fun bucket hne hsub => by
        refine ⟨_, rfl, denseFraming_reads hT ?_, fun model content hmodel =>
          denseFlush_stores hT hnames (fun e he => hok e (hsub e he)) hmodel⟩
        exact hT.floating_cat hne fun e he => (hok e (hsub e he)).floating)
      wire
  have hloop := foldlM_seedParam hT cfg w (fun p hp => hp) hnames hfits
    ((denseBucketer cfg).init ⟨wire, none⟩)
  rw [hpush, Except.map] at hloop
  refine ⟨_, buckets, flushes, ?_, rfl, Seeded.visitAll hT hnames w hfits, hmoves, hflatten⟩
  have hsend : sendWeights cfg trainer wire w.toExports =
      .ok ({ Trainer.visitAll w.value ps trainer with shardSeeded := true },
        st'.out.close publishDenseFlush (publishTerminal true)) := by
    rw [sendWeights, hseeded, if_neg Bool.false_ne_true, sendDenseSeed, WeightState.toExports,
      hloop, Py.ok_bind, hspill]
    rfl
  rw [hsend, hclose, publishDenseFlush_eq]

end Verl.DeltaSync
