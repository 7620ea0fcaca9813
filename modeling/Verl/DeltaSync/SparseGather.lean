import Mathlib.Data.List.Forall2
import Verl.DeltaSync.Tensors

/-!
# Gathering shards and their changes

`shardDeltaIndices` is the byte diff of one rank's shard against its snapshot.
`gatherVBatchedToRank0` moves the changes of several parameters to rank 0 in one
round, and `gatherDenseToRank0` moves whole shards there.  A collective is a
function of what every rank passes to it, and only rank 0's result is kept.

Both gathers pad what they send to a common size and slice it again by the
counts that were exchanged before.  `gatherVBatched_spec` and `gatherDense_eq`
say that nothing of this shows.
-/

namespace Verl.DeltaSync

open Slices (slice)

variable {T : Torch}

/-! ## The byte diff -/

/-- `mask.nonzero()`. -/
def nonzero (mask : List Bool) : List Nat := (mask.zipIdx.filter Prod.fst).map Prod.snd

def shardDeltaIndices (localNew localSnap : Flat T) (offset : Nat) :
    Except Py.Error (List Nat × Flat T) :=
  -- the keys of `_DTYPE_INT`
  if localNew.elementSize ∈ [1, 2, 4, 8] then
    let mask := List.zipWith
      (fun a b => (T.codec localNew.dtype).encode a != (T.codec localSnap.dtype).encode b)
      localNew.data localSnap.data
    let localIdx := nonzero mask
    let values := localIdx.filterMap fun i => localNew.data[i]?
    .ok (localIdx.map (· + offset), ⟨localNew.dtype, values⟩)
  else .error (.value s!"unsupported element size {localNew.elementSize}")

theorem mem_nonzero {mask : List Bool} {i : Nat} : i ∈ nonzero mask ↔ mask[i]? = some true := by
  rw [nonzero, List.mem_map]
  constructor
  · rintro ⟨⟨m, j⟩, hmem, rfl⟩
    obtain ⟨hmem, hm⟩ := List.mem_filter.mp hmem
    rw [List.mem_zipIdx_iff_getElem?] at hmem
    rw [hmem]
    exact congrArg some hm
  · intro h
    refine ⟨(true, i), List.mem_filter.mpr ⟨?_, rfl⟩, rfl⟩
    rw [List.mem_zipIdx_iff_getElem?]
    exact h

/-- The changes `ch` lead from `old` to `new`: each is an entry of `new`, and every
entry that differs is among them. -/
structure Changes {α : Type} (old new : List α) (ch : List (Nat × α)) : Prop where
  sound : ∀ x ∈ ch, new[x.1]? = some x.2
  complete : ∀ i, old[i]? ≠ new[i]? → i ∈ ch.map Prod.fst

namespace Changes

variable {α : Type} {old new old' new' : List α} {ch ch' : List (Nat × α)}

theorem nil : Changes ([] : List α) [] [] :=
  ⟨fun _ hx => (List.not_mem_nil hx).elim, fun _ h => (h rfl).elim⟩

/-- Changes of two lists that stand one after the other. -/
theorem append (h : Changes old new ch) (h' : Changes old' new' ch')
    (hlength : old.length = new.length) :
    Changes (old ++ old') (new ++ new') (ch ++ ch'.map fun x => (x.1 + new.length, x.2)) where
  sound x hx := by
    rcases List.mem_append.mp hx with hx | hx
    · have hsound := h.sound x hx
      obtain ⟨hlt, -⟩ := List.getElem?_eq_some_iff.mp hsound
      rw [List.getElem?_append_left hlt, hsound]
    · obtain ⟨y, hy, rfl⟩ := List.mem_map.mp hx
      rw [List.getElem?_append_right (Nat.le_add_left _ _), Nat.add_sub_cancel]
      exact h'.sound y hy
  complete i hne := by
    rw [List.map_append, List.map_map, List.mem_append]
    by_cases hi : i < new.length
    · rw [List.getElem?_append_left hi, List.getElem?_append_left (hlength ▸ hi)] at hne
      exact .inl (h.complete i hne)
    · have hle : new.length ≤ i := Nat.le_of_not_lt hi
      rw [List.getElem?_append_right hle, List.getElem?_append_right (hlength ▸ hle),
        hlength] at hne
      obtain ⟨x, hx, hfst⟩ := List.mem_map.mp (h'.complete _ hne)
      refine .inr (List.mem_map.mpr ⟨x, hx, ?_⟩)
      simp only [Function.comp_apply, hfst]
      omega

end Changes

/-- Whether a value has other bytes than before. -/
def byteDiff (d : T.DType) (new old : List (T.Val d)) : List Bool :=
  List.zipWith (fun a b => (T.codec d).encode a != (T.codec d).encode b) new old

/-- What the byte diff finds. -/
def changes {d : T.DType} (old new : List (T.Val d)) : List (Nat × T.Val d) :=
  (nonzero (byteDiff d new old)).filterMap fun i => (new[i]?).map (i, ·)

theorem exists_of_mem_nonzero {d : T.DType} {old new : List (T.Val d)} {i : Nat}
    (hi : i ∈ nonzero (byteDiff d new old)) : ∃ v, new[i]? = some v := by
  rw [mem_nonzero, byteDiff, List.getElem?_zipWith_eq_some] at hi
  obtain ⟨v, _, hv, -⟩ := hi
  exact ⟨v, hv⟩

theorem map_fst_changes {d : T.DType} (old new : List (T.Val d)) :
    (changes old new).map Prod.fst = nonzero (byteDiff d new old) := by
  rw [changes, List.map_filterMap]
  refine (List.filterMap_congr fun i hi => ?_).trans List.filterMap_some
  obtain ⟨v, hv⟩ := exists_of_mem_nonzero hi
  rw [hv]
  rfl

theorem changes_spec (hT : T.Lawful) {d : T.DType} {old new : List (T.Val d)}
    (hlength : old.length = new.length) : Changes old new (changes old new) where
  sound x hx := by
    obtain ⟨i, _, hi⟩ := List.mem_filterMap.mp hx
    obtain ⟨v, hv, rfl⟩ := Option.map_eq_some_iff.mp hi
    exact hv
  complete i hne := by
    rw [map_fst_changes, mem_nonzero, byteDiff, List.getElem?_zipWith_eq_some]
    by_cases hi : i < new.length
    · refine ⟨new[i], old[i], List.getElem?_eq_getElem hi,
        List.getElem?_eq_getElem (hlength ▸ hi), bne_iff_ne.mpr fun hencode => hne ?_⟩
      -- the encoding is exact, so equal bytes are equal values
      have hdecode := congrArg (T.codec d).decode hencode
      rw [(hT.codec_exact d).decode_encode _ trivial,
        (hT.codec_exact d).decode_encode _ trivial] at hdecode
      rw [List.getElem?_eq_getElem hi, List.getElem?_eq_getElem (hlength ▸ hi), hdecode]
    · rw [List.getElem?_eq_none (by omega), List.getElem?_eq_none (by omega)] at hne
      exact (hne rfl).elim

theorem shardDeltaIndices_eq (hT : T.Lawful) {d : T.DType}
    (hd : T.isFloatingPoint d = true) (old new : List (T.Val d)) (offset : Nat) :
    shardDeltaIndices ⟨d, new⟩ ⟨d, old⟩ offset =
      .ok ((changes old new).map fun x => x.1 + offset, ⟨d, (changes old new).map Prod.snd⟩) := by
  have hsize : (Flat.mk d new).elementSize ∈ [1, 2, 4, 8] := hT.elementSize_mem d hd
  have hsnd : (changes old new).map Prod.snd =
      (nonzero (byteDiff d new old)).filterMap fun i => new[i]? := by
    rw [changes, List.map_filterMap]
    refine List.filterMap_congr fun i _ => ?_
    cases new[i]? with
    | none => rfl
    | some v => rfl
  have hidx : (changes old new).map (fun x => x.1 + offset) =
      (nonzero (byteDiff d new old)).map (· + offset) := by
    rw [← map_fst_changes, List.map_map]
    rfl
  rw [shardDeltaIndices, if_pos hsize, hsnd, hidx]
  rfl

/-! ## The batched gather -/

/-- The changes of one parameter: positions and values. -/
structure Delta (T : Torch) where
  idx : List Int
  val : Flat T

def Delta.empty (d : T.DType) : Delta T := ⟨[], .empty d⟩

/-- What one rank passes to the batched gather. -/
structure Batch (T : Torch) where
  idxConcat : List Int
  valConcat : Flat T
  counts : List Nat

/-- `idx_pad[:n] = idx_concat`. -/
def padIdx (idx : List Int) (size : Nat) : List Int :=
  Slices.write (List.replicate size 0) 0 idx

/-- `gather_v_batched_to_rank0`, with `grouped=False`, on rank 0 of the group. -/
def gatherVBatchedToRank0 (world : Nat) (args : Nat → Batch T) : List (Delta T) :=
  let k := (args 0).counts.length
  let dtype := (args 0).valConcat.dtype
  let counts (r i : Nat) := (args r).counts.getD i 0
  let totals := (List.range world).map fun r => (args r).counts.sum
  let maxN := totals.foldl max 0
  if maxN = 0 then List.replicate k (Delta.empty dtype)
  else
    let idxList (r : Nat) := padIdx (args r).idxConcat maxN
    let valList (r : Nat) := (args r).valConcat.pad maxN
    let offs (r i : Nat) := ((args r).counts.take i).sum
    (List.range k).map fun i =>
      let ranks := (List.range world).filter fun r => counts r i ≠ 0
      if ranks.isEmpty then Delta.empty dtype
      else
        { idx := ranks.flatMap fun r => slice (idxList r) (offs r i) (counts r i)
          val := .cat (ranks.map fun r => (valList r).slice (offs r i) (counts r i)) }

/-- What a rank passes for the deltas of a group of parameters. -/
def Batch.of (deltas : List (Delta T)) : Batch T where
  idxConcat := deltas.flatMap Delta.idx
  valConcat := .cat (deltas.map Delta.val)
  counts := deltas.map fun x => x.idx.length

/-- Items that contribute nothing may be left out. -/
theorem flatMap_filter_eq {α β : Type} {as : List α} {p : α → Bool} {f : α → List β}
    (h : ∀ a ∈ as, p a = false → f a = []) : (as.filter p).flatMap f = as.flatMap f := by
  induction as with
  | nil => rfl
  | cons a as ih =>
      have ih := ih fun b hb => h b (List.mem_cons_of_mem a hb)
      rw [List.filter_cons, List.flatMap_cons]
      split
      · rw [List.flatMap_cons, ih]
      next hp =>
        rw [h a List.mem_cons_self (Bool.eq_false_iff.mpr hp), List.nil_append, ih]

theorem foldl_max_eq_zero {ns : List Nat} : ns.foldl max 0 = 0 ↔ ∀ n ∈ ns, n = 0 := by
  have hle (ns : List Nat) (m : Nat) : m ≤ ns.foldl max m ∧ ∀ n ∈ ns, n ≤ ns.foldl max m := by
    induction ns generalizing m with
    | nil => exact ⟨Nat.le_refl m, fun n hn => (List.not_mem_nil hn).elim⟩
    | cons n ns ih =>
        obtain ⟨hmax, hall⟩ := ih (max m n)
        refine ⟨(Nat.le_max_left m n).trans hmax, fun n' hn' => ?_⟩
        rcases List.mem_cons.mp hn' with rfl | hn'
        · exact (Nat.le_max_right m n').trans hmax
        · exact hall n' hn'
  constructor
  · intro h n hn
    exact Nat.le_zero.mp (h ▸ (hle ns 0).2 n hn)
  · intro h
    induction ns with
    | nil => rfl
    | cons n ns ih =>
        rw [List.foldl_cons, h n List.mem_cons_self]
        exact ih fun n' hn' => h n' (List.mem_cons_of_mem n hn')

theorem Flat.numel_cat (ts : List (Flat T)) : (Flat.cat ts).numel = (ts.map Flat.numel).sum := by
  rw [Flat.numel, Flat.cat, List.length_flatMap]
  simp only [List.length_map]
  rfl

section Gather

variable {G : Type} {world : Nat} {group : List G} {delta : Nat → G → Delta T}
  {dtype : G → T.DType} {xs : (r : Nat) → (g : G) → List (T.Val (dtype g))}

/-- Every rank's delta of every parameter of the group holds its values. -/
structure Holding (world : Nat) (group : List G) (delta : Nat → G → Delta T)
    (dtype : G → T.DType) (xs : (r : Nat) → (g : G) → List (T.Val (dtype g))) : Prop where
  val : ∀ r < world, ∀ g ∈ group, Holds (delta r g).val (dtype g) (xs r g)
  length : ∀ r < world, ∀ g ∈ group, (delta r g).idx.length = (xs r g).length

theorem of_counts_getD (deltas : List (Delta T)) {i : Nat} (hi : i < deltas.length) :
    (Batch.of deltas).counts.getD i 0 = deltas[i].idx.length := by
  rw [Batch.of, List.getD_eq_getElem?_getD, List.getElem?_map, List.getElem?_eq_getElem hi]
  rfl

/-- What rank `r` sends of the parameter `i`: the positions. -/
theorem slice_padIdx_of (deltas : List (Delta T)) {i : Nat} (hi : i < deltas.length) (size : Nat) :
    slice (padIdx (Batch.of deltas).idxConcat size) ((Batch.of deltas).counts.take i).sum
      ((Batch.of deltas).counts.getD i 0) = deltas[i].idx := by
  have hi' : i < (deltas.map Delta.idx).length := by rwa [List.length_map]
  have hcounts : (Batch.of deltas).counts = (deltas.map Delta.idx).map List.length := by
    rw [List.map_map]
    rfl
  have hconcat : (Batch.of deltas).idxConcat = (deltas.map Delta.idx).flatten := by
    rw [← List.flatMap_def]
    rfl
  have hget : (deltas.map Delta.idx)[i] = deltas[i].idx := List.getElem_map ..
  rw [of_counts_getD deltas hi, hcounts, hconcat, padIdx, ← hget,
    Slices.slice_write_pad (Slices.sum_take_add_le hi'), Slices.slice_flatten hi']

theorem slice_pad {t : Flat T} {start size : Nat} (h : start + size ≤ t.numel) (padded : Nat) :
    (t.pad padded).slice start size = t.slice start size := by
  rw [Flat.slice, Flat.slice, Flat.pad, Slices.slice_write_pad h]

/-- And the values. -/
theorem slice_pad_of (deltas : List (Delta T)) {i : Nat} (hi : i < deltas.length) (size : Nat)
    (hlength : ∀ x ∈ deltas, x.idx.length = x.val.numel) :
    ((Batch.of deltas).valConcat.pad size).slice ((Batch.of deltas).counts.take i).sum
      ((Batch.of deltas).counts.getD i 0) =
        deltas[i].val.cast (Batch.of deltas).valConcat.dtype := by
  have hvals : deltas.map Delta.val = (deltas.take i).map Delta.val ++
      deltas[i].val :: (deltas.drop (i + 1)).map Delta.val := by
    rw [← List.map_cons, ← List.drop_eq_getElem_cons hi, ← List.map_append, List.take_append_drop]
  have hcounts : (Batch.of deltas).counts.take i =
      ((deltas.take i).map Delta.val).map Flat.numel := by
    rw [Batch.of, ← List.map_take, List.map_map]
    exact List.map_congr_left fun x hx => hlength x (List.mem_of_mem_take hx)
  have hslice := Flat.slice_cat ((deltas.take i).map Delta.val) deltas[i].val
    ((deltas.drop (i + 1)).map Delta.val)
  rw [← hvals, ← hcounts, ← hlength _ (List.getElem_mem hi)] at hslice
  have hfit : ((Batch.of deltas).counts.take i).sum + deltas[i].idx.length ≤
      (Flat.cat (deltas.map Delta.val)).numel := by
    rw [hvals, hcounts, hlength _ (List.getElem_mem hi), Flat.numel_cat, List.map_append,
      List.sum_append, List.map_cons, List.sum_cons]
    omega
  rw [of_counts_getD deltas hi]
  exact (slice_pad hfit size).trans hslice

theorem Holding.delta_length (h : Holding world group delta dtype xs) {r : Nat} (hr : r < world) :
    ∀ x ∈ group.map (delta r), x.idx.length = x.val.numel := by
  intro x hx
  obtain ⟨g, hg, rfl⟩ := List.mem_map.mp hx
  rw [h.length r hr g hg, (h.val r hr g hg).numel_eq]

/-- The values of all ranks are concatenated in one floating dtype. -/
theorem Holding.floating (hT : T.Lawful) (h : Holding world group delta dtype xs) {r : Nat}
    (hr : r < world) (hne : group ≠ []) :
    T.isFloatingPoint (Batch.of (group.map (delta r))).valConcat.dtype = true ∧
      ∀ g ∈ group, T.Widens (delta r g).val.dtype
        (Batch.of (group.map (delta r))).valConcat.dtype := by
  have hall : ∀ x ∈ group.map (delta r), T.isFloatingPoint x.val.dtype = true := by
    rw [List.forall_mem_map]
    exact fun g hg => (h.val r hr g hg).floating
  refine ⟨hT.floating_cat (fun hnil => hne (List.map_eq_nil_iff.mp hnil)) hall, fun g hg => ?_⟩
  exact hT.widens_cat hall (List.mem_map_of_mem hg)

theorem gatherVBatched_spec (hT : T.Lawful) (hworld : 0 < world)
    (h : Holding world group delta dtype xs) :
    List.Forall₂ (fun g x =>
        x.idx = (List.range world).flatMap (fun r => (delta r g).idx) ∧
          Holds x.val (dtype g) ((List.range world).flatMap fun r => xs r g))
      group (gatherVBatchedToRank0 world fun r => Batch.of (group.map (delta r))) := by
  have hlength : ∀ r, (Batch.of (group.map (delta r))).counts.length = group.length := by
    intro r
    rw [Batch.of, List.length_map, List.length_map]
  -- where no rank has anything, the empty tensors are what is asked for
  have hnone : ∀ g ∈ group, (∀ r < world, (delta r g).idx = []) →
      (Delta.empty (Batch.of (group.map (delta 0))).valConcat.dtype).idx =
          (List.range world).flatMap (fun r => (delta r g).idx) ∧
        Holds (Delta.empty (Batch.of (group.map (delta 0))).valConcat.dtype).val (dtype g)
          ((List.range world).flatMap fun r => xs r g) := by
    intro g hg hempty
    have hxs : (List.range world).flatMap (fun r => xs r g) = [] := by
      refine List.flatMap_eq_nil_iff.mpr fun r hr => List.length_eq_zero_iff.mp ?_
      rw [← h.length r (List.mem_range.mp hr) g hg, hempty r (List.mem_range.mp hr)]
      rfl
    refine ⟨(List.flatMap_eq_nil_iff.mpr fun r hr => hempty r (List.mem_range.mp hr)).symm, ?_⟩
    rw [hxs]
    exact Holds.empty (h.floating hT hworld (List.ne_nil_of_mem hg)).1 rfl
  rw [gatherVBatchedToRank0]
  split
  next hzero =>
    rw [foldl_max_eq_zero] at hzero
    refine List.forall₂_iff_get.mpr ⟨?_, fun i hi hi' => ?_⟩
    · rw [List.length_replicate, hlength]
    · rw [List.get_eq_getElem, List.get_eq_getElem, List.getElem_replicate]
      refine hnone _ (List.getElem_mem hi) fun r hr => ?_
      have htotal := hzero _ (List.mem_map_of_mem (List.mem_range.mpr hr))
      rw [List.sum_eq_zero_iff_forall_eq_nat] at htotal
      refine List.length_eq_zero_iff.mp (htotal _ ?_)
      change _ ∈ (group.map (delta r)).map fun x => x.idx.length
      exact List.mem_map_of_mem (List.mem_map_of_mem (List.getElem_mem hi))
  next hpos =>
    refine List.forall₂_iff_get.mpr ⟨?_, fun i hi hi' => ?_⟩
    · rw [List.length_map, List.length_range, hlength]
    · have hg := List.getElem_mem hi
      have hi'' : ∀ r, i < (group.map (delta r)).length := fun r => by rwa [List.length_map]
      have hget : ∀ r (h : i < (group.map (delta r)).length),
          (group.map (delta r))[i] = delta r group[i] := fun r h => List.getElem_map ..
      have hcount : ∀ r, (Batch.of (group.map (delta r))).counts.getD i 0 =
          (delta r group[i]).idx.length := by
        intro r
        rw [of_counts_getD _ (hi'' r), hget r (hi'' r)]
      simp only [List.get_eq_getElem, List.getElem_map, List.getElem_range]
      split
      next hranks =>
        refine hnone _ hg fun r hr => ?_
        have hfilter := List.filter_eq_nil_iff.mp (List.isEmpty_iff.mp hranks) r
          (List.mem_range.mpr hr)
        rw [decide_eq_true_eq, not_not, hcount] at hfilter
        exact List.length_eq_zero_iff.mp hfilter
      next hranks =>
        have hskip : ∀ r ∈ List.range world,
            decide ((Batch.of (group.map (delta r))).counts.getD i 0 ≠ 0) = false →
              (delta r group[i]).idx = [] := by
          intro r _ hr
          rw [decide_eq_false_iff_not, not_not, hcount] at hr
          exact List.length_eq_zero_iff.mp hr
        refine ⟨?_, ?_⟩
        · have hslices : ∀ r size, slice (padIdx (Batch.of (group.map (delta r))).idxConcat size)
              ((Batch.of (group.map (delta r))).counts.take i).sum
              ((Batch.of (group.map (delta r))).counts.getD i 0) = (delta r group[i]).idx :=
            fun r size => (slice_padIdx_of _ (hi'' r) size).trans
              (congrArg Delta.idx (hget r (hi'' r)))
          simp only [hslices]
          exact flatMap_filter_eq hskip
        · have hxs := flatMap_filter_eq (f := fun r => xs r group[i]) fun r hr hzero => by
            refine List.length_eq_zero_iff.mp ?_
            rw [← h.length r (List.mem_range.mp hr) _ hg, hskip r hr hzero]
            rfl
          rw [← hxs]
          refine Holds.cat hT (fun hnil => hranks (List.isEmpty_iff.mpr hnil)) fun r hr => ?_
          have hr := List.mem_range.mp (List.mem_of_mem_filter hr)
          rw [slice_pad_of _ (hi'' r) _ (h.delta_length hr), hget r (hi'' r)]
          obtain ⟨hfloating, hwidens⟩ := h.floating hT hr (List.ne_nil_of_mem hg)
          exact (h.val r hr _ hg).widen hfloating (hwidens _ hg)

end Gather

/-! ## The dense gather -/

/-- `t[start : start + values.numel()] = values`. -/
def Flat.setSlice (t : Flat T) (start : Nat) (values : Flat T) : Flat T :=
  ⟨t.dtype, Slices.write t.data start (values.cast t.dtype).data⟩

/-- `gather_dense_to_rank0` on rank 0 of the group. -/
def gatherDenseToRank0 (world : Nat) (localVal : Nat → Flat T) (offset : Nat → Nat)
    (fullNumel : Nat) : Flat T :=
  let dtype := (localVal 0).dtype
  let counts := fun r => (localVal r).numel
  let maxN := ((List.range world).map counts).foldl max 0
  if maxN = 0 then .empty dtype
  else
    (List.range world).foldl
      (fun full r =>
        if counts r ≠ 0 then
          full.setSlice (offset r) (((localVal r).pad maxN).slice 0 (counts r))
        else full)
      ⟨dtype, (List.range fullNumel).map (T.uninit dtype)⟩

/-- A write behind the part that is final. -/
theorem write_append {α : Type} (pre rest ys : List α) :
    Slices.write (pre ++ rest) pre.length ys = (pre ++ ys) ++ rest.drop ys.length := by
  rw [Slices.write, List.take_left, ← List.drop_drop, List.drop_left]

theorem setSlice_append (hT : T.Lawful) {d : T.DType} (pre rest : List (T.Val d)) {size : Nat}
    (ys : List (T.Val d)) :
    (Flat.mk d (pre ++ rest)).setSlice pre.length ((Flat.pad ⟨d, ys⟩ size).slice 0 ys.length) =
      ⟨d, (pre ++ ys) ++ rest.drop ys.length⟩ := by
  have hslice : (Flat.pad ⟨d, ys⟩ size).slice 0 ys.length = ⟨d, ys⟩ := by
    have hfit : 0 + ys.length ≤ (Flat.mk d ys).numel := Nat.le_of_eq (Nat.zero_add _)
    rw [slice_pad hfit, Flat.slice, Slices.slice_zero_of_length_le (Nat.le_refl _)]
  have hcast : ((Flat.mk d ys).cast d).data = ys :=
    (List.map_congr_left fun v _ => hT.cast_self d v).trans (List.map_id' ys)
  rw [hslice, Flat.setSlice, hcast, write_append]

/-- The shards are put together. -/
theorem gatherDense_eq (hT : T.Lawful) {d : T.DType} (world : Nat)
    (shard : Nat → List (T.Val d)) (offset : Nat → Nat)
    (hoffset : ∀ r < world, offset r = ((List.range r).flatMap shard).length) :
    gatherDenseToRank0 world (fun r => ⟨d, shard r⟩) offset
        ((List.range world).flatMap shard).length =
      ⟨d, (List.range world).flatMap shard⟩ := by
  rw [gatherDenseToRank0]
  split
  next hzero =>
    rw [foldl_max_eq_zero] at hzero
    have hnil : (List.range world).flatMap shard = [] := by
      refine List.flatMap_eq_nil_iff.mpr fun r hr => List.length_eq_zero_iff.mp ?_
      exact hzero _ (List.mem_map_of_mem hr)
    rw [hnil]
    rfl
  next hpos =>
    obtain ⟨maxN, hmax⟩ : ∃ maxN, maxN = ((List.range world).map
        fun r => (Flat.mk (T := T) d (shard r)).numel).foldl max 0 := ⟨_, rfl⟩
    obtain ⟨init, hinit⟩ : ∃ init, init = (List.range ((List.range world).flatMap shard).length).map
        (T.uninit d) := ⟨_, rfl⟩
    -- after `n` ranks the shards of the first `n` are in place
    have hloop : ∀ n ≤ world, (List.range n).foldl
        (fun (full : Flat T) r =>
          if (Flat.mk (T := T) d (shard r)).numel ≠ 0 then
            full.setSlice (offset r) ((Flat.pad ⟨d, shard r⟩ maxN).slice 0
              (Flat.mk (T := T) d (shard r)).numel)
          else full)
        (Flat.mk d init) =
          ⟨d, (List.range n).flatMap shard ++ init.drop ((List.range n).flatMap shard).length⟩ := by
      intro n hn
      induction n with
      | zero => rfl
      | succ n ih =>
          rw [List.range_succ, List.foldl_append, ih (Nat.le_of_succ_le hn), List.foldl_cons,
            List.foldl_nil, List.flatMap_append, List.flatMap_singleton, List.length_append,
            ← List.drop_drop]
          split
          · rw [hoffset n hn]
            exact setSlice_append hT _ _ _
          next hempty =>
            have hnil : shard n = [] := List.length_eq_zero_iff.mp (not_not.mp hempty)
            rw [hnil, List.append_nil, List.length_nil, List.drop_zero]
    have hall := hloop world (Nat.le_refl world)
    have hdrop : init.drop ((List.range world).flatMap shard).length = [] := by
      refine List.drop_eq_nil_of_le (Nat.le_of_eq ?_)
      rw [hinit, List.length_map, List.length_range]
    rw [hdrop, List.append_nil, hinit, hmax] at hall
    exact hall

end Verl.DeltaSync
