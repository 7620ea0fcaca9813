import Verl.DeltaSync.Loader

/-!
# Parameters and their shards

A `Param` is a parameter of the trainer with the way it is split over ranks, and a
`WeightState` gives every parameter its values.  `export` is what the trainer
hands to the engine.

The shards of a parameter are slices of it, at the offsets that
`derivePlacement` finds, and they add up to it (`flatMap_part`).  So what all
ranks find changed adds up to the changes of the parameter
(`changes_wholeChanges`).
-/

namespace Verl.DeltaSync

open Slices (slice)

variable {T : Torch}

/-! ## Slices by their sizes -/

theorem flatMap_range_sizes {α : Type} (sizes : List Nat) (xs : List α) (n : Nat) :
    ((List.range n).flatMap fun r => slice xs (sizes.take r).sum (sizes.getD r 0)) =
      slice xs 0 (sizes.take n).sum := by
  induction n with
  | zero => rfl
  | succ n ih =>
      have hnext := Slices.slice_append_slice xs 0 (sizes.take n).sum (sizes.getD n 0)
      have hsum : (sizes.take (n + 1)).sum = (sizes.take n).sum + sizes.getD n 0 := by
        rw [List.take_add_one, List.sum_append, List.getD_eq_getElem?_getD]
        cases sizes[n]? with
        | none => rfl
        | some size => rfl
      rw [Nat.zero_add] at hnext
      rw [List.range_succ, List.flatMap_append, ih, List.flatMap_singleton, hnext, hsum]

/-- Changes of all slices. -/
theorem Changes.flatMap_range {α : Type} {n : Nat} {old new : Nat → List α}
    {ch : Nat → List (Nat × α)} (offset : Nat → Nat)
    (h : ∀ r < n, Changes (old r) (new r) (ch r))
    (hlength : ∀ r < n, (old r).length = (new r).length)
    (hoffset : ∀ r < n, offset r = ((List.range r).flatMap new).length) :
    Changes ((List.range n).flatMap old) ((List.range n).flatMap new)
      ((List.range n).flatMap fun r => (ch r).map fun x => (x.1 + offset r, x.2)) := by
  induction n with
  | zero => exact .nil
  | succ n ih =>
      have hpre := ih (fun r hr => h r (Nat.lt_succ_of_lt hr))
        (fun r hr => hlength r (Nat.lt_succ_of_lt hr))
        fun r hr => hoffset r (Nat.lt_succ_of_lt hr)
      have hsizes : ((List.range n).flatMap old).length = ((List.range n).flatMap new).length := by
        rw [List.length_flatMap, List.length_flatMap]
        refine congrArg List.sum (List.map_congr_left fun r hr => ?_)
        exact hlength r (Nat.lt_succ_of_lt (List.mem_range.mp hr))
      have happend := hpre.append (h n (Nat.lt_succ_self n)) hsizes
      rw [← hoffset n (Nat.lt_succ_self n)] at happend
      rw [List.range_succ, List.flatMap_append, List.flatMap_append, List.flatMap_append,
        List.flatMap_singleton, List.flatMap_singleton, List.flatMap_singleton]
      exact happend

/-! ## Placements -/

namespace ShardSpec

variable (spec : ShardSpec)

/-- How much of the parameter each of the ranks has. -/
def sizes : List Nat :=
  match spec.sharding with
  | none => [prodshape spec.fullShape]
  | some s => s.sizes

theorem length_sizes : spec.sizes.length = spec.ranks.length := by
  rw [sizes, ranks]
  cases spec.sharding with
  | none => rfl
  | some s => exact s.length_sizes

theorem sum_sizes' : spec.sizes.sum = prodshape spec.fullShape := by
  rw [sizes]
  cases hs : spec.sharding with
  | none => exact Nat.add_zero _
  | some s => exact spec.sum_sizes s hs

theorem head_ranks : spec.ranks.head? = some 0 := by
  rw [ranks]
  cases spec.sharding with
  | none => rfl
  | some s => exact s.group.head_ranks

theorem ranks_pos : 0 < spec.ranks.length := by
  have hhead := spec.head_ranks
  cases hranks : spec.ranks with
  | nil =>
      rw [hranks] at hhead
      cases hhead
  | cons rank ranks => exact Nat.succ_pos _

theorem coordinate_getD {s : Sharding} {r : Nat} (hr : r < s.group.ranks.length) :
    s.coordinate (s.group.ranks.getD r 0) = r := by
  have hget : (s.group.ranks.map s.coordinate)[r]? = some r := by
    rw [s.coordinate_ranks, List.getElem?_range hr]
  rw [List.getElem?_map, List.getElem?_eq_getElem hr, Option.map_some] at hget
  rw [List.getD_eq_getElem?_getD, List.getElem?_eq_getElem hr]
  exact Option.some.inj hget

/-- Where a rank's shard begins. -/
theorem offset_ranks {r : Nat} (hr : r < spec.ranks.length) :
    (derivePlacement spec (spec.ranks.getD r 0)).offset = (spec.sizes.take r).sum := by
  rw [ranks] at hr ⊢
  rw [derivePlacement, sizes]
  cases hs : spec.sharding with
  | none =>
      rw [hs] at hr
      obtain rfl := Nat.lt_one_iff.mp hr
      rfl
  | some s =>
      rw [hs] at hr
      exact congrArg (fun r => (s.sizes.take r).sum) (coordinate_getD hr)

theorem getD_ranks_mem (r : Nat) : spec.ranks.getD r 0 ∈ spec.ranks := by
  rw [List.getD_eq_getElem?_getD]
  by_cases hr : r < spec.ranks.length
  · rw [List.getElem?_eq_getElem hr]
    exact List.getElem_mem hr
  · rw [List.getElem?_eq_none (Nat.le_of_not_lt hr)]
    exact List.mem_of_head? spec.head_ranks

theorem contributes_ranks (r : Nat) :
    (derivePlacement spec (spec.ranks.getD r 0)).contributes = true := by
  have hmem := spec.getD_ranks_mem r
  rw [ranks] at hmem ⊢
  rw [derivePlacement]
  cases hs : spec.sharding with
  | none =>
      rw [hs] at hmem
      exact beq_iff_eq.mpr (List.mem_singleton.mp hmem)
  | some s =>
      rw [hs] at hmem
      exact decide_eq_true hmem

theorem sharding_eq_none (h : (derivePlacement spec 0).group = none) : spec.sharding = none := by
  rw [derivePlacement] at h
  cases hs : spec.sharding with
  | none => rfl
  | some s =>
      rw [hs] at h
      cases h

theorem ranks_of_group_eq_none (h : (derivePlacement spec 0).group = none) :
    spec.ranks = [0] := by
  rw [ranks, spec.sharding_eq_none h]

theorem ranks_of_group_eq_some {group : ProcessGroup}
    (h : (derivePlacement spec 0).group = some group) : spec.ranks = group.ranks := by
  rw [derivePlacement] at h
  rw [ranks]
  cases hs : spec.sharding with
  | none =>
      rw [hs] at h
      cases h
  | some s =>
      rw [hs] at h
      exact congrArg ProcessGroup.ranks (Option.some.inj h)

end ShardSpec

/-! ## Parameters -/

/-- A parameter of a floating dtype whose positions fit into 31 bits. -/
structure Param (T : Torch) where
  name : String
  dtype : T.DType
  spec : ShardSpec
  floating : T.isFloatingPoint dtype = true
  numel_lt : prodshape spec.fullShape < 2 ^ 31

/-- The values of every parameter.  None of them is NaN. -/
structure WeightState (ps : List (Param T)) where
  value : (p : Param T) → List (T.Val p.dtype)
  length_value : ∀ p ∈ ps, (value p).length = prodshape p.spec.fullShape
  notNan : ∀ p ∈ ps, ∀ v ∈ value p, T.isnan p.dtype v = false

namespace Param

variable (p : Param T) (xs : List (T.Val p.dtype))

/-- The shard of the rank `r` of the parameter's group. -/
def part (r : Nat) : List (T.Val p.dtype) :=
  slice xs (p.spec.sizes.take r).sum (p.spec.sizes.getD r 0)

/-- The shard of a rank.  An unsharded parameter is whole on every rank. -/
def shard (rank : Nat) : List (T.Val p.dtype) :=
  match p.spec.sharding with
  | none => xs
  | some s => p.part xs (s.coordinate rank)

def toExport : ShardExport T := ⟨p.name, fun rank => ⟨p.dtype, p.shard xs rank⟩, p.spec⟩

variable {p xs}

/-- The shards add up to the parameter. -/
theorem flatMap_part (h : xs.length = prodshape p.spec.fullShape) :
    (List.range p.spec.ranks.length).flatMap (p.part xs) = xs := by
  have hall := flatMap_range_sizes p.spec.sizes xs p.spec.ranks.length
  rw [← p.spec.length_sizes, List.take_length, p.spec.sum_sizes', ← h,
    Slices.slice_zero_of_length_le (Nat.le_refl _)] at hall
  rw [← p.spec.length_sizes]
  exact hall

theorem length_flatMap_part (h : xs.length = prodshape p.spec.fullShape) (r : Nat) :
    ((List.range r).flatMap (p.part xs)).length = (p.spec.sizes.take r).sum := by
  have hall := flatMap_range_sizes p.spec.sizes xs r
  have hle : (p.spec.sizes.take r).sum ≤ p.spec.sizes.sum := by
    have hsplit := congrArg List.sum (List.take_append_drop r p.spec.sizes)
    rw [List.sum_append] at hsplit
    omega
  rw [p.spec.sum_sizes', ← h] at hle
  change ((List.range r).flatMap fun r =>
    slice xs (p.spec.sizes.take r).sum (p.spec.sizes.getD r 0)).length = _
  rw [hall, Slices.length_slice (by omega)]

theorem length_part_congr {ys : List (T.Val p.dtype)} (h : xs.length = ys.length) (r : Nat) :
    (p.part xs r).length = (p.part ys r).length := by
  rw [part, part, slice, slice, List.length_take, List.length_take, List.length_drop,
    List.length_drop, h]

theorem shard_ranks (h : xs.length = prodshape p.spec.fullShape) {r : Nat}
    (hr : r < p.spec.ranks.length) : p.shard xs (p.spec.ranks.getD r 0) = p.part xs r := by
  rw [shard]
  split
  next hs =>
    have hsizes : p.spec.sizes = [prodshape p.spec.fullShape] := by rw [ShardSpec.sizes, hs]
    have hranks : p.spec.ranks = [0] := by rw [ShardSpec.ranks, hs]
    rw [hranks] at hr
    obtain rfl := Nat.lt_one_iff.mp hr
    rw [part, hsizes]
    exact (Slices.slice_zero_of_length_le (Nat.le_of_eq h)).symm
  next s hs =>
    have hranks : p.spec.ranks = s.group.ranks := by rw [ShardSpec.ranks, hs]
    rw [hranks] at hr ⊢
    rw [ShardSpec.coordinate_getD hr]

theorem length_shard_congr {ys : List (T.Val p.dtype)} (h : xs.length = ys.length) (rank : Nat) :
    (p.shard xs rank).length = (p.shard ys rank).length := by
  rw [shard, shard]
  split
  · exact h
  · exact length_part_congr h _

/-- What the rank `r` of the group finds changed, at positions in the parameter. -/
def partChanges (p : Param T) (old new : List (T.Val p.dtype)) (r : Nat) :
    List (Nat × T.Val p.dtype) :=
  (changes (p.part old r) (p.part new r)).map fun x => (x.1 + (p.spec.sizes.take r).sum, x.2)

def wholeChanges (p : Param T) (old new : List (T.Val p.dtype)) : List (Nat × T.Val p.dtype) :=
  (List.range p.spec.ranks.length).flatMap (p.partChanges old new)

/-- All ranks together find the changes of the parameter. -/
theorem changes_wholeChanges (hT : T.Lawful) {old new : List (T.Val p.dtype)}
    (hold : old.length = prodshape p.spec.fullShape)
    (hnew : new.length = prodshape p.spec.fullShape) :
    Changes old new (p.wholeChanges old new) := by
  have hlength := fun r => length_part_congr (hold.trans hnew.symm) (r := r)
  have hall := Changes.flatMap_range (n := p.spec.ranks.length)
    (fun r => (p.spec.sizes.take r).sum) (fun r _ => changes_spec hT (hlength r))
    (fun r _ => hlength r) fun r _ => (length_flatMap_part hnew r).symm
  rw [flatMap_part hold, flatMap_part hnew] at hall
  exact hall

end Param

namespace WeightState

variable {ps : List (Param T)}

/-- `get_per_tensor_param_shard()`. -/
def toExports (w : WeightState ps) : List (ShardExport T) :=
  ps.map fun p => p.toExport (w.value p)

end WeightState

end Verl.DeltaSync
