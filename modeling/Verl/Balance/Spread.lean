import Verl.Balance.Partition

/-!
# The balance bound

Of two sets of a merge, the one with more from the first state has less from the
second.  So the sums of a merge are no further apart than those of the two states
(`State.SpreadLe.merge`), and the sums of the last state no further apart than
those of some first state.
-/

namespace Verl

/-- The largest value less the smallest. -/
def valueSpread (values : List Nat) : Nat := values.max?.getD 0 - values.min?.getD 0

/-- The sum of the values of a partition. -/
def partitionSum (seqlenList partition : List Nat) : Nat :=
  (partition.map fun idx => seqlenList.getD idx 0).sum

/-- The largest value, or with `equal_size` the largest spread of a block of `k`
consecutive values of the sorted list. -/
def spreadBound (seqlenList : List Nat) (k : Nat) (equalSize : Bool) : Nat :=
  if equalSize then
    ((blocks k (seqlenList.insertionSort (· ≤ ·))).map valueSpread).max?.getD 0
  else
    seqlenList.max?.getD 0

/-! ## Values -/

theorem le_max?_getD {values : List Nat} {x : Nat} (h : x ∈ values) : x ≤ values.max?.getD 0 := by
  obtain ⟨m, hm⟩ := Option.isSome_iff_exists.mp (List.isSome_max?_of_mem h)
  rw [hm]
  exact (List.max?_eq_some_iff.mp hm).2 x h

theorem min?_getD_le {values : List Nat} {x : Nat} (h : x ∈ values) : values.min?.getD 0 ≤ x := by
  obtain ⟨m, hm⟩ := Option.isSome_iff_exists.mp (List.isSome_min?_of_mem h)
  rw [hm]
  exact (List.min?_eq_some_iff.mp hm).2 x h

theorem le_add_valueSpread {values : List Nat} {x y : Nat} (hx : x ∈ values) (hy : y ∈ values) :
    x ≤ y + valueSpread values := by
  have hmax := le_max?_getD hx
  have hmin := min?_getD_le hy
  rw [valueSpread]
  omega

theorem valueSpread_le {values : List Nat} {bound : Nat}
    (h : ∀ x ∈ values, ∀ y ∈ values, x ≤ y + bound) : valueSpread values ≤ bound := by
  rw [valueSpread]
  cases hmax : values.max? with
  | none => exact (Nat.sub_le _ _).trans (Nat.zero_le _)
  | some x =>
      have hx := List.max?_mem hmax
      obtain ⟨y, hmin⟩ := Option.isSome_iff_exists.mp (List.isSome_min?_of_mem hx)
      have hle := h x hx y (List.min?_mem hmin)
      rw [hmin, Option.getD_some, Option.getD_some]
      omega

/-! ## Sorted values -/

theorem blocks_map {α β : Type*} (k : Nat) (f : α → β) (xs : List α) :
    blocks k (xs.map f) = (blocks k xs).map (List.map f) := by
  simp only [blocks, List.length_map, List.map_map]
  refine List.map_congr_left fun i _ => ?_
  rw [Function.comp_apply, List.map_take, List.map_drop]

theorem sortedSeqlenList_values (seqlenList : List Nat) :
    (sortedSeqlenList seqlenList).map Prod.snd = seqlenList.insertionSort (· ≤ ·) := by
  have hvalues : (sortedSeqlenList seqlenList).map Prod.snd =
      ((seqlenList.zipIdx.map toLex).insertionSort (· ≤ ·)).map fun item => item.1 := by
    rw [sortedSeqlenList, List.map_map]
    rfl
  have hsorted : ((sortedSeqlenList seqlenList).map Prod.snd).Pairwise (· ≤ ·) := by
    rw [hvalues, List.pairwise_map]
    refine (List.pairwise_insertionSort (· ≤ ·) _).imp fun {x y} hle => ?_
    rw [Prod.Lex.le_iff] at hle
    obtain hlt | ⟨heq, -⟩ := hle
    · exact Nat.le_of_lt hlt
    · exact Nat.le_of_eq heq
  have hperm : ((sortedSeqlenList seqlenList).map Prod.snd).Perm seqlenList := by
    refine ((sortedSeqlenList_perm seqlenList).map Prod.snd).trans ?_
    rw [List.map_map]
    exact List.Perm.of_eq (List.zipIdx_map_fst 0 seqlenList)
  exact (hperm.trans (List.perm_insertionSort (· ≤ ·) seqlenList).symm).eq_of_pairwise' hsorted
    (List.pairwise_insertionSort (· ≤ ·) seqlenList)

theorem getElem?_of_mem_sortedSeqlenList {seqlenList : List Nat} {item : Nat × Nat}
    (h : item ∈ sortedSeqlenList seqlenList) : seqlenList[item.1]? = some item.2 := by
  obtain ⟨value, hvalue, rfl⟩ :=
    List.mem_map.mp ((sortedSeqlenList_perm seqlenList).mem_iff.mp h)
  exact List.mk_mem_zipIdx_iff_getElem?.mp hvalue

/-! ## Sums of a state -/

namespace State

variable {k : Nat}

/-- No sum is more than `bound` above another. -/
def SpreadLe (bound : Nat) (s : State k) : Prop :=
  ∀ x ∈ s.sets, ∀ y ∈ s.sets, x.sum ≤ y.sum + bound

theorem sum_le_of_le {s t : PartSet} (h : s ≤ t) : s.sum ≤ t.sum := by
  have hle : s.key ≤ t.key := h
  rw [PartSet.key, PartSet.key, Prod.Lex.le_iff] at hle
  obtain hlt | ⟨heq, -⟩ := hle
  · exact Nat.le_of_lt hlt
  · exact Nat.le_of_eq heq

/-- The sums decrease. -/
theorem sum_le_of_index_le {s : State k} {i j : Nat} {x y : PartSet} (hij : i ≤ j)
    (hx : s.sets[i]? = some x) (hy : s.sets[j]? = some y) : y.sum ≤ x.sum := by
  obtain ⟨hi, rfl⟩ := List.getElem?_eq_some_iff.mp hx
  obtain ⟨hj, rfl⟩ := List.getElem?_eq_some_iff.mp hy
  obtain rfl | hlt := Nat.eq_or_lt_of_le hij
  · exact Nat.le_refl _
  · exact sum_le_of_le (List.pairwise_iff_getElem.mp s.decreasing i j hi hj hlt)

theorem SpreadLe.merge {bound : Nat} {s t : State k} (hs : s.SpreadLe bound)
    (ht : t.SpreadLe bound) : (s.merge t).SpreadLe bound := by
  intro set hset set' hset'
  obtain ⟨i, x, y, hx, hy, rfl⟩ := mem_merge hset
  obtain ⟨i', x', y', hx', hy', rfl⟩ := mem_merge hset'
  change x.sum + y.sum ≤ x'.sum + y'.sum + bound
  rcases Nat.le_total i i' with hle | hle
  · -- the part of the second state is no larger
    have hfirst := hs x (List.mem_of_getElem? hx) x' (List.mem_of_getElem? hx')
    have hsecond : y.sum ≤ y'.sum := sum_le_of_index_le (by omega) hy' hy
    omega
  · have hfirst : x.sum ≤ x'.sum := sum_le_of_index_le hle hx' hx
    have hsecond := ht y (List.mem_of_getElem? hy) y' (List.mem_of_getElem? hy')
    omega

/-- A set of a first state holds one of its items, or none. -/
theorem Starts.sum_eq {s : State k} {items : List (Nat × Nat)} (h : s.Starts items)
    {set : PartSet} (hset : set ∈ s.sets) :
    (∃ item ∈ items, set.sum = item.2) ∨ (items.length < k ∧ set.sum = 0) := by
  have hmem := h.mem_iff.mp hset
  rw [List.mem_append] at hmem
  obtain hmem | hmem := hmem
  · obtain ⟨item, hitem, rfl⟩ := List.mem_map.mp hmem
    exact Or.inl ⟨item, hitem, Nat.zero_add _⟩
  · obtain ⟨hne, rfl⟩ := List.mem_replicate.mp hmem
    exact Or.inr ⟨by omega, rfl⟩

end State

/-! ## The bound -/

section Bound

variable {k : Nat} {seqlenList : List Nat}

theorem FirstStates.spreadLe {equalSize : Bool} {states : List (State k)}
    (h : FirstStates seqlenList equalSize states) :
    ∀ s ∈ states, s.SpreadLe (spreadBound seqlenList k equalSize) := by
  intro s hs x hx y hy
  cases equalSize with
  | false =>
      obtain ⟨item, hitem, hstarts⟩ := h.single rfl s hs
      have hmax : item.2 ≤ spreadBound seqlenList k false :=
        le_max?_getD (List.mem_of_getElem? (getElem?_of_mem_sortedSeqlenList hitem))
      obtain ⟨item', hitem', hsum⟩ | ⟨-, hsum⟩ := hstarts.sum_eq hx
      · rw [hsum, List.mem_singleton.mp hitem']
        omega
      · omega
  | true =>
      obtain ⟨block, hblock, hstarts⟩ := h.block rfl s hs
      have hlength := length_of_mem_blocks hblock
      have hbound : valueSpread (block.map Prod.snd) ≤ spreadBound seqlenList k true := by
        rw [spreadBound, if_pos rfl, ← sortedSeqlenList_values, blocks_map, List.map_map]
        exact le_max?_getD (List.mem_map_of_mem hblock)
      obtain ⟨item, hitem, hsum⟩ | ⟨hlt, -⟩ := hstarts.sum_eq hx
      · obtain ⟨item', hitem', hsum'⟩ | ⟨hlt, -⟩ := hstarts.sum_eq hy
        · have hle := le_add_valueSpread (@List.mem_map_of_mem _ _ _ _ Prod.snd hitem)
            (@List.mem_map_of_mem _ _ _ _ Prod.snd hitem')
          omega
        · omega
      · omega

/-- The sum of a partition is the sum of its set. -/
theorem LastState.partitionSum_eq {equalSize : Bool} {s : State k}
    (h : LastState seqlenList equalSize s) {set : PartSet} (hset : set ∈ s.sets) :
    partitionSum seqlenList (set.items.map fun item => item.1) = set.sum := by
  rw [partitionSum, List.map_map, set.sum_eq]
  refine congrArg List.sum (List.map_congr_left fun item hitem => ?_)
  have hmem : item ∈ s.items := List.mem_flatMap.mpr ⟨set, hset, hitem⟩
  obtain ⟨sorted, hsorted, rfl⟩ := List.mem_map.mp (h.items.mem_iff.mp hmem)
  have hvalue := getElem?_of_mem_sortedSeqlenList hsorted
  rw [Function.comp_apply, List.getD_eq_getElem?_getD]
  exact congrArg (fun value => Option.getD value 0) hvalue

end Bound

end Verl
