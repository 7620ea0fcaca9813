import Verl.Balance.KarmarkarKarp

/-!
# The result is a partition

With `equal_size` a state starts with a block of `k` values, one in each set, and
a merge joins sets of one size with sets of one size (`State.Even`).  So in both
modes the last state holds every index once, no set of it is empty, and with
`equal_size` its sets are of one size.
-/

namespace Verl

/-! ## Blocks -/

theorem length_of_mem_blocks {α : Type*} {k : Nat} {xs block : List α} (h : block ∈ blocks k xs) :
    block.length = k := by
  obtain ⟨i, hi, rfl⟩ := List.mem_map.mp h
  have hlast : (i + 1) * k ≤ xs.length :=
    (Nat.mul_le_mul_right k (List.mem_range.mp hi)).trans (Nat.div_mul_le_self _ _)
  rw [Nat.add_mul, Nat.one_mul] at hlast
  rw [List.length_take, List.length_drop]
  omega

/-- The first blocks are the beginning of the list. -/
theorem flatten_range_blocks {α : Type*} (k : Nat) (xs : List α) (count : Nat) :
    ((List.range count).map fun i => (xs.drop (i * k)).take k).flatten = xs.take (count * k) := by
  induction count with
  | zero => rw [List.range_zero, List.map_nil, List.flatten_nil, Nat.zero_mul, List.take_zero]
  | succ count ih =>
      rw [List.range_succ, List.map_append, List.flatten_append, ih, List.map_singleton,
        List.flatten_singleton, Nat.add_mul, Nat.one_mul, List.take_add]

theorem flatten_blocks {α : Type*} {k : Nat} {xs : List α} (hdvd : k ∣ xs.length) :
    (blocks k xs).flatten = xs := by
  rw [blocks, flatten_range_blocks, Nat.div_mul_cancel hdvd, List.take_length]

/-! ## The first states -/

namespace State

variable {k : Nat}

/-- All sets hold as many items. -/
def Even (s : State k) : Prop := ∃ size, ∀ set ∈ s.sets, set.items.length = size

/-- The set of one item. -/
def single (item : Nat × Nat) : PartSet := PartSet.empty.add item.1 item.2

/-- A state that starts with these items. -/
def Starts (s : State k) (items : List (Nat × Nat)) : Prop :=
  s.sets.Perm (items.map single ++ List.replicate (k - items.length) PartSet.empty)

theorem new_ok {items : List (Nat × Nat)} (hk : 0 < k)
    (hlength : items.length = 1 ∨ items.length = k) :
    ∃ s : State k, new items k = .ok s ∧ s.Starts items := by
  have hle : items.length ≤ k := by omega
  have hnew : new items k = .ok (ofSets
      (items.map single ++ List.replicate (k - items.length) PartSet.empty)
      (by rw [List.length_append, List.length_map, List.length_replicate]; omega)) := by
    rw [new, Py.check_of_true hlength]
    exact dif_pos hle
  exact ⟨_, hnew, List.perm_insertionSort _ _⟩

theorem Starts.items_perm {s : State k} {items : List (Nat × Nat)} (h : s.Starts items) :
    s.items.Perm (items.map toLex) := by
  refine (h.flatMap_right PartSet.items).trans ?_
  rw [List.flatMap_append, items_replicate_empty, List.append_nil, List.flatMap_map]
  have hsingle : ∀ item, (single item).items = [toLex item] := fun _ => rfl
  simp only [hsingle]
  exact List.Perm.of_eq (List.map_eq_flatMap.symm)

theorem Starts.filled {s : State k} {items : List (Nat × Nat)} (h : s.Starts items)
    (hle : items.length ≤ k) : s.Filled := by
  have hsingles : (items.map single).countP PartSet.nonempty = items.length := by
    rw [List.countP_map]
    exact List.countP_eq_length.mpr fun item _ => rfl
  have hempty : (List.replicate (k - items.length) PartSet.empty).countP PartSet.nonempty = 0 := by
    rw [List.countP_eq_zero]
    intro set hset
    rw [List.eq_of_mem_replicate hset]
    decide
  rw [Filled, h.countP_eq, List.countP_append, hsingles, hempty, h.items_perm.length_eq,
    List.length_map, Nat.min_eq_left hle, Nat.add_zero]

theorem Starts.even {s : State k} {items : List (Nat × Nat)} (h : s.Starts items)
    (hlength : items.length = k) : s.Even := by
  refine ⟨1, fun set hset => ?_⟩
  have hmem := h.mem_iff.mp hset
  rw [hlength, Nat.sub_self, List.replicate_zero, List.append_nil] at hmem
  obtain ⟨item, -, rfl⟩ := List.mem_map.mp hmem
  rfl

/-- A set of a merge joins a set of one state with the opposite set of the other. -/
theorem mem_merge {s t : State k} {set : PartSet} (h : set ∈ (s.merge t).sets) :
    ∃ i x y, s.sets[i]? = some x ∧ t.sets[k - 1 - i]? = some y ∧ set = x.merge y := by
  have hmem := (List.perm_insertionSort (· ≥ ·) _).mem_iff.mp h
  obtain ⟨i, hi, rfl⟩ := List.mem_iff_getElem.mp hmem
  rw [List.length_zipWith, List.length_reverse, s.size, t.size, Nat.min_self] at hi
  have hx : i < s.sets.length := by
    rw [s.size]
    exact hi
  have hy : k - 1 - i < t.sets.length := by
    rw [t.size]
    omega
  refine ⟨i, s.sets[i], t.sets[k - 1 - i], List.getElem?_eq_getElem hx, List.getElem?_eq_getElem hy,
    ?_⟩
  rw [List.getElem_zipWith, List.getElem_reverse]
  simp only [t.size]

/-- Sets of one size join sets of one size. -/
theorem Even.merge {s t : State k} (hs : s.Even) (ht : t.Even) : (s.merge t).Even := by
  obtain ⟨size, hsize⟩ := hs
  obtain ⟨size', hsize'⟩ := ht
  refine ⟨size + size', fun set hset => ?_⟩
  obtain ⟨i, x, y, hx, hy, rfl⟩ := mem_merge hset
  rw [PartSet.merge, List.length_append, hsize x (List.mem_of_getElem? hx),
    hsize' y (List.mem_of_getElem? hy)]

/-- The items of an even state are `k` times the size. -/
theorem Even.length {s : State k} (hs : s.Even) :
    ∀ set ∈ s.sets, set.items.length * k = s.items.length := by
  obtain ⟨size, hsize⟩ := hs
  have hlengths : s.sets.map (fun set => set.items.length) = List.replicate k size := by
    rw [List.eq_replicate_iff, List.length_map, s.size]
    refine ⟨rfl, fun n hn => ?_⟩
    obtain ⟨set, hset, rfl⟩ := List.mem_map.mp hn
    exact hsize set hset
  intro set hset
  rw [items, List.length_flatMap, hlengths, List.sum_replicate_nat, hsize set hset, Nat.mul_comm]

end State

/-! ## The last state -/

section LastState

variable {k : Nat}

/-- The states that the loop starts with. -/
structure FirstStates (seqlenList : List Nat) (equalSize : Bool) (states : List (State k)) :
    Prop where
  nonempty : states ≠ []
  items : (states.flatMap State.items).Perm ((sortedSeqlenList seqlenList).map toLex)
  single : equalSize = false → ∀ s ∈ states, ∃ item ∈ sortedSeqlenList seqlenList, s.Starts [item]
  block : equalSize = true → ∀ s ∈ states,
    ∃ block ∈ blocks k (sortedSeqlenList seqlenList), s.Starts block

/-- The states of lists of items. -/
theorem mapM_new {itemss : List (List (Nat × Nat))} (hk : 0 < k)
    (hlength : ∀ items ∈ itemss, items.length = 1 ∨ items.length = k) :
    ∃ states : List (State k), itemss.mapM (fun items => State.new items k) = .ok states ∧
      List.Forall₂ State.Starts states itemss := by
  induction itemss with
  | nil => exact ⟨[], rfl, .nil⟩
  | cons items itemss ih =>
      obtain ⟨s, hs, hstarts⟩ := State.new_ok hk (hlength items List.mem_cons_self)
      obtain ⟨states, hstates, hall⟩ :=
        ih fun items' hitems' => hlength items' (List.mem_cons_of_mem items hitems')
      refine ⟨s :: states, ?_, .cons hstarts hall⟩
      rw [List.mapM_cons, hs, hstates]
      rfl

theorem items_of_starts {states : List (State k)} {itemss : List (List (Nat × Nat))}
    (h : List.Forall₂ State.Starts states itemss) :
    (states.flatMap State.items).Perm (itemss.flatten.map toLex) := by
  induction h with
  | nil => rfl
  | cons hstarts _ ih =>
      rw [List.flatMap_cons, List.flatten_cons, List.map_append]
      exact hstarts.items_perm.append ih

/-- The first states hold the sorted values. -/
theorem firstStates_of_starts {seqlenList : List Nat} {equalSize : Bool}
    (hlen : 0 < seqlenList.length) {states : List (State k)} {itemss : List (List (Nat × Nat))}
    (h : List.Forall₂ State.Starts states itemss)
    (hflatten : itemss.flatten = sortedSeqlenList seqlenList)
    (hsingle : equalSize = false →
      itemss = (sortedSeqlenList seqlenList).map fun item => [item])
    (hblock : equalSize = true → itemss = blocks k (sortedSeqlenList seqlenList)) :
    FirstStates seqlenList equalSize states := by
  have hitems := items_of_starts h
  rw [hflatten] at hitems
  have hmem : ∀ s ∈ states, ∃ items ∈ itemss, s.Starts items := by
    intro s hs
    obtain ⟨i, hi, rfl⟩ := List.mem_iff_getElem.mp hs
    have hi' : i < itemss.length := h.length_eq ▸ hi
    exact ⟨itemss[i], List.getElem_mem hi', h.get hi hi'⟩
  refine ⟨?_, hitems, fun hfalse s hs => ?_, fun htrue => hblock htrue ▸ hmem⟩
  · intro hnil
    have hempty := hitems.length_eq
    rw [hnil, List.flatMap_nil, List.length_nil, List.length_map,
      (sortedSeqlenList_perm seqlenList).length_eq, List.length_map, List.length_zipIdx] at hempty
    omega
  · obtain ⟨items, hitems, hstarts⟩ := hmem s hs
    rw [hsingle hfalse] at hitems
    obtain ⟨item, hitem, rfl⟩ := List.mem_map.mp hitems
    exact ⟨item, hitem, hstarts⟩

theorem exists_firstStates_single {seqlenList : List Nat} (hk : 0 < k)
    (hlen : 0 < seqlenList.length) :
    ∃ states : List (State k),
      (sortedSeqlenList seqlenList).mapM (fun item => State.new [item] k) = .ok states ∧
        FirstStates seqlenList false states := by
  have hsizes : ∀ items ∈ (sortedSeqlenList seqlenList).map (fun item => [item]),
      items.length = 1 ∨ items.length = k := by
    intro items hitems
    obtain ⟨item, -, rfl⟩ := List.mem_map.mp hitems
    exact Or.inl rfl
  obtain ⟨states, hstates, hall⟩ := mapM_new hk hsizes
  rw [List.mapM_map] at hstates
  refine ⟨states, hstates, firstStates_of_starts hlen hall ?_ (fun _ => rfl) fun h => by cases h⟩
  rw [← List.flatMap_def, List.flatMap_singleton']

theorem exists_firstStates_block {seqlenList : List Nat} (hk : 0 < k)
    (hlen : 0 < seqlenList.length) (hdvd : k ∣ seqlenList.length) :
    ∃ states : List (State k),
      (blocks k (sortedSeqlenList seqlenList)).mapM (fun items => State.new items k) = .ok states ∧
        FirstStates seqlenList true states := by
  obtain ⟨states, hstates, hall⟩ := mapM_new hk fun items hitems =>
    Or.inr (length_of_mem_blocks hitems)
  refine ⟨states, hstates, firstStates_of_starts hlen hall ?_ (fun h => by cases h) fun _ => rfl⟩
  refine flatten_blocks ?_
  rwa [(sortedSeqlenList_perm seqlenList).length_eq, List.length_map, List.length_zipIdx]

/-- The state that is left. -/
structure LastState (seqlenList : List Nat) (equalSize : Bool) (s : State k) : Prop where
  items : s.items.Perm ((sortedSeqlenList seqlenList).map toLex)
  filled : s.Filled
  even : equalSize = true → s.Even

theorem FirstStates.exists_last {seqlenList : List Nat} {equalSize : Bool} {states : List (State k)}
    (h : FirstStates seqlenList equalSize states) (hk : 0 < k) {P : State k → Prop}
    (hmerge : ∀ s t, P s → P t → P (s.merge t)) (hfirst : ∀ s ∈ states, P s) :
    ∃ s, mergeStates states.length states = [s] ∧ LastState seqlenList equalSize s ∧ P s := by
  obtain ⟨s, hs⟩ := mergeStates_length states.length states (Nat.le_refl _) h.nonempty
  have hitems := mergeStates_items states.length states
  rw [hs, List.flatMap_singleton] at hitems
  have hlast {Q : State k → Prop} (hQ : ∀ s t, Q s → Q t → Q (s.merge t))
      (hall : ∀ s ∈ states, Q s) : Q s := by
    have hforall := mergeStates_forall hQ states.length states hall
    rw [hs] at hforall
    exact hforall s (List.mem_singleton.mpr rfl)
  refine ⟨s, hs, ⟨hitems.trans h.items, ?_, fun hequal => ?_⟩, hlast hmerge hfirst⟩
  · refine hlast (fun _ _ => State.Filled.merge) fun t ht => ?_
    cases equalSize with
    | false =>
        obtain ⟨item, -, hstarts⟩ := h.single rfl t ht
        exact hstarts.filled hk
    | true =>
        obtain ⟨block, hblock, hstarts⟩ := h.block rfl t ht
        exact hstarts.filled (Nat.le_of_eq (length_of_mem_blocks hblock))
  · refine hlast (fun _ _ => State.Even.merge) fun t ht => ?_
    obtain ⟨block, hblock, hstarts⟩ := h.block hequal t ht
    exact hstarts.even (length_of_mem_blocks hblock)

theorem LastState.length_items {seqlenList : List Nat} {equalSize : Bool} {s : State k}
    (h : LastState seqlenList equalSize s) : s.items.length = seqlenList.length := by
  rw [h.items.length_eq, List.length_map, (sortedSeqlenList_perm seqlenList).length_eq,
    List.length_map, List.length_zipIdx]

/-- What holds of the first states, and of a merge of two states, holds of the state
that the partition is taken from. -/
theorem karmarkarKarp_induction {seqlenList : List Nat} {equalSize : Bool} (hk : 0 < k)
    (hlen : 0 < seqlenList.length) (hdvd : equalSize = true → k ∣ seqlenList.length)
    {P : State k → Prop} (hmerge : ∀ s t, P s → P t → P (s.merge t))
    (hfirst : ∀ states, FirstStates seqlenList equalSize states → ∀ s ∈ states, P s) :
    ∃ s : State k, karmarkarKarp seqlenList k equalSize = .ok s.getPartitions ∧
      LastState seqlenList equalSize s ∧ P s := by
  cases equalSize with
  | false =>
      obtain ⟨states, hstates, hstart⟩ := exists_firstStates_single hk hlen
      obtain ⟨s, hs, hlast, hP⟩ := hstart.exists_last hk hmerge (hfirst states hstart)
      refine ⟨s, ?_, hlast, hP⟩
      simp only [karmarkarKarp, hstates, Bool.false_eq_true, if_false, Py.ok_bind, hs]
      rfl
  | true =>
      obtain ⟨states, hstates, hstart⟩ := exists_firstStates_block hk hlen (hdvd rfl)
      obtain ⟨s, hs, hlast, hP⟩ := hstart.exists_last hk hmerge (hfirst states hstart)
      refine ⟨s, ?_, hlast, hP⟩
      have hsizes : ∀ partition ∈ s.getPartitions, partition.length * k = seqlenList.length := by
        intro partition hpartition
        obtain ⟨set, hset, rfl⟩ := List.mem_map.mp hpartition
        rw [List.length_map, (hlast.even rfl).length set hset, hlast.length_items]
      have hfinal : Py.getItem [s] 0 = .ok s := rfl
      simp only [karmarkarKarp, if_true, if_neg hk.ne',
        Py.check_of_true (Nat.mod_eq_zero_of_dvd (hdvd rfl)), Py.ok_bind, hstates, hs, hfinal,
        Py.forM_check hsizes]
      rfl

end LastState

/-! ## The partition -/

/-- The final check changes nothing but the order in the lists. -/
theorem eq_of_checkAndSortPartitions {seqlenList : List Nat} {k : Nat}
    {partitions sorted : List (List Nat)}
    (h : checkAndSortPartitions seqlenList k partitions = .ok sorted) :
    sorted = partitions.map fun partition => partition.insertionSort (· ≤ ·) := by
  rw [checkAndSortPartitions] at h
  obtain ⟨-, -, h⟩ := Py.bind_eq_ok.mp h
  obtain ⟨-, -, h⟩ := Py.bind_eq_ok.mp h
  obtain ⟨-, -, h⟩ := Py.bind_eq_ok.mp h
  exact (Except.ok.inj h).symm

theorem getSeqlenBalancedPartitions_isPartition {seqlenList : List Nat} {k : Nat}
    {equalSize : Bool} (hk : 0 < k) (hle : k ≤ seqlenList.length)
    (hdvd : equalSize = true → k ∣ seqlenList.length) :
    ∃ partitions, getSeqlenBalancedPartitions seqlenList k equalSize = .ok partitions ∧
      IsPartition seqlenList.length k partitions := by
  obtain ⟨s, hs, hlast, -⟩ := @karmarkarKarp_induction k seqlenList equalSize hk (by omega) hdvd
    (fun _ => True) (fun _ _ _ _ => trivial) (fun _ _ _ _ => trivial)
  have hperm : s.getPartitions.flatten.Perm (List.range seqlenList.length) := by
    rw [flatten_getPartitions]
    refine (hlast.items.map _).trans ?_
    rw [List.map_map]
    exact sortedSeqlenList_indices seqlenList
  have hne : ∀ partition ∈ s.getPartitions, partition ≠ [] := by
    have hcount : k ≤ s.items.length := by rw [hlast.length_items]; exact hle
    intro partition hpartition
    obtain ⟨set, hset, rfl⟩ := List.mem_map.mp hpartition
    exact fun hnil => hlast.filled.items_ne_nil hcount set hset (List.map_eq_nil_iff.mp hnil)
  have hlength : s.getPartitions.length = k := by
    rw [State.getPartitions, List.length_map, s.size]
  obtain ⟨sorted, hsorted, hpart⟩ := checkAndSortPartitions_of_perm hlength hne hperm
  refine ⟨sorted, ?_, hpart⟩
  rw [getSeqlenBalancedPartitions, Py.check_of_true hle, hs]
  exact hsorted

/-- With `equal_size` the lists that are returned are of one size. -/
theorem length_of_mem_getSeqlenBalancedPartitions {seqlenList : List Nat} {k : Nat} (hk : 0 < k)
    (hle : k ≤ seqlenList.length) (hdvd : k ∣ seqlenList.length) {partitions : List (List Nat)}
    (h : getSeqlenBalancedPartitions seqlenList k true = .ok partitions) :
    ∀ partition ∈ partitions, partition.length = seqlenList.length / k := by
  obtain ⟨s, hs, hlast, -⟩ := @karmarkarKarp_induction k seqlenList true hk (by omega)
    (fun _ => hdvd) (fun _ => True) (fun _ _ _ _ => trivial) (fun _ _ _ _ => trivial)
  rw [getSeqlenBalancedPartitions, Py.check_of_true hle, hs, Py.ok_bind, Py.ok_bind] at h
  intro partition hpartition
  rw [eq_of_checkAndSortPartitions h] at hpartition
  obtain ⟨unsorted, hunsorted, rfl⟩ := List.mem_map.mp hpartition
  obtain ⟨set, hset, rfl⟩ := List.mem_map.mp hunsorted
  rw [List.length_insertionSort, List.length_map, ← hlast.length_items,
    ← (hlast.even rfl).length set hset, Nat.mul_div_cancel _ hk]

/-- The lists of the result are a partition of the indices, and of one size with
`equal_size`. -/
theorem getSeqlenBalancedPartitions_spec {seqlenList : List Nat} {k : Nat} {equalSize : Bool}
    (hk : 1 ≤ k) (hle : k ≤ seqlenList.length)
    (hdvd : equalSize = true → k ∣ seqlenList.length) :
    ∃ partitions, getSeqlenBalancedPartitions seqlenList k equalSize = .ok partitions ∧
      IsPartition seqlenList.length k partitions ∧
      (equalSize = true → ∀ partition ∈ partitions, partition.length = seqlenList.length / k) := by
  obtain ⟨partitions, hpartitions, hispartition⟩ :=
    getSeqlenBalancedPartitions_isPartition hk hle hdvd
  refine ⟨partitions, hpartitions, hispartition, fun hequal => ?_⟩
  subst hequal
  exact length_of_mem_getSeqlenBalancedPartitions hk hle (hdvd rfl) hpartitions

/-- Ties and zeros. -/
theorem getSeqlenBalancedPartitions_spec_four : ∃ partitions,
    getSeqlenBalancedPartitions [0, 5, 5, 0] 2 true = .ok partitions ∧
      IsPartition 4 2 partitions ∧
      (true = true → ∀ partition ∈ partitions, partition.length = 4 / 2) :=
  @getSeqlenBalancedPartitions_spec [0, 5, 5, 0] 2 true (by decide) (by decide) fun _ => by decide

end Verl
