import Verl.ActivationOffload.Autograd

/-!
# Where the tensors are

The tensors of a group are on the device, on the host, or back on the device.  Each
operation of the handler moves one group, and what it does to the tables depends on
that group only.

A group has one copy for each key.  A tensor that comes back has the elements of the
first tensor of its group with its key (`firstLike`).
-/

namespace Verl

open Streams (Seen)

inductive GroupPlace where
  | device
  | host
  | returned
deriving DecidableEq

section

variable {κ α : Type} [DecidableEq κ]

/-- A comprehension that raises does so at one of its elements. -/
theorem exists_of_mapM_eq_error {α β : Type} {f : α → Except Py.Error β} {xs : List α}
    {error : Py.Error} (h : xs.mapM f = .error error) : ∃ x ∈ xs, f x = .error error := by
  induction xs with
  | nil => cases h
  | cons x xs ih =>
      rw [List.mapM_cons] at h
      cases hx : f x with
      | error error' =>
          rw [hx] at h
          cases h
          exact ⟨x, List.mem_cons_self, hx⟩
      | ok y =>
          rw [hx, Py.ok_bind] at h
          cases hrest : xs.mapM f with
          | error error' =>
              rw [hrest] at h
              cases h
              obtain ⟨z, hz, hfail⟩ := ih hrest
              exact ⟨z, List.mem_cons_of_mem x hz, hfail⟩
          | ok ys =>
              rw [hrest] at h
              cases h

/-- The first saved tensor with the group and the key of a tensor. -/
def firstLike (graph : List (TensorTag × DeviceTensor κ α)) (p : TensorTag × DeviceTensor κ α) :
    DeviceTensor κ α :=
  ((graph.find? fun q => q.1.1 = p.1.1 ∧ q.2.key = p.2.key).getD p).2

/-- The entry of a saved tensor. -/
def stateOf (address : κ → κ) (graph : List (TensorTag × DeviceTensor κ α))
    (p : TensorTag × DeviceTensor κ α) : GroupPlace → TensorState κ α
  | .device => .tensor p.2 (.compute p.1)
  | .host => .tuple p.2.key p.2.shape
  | .returned => .tensor ⟨address p.2.key, p.2.shape, (firstLike graph p).elems⟩ (.reload p.1.1)

/-- The tables of the handler when the groups are in the given places. -/
structure HandlerOk (address : κ → κ) (graph live : List (TensorTag × DeviceTensor κ α))
    (place : Nat → GroupPlace) (h : OffloadHandler κ α) : Prop where
  entries : h.tensorTagToState.entries =
    live.map fun p => (p.1, stateOf address graph p (place p.1.1))
  subset : ∀ p ∈ live, p ∈ graph
  backups : ∀ i, place i = .host → ∃ mapping, h.groupOffloadMapping.get? i = some mapping ∧
    ∀ p ∈ graph, p.1.1 = i → mapping.get? p.2.key = some ⟨(firstLike graph p).elems⟩
  computed : ∀ p ∈ live, h.seen .current (.compute p.1) = true
  copied : ∀ i, place i = .host → h.seen .d2h (.offload i) = true
  returned : ∀ i, place i = .returned → h.seen .h2d (.reload i) = true
  safe : h.hazard = false

variable {graph live : List (TensorTag × DeviceTensor κ α)}

/-! ## The first tensor with a key -/

theorem firstLike_of_mem_append {p : TensorTag × DeviceTensor κ α} (hp : p ∈ graph)
    (more : List (TensorTag × DeviceTensor κ α)) :
    firstLike (graph ++ more) p = firstLike graph p := by
  rw [firstLike, firstLike, List.find?_append]
  cases hfind : graph.find? fun q => q.1.1 = p.1.1 ∧ q.2.key = p.2.key with
  | some q => rfl
  | none =>
      have := List.find?_eq_none.mp hfind p hp
      simp at this

/-- It is one of the saved tensors. -/
theorem exists_firstLike {p : TensorTag × DeviceTensor κ α} (hp : p ∈ graph) :
    ∃ q ∈ graph, firstLike graph p = q.2 ∧ q.1.1 = p.1.1 ∧ q.2.key = p.2.key := by
  rw [firstLike]
  cases hfind : graph.find? fun q => q.1.1 = p.1.1 ∧ q.2.key = p.2.key with
  | some q =>
      have hlike : q.1.1 = p.1.1 ∧ q.2.key = p.2.key := by simpa using List.find?_some hfind
      exact ⟨q, List.mem_of_find?_eq_some hfind, rfl, hlike⟩
  | none => exact ⟨p, hp, rfl, rfl, rfl⟩

theorem stateOf_append {address : κ → κ} {p : TensorTag × DeviceTensor κ α} (hp : p ∈ graph)
    (more : List (TensorTag × DeviceTensor κ α)) (place : GroupPlace) :
    stateOf address (graph ++ more) p place = stateOf address graph p place := by
  cases place with
  | device => rfl
  | host => rfl
  | returned => rw [stateOf, stateOf, firstLike_of_mem_append hp]

/-- The copies of a list of tensors: for each key that of the first one. -/
theorem get?_foldl_addBackup (ps : List (TensorTag × DeviceTensor κ α))
    (mapping : Py.Dict κ (CpuBackup α)) (key : κ) :
    ((ps.map fun p => TensorState.tensor p.2 (.compute p.1)).foldl OffloadHandler.addBackup
        mapping).get? key =
      (mapping.get? key).or ((ps.find? fun p => p.2.key = key).map fun p => ⟨p.2.elems⟩) := by
  induction ps generalizing mapping with
  | nil => simp
  | cons p ps ih =>
      rw [List.map_cons, List.foldl_cons, ih, List.find?_cons, OffloadHandler.addBackup]
      by_cases hkey : p.2.key = key
      · subst hkey
        by_cases hmem : p.2.key ∈ mapping.keys
        · obtain ⟨backup, hbackup⟩ := Py.Dict.exists_get?_of_mem_keys hmem
          simp [hmem, hbackup]
        · simp [hmem, Py.Dict.get?_set, Py.Dict.get?_eq_none_iff.mpr hmem]
      · split
        · simp [hkey]
        · rw [Py.Dict.get?_set, if_neg (Ne.symm hkey)]
          simp [hkey]

end

namespace OffloadHandler

variable {κ α : Type} (h : OffloadHandler κ α) (a b : DeviceStream) (g : Nat)

@[simp] theorem waitStream_currentGroup : (h.waitStream a b).currentGroup = h.currentGroup := rfl

@[simp] theorem waitStream_offloadedGroupCount :
    (h.waitStream a b).offloadedGroupCount = h.offloadedGroupCount := rfl

@[simp] theorem waitStream_tensorTagToBuf :
    (h.waitStream a b).tensorTagToBuf = h.tensorTagToBuf := rfl

@[simp] theorem freeGroup_currentGroup : (h.freeGroup g).currentGroup = h.currentGroup := rfl

@[simp] theorem freeGroup_offloadedGroupCount :
    (h.freeGroup g).offloadedGroupCount = h.offloadedGroupCount := rfl

/-- An operation is seen by its own stream only, and the others are as before. -/
theorem issue_seen_of_ne {e e' : DeviceEvent} (needs : List DeviceEvent) (hne : e' ≠ e) :
    (h.issue a e needs).seen b e' = h.seen b e' := Seen.issue_of_ne hne

theorem issue_seen_self (e : DeviceEvent) (needs : List DeviceEvent) :
    (h.issue a e needs).seen a e = true := Seen.issue_self

/-- A group is freed once both streams have waited. -/
def freed : OffloadHandler κ α :=
  ((h.waitStream .d2h .current).waitStream .current .d2h).freeGroup h.offloadedGroupCount

end OffloadHandler

namespace HandlerOk

variable {κ α : Type} [DecidableEq κ] {address : κ → κ}
  {graph live : List (TensorTag × DeviceTensor κ α)} {place : Nat → GroupPlace}
  {h : OffloadHandler κ α}

theorem init :
    HandlerOk address [] [] (fun _ => .device) (OffloadHandler.init : OffloadHandler κ α) where
  entries := rfl
  subset := fun _ hp => hp
  backups := fun _ hplace => by cases hplace
  computed := fun _ hp => absurd hp List.not_mem_nil
  copied := fun _ hplace => by cases hplace
  returned := fun _ hplace => by cases hplace
  safe := rfl

/-- The keys are the tags of the tensors that are not taken. -/
theorem keys_eq (hok : HandlerOk address graph live place h) :
    h.tensorTagToState.keys = live.map Prod.fst := by
  rw [Py.Dict.keys, hok.entries, List.map_map]
  rfl

theorem nodup (hok : HandlerOk address graph live place h) : (live.map Prod.fst).Nodup :=
  hok.keys_eq ▸ h.tensorTagToState.nodup

theorem get?_of_mem (hok : HandlerOk address graph live place h)
    {p : TensorTag × DeviceTensor κ α} (hp : p ∈ live) :
    h.tensorTagToState.get? p.1 = some (stateOf address graph p (place p.1.1)) := by
  refine Py.Dict.mem_entries_iff.mp ?_
  rw [hok.entries]
  exact List.mem_map_of_mem (f := fun p => (p.1, stateOf address graph p (place p.1.1))) hp

/-- The tensors of a group that has not moved. -/
theorem groupStates_eq (hok : HandlerOk address graph live place h) (g : Nat) :
    h.groupStates g =
      (live.filter fun p => p.1.1 = g).map fun p => stateOf address graph p (place g) := by
  rw [OffloadHandler.groupStates, hok.entries, List.filter_map, List.map_map]
  refine List.map_congr_left fun p hp => ?_
  have hgroup := of_decide_eq_true (List.mem_filter.mp hp).2
  have hgroup : p.1.1 = g := hgroup
  rw [Function.comp_apply, hgroup]

/-! ## One operation -/

/-- A stream waits for another one. -/
theorem waitStream (hok : HandlerOk address graph live place h) (a b : DeviceStream) :
    HandlerOk address graph live place (h.waitStream a b) where
  entries := hok.entries
  subset := hok.subset
  backups := hok.backups
  computed := fun p hp => Seen.wait_of_seen (hok.computed p hp)
  copied := fun i hi => Seen.wait_of_seen (hok.copied i hi)
  returned := fun i hi => Seen.wait_of_seen (hok.returned i hi)
  safe := hok.safe

/-- The counters and the buffers of the handler do not matter. -/
theorem of_tables (hok : HandlerOk address graph live place h) {h' : OffloadHandler κ α}
    (hstate : h'.tensorTagToState = h.tensorTagToState)
    (hmapping : h'.groupOffloadMapping = h.groupOffloadMapping) (hseen : h'.seen = h.seen)
    (hsafe : h'.hazard = false) : HandlerOk address graph live place h' where
  entries := by rw [hstate, hok.entries]
  subset := hok.subset
  backups := by rw [hmapping]; exact hok.backups
  computed := by rw [hseen]; exact hok.computed
  copied := by rw [hseen]; exact hok.copied
  returned := by rw [hseen]; exact hok.returned
  safe := hsafe

/-- A tensor is saved. -/
theorem tensorPush (hok : HandlerOk address graph graph place h) (G : Nat)
    (tensor : DeviceTensor κ α) (hplace : place h.currentGroup = .device)
    (hnew : (h.currentGroup, h.tensorCountCurrentGroup) ∉ graph.map Prod.fst) :
    ∃ h', h.tensorPush G tensor true =
        .ok (.tag (h.currentGroup, h.tensorCountCurrentGroup), h') ∧
      HandlerOk address
        (graph ++ [((h.currentGroup, h.tensorCountCurrentGroup), tensor)])
        (graph ++ [((h.currentGroup, h.tensorCountCurrentGroup), tensor)]) place h' ∧
      h'.currentGroup = h.currentGroup ∧
      h'.tensorCountCurrentGroup = h.tensorCountCurrentGroup + 1 ∧
      h'.offloadedGroupCount = h.offloadedGroupCount ∧
      (∀ a e, (∀ tag, e ≠ .compute tag) → h'.seen a e = h.seen a e) ∧
      h'.tensorTagToBuf = if h.currentGroup < G then
        h.tensorTagToBuf.set (h.currentGroup, h.tensorCountCurrentGroup) (some tensor)
        else h.tensorTagToBuf := by
  have hkeys : (h.currentGroup, h.tensorCountCurrentGroup) ∉ h.tensorTagToState.keys := by
    rw [hok.keys_eq]
    exact hnew
  simp only [OffloadHandler.tensorPush, if_pos, Py.check_of_true hkeys]
  refine ⟨_, rfl, ?_, rfl, rfl, rfl, fun a e he => Seen.issue_of_ne (he _), rfl⟩
  constructor
  · change (h.tensorTagToState.set _ _).entries = _
    rw [Py.Dict.entries_set_of_not_mem hkeys, hok.entries, List.map_append]
    congr 1
    · refine List.map_congr_left fun p hp => ?_
      rw [stateOf_append hp]
    · simp only [List.map_cons, List.map_nil, hplace]
      rfl
  · exact fun p hp => hp
  · intro i hi
    obtain ⟨mapping, hmapping, hcopies⟩ := hok.backups i hi
    refine ⟨mapping, hmapping, fun p hp hgroup => ?_⟩
    rcases List.mem_append.mp hp with hp | hp
    · rw [firstLike_of_mem_append hp]
      exact hcopies p hp hgroup
    · obtain rfl := List.mem_singleton.mp hp
      rw [← hgroup, hplace] at hi
      cases hi
  · intro p hp
    by_cases hsame : p.1 = (h.currentGroup, h.tensorCountCurrentGroup)
    · rw [hsame]
      exact Seen.issue_self
    · rcases List.mem_append.mp hp with hp | hp
      · have hne : DeviceEvent.compute p.1 ≠ .compute (h.currentGroup, h.tensorCountCurrentGroup) :=
          fun heq => hsame (DeviceEvent.compute.inj heq)
        exact (Seen.issue_of_ne hne).trans (hok.computed p hp)
      · exact absurd (List.mem_singleton.mp hp ▸ rfl) hsame
  · intro i hi
    change (h.issue .current (.compute (h.currentGroup, h.tensorCountCurrentGroup)) []).seen
      .d2h (.offload i) = true
    rw [OffloadHandler.issue_seen_of_ne _ _ _ _ (by simp)]
    exact hok.copied i hi
  · intro i hi
    change (h.issue .current (.compute (h.currentGroup, h.tensorCountCurrentGroup)) []).seen
      .h2d (.reload i) = true
    rw [OffloadHandler.issue_seen_of_ne _ _ _ _ (by simp)]
    exact hok.returned i hi
  · change (h.hazard || false) = false
    rw [hok.safe]
    rfl

/-- A tensor on the device is taken. -/
theorem tensorPop (hok : HandlerOk address graph live place h) {p : TensorTag × DeviceTensor κ α}
    (hp : p ∈ live) {tensor : DeviceTensor κ α} {writer : DeviceEvent}
    (hstate : stateOf address graph p (place p.1.1) = .tensor tensor writer)
    (hseen : h.seen .current writer = true) :
    ∃ h', h.tensorPop (.tag p.1) = .ok (tensor, h') ∧
      HandlerOk address graph (live.filter fun q => q.1 ≠ p.1) place h' ∧
      h'.currentGroup = h.currentGroup ∧ h'.offloadedGroupCount = h.offloadedGroupCount ∧
      h'.seen = h.seen ∧ h'.tensorTagToBuf = h.tensorTagToBuf.pop p.1 := by
  have hsub : ∀ q ∈ live.filter fun q => q.1 ≠ p.1, q ∈ live := fun q hq =>
    (List.mem_filter.mp hq).1
  simp only [OffloadHandler.tensorPop, hok.get?_of_mem hp, hstate]
  refine ⟨_, rfl, ?_, rfl, rfl, rfl, rfl⟩
  constructor
  · change h.tensorTagToState.entries.filter _ = _
    rw [hok.entries, List.filter_map]
    rfl
  · exact fun q hq => hok.subset q (hsub q hq)
  · exact hok.backups
  · exact fun q hq => hok.computed q (hsub q hq)
  · exact hok.copied
  · exact hok.returned
  · change (h.hazard || !h.seen .current writer) = false
    rw [hok.safe, hseen]
    rfl

/-- A group moves to the host. -/
theorem bulkOffloadGroup (hok : HandlerOk address graph graph place h) {g : Nat}
    (hplace : place g = .device)
    (hseen : ∀ p ∈ graph, p.1.1 = g → h.seen .d2h (.compute p.1) = true) :
    ∃ h', h.bulkOffloadGroup g = .ok h' ∧
      HandlerOk address graph graph (fun i => if i = g then .host else place i) h' ∧
      h'.currentGroup = h.currentGroup ∧
      h'.tensorCountCurrentGroup = h.tensorCountCurrentGroup ∧
      h'.offloadedGroupCount = h.offloadedGroupCount ∧
      h'.tensorTagToBuf = h.tensorTagToBuf ∧
      (∀ a i, i ≠ g → h'.seen a (.offload i) = h.seen a (.offload i)) := by
  have hstates : h.groupStates g = (graph.filter fun p => p.1.1 = g).map fun p =>
      TensorState.tensor p.2 (.compute p.1) := by
    rw [hok.groupStates_eq, hplace]
    rfl
  have htensors : (h.groupStates g).all (fun state => !OffloadHandler.isTuple state) = true := by
    rw [hstates, List.all_map, List.all_eq_true]
    exact fun _ _ => rfl
  have hwriters : OffloadHandler.writers (h.groupStates g) =
      (graph.filter fun p => p.1.1 = g).map fun p => DeviceEvent.compute p.1 := by
    rw [hstates, OffloadHandler.writers, List.filterMap_map, ← List.filterMap_eq_map]
    rfl
  rw [OffloadHandler.bulkOffloadGroup, Py.check_of_true htensors]
  refine ⟨_, rfl, ?_, rfl, rfl, rfl, rfl, fun a i hi => Seen.issue_of_ne (by simp [hi])⟩
  constructor
  · change h.tensorTagToState.entries.map _ = _
    rw [hok.entries, List.map_map]
    refine List.map_congr_left fun p _ => ?_
    change (p.1, _) = (p.1, _)
    by_cases hgroup : p.1.1 = g
    · simp only [hgroup, hplace]
      rfl
    · simp only [if_neg hgroup]
  · exact hok.subset
  · intro i hi
    change ∃ mapping, (h.groupOffloadMapping.set g _).get? i = some mapping ∧ _
    by_cases hgroup : i = g
    · subst hgroup
      rw [Py.Dict.get?_set, if_pos rfl]
      refine ⟨_, rfl, fun p hp hpg => ?_⟩
      have hfind : (graph.filter fun q => q.1.1 = i).find? (fun q => q.2.key = p.2.key) =
          graph.find? fun q => q.1.1 = p.1.1 ∧ q.2.key = p.2.key := by
        rw [List.find?_filter, hpg]
        congr 1
        funext q
        simp
      rw [hstates, get?_foldl_addBackup, hfind, firstLike]
      cases hget : graph.find? fun q => q.1.1 = p.1.1 ∧ q.2.key = p.2.key with
      | some q => rfl
      | none =>
          have := List.find?_eq_none.mp hget p hp
          simp at this
    · rw [Py.Dict.get?_set, if_neg hgroup]
      exact hok.backups i (by rwa [if_neg hgroup] at hi)
  · intro p hp
    change (h.issue .d2h (.offload g) (OffloadHandler.writers (h.groupStates g))).seen
      .current (.compute p.1) = true
    rw [OffloadHandler.issue_seen_of_ne _ _ _ _ (by simp)]
    exact hok.computed p hp
  · intro i hi
    change (h.issue .d2h (.offload g) (OffloadHandler.writers (h.groupStates g))).seen
      .d2h (.offload i) = true
    by_cases hgroup : i = g
    · rw [hgroup, OffloadHandler.issue_seen_self]
    · rw [if_neg hgroup] at hi
      rw [OffloadHandler.issue_seen_of_ne _ _ _ _ (by simp [hgroup])]
      exact hok.copied i hi
  · intro i hi
    change (h.issue .d2h (.offload g) (OffloadHandler.writers (h.groupStates g))).seen
      .h2d (.reload i) = true
    by_cases hgroup : i = g
    · rw [if_pos hgroup] at hi
      cases hi
    · rw [if_neg hgroup] at hi
      rw [OffloadHandler.issue_seen_of_ne _ _ _ _ (by simp)]
      exact hok.returned i hi
  · change (h.hazard || (OffloadHandler.writers (h.groupStates g)).any _) = false
    rw [hok.safe, hwriters, List.any_map, Bool.false_or, List.any_eq_false]
    intro p hp
    obtain ⟨hmem, hgroup⟩ := List.mem_filter.mp hp
    simp [hseen p hmem (of_decide_eq_true hgroup)]

/-- The pairs of a group, and what they are replaced by. -/
theorem recoverState_eq (hok : HandlerOk address graph live place h) {g : Nat}
    (hplace : place g = .host) {mapping : Py.Dict κ (CpuBackup α)}
    (hcopies : ∀ p ∈ graph, p.1.1 = g → mapping.get? p.2.key = some ⟨(firstLike graph p).elems⟩)
    {p : TensorTag × DeviceTensor κ α} (hp : p ∈ live) (hgroup : p.1.1 = g) :
    OffloadHandler.recoverState address mapping g (stateOf address graph p (place p.1.1)) =
      if (firstLike graph p).elems.length = p.2.shape.prod then
        .ok (stateOf address graph p .returned)
      else .error (.runtime "shape is invalid for input") := by
  rw [hgroup, hplace, stateOf, OffloadHandler.recoverState, hcopies p (hok.subset p hp) hgroup,
    stateOf, hgroup]

/-- A group comes back. -/
theorem bulkReloadGroup (hok : HandlerOk address graph live place h) {G g : Nat} (hg : g < G)
    (hplace : place g = .host) (hseen : h.seen .h2d (.offload g) = true)
    (hfit : ∀ p ∈ live, p.1.1 = g → (firstLike graph p).elems.length = p.2.shape.prod) :
    ∃ h', h.bulkReloadGroup address G g = .ok h' ∧
      HandlerOk address graph live (fun i => if i = g then .returned else place i) h' ∧
      h'.currentGroup = h.currentGroup ∧ h'.offloadedGroupCount = h.offloadedGroupCount ∧
      h'.tensorTagToBuf = h.tensorTagToBuf ∧
      (∀ a e, e ≠ .reload g → h'.seen a e = h.seen a e) := by
  obtain ⟨mapping, hmapping, hcopies⟩ := hok.backups g hplace
  have hrecover (p : TensorTag × DeviceTensor κ α) (hp : p ∈ live) (hgroup : p.1.1 = g) :
      OffloadHandler.recoverState address mapping g (stateOf address graph p (place p.1.1)) =
        .ok (stateOf address graph p .returned) := by
    rw [hok.recoverState_eq hplace hcopies hp hgroup, if_pos (hfit p hp hgroup)]
  have hmapM : (h.groupStates g).mapM (OffloadHandler.recoverState address mapping g) =
      .ok ((live.filter fun p => p.1.1 = g).map fun p => stateOf address graph p .returned) := by
    rw [hok.groupStates_eq]
    refine Py.mapM_map_eq_ok fun p hp => ?_
    obtain ⟨hmem, hgroup⟩ := List.mem_filter.mp hp
    have hgroup : p.1.1 = g := of_decide_eq_true hgroup
    rw [← hrecover p hmem hgroup, hgroup]
  simp only [OffloadHandler.bulkReloadGroup, Py.check_of_true hg, hmapping, hmapM]
  refine ⟨_, rfl, ?_, rfl, rfl, rfl, fun a e he =>
    OffloadHandler.issue_seen_of_ne h .h2d a [.offload g] he⟩
  constructor
  · change h.tensorTagToState.entries.map _ = _
    rw [hok.entries, List.map_map]
    refine List.map_congr_left fun p hp => ?_
    change (p.1, _) = (p.1, _)
    by_cases hgroup : p.1.1 = g
    · simp only [if_pos hgroup, hrecover p hp hgroup]
      rfl
    · simp only [if_neg hgroup]
  · exact hok.subset
  · intro i hi
    by_cases hgroup : i = g
    · rw [if_pos hgroup] at hi
      cases hi
    · rw [if_neg hgroup] at hi
      change ∃ mapping, (h.groupOffloadMapping.pop g).get? i = some mapping ∧ _
      rw [Py.Dict.get?_pop, if_neg hgroup]
      exact hok.backups i hi
  · intro p hp
    change (h.issue .h2d (.reload g) [.offload g]).seen .current (.compute p.1) = true
    rw [OffloadHandler.issue_seen_of_ne _ _ _ _ (by simp)]
    exact hok.computed p hp
  · intro i hi
    change (h.issue .h2d (.reload g) [.offload g]).seen .d2h (.offload i) = true
    rw [OffloadHandler.issue_seen_of_ne _ _ _ _ (by simp)]
    by_cases hgroup : i = g
    · rw [if_pos hgroup] at hi
      cases hi
    · rw [if_neg hgroup] at hi
      exact hok.copied i hi
  · intro i hi
    change (h.issue .h2d (.reload g) [.offload g]).seen .h2d (.reload i) = true
    by_cases hgroup : i = g
    · rw [hgroup, OffloadHandler.issue_seen_self]
    · rw [if_neg hgroup] at hi
      rw [OffloadHandler.issue_seen_of_ne _ _ _ _ (by simp [hgroup])]
      exact hok.returned i hi
  · change (h.hazard || [DeviceEvent.offload g].any fun need => !h.seen .h2d need) = false
    simp [hok.safe, hseen]

/-- A group comes back only if every view has as many elements as the copy. -/
theorem length_eq_of_bulkReloadGroup (hok : HandlerOk address graph live place h) {G g : Nat}
    (hplace : place g = .host) {h' : OffloadHandler κ α}
    (hreload : h.bulkReloadGroup address G g = .ok h') :
    ∀ p ∈ live, p.1.1 = g → (firstLike graph p).elems.length = p.2.shape.prod := by
  obtain ⟨mapping, hmapping, hcopies⟩ := hok.backups g hplace
  intro p hp hgroup
  by_contra hne
  obtain ⟨-, -, hreload⟩ := Py.bind_eq_ok.mp hreload
  rw [hmapping] at hreload
  obtain ⟨states, hstates, -⟩ := Py.bind_eq_ok.mp hreload
  rw [hok.groupStates_eq] at hstates
  have hmem : p ∈ live.filter fun p => p.1.1 = g := List.mem_filter.mpr ⟨hp, decide_eq_true hgroup⟩
  obtain ⟨i, hi⟩ := List.mem_iff_getElem?.mp hmem
  obtain ⟨state, hstate, -⟩ := Py.getElem?_of_mapM_eq_ok hstates (by rw [List.getElem?_map, hi]; rfl)
  have herror := hok.recoverState_eq hplace hcopies hp hgroup
  rw [if_neg hne, hgroup, hstate] at herror
  cases herror

/-- That is the only way in which it fails. -/
theorem bulkReloadGroup_eq_error (hok : HandlerOk address graph live place h) {G g : Nat}
    (hg : g < G) (hplace : place g = .host) {error : Py.Error}
    (hreload : h.bulkReloadGroup address G g = .error error) :
    error = .runtime "shape is invalid for input" := by
  obtain ⟨mapping, hmapping, hcopies⟩ := hok.backups g hplace
  simp only [OffloadHandler.bulkReloadGroup, Py.check_of_true hg, Py.ok_bind, hmapping] at hreload
  cases hstates : (h.groupStates g).mapM (OffloadHandler.recoverState address mapping g) with
  | ok states =>
      rw [hstates] at hreload
      cases hreload
  | error error' =>
      rw [hstates] at hreload
      cases hreload
      rw [hok.groupStates_eq, List.mapM_map] at hstates
      obtain ⟨p, hp, hfail⟩ := exists_of_mapM_eq_error hstates
      obtain ⟨hmem, hgroup⟩ := List.mem_filter.mp hp
      have hgroup : p.1.1 = g := of_decide_eq_true hgroup
      have hrecover := hok.recoverState_eq hplace hcopies hmem hgroup
      rw [hgroup] at hrecover
      rw [Function.comp_apply, hrecover] at hfail
      split at hfail
      · cases hfail
      · exact (Except.error.inj hfail).symm

end HandlerOk

end Verl
