import Mathlib.Data.List.AList
import Mathlib.Data.List.TakeWhile
import Verl.Lib.Python

/-!
# TransferQueue

TransferQueue is a keyed map from a partition and a key to a tag.  The rollout
puts a prompt under its uid and every trajectory of the prompt under
`{uid}_{session_id}_{index}`.  `kv_clear` removes the keys it is given and does
not cascade from a prompt to its trajectories.

The consumer finds the prompt of a trajectory by the part of the key before the
first underscore, so a uid has none.
-/

namespace Verl

/-! ## Keys -/

/-- `f"{uid}_{session_id}_{index}"`. -/
def trajectoryKey (uid : String) (sessionId index : Nat) : String :=
  uid ++ "_" ++ toString sessionId ++ "_" ++ toString index

/-- `key.split("_")[0]`. -/
def uidOfKey (key : String) : String :=
  String.ofList (key.toList.takeWhile (· ≠ '_'))

/-- A uid has no underscore. -/
def IsUid (uid : String) : Prop := '_' ∉ uid.toList

instance (uid : String) : Decidable (IsUid uid) := inferInstanceAs (Decidable (_ ∉ _))

theorem takeWhile_toList_of_isUid {uid : String} (h : IsUid uid) :
    ∀ c ∈ uid.toList, decide (c ≠ '_') = true := by
  intro c hc
  rw [decide_eq_true_eq]
  rintro rfl
  exact h hc

/-- The uid of a prompt key. -/
theorem uidOfKey_of_isUid {uid : String} (h : IsUid uid) : uidOfKey uid = uid := by
  rw [uidOfKey, List.takeWhile_eq_self_iff.mpr (takeWhile_toList_of_isUid h), String.ofList_toList]

/-- The uid of a trajectory key. -/
theorem uidOfKey_trajectoryKey {uid : String} (h : IsUid uid) (sessionId index : Nat) :
    uidOfKey (trajectoryKey uid sessionId index) = uid := by
  have hunderscore : "_".toList = ['_'] := rfl
  rw [uidOfKey, trajectoryKey]
  simp only [String.toList_append, List.append_assoc, hunderscore, List.cons_append]
  rw [List.takeWhile_append_of_pos (takeWhile_toList_of_isUid h), List.takeWhile_cons_of_neg,
    List.append_nil, String.ofList_toList]
  rw [decide_eq_true_eq]
  exact not_not_intro rfl

/-- No trajectory key is a prompt key. -/
theorem not_isUid_trajectoryKey (uid : String) (sessionId index : Nat) :
    ¬ IsUid (trajectoryKey uid sessionId index) := by
  have hunderscore : "_".toList = ['_'] := rfl
  rw [IsUid, not_not, trajectoryKey]
  simp only [String.toList_append, List.mem_append, hunderscore, List.mem_singleton, true_or,
    or_true]

/-- Sessions have different keys. -/
theorem sessionId_inj {uid : String} {i j index : Nat}
    (h : trajectoryKey uid i index = trajectoryKey uid j index) : i = j := by
  have hlist := congrArg String.toList h
  simp only [trajectoryKey, String.toList_append, List.append_assoc] at hlist
  rw [List.append_cancel_left_eq, List.append_cancel_left_eq, List.append_cancel_right_eq] at hlist
  exact Py.toString_nat_inj hlist

/-- The outputs of a session have different keys. -/
theorem index_inj {uid : String} {sessionId i j : Nat}
    (h : trajectoryKey uid sessionId i = trajectoryKey uid sessionId j) : i = j := by
  have hlist := congrArg String.toList h
  simp only [trajectoryKey, String.toList_append] at hlist
  rw [List.append_cancel_left_eq] at hlist
  exact Py.toString_nat_inj hlist

/-! ## Tags -/

/-- The `status` tag of a prompt. -/
inductive PromptStatus where
  | pending
  | running
  | finished
  | failure
deriving DecidableEq

/-- All sessions of the prompt are over. -/
def PromptStatus.IsTerminal (status : PromptStatus) : Prop := status = .finished ∨ status = .failure

instance (status : PromptStatus) : Decidable status.IsTerminal :=
  inferInstanceAs (Decidable (_ ∨ _))

/-- The tag of a key: a prompt (`is_prompt`) has a status and the version it was
submitted at, a trajectory has metadata of type `T`. -/
inductive Tag (T : Type) where
  | prompt (status : PromptStatus) (globalSteps : Int)
  | trajectory (tag : T)
deriving DecidableEq

/-! ## The keyed map -/

/-- The content of TransferQueue. -/
abbrev TransferQueue (T : Type) := AList fun _ : String × String => Tag T

namespace TransferQueue

variable {T : Type}

/-- `tq.kv_put`. -/
def kvPut (store : TransferQueue T) (partitionId key : String) (tag : Tag T) : TransferQueue T :=
  store.insert (partitionId, key) tag

/-- `tq.kv_clear`. -/
def kvClear (store : TransferQueue T) (partitionId : String) (keys : List String) :
    TransferQueue T :=
  keys.foldl (fun store key => store.erase (partitionId, key)) store

/-- `tq.kv_list()[partition_id]`. -/
def kvList (store : TransferQueue T) (partitionId : String) : List (String × Tag T) :=
  store.entries.filterMap fun entry =>
    if entry.1.1 = partitionId then some (entry.1.2, entry.2) else none

/-- The tag of a key. -/
def get? (store : TransferQueue T) (partitionId key : String) : Option (Tag T) :=
  store.lookup (partitionId, key)

theorem get?_kvPut (store : TransferQueue T) (partitionId key p k : String) (tag : Tag T) :
    (store.kvPut partitionId key tag).get? p k =
      if p = partitionId ∧ k = key then some tag else store.get? p k := by
  rw [get?, kvPut]
  split
  next h =>
    obtain ⟨rfl, rfl⟩ := h
    exact AList.lookup_insert store
  next h =>
    refine AList.lookup_insert_ne fun heq => h ?_
    exact Prod.mk.inj heq

theorem get?_kvClear (store : TransferQueue T) (partitionId : String) (keys : List String)
    (p k : String) :
    (store.kvClear partitionId keys).get? p k =
      if p = partitionId ∧ k ∈ keys then none else store.get? p k := by
  induction keys generalizing store with
  | nil => exact (if_neg fun h => nomatch h.2).symm
  | cons key keys ih =>
      show (kvClear (store.erase (partitionId, key)) partitionId keys).get? p k = _
      rw [ih, get?, get?]
      by_cases hhead : p = partitionId ∧ k = key
      · obtain ⟨rfl, rfl⟩ := hhead
        rw [AList.lookup_erase, ite_self, if_pos ⟨rfl, List.mem_cons_self⟩]
      · have hne : (p, k) ≠ (partitionId, key) := fun heq => hhead (Prod.mk.inj heq)
        have hiff : p = partitionId ∧ k ∈ key :: keys ↔ p = partitionId ∧ k ∈ keys := by
          rw [List.mem_cons]
          exact and_congr_right fun hp => or_iff_right fun hk => hhead ⟨hp, hk⟩
        rw [AList.lookup_erase_ne hne]
        simp only [hiff]

theorem mem_kvList {store : TransferQueue T} {partitionId key : String} {tag : Tag T} :
    (key, tag) ∈ store.kvList partitionId ↔ store.get? partitionId key = some tag := by
  rw [get?, ← Option.mem_def, AList.mem_lookup_iff, kvList, List.mem_filterMap]
  constructor
  · rintro ⟨⟨⟨p, k⟩, t⟩, hentry, heq⟩
    split at heq
    next hp =>
      obtain ⟨rfl, rfl⟩ := Prod.mk.inj (Option.some.inj heq)
      exact hp ▸ hentry
    next => cases heq
  · intro hentry
    exact ⟨_, hentry, if_pos rfl⟩

/-- A partition lists every key once. -/
theorem nodup_kvList (store : TransferQueue T) (partitionId : String) :
    ((store.kvList partitionId).map Prod.fst).Nodup := by
  have hkeys : (store.kvList partitionId).map Prod.fst =
      store.keys.filterMap fun pk => if pk.1 = partitionId then some pk.2 else none := by
    rw [kvList, AList.keys, List.keys, List.filterMap_map, List.map_filterMap]
    refine List.filterMap_congr fun entry _ => ?_
    rw [Function.comp_apply]
    split <;> rfl
  rw [hkeys]
  refine store.keys_nodup.filterMap ?_
  rintro ⟨p, k⟩ ⟨p', k'⟩ key hk hk'
  rw [Option.mem_def] at hk hk'
  split at hk
  next hp =>
    split at hk'
    next hp' =>
      obtain rfl := Option.some.inj hk
      obtain rfl := Option.some.inj hk'
      exact Prod.ext (Eq.trans hp (Eq.symm hp')) rfl
    next => cases hk'
  next => cases hk

end TransferQueue

end Verl
