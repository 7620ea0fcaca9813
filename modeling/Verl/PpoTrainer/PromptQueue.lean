import Verl.ReplayBuffer.Sample

/-!
# Prompts and trajectories in TransferQueue

The trainer registers prompts, the rollout puts trajectories, and both are
cleared by their keys.  `QueueOk` says which prompts are registered and where
every trajectory comes from, and each access to TransferQueue has one rule.
-/

namespace Verl

variable {T : Type}

/-! ## Uids -/

/-- The characters of `str(uuid.uuid4())`. -/
def IsUuid (uid : String) : Prop := ∀ c ∈ uid.toList, c ∈ "0123456789abcdef-".toList

instance (uid : String) : Decidable (IsUuid uid) := List.decidableBAll _ uid.toList

theorem IsUuid.isUid {uid : String} (h : IsUuid uid) : IsUid uid :=
  fun hmem => absurd (h _ hmem) (by decide)

/-- The uid of padding is no uid of a prompt. -/
theorem not_isUuid_pad (hex : String) : ¬ IsUuid ("pad" ++ hex) := by
  intro h
  have hmem : 'p' ∈ ("pad" ++ hex).toList := by
    rw [String.toList_append]
    exact List.mem_append_left _ (by decide)
  exact absurd (h _ hmem) (by decide)

theorem isUid_pad {hex : String} (h : IsUuid hex) : IsUid ("pad" ++ hex) := by
  rw [IsUid, String.toList_append, List.mem_append]
  rintro (hmem | hmem)
  · exact absurd hmem (by decide)
  · exact h.isUid hmem

/-! ## Puts -/

namespace TransferQueue

/-- `tq.kv_batch_put` of one tag for all keys of `train`. -/
def putPrompts (store : TransferQueue T) (uids : List String) (tag : Tag T) : TransferQueue T :=
  uids.foldl (fun store uid => store.kvPut "train" uid tag) store

/-- `tq.kv_batch_put` of trajectories of `train`. -/
def putTrajectories (store : TransferQueue T) (entries : List (String × T)) : TransferQueue T :=
  entries.foldl (fun store entry => store.kvPut "train" entry.1 (.trajectory entry.2)) store

theorem get?_putPrompts (store : TransferQueue T) (uids : List String) (tag : Tag T)
    (key : String) :
    (store.putPrompts uids tag).get? "train" key =
      if key ∈ uids then some tag else store.get? "train" key := by
  induction uids generalizing store with
  | nil => exact (if_neg List.not_mem_nil).symm
  | cons uid uids ih =>
      show ((store.kvPut "train" uid tag).putPrompts uids tag).get? "train" key = _
      have hput : (store.kvPut "train" uid tag).get? "train" key =
          if key = uid then some tag else store.get? "train" key := by
        rw [get?_kvPut]
        simp only [true_and]
      rw [ih, hput]
      by_cases hkey : key = uid
      · rw [if_pos hkey, ite_self, if_pos (hkey ▸ List.mem_cons_self)]
      · have hiff : key ∈ uid :: uids ↔ key ∈ uids := by
          rw [List.mem_cons]
          exact or_iff_right hkey
        rw [if_neg hkey]
        simp only [hiff]

theorem get?_putTrajectories_of_not_mem {entries : List (String × T)} {key : String}
    (h : key ∉ entries.map Prod.fst) (store : TransferQueue T) :
    (store.putTrajectories entries).get? "train" key = store.get? "train" key := by
  induction entries generalizing store with
  | nil => rfl
  | cons entry entries ih =>
      rw [List.map_cons, List.mem_cons, not_or] at h
      show ((store.kvPut "train" entry.1 _).putTrajectories entries).get? "train" key = _
      rw [ih h.2, get?_kvPut, if_neg fun hand => h.1 hand.2]

theorem get?_putTrajectories {entries : List (String × T)} {key : String} {tag : T}
    (hnodup : (entries.map Prod.fst).Nodup) (hmem : (key, tag) ∈ entries)
    (store : TransferQueue T) :
    (store.putTrajectories entries).get? "train" key = some (.trajectory tag) := by
  induction entries generalizing store with
  | nil => cases hmem
  | cons entry entries ih =>
      rw [List.map_cons, List.nodup_cons] at hnodup
      show ((store.kvPut "train" entry.1 _).putTrajectories entries).get? "train" key = _
      rcases List.mem_cons.mp hmem with rfl | hmem
      · rw [get?_putTrajectories_of_not_mem hnodup.1, get?_kvPut, if_pos ⟨rfl, rfl⟩]
      · exact ih hnodup.2 hmem _

/-- What is stored under a key after trajectories were put. -/
theorem get?_putTrajectories_cases {entries : List (String × T)}
    (hnodup : (entries.map Prod.fst).Nodup) (store : TransferQueue T) (key : String) :
    (∃ tag, (key, tag) ∈ entries ∧
        (store.putTrajectories entries).get? "train" key = some (.trajectory tag)) ∨
      key ∉ entries.map Prod.fst ∧
        (store.putTrajectories entries).get? "train" key = store.get? "train" key := by
  by_cases hkey : key ∈ entries.map Prod.fst
  · obtain ⟨⟨_, tag⟩, hmem, rfl⟩ := List.mem_map.mp hkey
    exact .inl ⟨tag, hmem, get?_putTrajectories hnodup hmem store⟩
  · exact .inr ⟨hkey, get?_putTrajectories_of_not_mem hkey store⟩

/-- `tq.kv_clear` of keys of `train`. -/
theorem get?_kvClear_train (store : TransferQueue T) (keys : List String) (key : String) :
    (store.kvClear "train" keys).get? "train" key =
      if key ∈ keys then none else store.get? "train" key := by
  rw [get?_kvClear]
  simp only [true_and]

end TransferQueue

/-! ## What TransferQueue holds -/

/-- The prompts that are `live` are registered.  Every trajectory is left over, or
was written for a registered prompt, and those are all there. -/
structure QueueOk (store : TransferQueue T) (live : String → Prop) (leftover : List String)
    (written : List (String × T)) : Prop where
  prompts : ∀ uid, (∃ status g, store.get? "train" uid = some (.prompt status g)) ↔ live uid
  keys : ∀ key tag, store.get? "train" key = some (.trajectory tag) → ¬ IsUid key
  trajectories : ∀ key tag, store.get? "train" key = some (.trajectory tag) →
    key ∈ leftover ∨ (key, tag) ∈ written ∧ live (uidOfKey key)
  complete : ∀ key tag, (key, tag) ∈ written → live (uidOfKey key) →
    store.get? "train" key = some (.trajectory tag)
  leftover : ∀ key ∈ leftover, ∃ tag, store.get? "train" key = some (.trajectory tag)

namespace QueueOk

variable {store : TransferQueue T} {live live' : String → Prop} {leftover leftover' : List String}
  {written written' : List (String × T)}

theorem empty : QueueOk (∅ : TransferQueue T) (fun _ => False) [] [] where
  prompts := fun _ => iff_of_false (fun ⟨_, _, h⟩ => nomatch h) id
  keys := fun _ _ h => nomatch h
  trajectories := fun _ _ h => nomatch h
  complete := fun _ _ h => nomatch h
  leftover := fun _ h => nomatch h

/-- A trajectory is no prompt. -/
theorem not_live (h : QueueOk store live leftover written) {key : String} {tag : T}
    (hget : store.get? "train" key = some (.trajectory tag)) : ¬ live key := by
  intro hlive
  obtain ⟨status, g, hprompt⟩ := (h.prompts key).mpr hlive
  rw [hget] at hprompt
  cases hprompt

/-- Prompts are registered, or have a new status. -/
theorem putPrompts (h : QueueOk store live leftover written) {uids : List String}
    {status : PromptStatus} {g : Int} (huids : ∀ uid ∈ uids, IsUid uid)
    (hlive : ∀ uid, live' uid ↔ uid ∈ uids ∨ live uid)
    (hwritten : ∀ key tag, (key, tag) ∈ written → live' (uidOfKey key) → live (uidOfKey key)) :
    QueueOk (store.putPrompts uids (.prompt status g)) live' leftover written := by
  have htrajectory (key : String) (tag : T) :
      (store.putPrompts uids (.prompt status g)).get? "train" key = some (.trajectory tag) ↔
        store.get? "train" key = some (.trajectory tag) := by
    rw [TransferQueue.get?_putPrompts]
    split
    next hmem => exact iff_of_false nofun fun hget => h.keys key tag hget (huids key hmem)
    · rfl
  refine ⟨?_, ?_, ?_, ?_, ?_⟩
  · intro uid
    rw [hlive, ← h.prompts, TransferQueue.get?_putPrompts]
    split
    next hmem => exact iff_of_true ⟨status, g, rfl⟩ (.inl hmem)
    next hmem => exact (or_iff_right hmem).symm
  · intro key tag hget
    exact h.keys key tag ((htrajectory key tag).mp hget)
  · intro key tag hget
    refine (h.trajectories key tag ((htrajectory key tag).mp hget)).imp_right ?_
    exact fun ⟨hmem, hkey⟩ => ⟨hmem, (hlive _).mpr (.inr hkey)⟩
  · intro key tag hmem hkey
    exact (htrajectory key tag).mpr (h.complete key tag hmem (hwritten key tag hmem hkey))
  · intro key hkey
    obtain ⟨tag, hget⟩ := h.leftover key hkey
    exact ⟨tag, (htrajectory key tag).mpr hget⟩

/-- New trajectories are written for registered prompts or are left over. -/
theorem putTrajectories (h : QueueOk store live leftover written) {entries : List (String × T)}
    (hkeys : ∀ entry ∈ entries, ¬ IsUid entry.1 ∧ ¬ live entry.1)
    (hnodup : (entries.map Prod.fst).Nodup)
    (hnew : ∀ key ∈ entries.map Prod.fst, key ∉ written.map Prod.fst)
    (hwritten : ∀ entry ∈ written', entry ∈ written ∨ entry ∈ entries)
    (hgrows : ∀ entry ∈ written, entry ∈ written')
    (hleftover : ∀ key ∈ leftover', key ∈ leftover ∨ key ∈ entries.map Prod.fst)
    (hstays : ∀ key ∈ leftover, key ∈ leftover')
    (hcover : ∀ entry ∈ entries,
      entry.1 ∈ leftover' ∨ entry ∈ written' ∧ live (uidOfKey entry.1)) :
    QueueOk (store.putTrajectories entries) live leftover' written' := by
  have hcases := TransferQueue.get?_putTrajectories_cases hnodup store
  refine ⟨?_, ?_, ?_, ?_, ?_⟩
  · intro uid
    rw [← h.prompts]
    rcases hcases uid with ⟨tag, hmem, hget⟩ | ⟨_, hget⟩
    · rw [hget]
      refine iff_of_false (fun ⟨_, _, heq⟩ => nomatch heq) fun hprompt => ?_
      exact (hkeys _ hmem).2 ((h.prompts uid).mp hprompt)
    · rw [hget]
  · intro key tag hget
    rcases hcases key with ⟨_, hmem, _⟩ | ⟨_, hsame⟩
    · exact (hkeys _ hmem).1
    · exact h.keys key tag (hsame.symm.trans hget)
  · intro key tag hget
    rcases hcases key with ⟨tag', hmem, hput⟩ | ⟨_, hsame⟩
    · rw [hput, Option.some.injEq, Tag.trajectory.injEq] at hget
      exact hget ▸ hcover _ hmem
    · exact (h.trajectories key tag (hsame.symm.trans hget)).imp (hstays key)
        fun ⟨hmem, hlive⟩ => ⟨hgrows _ hmem, hlive⟩
  · intro key tag hmem hlive
    rcases hwritten _ hmem with hold | hentry
    · have hkey : key ∉ entries.map Prod.fst :=
        fun hin => hnew key hin (List.mem_map_of_mem hold)
      rw [TransferQueue.get?_putTrajectories_of_not_mem hkey]
      exact h.complete key tag hold hlive
    · exact TransferQueue.get?_putTrajectories hnodup hentry store
  · intro key hkey
    rcases hcases key with ⟨tag, _, hput⟩ | ⟨hout, hsame⟩
    · exact ⟨tag, hput⟩
    · rw [hsame]
      exact h.leftover key ((hleftover key hkey).resolve_right hout)

/-- Keys are cleared. -/
theorem clear (h : QueueOk store live leftover written) {keys : List String}
    (hlive : ∀ uid, live' uid ↔ live uid ∧ uid ∉ keys)
    (hwritten : ∀ key tag, (key, tag) ∈ written' → live' (uidOfKey key) →
      (key, tag) ∈ written ∧ key ∉ keys)
    (hcover : ∀ key tag, store.get? "train" key = some (.trajectory tag) → key ∉ keys →
      key ∈ leftover' ∨ (key, tag) ∈ written' ∧ live' (uidOfKey key))
    (hleftover : ∀ key ∈ leftover', key ∉ keys ∧
      ∃ tag, store.get? "train" key = some (.trajectory tag)) :
    QueueOk (store.kvClear "train" keys) live' leftover' written' := by
  refine ⟨?_, ?_, ?_, ?_, ?_⟩
  · intro uid
    rw [hlive, ← h.prompts, TransferQueue.get?_kvClear_train]
    split
    next hmem => exact iff_of_false (fun ⟨_, _, heq⟩ => nomatch heq) fun hand => hand.2 hmem
    next hmem => exact (and_iff_left hmem).symm
  · intro key tag hget
    rw [TransferQueue.get?_kvClear_train] at hget
    split at hget
    · cases hget
    · exact h.keys key tag hget
  · intro key tag hget
    rw [TransferQueue.get?_kvClear_train] at hget
    split at hget
    · cases hget
    next hkey => exact hcover key tag hget hkey
  · intro key tag hmem hkey
    obtain ⟨hold, hout⟩ := hwritten key tag hmem hkey
    rw [TransferQueue.get?_kvClear_train, if_neg hout]
    exact h.complete key tag hold ((hlive _).mp hkey).1
  · intro key hkey
    obtain ⟨hout, tag, hget⟩ := hleftover key hkey
    exact ⟨tag, by rw [TransferQueue.get?_kvClear_train, if_neg hout, hget]⟩

end QueueOk

end Verl
