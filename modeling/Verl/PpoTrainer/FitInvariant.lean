import Verl.Lib.Run
import Verl.PpoTrainer.FitLoop

/-!
# The invariant of the fit loop

Every prompt of the stream is registered until it is taken, and it is taken once.
A trajectory is in TransferQueue as long as its prompt is registered.  After
that it is one that the trainer holds, or it is stray.  A task puts no status
once its prompt is over, so what a poll has found stays true until it is cleared.
-/

namespace Verl

variable {T : Type}

/-! ## The invariant -/

/-- The invariant of the loop, in terms of the parts of the state. -/
structure LoopOk (store : TransferQueue T) (dataloader : Nat) (taken taking held : List String)
    (tasks : String → Option PromptStatus) (dispatched handedOut : List String)
    (written : List (String × T)) (stray : List String) : Prop where
  length : handedOut.length = dataloader
  uuids : ∀ uid ∈ handedOut, IsUuid uid
  handedOut_nodup : handedOut.Nodup
  taken_nodup : taken.Nodup
  taken_mem : ∀ uid ∈ taken, uid ∈ handedOut
  queue : QueueOk store (fun uid => uid ∈ handedOut ∧ uid ∉ taken) (held ++ stray) written
  written_key : ∀ entry ∈ written, ¬ IsUid entry.1 ∧ uidOfKey entry.1 ∈ handedOut
  held_key : ∀ key ∈ held, key ∉ stray ∧ (¬ IsUuid (uidOfKey key) ∨
    uidOfKey key ∈ taken ∧ key ∈ written.map Prod.fst)
  stray_key : ∀ key ∈ stray, ¬ IsUuid (uidOfKey key) ∨ uidOfKey key ∈ taken ++ taking
  known : ∀ uid status, tasks uid = some status → uid ∈ handedOut ∧
    (uid ∈ taken ++ taking → status.IsTerminal) ∧
    ∀ status' g, store.get? "train" uid = some (.prompt status' g) → status' = status
  dispatched_nodup : dispatched.Nodup
  dispatched_iff : ∀ uid, uid ∈ dispatched ↔ tasks uid ≠ none

/-- What `sample` knows between a poll and the clear: the prompts are over, and
`keys` are their trajectories but for stray ones. -/
structure TakingOk (store : TransferQueue T) (written : List (String × T)) (stray : List String)
    (uids keys : List String) : Prop where
  nodup : uids.Nodup
  terminal : ∀ uid ∈ uids, ∃ g, store.HasTerminal "train" uid g
  mem : ∀ key ∈ keys, uidOfKey key ∈ uids ∧ key ∈ written.map Prod.fst ∧ key ∉ stray ∧
    ∃ tag, store.get? "train" key = some (.trajectory tag)
  cover : ∀ key tag, store.get? "train" key = some (.trajectory tag) → uidOfKey key ∈ uids →
    key ∈ keys ∨ key ∈ stray

namespace LoopOk

variable {store : TransferQueue T} {dataloader : Nat} {taken taking held : List String}
  {tasks : String → Option PromptStatus} {dispatched handedOut : List String}
  {written : List (String × T)} {stray : List String} {uids keys : List String}

/-- A prompt with a task that is not over is registered, and nobody takes it. -/
theorem live_of_task (h : LoopOk store dataloader taken taking held tasks dispatched handedOut
    written stray) {uid : String} {status : PromptStatus} (htask : tasks uid = some status)
    (hopen : ¬ status.IsTerminal) : uid ∈ handedOut ∧ uid ∉ taken ∧ uid ∉ taking := by
  obtain ⟨hmem, hover, _⟩ := h.known uid status htask
  refine ⟨hmem, fun htaken => ?_, fun htaking => ?_⟩
  · exact hopen (hover (List.mem_append_left _ htaken))
  · exact hopen (hover (List.mem_append_right _ htaking))

/-- The prompts that are being taken are registered. -/
theorem live_of_taking (h : LoopOk store dataloader taken taking held tasks dispatched handedOut
    written stray) (ht : TakingOk store written stray uids keys) {uid : String}
    (hmem : uid ∈ uids) : uid ∈ handedOut ∧ uid ∉ taken := by
  obtain ⟨g, status, hget, _⟩ := ht.terminal uid hmem
  exact (h.queue.prompts uid).mp ⟨status, g, hget⟩

/-! ## The rollout -/

/-- A task puts a status. -/
theorem putStatus (h : LoopOk store dataloader taken taking held tasks dispatched handedOut
    written stray) {uid : String} {old : PromptStatus} (htask : tasks uid = some old)
    (hopen : ¬ old.IsTerminal) (status : PromptStatus) (g : Int) :
    LoopOk (store.putPrompts [uid] (.prompt status g)) dataloader taken taking held
      (fun uid' => if uid' = uid then some status else tasks uid') dispatched handedOut
      written stray := by
  obtain ⟨hmem, htaken, htaking⟩ := h.live_of_task htask hopen
  refine ⟨h.length, h.uuids, h.handedOut_nodup, h.taken_nodup, h.taken_mem, ?_, h.written_key,
    h.held_key, h.stray_key, ?_, h.dispatched_nodup, ?_⟩
  · refine h.queue.putPrompts ?_ ?_ fun _ _ _ hlive => hlive
    · intro uid' huid'
      rw [List.mem_singleton.mp huid']
      exact (h.uuids uid hmem).isUid
    · intro uid'
      refine ⟨.inr, ?_⟩
      rintro (huid' | hlive)
      · rw [List.mem_singleton.mp huid']
        exact ⟨hmem, htaken⟩
      · exact hlive
  · intro uid' status' htask'
    split at htask'
    next heq =>
      obtain rfl := Option.some.inj htask'
      rw [heq]
      refine ⟨hmem, ?_, ?_⟩
      · rw [List.mem_append]
        exact fun hor => absurd hor (not_or.mpr ⟨htaken, htaking⟩)
      · intro st g' hget
        rw [TransferQueue.get?_putPrompts, if_pos (List.mem_singleton.mpr rfl), Option.some.injEq,
          Tag.prompt.injEq] at hget
        exact hget.1.symm
    next hne =>
      obtain ⟨hmem', hover, hagree⟩ := h.known uid' status' htask'
      refine ⟨hmem', hover, fun st g' hget => hagree st g' ?_⟩
      rwa [TransferQueue.get?_putPrompts, if_neg fun hin => hne (List.mem_singleton.mp hin)] at hget
  · intro uid'
    rw [h.dispatched_iff]
    split
    next heq =>
      rw [heq, htask]
      exact iff_of_true (Option.some_ne_none _) (Option.some_ne_none _)
    · rfl

/-- A status of another prompt does not matter to `sample`. -/
theorem takingOk_putStatus (h : LoopOk store dataloader taken taking held tasks dispatched
    handedOut written stray) (ht : TakingOk store written stray uids keys) {uid : String}
    (hmem : uid ∈ handedOut) (huid : uid ∉ uids) (status : PromptStatus) (g : Int) :
    TakingOk (store.putPrompts [uid] (.prompt status g)) written stray uids keys := by
  have hisUid := (h.uuids uid hmem).isUid
  have htrajectory (key : String) (tag : T) :
      (store.putPrompts [uid] (.prompt status g)).get? "train" key = some (.trajectory tag) ↔
        store.get? "train" key = some (.trajectory tag) := by
    rw [TransferQueue.get?_putPrompts]
    split
    next hkey =>
      rw [List.mem_singleton.mp hkey]
      exact iff_of_false nofun fun hget => h.queue.keys uid tag hget hisUid
    · rfl
  refine ⟨ht.nodup, ?_, ?_, ?_⟩
  · intro uid' huid'
    obtain ⟨g', status', hget, hterminal⟩ := ht.terminal uid' huid'
    refine ⟨g', status', ?_, hterminal⟩
    rw [TransferQueue.get?_putPrompts, if_neg, hget]
    intro hin
    rw [List.mem_singleton.mp hin] at huid'
    exact huid huid'
  · intro key hkey
    obtain ⟨huid', hwritten, hstray, tag, hget⟩ := ht.mem key hkey
    exact ⟨huid', hwritten, hstray, tag, (htrajectory key tag).mpr hget⟩
  · intro key tag hget
    exact ht.cover key tag ((htrajectory key tag).mp hget)

/-- Numbered keys are distinct. -/
theorem nodup_map_fst_mapIdx {f : Nat → String} (hf : Function.Injective f) (tags : List T) :
    ((tags.mapIdx fun i tag => (f i, tag)).map Prod.fst).Nodup := by
  have hkeys : (tags.mapIdx fun i tag => (f i, tag)).map Prod.fst =
      (List.range tags.length).map f := by
    refine List.ext_getElem ?_ fun i hi hi' => ?_
    · rw [List.length_map, List.length_mapIdx, List.length_map, List.length_range]
    · rw [List.getElem_map, List.getElem_mapIdx, List.getElem_map, List.getElem_range]
  rw [hkeys]
  exact List.nodup_range.map hf

/-- The keys of a session are new trajectory keys of its prompt. -/
theorem sessionOf_key {uid : String} (huid : IsUid uid) (sessionId : Nat) (tags : List T) :
    ((FitState.sessionOf uid sessionId tags).map Prod.fst).Nodup ∧
      ∀ entry ∈ FitState.sessionOf uid sessionId tags,
        ¬ IsUid entry.1 ∧ uidOfKey entry.1 = uid := by
  constructor
  · exact nodup_map_fst_mapIdx (fun _ _ => index_inj) tags
  · intro entry hentry
    obtain ⟨index, tag, rfl⟩ := List.mem_mapIdx.mp hentry
    exact ⟨not_isUid_trajectoryKey uid sessionId index, uidOfKey_trajectoryKey huid sessionId index⟩

section Write

variable {uid : String} {entries : List (String × T)}

/-- A session puts its trajectories. -/
theorem write (h : LoopOk store dataloader taken taking held tasks dispatched handedOut
    written stray) (hmem : uid ∈ handedOut) (hnodup : (entries.map Prod.fst).Nodup)
    (hentries : ∀ entry ∈ entries, ¬ IsUid entry.1 ∧ uidOfKey entry.1 = uid)
    (hnew : ∀ key ∈ entries.map Prod.fst, key ∉ written.map Prod.fst) :
    LoopOk (store.putTrajectories entries) dataloader taken taking held tasks dispatched handedOut
      (written ++ entries)
      (if uid ∈ taken ++ taking then stray ++ entries.map Prod.fst else stray) := by
  have huuid := h.uuids uid hmem
  have hkey (key : String) (hin : key ∈ entries.map Prod.fst) :
      ¬ IsUid key ∧ uidOfKey key = uid := by
    obtain ⟨entry, hentry, rfl⟩ := List.mem_map.mp hin
    exact hentries entry hentry
  have hstray (key : String)
      (hin : key ∈ if uid ∈ taken ++ taking then stray ++ entries.map Prod.fst else stray) :
      key ∈ stray ∨ key ∈ entries.map Prod.fst ∧ uid ∈ taken ++ taking := by
    split at hin
    next htaken => exact (List.mem_append.mp hin).imp_right fun hnew => ⟨hnew, htaken⟩
    · exact .inl hin
  have hstays (key : String) (hin : key ∈ stray) :
      key ∈ if uid ∈ taken ++ taking then stray ++ entries.map Prod.fst else stray := by
    split
    · exact List.mem_append_left _ hin
    · exact hin
  refine ⟨h.length, h.uuids, h.handedOut_nodup, h.taken_nodup, h.taken_mem, ?_, ?_, ?_, ?_, ?_,
    h.dispatched_nodup, h.dispatched_iff⟩
  · refine h.queue.putTrajectories ?_ hnodup hnew ?_ ?_ ?_ ?_ ?_
    · intro entry hentry
      refine ⟨(hentries entry hentry).1, fun hlive => ?_⟩
      exact (hentries entry hentry).1 (h.uuids _ hlive.1).isUid
    · exact fun entry hentry => List.mem_append.mp hentry
    · exact fun entry hentry => List.mem_append_left _ hentry
    · intro key hin
      rcases List.mem_append.mp hin with hheld | hin
      · exact .inl (List.mem_append_left _ hheld)
      · exact (hstray key hin).imp (List.mem_append_right _) And.left
    · intro key hin
      rcases List.mem_append.mp hin with hheld | hin
      · exact List.mem_append_left _ hheld
      · exact List.mem_append_right _ (hstays key hin)
    · intro entry hentry
      by_cases htaken : uid ∈ taken ++ taking
      · rw [if_pos htaken]
        exact .inl (List.mem_append_right _ (List.mem_append_right _ (List.mem_map_of_mem hentry)))
      · refine .inr ⟨List.mem_append_right _ hentry, ?_⟩
        rw [(hentries entry hentry).2]
        exact ⟨hmem, fun hin => htaken (List.mem_append_left _ hin)⟩
  · intro entry hentry
    rcases List.mem_append.mp hentry with hold | hentry
    · exact h.written_key entry hold
    · rw [(hentries entry hentry).2]
      exact ⟨(hentries entry hentry).1, hmem⟩
  · intro key hheld
    obtain ⟨hnot, hsource⟩ := h.held_key key hheld
    refine ⟨fun hin => ?_, ?_⟩
    · rcases hstray key hin with hin | ⟨hin, _⟩
      · exact hnot hin
      · rcases hsource with hpad | ⟨_, hwritten⟩
        · exact hpad ((hkey key hin).2 ▸ huuid)
        · exact hnew key hin hwritten
    · refine hsource.imp_right fun ⟨htaken, hwritten⟩ => ⟨htaken, ?_⟩
      rw [List.map_append]
      exact List.mem_append_left _ hwritten
  · intro key hin
    rcases hstray key hin with hin | ⟨hin, htaken⟩
    · exact h.stray_key key hin
    · exact .inr ((hkey key hin).2 ▸ htaken)
  · intro uid' status htask
    obtain ⟨hmem', hover, hagree⟩ := h.known uid' status htask
    refine ⟨hmem', hover, fun status' g hget => hagree status' g ?_⟩
    rwa [TransferQueue.get?_putTrajectories_of_not_mem] at hget
    exact fun hin => (hkey uid' hin).1 (h.uuids uid' hmem').isUid

/-- What a session writes after the poll is stray if its prompt is taken. -/
theorem takingOk_write (h : LoopOk store dataloader taken taking held tasks dispatched handedOut
    written stray) (ht : TakingOk store written stray taking keys)
    (hnodup : (entries.map Prod.fst).Nodup)
    (hentries : ∀ entry ∈ entries, ¬ IsUid entry.1 ∧ uidOfKey entry.1 = uid)
    (hnew : ∀ key ∈ entries.map Prod.fst, key ∉ written.map Prod.fst) :
    TakingOk (store.putTrajectories entries) (written ++ entries)
      (if uid ∈ taken ++ taking then stray ++ entries.map Prod.fst else stray) taking keys := by
  have hcases := TransferQueue.get?_putTrajectories_cases hnodup store
  refine ⟨ht.nodup, ?_, ?_, ?_⟩
  · intro uid' huid'
    obtain ⟨g, status, hget, hterminal⟩ := ht.terminal uid' huid'
    refine ⟨g, status, ?_, hterminal⟩
    rwa [TransferQueue.get?_putTrajectories_of_not_mem]
    intro hin
    obtain ⟨entry, hentry, heq⟩ := List.mem_map.mp hin
    refine (hentries entry hentry).1 ?_
    rw [heq]
    exact (h.uuids uid' (h.live_of_taking ht huid').1).isUid
  · intro key hkey
    obtain ⟨huid', hwritten, hstray, tag, hget⟩ := ht.mem key hkey
    have hold : key ∉ entries.map Prod.fst := fun hin => hnew key hin hwritten
    refine ⟨huid', ?_, ?_, tag, ?_⟩
    · rw [List.map_append]
      exact List.mem_append_left _ hwritten
    · split
      · rw [List.mem_append]
        exact not_or.mpr ⟨hstray, hold⟩
      · exact hstray
    · rwa [TransferQueue.get?_putTrajectories_of_not_mem hold]
  · intro key tag hget huid'
    rcases hcases key with ⟨tag', hentry, _⟩ | ⟨_, hsame⟩
    · right
      rw [(hentries _ hentry).2] at huid'
      rw [if_pos (List.mem_append_right _ huid')]
      exact List.mem_append_right _ (List.mem_map_of_mem hentry)
    · refine (ht.cover key tag (hsame.symm.trans hget) huid').imp_right fun hin => ?_
      split
      · exact List.mem_append_left _ hin
      · exact hin

end Write

/-! ## The trainer -/

/-- New prompts are put and dispatched. -/
theorem submit (h : LoopOk store dataloader taken [] held tasks dispatched handedOut written stray)
    (hnodup : uids.Nodup) (hfresh : ∀ uid ∈ uids, IsUuid uid ∧ uid ∉ handedOut) (g : Int) :
    LoopOk (store.putPrompts uids (.prompt .pending g)) (dataloader + uids.length) taken [] held
      (fun uid => if uid ∈ uids then some .pending else tasks uid) (dispatched ++ uids)
      (handedOut ++ uids) written stray := by
  have hout : ∀ uid ∈ uids, uid ∉ taken := fun uid huid htaken =>
    (hfresh uid huid).2 (h.taken_mem uid htaken)
  refine ⟨?_, ?_, ?_, h.taken_nodup, ?_, ?_, ?_, h.held_key, h.stray_key, ?_, ?_, ?_⟩
  · rw [List.length_append, h.length]
  · intro uid huid
    rcases List.mem_append.mp huid with hold | hnew
    · exact h.uuids uid hold
    · exact (hfresh uid hnew).1
  · refine h.handedOut_nodup.append hnodup fun uid hold hnew => ?_
    exact (hfresh uid hnew).2 hold
  · exact fun uid htaken => List.mem_append_left _ (h.taken_mem uid htaken)
  · refine h.queue.putPrompts (fun uid huid => (hfresh uid huid).1.isUid) ?_ ?_
    · intro uid
      rw [List.mem_append]
      constructor
      · rintro ⟨hold | hnew, htaken⟩
        · exact .inr ⟨hold, htaken⟩
        · exact .inl hnew
      · rintro (hnew | ⟨hold, htaken⟩)
        · exact ⟨.inr hnew, hout uid hnew⟩
        · exact ⟨.inl hold, htaken⟩
    · exact fun key tag hmem hlive => ⟨(h.written_key _ hmem).2, hlive.2⟩
  · intro entry hentry
    exact ⟨(h.written_key entry hentry).1, List.mem_append_left _ (h.written_key entry hentry).2⟩
  · intro uid status htask
    rw [List.append_nil]
    split at htask
    next hnew =>
      obtain rfl := Option.some.inj htask
      refine ⟨List.mem_append_right _ hnew, fun htaken => absurd htaken (hout uid hnew), ?_⟩
      intro status' g' hget
      rw [TransferQueue.get?_putPrompts, if_pos hnew, Option.some.injEq, Tag.prompt.injEq] at hget
      exact hget.1.symm
    next hold =>
      obtain ⟨hmem, hover, hagree⟩ := h.known uid status htask
      rw [List.append_nil] at hover
      refine ⟨List.mem_append_left _ hmem, hover, fun status' g' hget => hagree status' g' ?_⟩
      rwa [TransferQueue.get?_putPrompts, if_neg hold] at hget
  · refine h.dispatched_nodup.append hnodup fun uid hold hnew => ?_
    obtain ⟨status, htask⟩ := Option.ne_none_iff_exists'.mp ((h.dispatched_iff uid).mp hold)
    exact (hfresh uid hnew).2 (h.known uid status htask).1
  · intro uid
    rw [List.mem_append, h.dispatched_iff]
    split
    next hnew => exact iff_of_true (.inr hnew) (Option.some_ne_none _)
    next hold => exact or_iff_left hold

/-- `sample` clears the prompts that it has found, with the keys that it does not
hand to the trainer. -/
theorem take {cleared held' taken' : List String}
    (h : LoopOk store dataloader taken uids held tasks dispatched handedOut written stray)
    (ht : TakingOk store written stray uids keys)
    (huids : ∀ uid ∈ uids, uid ∈ cleared)
    (hcleared : ∀ key ∈ cleared, key ∈ uids ∨ key ∈ keys)
    (hheld : ∀ key ∈ held', key ∈ held ∨ key ∈ keys ∧ key ∉ cleared)
    (hstays : ∀ key ∈ held, key ∈ held')
    (hkeys : ∀ key ∈ keys, key ∈ cleared ∨ key ∈ held')
    (htaken : taken'.Perm (taken ++ uids)) :
    LoopOk (store.kvClear "train" cleared) dataloader taken' [] held' tasks dispatched handedOut
      written stray := by
  have hmem (uid : String) : uid ∈ taken' ↔ uid ∈ taken ∨ uid ∈ uids := by
    rw [htaken.mem_iff, List.mem_append]
  have hlive (uid : String) (huid : uid ∈ uids) := h.live_of_taking ht huid
  have hisUid (uid : String) (huid : uid ∈ uids) : IsUid uid :=
    (h.uuids uid (hlive uid huid).1).isUid
  -- The keys of trajectories that are cleared belong to the prompts that are taken.
  have htrajectory (key : String) (hin : key ∈ cleared) (hkey : ¬ IsUid key) :
      key ∈ keys ∧ uidOfKey key ∈ uids := by
    rcases hcleared key hin with huid | hin
    · exact (hkey (hisUid key huid)).elim
    · exact ⟨hin, (ht.mem key hin).1⟩
  have hleftover (key : String) (hin : key ∈ held ++ stray) : ¬ IsUid key := by
    obtain ⟨tag, hget⟩ := h.queue.leftover key hin
    exact h.queue.keys key tag hget
  refine ⟨h.length, h.uuids, h.handedOut_nodup, ?_, ?_, ?_, h.written_key, ?_, ?_, ?_,
    h.dispatched_nodup, h.dispatched_iff⟩
  · refine htaken.nodup_iff.mpr (h.taken_nodup.append ht.nodup fun uid hold hnew => ?_)
    exact (hlive uid hnew).2 hold
  · intro uid huid
    rcases (hmem uid).mp huid with hold | hnew
    · exact h.taken_mem uid hold
    · exact (hlive uid hnew).1
  · refine h.queue.clear ?_ ?_ ?_ ?_
    · intro uid
      rw [hmem, not_or, and_assoc]
      refine and_congr_right fun hout => and_congr_right fun _ => not_congr ?_
      refine ⟨huids uid, fun hin => (hcleared uid hin).resolve_right fun hkey => ?_⟩
      obtain ⟨_, _, _, tag, hget⟩ := ht.mem uid hkey
      exact h.queue.keys uid tag hget (h.uuids uid hout).isUid
    · rintro key tag hwritten ⟨_, hout⟩
      refine ⟨hwritten, fun hin => hout ((hmem _).mpr (.inr ?_))⟩
      exact (htrajectory key hin (h.written_key _ hwritten).1).2
    · intro key tag hget hin
      rcases h.queue.trajectories key tag hget with hold | ⟨hwritten, hout⟩
      · rcases List.mem_append.mp hold with hold | hold
        · exact .inl (List.mem_append_left _ (hstays key hold))
        · exact .inl (List.mem_append_right _ hold)
      · by_cases huid : uidOfKey key ∈ uids
        · rcases ht.cover key tag hget huid with hkey | hstray
          · exact .inl (List.mem_append_left _ ((hkeys key hkey).resolve_left hin))
          · exact .inl (List.mem_append_right _ hstray)
        · refine .inr ⟨hwritten, hout.1, fun hnow => ?_⟩
          exact ((hmem _).mp hnow).elim hout.2 huid
    · intro key hin
      rcases List.mem_append.mp hin with hin | hin
      · rcases hheld key hin with hold | ⟨hkey, hout⟩
        · refine ⟨fun hnow => ?_, h.queue.leftover key (List.mem_append_left _ hold)⟩
          have huid := (htrajectory key hnow (hleftover key (List.mem_append_left _ hold))).2
          rcases (h.held_key key hold).2 with hpad | ⟨hgone, _⟩
          · exact hpad (h.uuids _ (hlive _ huid).1)
          · exact (hlive _ huid).2 hgone
        · exact ⟨hout, (ht.mem key hkey).2.2.2⟩
      · refine ⟨fun hnow => ?_, h.queue.leftover key (List.mem_append_right _ hin)⟩
        have hkey := (htrajectory key hnow (hleftover key (List.mem_append_right _ hin))).1
        exact (ht.mem key hkey).2.2.1 hin
  · intro key hin
    rcases hheld key hin with hold | ⟨hkey, _⟩
    · obtain ⟨hnot, hsource⟩ := h.held_key key hold
      exact ⟨hnot, hsource.imp_right fun ⟨hgone, hwritten⟩ =>
        ⟨(hmem _).mpr (.inl hgone), hwritten⟩⟩
    · obtain ⟨huid, hwritten, hnot, _⟩ := ht.mem key hkey
      exact ⟨hnot, .inr ⟨(hmem _).mpr (.inr huid), hwritten⟩⟩
  · intro key hin
    refine (h.stray_key key hin).imp_right fun hgone => ?_
    rw [List.append_nil]
    exact (hmem _).mpr (List.mem_append.mp hgone)
  · intro uid status htask
    obtain ⟨hout, hover, hagree⟩ := h.known uid status htask
    refine ⟨hout, fun hgone => hover ?_, fun status' g hget => hagree status' g ?_⟩
    · rw [List.append_nil] at hgone
      exact List.mem_append.mpr ((hmem uid).mp hgone)
    · rw [TransferQueue.get?_kvClear_train] at hget
      split at hget
      · cases hget
      · exact hget

/-- The padding of an update. -/
theorem train {padding : List (String × T)} {taken' : List String}
    (h : LoopOk store dataloader taken [] held tasks dispatched handedOut written stray)
    (hnodup : (padding.map Prod.fst).Nodup)
    (hpadding : ∀ key ∈ padding.map Prod.fst, ¬ IsUid key ∧ ¬ IsUuid (uidOfKey key) ∧
      store.get? "train" key = none) (htaken : taken' = taken) :
    LoopOk (store.putTrajectories padding) dataloader taken' [] (held ++ padding.map Prod.fst) tasks
      dispatched handedOut written stray := by
  subst htaken
  refine ⟨h.length, h.uuids, h.handedOut_nodup, h.taken_nodup, h.taken_mem, ?_, h.written_key, ?_,
    h.stray_key, ?_, h.dispatched_nodup, h.dispatched_iff⟩
  · refine h.queue.putTrajectories ?_ hnodup ?_ (fun _ => .inl) (fun _ => id) ?_ ?_ ?_
    · intro entry hentry
      have hkey := (hpadding _ (List.mem_map_of_mem hentry)).1
      exact ⟨hkey, fun hlive => hkey (h.uuids _ hlive.1).isUid⟩
    · intro key hin hwritten
      obtain ⟨entry, hentry, rfl⟩ := List.mem_map.mp hwritten
      exact (hpadding _ hin).2.1 (h.uuids _ (h.written_key entry hentry).2)
    · intro key hin
      rw [List.append_assoc, List.mem_append, List.mem_append] at hin
      rcases hin with hin | hin | hin
      · exact .inl (List.mem_append_left _ hin)
      · exact .inr hin
      · exact .inl (List.mem_append_right _ hin)
    · intro key hin
      rw [List.append_assoc, List.mem_append, List.mem_append]
      exact (List.mem_append.mp hin).imp_right .inr
    · intro entry hentry
      exact .inl (List.mem_append_left _ (List.mem_append_right _ (List.mem_map_of_mem hentry)))
  · intro key hin
    rcases List.mem_append.mp hin with hin | hin
    · exact h.held_key key hin
    · obtain ⟨_, huuid, hnone⟩ := hpadding key hin
      refine ⟨fun hstray => ?_, .inl huuid⟩
      obtain ⟨tag, hget⟩ := h.queue.leftover key (List.mem_append_right _ hstray)
      rw [hnone] at hget
      cases hget
  · intro uid status htask
    obtain ⟨hmem, hover, hagree⟩ := h.known uid status htask
    refine ⟨hmem, hover, fun status' g hget => hagree status' g ?_⟩
    rwa [TransferQueue.get?_putTrajectories_of_not_mem] at hget
    exact fun hin => (hpadding uid hin).1 (h.uuids uid hmem).isUid

/-- The batch of a step is cleared. -/
theorem clear (h : LoopOk store dataloader taken [] held tasks dispatched handedOut written stray) :
    LoopOk (store.kvClear "train" held) dataloader taken [] [] tasks dispatched handedOut written
      stray := by
  have hheld (key : String) (hin : key ∈ held) : ¬ IsUid key := by
    obtain ⟨tag, hget⟩ := h.queue.leftover key (List.mem_append_left _ hin)
    exact h.queue.keys key tag hget
  refine ⟨h.length, h.uuids, h.handedOut_nodup, h.taken_nodup, h.taken_mem, ?_, h.written_key,
    nofun,
    h.stray_key, ?_, h.dispatched_nodup, h.dispatched_iff⟩
  · refine h.queue.clear ?_ ?_ ?_ ?_
    · intro uid
      refine (and_iff_left_of_imp ?_).symm
      rintro ⟨hmem, _⟩ hin
      exact hheld uid hin (h.uuids uid hmem).isUid
    · rintro key tag hwritten ⟨hmem, hout⟩
      refine ⟨hwritten, fun hin => ?_⟩
      rcases (h.held_key key hin).2 with hpad | ⟨hgone, _⟩
      · exact hpad (h.uuids _ hmem)
      · exact hout hgone
    · intro key tag hget hin
      rcases h.queue.trajectories key tag hget with hold | hlive
      · exact .inl ((List.mem_append.mp hold).resolve_left hin)
      · exact .inr hlive
    · intro key hin
      refine ⟨fun hnow => (h.held_key key hnow).1 hin, ?_⟩
      exact h.queue.leftover key (List.mem_append_right _ hin)
  · intro uid status htask
    obtain ⟨hmem, hover, hagree⟩ := h.known uid status htask
    refine ⟨hmem, hover, fun status' g hget => hagree status' g ?_⟩
    rw [TransferQueue.get?_kvClear_train] at hget
    split at hget
    · cases hget
    · exact hget

/-- Prompts that are not over start anew. -/
theorem reissue {inflight cleared : List String} {written' : List (String × T)}
    (h : LoopOk store dataloader taken [] [] tasks [] handedOut written stray)
    (hnodup : inflight.Nodup) (hlive : ∀ uid ∈ inflight, uid ∈ handedOut ∧ uid ∉ taken)
    (hcleared : ∀ key, key ∈ cleared ↔ uidOfKey key ∈ inflight ∧
      ∃ tag, store.get? "train" key = some (.trajectory tag))
    (hwritten : ∀ entry, entry ∈ written' ↔ entry ∈ written ∧ uidOfKey entry.1 ∉ inflight)
    (g : Int) :
    LoopOk ((store.kvClear "train" cleared).putPrompts inflight (.prompt .pending g)) dataloader taken
      [] [] (fun uid => if uid ∈ inflight then some .pending else tasks uid) inflight handedOut
      written' stray := by
  have hnone (uid : String) : tasks uid = none :=
    not_not.mp fun hne => List.not_mem_nil ((h.dispatched_iff uid).mpr hne)
  have hisUid (uid : String) (huid : uid ∈ inflight) : IsUid uid :=
    (h.uuids uid (hlive uid huid).1).isUid
  have hqueue : QueueOk (store.kvClear "train" cleared)
      (fun uid => uid ∈ handedOut ∧ uid ∉ taken) ([] ++ stray) written' := by
    refine h.queue.clear ?_ ?_ ?_ ?_
    · intro uid
      refine (and_iff_left_of_imp ?_).symm
      rintro ⟨hmem, _⟩ hin
      obtain ⟨_, tag, hget⟩ := (hcleared uid).mp hin
      exact h.queue.keys uid tag hget (h.uuids uid hmem).isUid
    · intro key tag hmem _
      obtain ⟨hold, hout⟩ := (hwritten _).mp hmem
      exact ⟨hold, fun hin => hout ((hcleared key).mp hin).1⟩
    · intro key tag hget hin
      refine (h.queue.trajectories key tag hget).imp_right fun ⟨hmem, hkey⟩ => ⟨?_, hkey⟩
      exact (hwritten _).mpr ⟨hmem, fun huid => hin ((hcleared key).mpr ⟨huid, tag, hget⟩)⟩
    · intro key hin
      refine ⟨fun hnow => ?_, h.queue.leftover key hin⟩
      have huid := ((hcleared key).mp hnow).1
      rcases h.stray_key key hin with hpad | hgone
      · exact hpad (h.uuids _ (hlive _ huid).1)
      · rw [List.append_nil] at hgone
        exact (hlive _ huid).2 hgone
  refine ⟨h.length, h.uuids, h.handedOut_nodup, h.taken_nodup, h.taken_mem, ?_, ?_, nofun,
    h.stray_key, ?_, hnodup, ?_⟩
  · refine hqueue.putPrompts hisUid (fun uid => ?_) fun _ _ _ => id
    exact ⟨.inr, fun hor => hor.elim (hlive uid) id⟩
  · exact fun entry hentry => h.written_key entry ((hwritten entry).mp hentry).1
  · intro uid status htask
    split at htask
    next huid =>
      obtain rfl := Option.some.inj htask
      refine ⟨(hlive uid huid).1, fun hgone => ?_, ?_⟩
      · rw [List.append_nil] at hgone
        exact absurd hgone (hlive uid huid).2
      · intro status' g' hget
        rw [TransferQueue.get?_putPrompts, if_pos huid, Option.some.injEq, Tag.prompt.injEq] at hget
        exact hget.1.symm
    · rw [hnone] at htask
      cases htask
  · intro uid
    split
    next huid => exact iff_of_true huid (Option.some_ne_none _)
    next huid => exact iff_of_false huid (not_not.mpr (hnone uid))

/-- What is loaded from a checkpoint. -/
theorem load {tasks' : String → Option PromptStatus}
    (h : LoopOk store dataloader taken [] held tasks dispatched handedOut written stray)
    (htasks : ∀ uid, tasks' uid = none) :
    LoopOk store dataloader taken [] [] tasks' [] handedOut written (stray ++ held) := by
  have hiff (key : String) : key ∈ [] ++ (stray ++ held) ↔ key ∈ held ++ stray := by
    rw [List.nil_append, List.mem_append, List.mem_append, or_comm]
  refine ⟨h.length, h.uuids, h.handedOut_nodup, h.taken_nodup, h.taken_mem, ?_, h.written_key,
    nofun,
    ?_, ?_, List.nodup_nil, ?_⟩
  · refine ⟨h.queue.prompts, h.queue.keys, ?_, h.queue.complete, ?_⟩
    · exact fun key tag hget => (h.queue.trajectories key tag hget).imp_left (hiff key).mpr
    · exact fun key hin => h.queue.leftover key ((hiff key).mp hin)
  · intro key hin
    rcases List.mem_append.mp hin with hin | hin
    · exact h.stray_key key hin
    · refine (h.held_key key hin).2.imp_right fun ⟨hgone, _⟩ => ?_
      rwa [List.append_nil]
  · intro uid status htask
    rw [htasks] at htask
    cases htask
  · exact fun uid => iff_of_false List.not_mem_nil (not_not.mpr (htasks uid))

end LoopOk

/-! ## Reissue -/

theorem mem_inflightUids {store : TransferQueue T} {uid : String} :
    uid ∈ inflightUids (store.kvList "train") ↔ ∃ status g,
      store.get? "train" uid = some (.prompt status g) ∧ ¬ status.IsTerminal := by
  rw [inflightUids, List.mem_filterMap]
  constructor
  · rintro ⟨⟨key, tag⟩, hitem, heq⟩
    cases tag with
    | prompt status g =>
        dsimp only at heq
        split at heq
        next hstatus =>
          obtain rfl := Option.some.inj heq
          refine ⟨status, g, TransferQueue.mem_kvList.mp hitem, ?_⟩
          rcases hstatus with rfl | rfl <;> decide
        next => cases heq
    | trajectory tag => cases heq
  · rintro ⟨status, g, hget, hopen⟩
    refine ⟨_, TransferQueue.mem_kvList.mpr hget, if_pos ?_⟩
    cases status with
    | pending => exact .inl rfl
    | running => exact .inr rfl
    | finished => exact absurd (.inl rfl) hopen
    | failure => exact absurd (.inr rfl) hopen

theorem nodup_inflightUids (store : TransferQueue T) :
    (inflightUids (store.kvList "train")).Nodup := by
  refine (filterMap_sublist (fun item key hkey => ?_) _).nodup (store.nodup_kvList "train")
  split at hkey
  · split at hkey
    · exact (Option.some.inj hkey).symm
    · cases hkey
  · cases hkey

theorem mem_oldTrajectoryKeys {store : TransferQueue T} {inflight : List String} {key : String} :
    key ∈ oldTrajectoryKeys (store.kvList "train") inflight ↔ uidOfKey key ∈ inflight ∧
      ∃ tag, store.get? "train" key = some (.trajectory tag) := by
  rw [oldTrajectoryKeys, List.mem_filterMap]
  constructor
  · rintro ⟨⟨key', tag⟩, hitem, heq⟩
    cases tag with
    | prompt status g => cases heq
    | trajectory tag =>
        dsimp only at heq
        split at heq
        next huid =>
          obtain rfl := Option.some.inj heq
          exact ⟨huid, tag, TransferQueue.mem_kvList.mp hitem⟩
        next => cases heq
  · rintro ⟨huid, tag, hget⟩
    exact ⟨_, TransferQueue.mem_kvList.mpr hget, if_pos huid⟩

/-- Without prompts to reissue nothing is cleared and nothing is put. -/
theorem reissueInflightPrompts_eq (store : TransferQueue T) (globalSteps : Int) :
    reissueInflightPrompts store globalSteps =
      ((store.kvClear "train" (oldTrajectoryKeys (store.kvList "train")
          (inflightUids (store.kvList "train")))).putPrompts (inflightUids (store.kvList "train"))
        (.prompt .pending globalSteps), inflightUids (store.kvList "train")) := by
  rw [reissueInflightPrompts]
  split
  next hnone =>
    have hold : oldTrajectoryKeys (store.kvList "train") [] = [] := by
      refine List.eq_nil_iff_forall_not_mem.mpr fun key hkey => ?_
      exact absurd (mem_oldTrajectoryKeys.mp hkey).1 List.not_mem_nil
    rw [hnone, hold]
    rfl
  · rfl

/-! ## The invariant of a state -/

namespace FitState

/-- The parts of the state fit together. -/
def Consistent (s : FitState T) : Prop :=
  LoopOk s.store s.dataloader s.taken s.pc.taking s.held s.tasks s.dispatched s.history.handedOut
    s.history.written s.history.stray

/-- What the trainer knows between two steps. -/
def PcOk (cfg : FitConfig) (s : FitState T) : Prop :=
  match s.pc with
  | .reissue => s.held = [] ∧ s.dispatched = []
  | .dropping _ staleUids trajectoryKeys =>
      TakingOk s.store s.history.written s.history.stray staleUids trajectoryKeys
  | .selected _ snapshot uids =>
      TakingOk s.store s.history.written s.history.stray uids (batchKeys snapshot uids) ∧
        (syncMetadata snapshot "train").spansWithin cfg.replay (s.sampleCall cfg) uids
  | .saveDataloader weights => weights = s.weights
  | .saveQueue weights dataloader => weights = s.weights ∧ dataloader = s.dataloader
  | .writeTracker checkpoint => (load (some checkpoint)).Consistent
  | .raised => False
  | _ => True

/-- The invariant: the state fits together, and so does what a crash leads to. -/
structure Ok (cfg : FitConfig) (s : FitState T) : Prop where
  consistent : s.Consistent
  pc : s.PcOk cfg
  latest : (load s.latest).Consistent

variable {cfg : FitConfig} {s t : FitState T}

theorem consistent_init : (init : FitState T).Consistent := by
  refine ⟨rfl, nofun, List.nodup_nil, List.nodup_nil, nofun, ?_, nofun, nofun, nofun, nofun,
    List.nodup_nil, ?_⟩
  · refine ⟨?_, nofun, nofun, nofun, nofun⟩
    exact fun uid => iff_of_false (fun ⟨_, _, h⟩ => nomatch h) fun h => nomatch h.1
  · exact fun uid => iff_of_false List.not_mem_nil (not_not.mpr rfl)

theorem ok_init (cfg : FitConfig) : (init : FitState T).Ok cfg :=
    ⟨consistent_init, ⟨rfl, rfl⟩, consistent_init⟩

/-- `load` starts at the reissue. -/
theorem ok_load (h : (load s.latest).Consistent) : (load s.latest).Ok cfg := by
  refine ⟨h, ?_, ?_⟩
  · cases s.latest with
    | none => exact ⟨rfl, rfl⟩
    | some c => exact ⟨rfl, rfl⟩
  · cases hlatest : s.latest with
    | none => exact consistent_init
    | some c =>
        rw [hlatest] at h
        exact h

/-- What has been taken changes with the program counter only. -/
theorem taken_of_inUpdate (h : s.pc.inUpdate = []) : s.taken = s.weights ++ s.history.dropped := by
  rw [taken, h, List.append_nil]

/-! ## Steps of the rollout -/

theorem Ok.putStatus (hs : s.Ok cfg) {uid : String} {old status : PromptStatus}
    (htask : s.tasks uid = some old) (hopen : ¬ old.IsTerminal)
    (h : s.putStatus uid status = some t) : t.Ok cfg := by
  have hcons : s.Consistent := hs.consistent
  obtain ⟨hmem, _, htaking⟩ := hcons.live_of_task htask hopen
  rw [FitState.putStatus] at h
  split at h
  next g _ =>
    obtain rfl := Option.some.inj h
    refine ⟨hcons.putStatus htask hopen status g, ?_, hs.latest⟩
    have hpc := hs.pc
    rw [PcOk] at hpc ⊢
    cases hspc : s.pc with
    | dropping left staleUids keys =>
        rw [hspc] at hpc htaking
        exact hcons.takingOk_putStatus hpc hmem htaking status g
    | selected left snapshot uids =>
        rw [hspc] at hpc htaking
        exact ⟨hcons.takingOk_putStatus hpc.1 hmem htaking status g, hpc.2⟩
    | _ =>
        rw [hspc] at hpc
        exact hpc
  · cases h

theorem Ok.write (hs : s.Ok cfg) {uid : String} {sessionId : Nat} {tags : List T}
    {status : PromptStatus} (htask : s.tasks uid = some status)
    (hnew : ∀ key ∈ (sessionOf uid sessionId tags).map Prod.fst,
      key ∉ s.history.written.map Prod.fst) :
      (s.write uid (sessionOf uid sessionId tags)).Ok cfg := by
  have hcons : s.Consistent := hs.consistent
  have hmem := (hcons.known uid status htask).1
  obtain ⟨hnodup, hentries⟩ := LoopOk.sessionOf_key (hcons.uuids uid hmem).isUid sessionId tags
  refine ⟨hcons.write hmem hnodup hentries hnew, ?_, hs.latest⟩
  have hpc := hs.pc
  rw [PcOk] at hpc ⊢
  have htaking (keys : List String)
      (ht : TakingOk s.store s.history.written s.history.stray s.pc.taking keys) :=
    hcons.takingOk_write ht hnodup hentries hnew
  rw [FitState.write]
  cases hspc : s.pc with
  | dropping left staleUids keys =>
      rw [hspc] at hpc htaking
      exact htaking keys hpc
  | selected left snapshot uids =>
      rw [hspc] at hpc htaking
      exact ⟨htaking _ hpc.1, hpc.2⟩
  | _ =>
      rw [hspc] at hpc
      exact hpc

/-! ## Steps of the trainer -/

/-- New prompts. -/
theorem Ok.submit (hs : s.Ok cfg) {uids : List String} {pc : FitPc T} (hfresh : s.Fresh uids)
    (hpc : s.pc.taking = [] ∧ s.pc.inUpdate = [])
    (hnext : (∃ warmup, pc = .feed warmup) ∨ ∃ left, pc = .polling left) :
    ({ s.submit uids with pc := pc } : FitState T).Ok cfg := by
  have hcons : s.Consistent := hs.consistent
  rw [Consistent, hpc.1, taken_of_inUpdate hpc.2] at hcons
  have hsubmit := hcons.submit hfresh.1 hfresh.2 s.globalSteps
  refine ⟨?_, ?_, hs.latest⟩
  · rw [Consistent, taken]
    rcases hnext with ⟨warmup, rfl⟩ | ⟨left, rfl⟩
    all_goals
      rw [List.append_assoc]
      exact hsubmit
  · rw [PcOk]
    rcases hnext with ⟨warmup, rfl⟩ | ⟨left, rfl⟩
    all_goals trivial

/-- What a poll finds about prompts that are over. -/
theorem takingOk_of_poll (hcons : s.Consistent) (htaking : s.pc.taking = []) {uids : List String}
    (hnodup : uids.Nodup)
    (hterminal : ∀ uid ∈ uids, ∃ g, s.store.HasTerminal "train" uid g) :
    TakingOk s.store s.history.written s.history.stray uids (batchKeys s.store uids) := by
  have hmem (key : String) : key ∈ batchKeys s.store uids ↔ uidOfKey key ∈ uids ∧
      ∃ tag, s.store.get? "train" key = some (.trajectory tag) := by
    rw [batchKeys, List.mem_map]
    constructor
    · rintro ⟨⟨key, tag⟩, hitem, rfl⟩
      obtain ⟨hitem, huid⟩ := List.mem_filter.mp hitem
      exact ⟨of_decide_eq_true huid, tag, mem_trajectories.mp hitem⟩
    · rintro ⟨huid, tag, hget⟩
      exact ⟨(key, tag), List.mem_filter.mpr ⟨mem_trajectories.mpr hget, decide_eq_true huid⟩, rfl⟩
  rw [Consistent, htaking] at hcons
  have hlive (uid : String) (huid : uid ∈ uids) : uid ∈ s.history.handedOut ∧ uid ∉ s.taken := by
    obtain ⟨g, status, hget, _⟩ := hterminal uid huid
    exact (hcons.queue.prompts uid).mp ⟨status, g, hget⟩
  refine ⟨hnodup, hterminal, ?_, ?_⟩
  · intro key hkey
    obtain ⟨huid, tag, hget⟩ := (hmem key).mp hkey
    obtain ⟨hout, hnot⟩ := hlive _ huid
    have hstray : key ∉ s.history.stray := by
      intro hin
      rcases hcons.stray_key key hin with hpad | hgone
      · exact hpad (hcons.uuids _ hout)
      · rw [List.append_nil] at hgone
        exact hnot hgone
    refine ⟨huid, ?_, hstray, tag, hget⟩
    rcases hcons.queue.trajectories key tag hget with hin | ⟨hwritten, _⟩
    · rcases (hcons.held_key key ((List.mem_append.mp hin).resolve_right hstray)).2 with
        hpad | ⟨hgone, _⟩
      · exact (hpad (hcons.uuids _ hout)).elim
      · exact (hnot hgone).elim
    · exact List.mem_map_of_mem hwritten
  · exact fun key tag hget huid => .inl ((hmem key).mpr ⟨huid, tag, hget⟩)

theorem Ok.poll (hs : s.Ok cfg) {left : Nat} {order : List String} (hpc : s.pc = .polling left)
    (h : s.poll cfg left order = some t) : t.Ok cfg := by
  have hcons : s.Consistent := hs.consistent
  have htaking : s.pc.taking = [] := by
    rw [hpc]
    rfl
  have htaken : s.taken = s.weights ++ [] ++ s.history.dropped := by
    rw [taken, hpc]
    rfl
  -- The program counter changes, and the prompts that it names are over.
  have hmove {pc : FitPc T} (hupdate : pc.inUpdate = [])
      (hterminal : ∀ uid ∈ pc.taking, ∃ g, s.store.HasTerminal "train" uid g) :
      ({ s with pc } : FitState T).Consistent := by
    rw [Consistent, htaking] at hcons
    rw [Consistent, taken_of_inUpdate
      (show ({ s with pc } : FitState T).pc.inUpdate = [] from hupdate)]
    rw [htaken, List.append_nil] at hcons
    refine { hcons with stray_key := ?_, known := ?_ }
    · intro key hin
      refine (hcons.stray_key key hin).imp_right fun hgone => ?_
      rw [List.append_nil] at hgone
      exact List.mem_append_left _ hgone
    · intro uid status htask
      obtain ⟨hmem, hover, hagree⟩ := hcons.known uid status htask
      refine ⟨hmem, fun hgone => ?_, hagree⟩
      rcases List.mem_append.mp hgone with hgone | hin
      · exact hover (List.mem_append_left _ hgone)
      · obtain ⟨g, status', hget, hstatus⟩ := hterminal uid hin
        exact hagree status' g hget ▸ hstatus
  rw [FitState.poll] at h
  split at h
  next hstale =>
    obtain rfl := Option.some.inj h
    have hterminal := fun uid huid => @hasTerminal_of_mem_staleUids T cfg.replay s.store
      (s.sampleCall cfg) uid huid
    refine ⟨hmove rfl hterminal, ?_, hs.latest⟩
    exact takingOk_of_poll hcons htaking
      (@nodup_staleUids T cfg.replay s.store (s.sampleCall cfg)) hterminal
  next =>
    split at h
    next henough =>
      split at h
      next horder =>
        obtain rfl := Option.some.inj h
        have hsampleable : ∀ uid ∈ (syncMetadata s.store "train").selectPrompts (s.sampleCall cfg)
            order, ∃ g, s.store.HasSampleable cfg.replay (s.sampleCall cfg) uid g := by
          intro uid huid
          exact (@mem_sampleableTerminalKeys T cfg.replay s.store (s.sampleCall cfg) uid).mp
            (horder.mem_iff.mp (mem_of_mem_selectPrompts huid))
        have hterminal := fun uid huid => (hsampleable uid huid).imp fun g hg => hg.1
        have hnodup : order.Nodup := horder.nodup_iff.mpr
          (@nodup_sampleableTerminalKeys T cfg.replay s.store (s.sampleCall cfg))
        refine ⟨hmove rfl hterminal, ⟨?_, ?_⟩, hs.latest⟩
        · exact takingOk_of_poll hcons htaking (nodup_selectPrompts hnodup) hterminal
        · intro hdrop uid huid
          obtain ⟨g, ⟨status, hget, _⟩, hspan⟩ := hsampleable uid huid
          have hsteps : (syncMetadata s.store "train").stepsOf uid s.globalSteps = g :=
            stepsOf_syncMetadata _ hget
          show (s.sampleCall cfg).span ((syncMetadata s.store "train").stepsOf uid s.globalSteps) ≤ _
          rw [hsteps]
          exact hspan hdrop
      next => cases h
    next =>
      obtain rfl := Option.some.inj h
      exact hs

/-- Stale prompts are cleared with their trajectories. -/
theorem Ok.clearStale (hs : s.Ok cfg) {left : Nat} {staleUids keys : List String}
    (hpc : s.pc = .dropping left staleUids keys) :
    ({ s with
      store := s.store.kvClear "train" (staleUids ++ keys)
      pc := .refilling left staleUids.length
      history := { s.history with dropped := s.history.dropped ++ staleUids } } :
        FitState T).Ok cfg := by
  have hcons : s.Consistent := hs.consistent
  have ht := hs.pc
  rw [PcOk, hpc] at ht
  rw [Consistent, hpc] at hcons
  refine ⟨?_, trivial, hs.latest⟩
  refine hcons.take ht (fun uid huid => List.mem_append_left _ huid)
    (fun key hin => List.mem_append.mp hin) (fun key hin => .inl hin) (fun key hin => hin)
    (fun key hin => .inl (List.mem_append_right _ hin)) ?_
  rw [taken, taken, hpc]
  show (s.weights ++ [] ++ (s.history.dropped ++ staleUids)).Perm
    (s.weights ++ [] ++ s.history.dropped ++ staleUids)
  rw [List.append_assoc (s.weights ++ [])]

/-- The selected prompts are cleared, and the trainer holds their trajectories. -/
theorem Ok.finishSample (hs : s.Ok cfg) {left : Nat} {snapshot : TransferQueue T}
    {uids : List String}
    (hpc : s.pc = .selected left snapshot uids) :
    (s.finishSample cfg left snapshot uids).Ok cfg := by
  have hcons : s.Consistent := hs.consistent
  have ht := hs.pc
  rw [PcOk, hpc] at ht
  obtain ⟨ht, hspans⟩ := ht
  rw [FitState.finishSample, if_pos hspans]
  rw [Consistent, hpc] at hcons
  have hnot (key : String) (hkey : key ∈ batchKeys snapshot uids) : key ∉ uids := by
    intro huid
    obtain ⟨g, status, hget, _⟩ := ht.terminal key huid
    obtain ⟨_, _, _, tag, hget'⟩ := ht.mem key hkey
    rw [hget] at hget'
    cases hget'
  refine ⟨?_, trivial, hs.latest⟩
  refine hcons.take ht (fun uid huid => huid) (fun key hin => .inl hin) ?_
    (fun key hin => List.mem_append_left _ hin)
    (fun key hin => .inr (List.mem_append_right _ hin)) ?_
  · exact fun key hin => (List.mem_append.mp hin).imp_right fun hkey => ⟨hkey, hnot key hkey⟩
  · rw [taken, taken, hpc]
    show (s.weights ++ uids ++ s.history.dropped).Perm
      (s.weights ++ [] ++ s.history.dropped ++ uids)
    rw [List.append_nil, List.append_assoc, List.append_assoc]
    exact List.perm_append_comm.append_left s.weights

/-- The padding trajectories are new, and belong to no prompt. -/
theorem paddingOf_key {hex : String} (hhex : IsUuid hex) (padTags : List T) :
    ((paddingOf hex padTags).map Prod.fst).Nodup ∧
      ∀ key ∈ (paddingOf hex padTags).map Prod.fst, ¬ IsUid key ∧ ¬ IsUuid (uidOfKey key) := by
  constructor
  · exact LoopOk.nodup_map_fst_mapIdx (fun _ _ => sessionId_inj) padTags
  · intro key hkey
    obtain ⟨entry, hentry, rfl⟩ := List.mem_map.mp hkey
    obtain ⟨localIdx, tag, rfl⟩ := List.mem_mapIdx.mp hentry
    refine ⟨not_isUid_trajectoryKey _ _ _, ?_⟩
    rw [uidOfKey_trajectoryKey (isUid_pad hhex)]
    exact not_isUuid_pad hex

theorem train_pc (cfg : FitConfig) (s : FitState T) (left : Nat) (uids : List String)
    (padding : List (String × T)) :
    (∃ left', (s.train cfg left uids padding).pc = .polling left') ∨
      (s.train cfg left uids padding).pc = .saveActor ∨
        (s.train cfg left uids padding).pc = .clearing := by
  cases left with
  | succ left => exact .inl ⟨left, rfl⟩
  | zero =>
      right
      by_cases hsaves : s.saves cfg
      · exact .inl (if_pos hsaves)
      · exact .inr (if_neg hsaves)

/-- The weights have consumed the batch. -/
theorem Ok.train (hs : s.Ok cfg) {left : Nat} {uids : List String} {hex : String} {padTags : List T}
    (hpc : s.pc = .training left uids) (hhex : IsUuid hex)
    (hnone : ∀ key ∈ (paddingOf hex padTags).map Prod.fst, s.store.get? "train" key = none) :
    (s.train cfg left uids (paddingOf hex padTags)).Ok cfg := by
  have hcons : s.Consistent := hs.consistent
  rw [Consistent, hpc] at hcons
  obtain ⟨hnodup, hkeys⟩ := paddingOf_key hhex padTags
  have hpcs : (s.train cfg left uids (paddingOf hex padTags)).pc.taking = [] ∧
      (s.train cfg left uids (paddingOf hex padTags)).pc.inUpdate = [] ∧
      (s.train cfg left uids (paddingOf hex padTags)).PcOk cfg := by
    rcases train_pc cfg s left uids (paddingOf hex padTags) with ⟨left', hnext⟩ | hnext | hnext
    all_goals
      rw [PcOk, hnext]
      exact ⟨rfl, rfl, trivial⟩
  obtain ⟨htaking, hupdate, hnext⟩ := hpcs
  have htaken : (s.train cfg left uids (paddingOf hex padTags)).taken = s.taken := by
    rw [taken_of_inUpdate hupdate, taken, hpc]
    rfl
  refine ⟨?_, hnext, hs.latest⟩
  rw [Consistent, htaking]
  exact hcons.train hnodup (fun key hin => ⟨(hkeys key hin).1, (hkeys key hin).2, hnone key hin⟩)
    htaken

/-- The parts of a checkpoint. -/
theorem Ok.save (hs : s.Ok cfg) (h : s.next cfg .save = some t) : t.Ok cfg := by
  have hcons : s.Consistent := hs.consistent
  have hpc := hs.pc
  rw [PcOk] at hpc
  rw [Consistent, taken] at hcons
  cases hspc : s.pc with
  | saveActor =>
      rw [hspc] at hcons
      rw [next, hspc] at h
      obtain rfl := Option.some.inj h
      exact ⟨hcons, rfl, hs.latest⟩
  | saveDataloader weights =>
      rw [hspc] at hcons hpc
      rw [next, hspc] at h
      obtain rfl := Option.some.inj h
      exact ⟨hcons, ⟨hpc, rfl⟩, hs.latest⟩
  | saveQueue weights dataloader =>
      rw [hspc] at hcons hpc
      rw [next, hspc] at h
      obtain rfl := Option.some.inj h
      obtain ⟨rfl, rfl⟩ := hpc
      exact ⟨hcons, hcons.load fun _ => rfl, hs.latest⟩
  | writeTracker checkpoint =>
      rw [hspc] at hcons hpc
      rw [next, hspc] at h
      obtain rfl := Option.some.inj h
      exact ⟨hcons, trivial, hpc⟩
  | _ =>
      rw [next, hspc] at h
      cases h

/-- The end of a step. -/
theorem Ok.clear (hs : s.Ok cfg) (hpc : s.pc = .clearing) : (s.clear cfg).Ok cfg := by
  have hcons : s.Consistent := hs.consistent
  rw [Consistent, taken, hpc] at hcons
  have hnext : (s.clear cfg).pc = .finished ∨ (s.clear cfg).pc = .feed 0 := by
    by_cases hlast : s.isLastStep cfg
    · exact .inl (if_pos hlast)
    · exact .inr (if_neg hlast)
  refine ⟨?_, ?_, hs.latest⟩
  · rw [Consistent, taken]
    rcases hnext with hnext | hnext
    all_goals
      rw [hnext]
      exact hcons.clear
  · rw [PcOk]
    rcases hnext with hnext | hnext
    all_goals
      rw [hnext]
      trivial

/-- The prompts in flight are registered. -/
theorem Ok.live_of_inflight (hs : s.Ok cfg) {uid : String}
    (h : uid ∈ inflightUids (s.store.kvList "train")) :
    uid ∈ s.history.handedOut ∧ uid ∉ s.taken := by
  obtain ⟨status, g, hget, _⟩ := mem_inflightUids.mp h
  exact (hs.consistent.queue.prompts uid).mp ⟨status, g, hget⟩

theorem reissue_eq (cfg : FitConfig) (s : FitState T) :
    s.reissue cfg = { s.dispatch (inflightUids (s.store.kvList "train")) with
      store := (s.store.kvClear "train" (oldTrajectoryKeys (s.store.kvList "train")
        (inflightUids (s.store.kvList "train")))).putPrompts (inflightUids (s.store.kvList "train"))
          (.prompt .pending s.globalSteps)
      pc := .feed cfg.numWarmupBatches
      history := { s.history with
        written := s.history.written.filter fun entry =>
          uidOfKey entry.1 ∉ inflightUids (s.store.kvList "train") } } := by
  rw [FitState.reissue, reissueInflightPrompts_eq]

theorem Ok.reissue (hs : s.Ok cfg) (hpc : s.pc = .reissue) : (s.reissue cfg).Ok cfg := by
  have hcons : s.Consistent := hs.consistent
  have hpcOk := hs.pc
  have hlive := fun uid huid => @Ok.live_of_inflight T cfg s hs uid huid
  rw [PcOk, hpc] at hpcOk
  obtain ⟨hheld, hdispatched⟩ := hpcOk
  rw [Consistent, taken, hpc, hheld, hdispatched] at hcons
  rw [taken, hpc] at hlive
  have hnext := hcons.reissue (nodup_inflightUids s.store) hlive
    (fun key => mem_oldTrajectoryKeys) (fun entry => List.mem_filter.trans
      (and_congr_right fun _ => decide_eq_true_iff)) s.globalSteps
  rw [reissue_eq]
  refine ⟨?_, trivial, hs.latest⟩
  rw [Consistent, dispatch, hheld, hdispatched]
  exact hnext

/-! ## Runs -/

/-- Every step keeps the invariant. -/
theorem Ok.next {a : FitAct T} (hs : s.Ok cfg) (h : s.next cfg a = some t) : t.Ok cfg := by
  cases a with
  | submit uids =>
      rw [FitState.next] at h
      split at h
      next hfresh =>
        split at h
        next hpc =>
          split at h
          · obtain rfl := Option.some.inj h
            exact hs.submit hfresh (by rw [hpc]; exact ⟨rfl, rfl⟩) (.inr ⟨_, rfl⟩)
          · cases h
        next warmup hpc =>
          split at h
          · obtain rfl := Option.some.inj h
            exact hs.submit hfresh (by rw [hpc]; exact ⟨rfl, rfl⟩) (.inl ⟨_, rfl⟩)
          · cases h
        next left num hpc =>
          split at h
          · obtain rfl := Option.some.inj h
            exact hs.submit hfresh (by rw [hpc]; exact ⟨rfl, rfl⟩) (.inr ⟨_, rfl⟩)
          · cases h
        · cases h
      · cases h
  | start uid =>
      rw [FitState.next] at h
      split at h
      next htask => exact hs.putStatus htask (by decide) h
      · cases h
  | write uid sessionId tags =>
      rw [FitState.next] at h
      split at h
      next hguard =>
        obtain rfl := Option.some.inj h
        rcases hguard.1 with htask | htask
        · exact hs.write htask hguard.2
        · exact hs.write htask hguard.2
      · cases h
  | terminate uid status =>
      rw [FitState.next] at h
      split at h
      next htask => exact hs.putStatus htask.1 (by decide) h
      · cases h
  | poll order =>
      rw [FitState.next] at h
      split at h
      next left hpc => exact hs.poll hpc h
      · cases h
  | clearStale =>
      rw [FitState.next] at h
      split at h
      next left staleUids keys hpc =>
        obtain rfl := Option.some.inj h
        exact hs.clearStale hpc
      · cases h
  | clearSelected =>
      rw [FitState.next] at h
      split at h
      next left snapshot uids hpc =>
        obtain rfl := Option.some.inj h
        exact hs.finishSample hpc
      · cases h
  | train hex padTags =>
      rw [FitState.next] at h
      split at h
      next left uids hpc =>
        dsimp only at h
        split at h
        next hguard =>
          obtain rfl := Option.some.inj h
          exact hs.train hpc hguard.1 hguard.2
        · cases h
      · cases h
  | save => exact hs.save h
  | clear =>
      rw [FitState.next] at h
      split at h
      next hpc =>
        obtain rfl := Option.some.inj h
        exact hs.clear hpc
      · cases h
  | crash =>
      rw [FitState.next] at h
      obtain rfl := Option.some.inj h
      exact ok_load hs.latest
  | reissue =>
      rw [FitState.next] at h
      split at h
      next hpc =>
        obtain rfl := Option.some.inj h
        exact hs.reissue hpc
      · cases h

/-- Every run keeps the invariant. -/
theorem ok_of_exec {acts : List (FitAct T)} (h : Run.exec (next cfg) init acts = some s) :
    s.Ok cfg :=
  Run.exec_invariant (fun _ _ _ hs hnext => hs.next hnext) (ok_init cfg) h

end FitState

end Verl
