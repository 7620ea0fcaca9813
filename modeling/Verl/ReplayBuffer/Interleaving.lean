import Verl.ReplayBuffer.Sample
import Verl.Lib.Run

/-!
# The replay buffer among its producers

The rollout puts prompts and trajectories into TransferQueue while the trainer
calls `ReplayBuffer.sample`, one call at a time.  A step is one access to
TransferQueue: a put of the rollout, the `kv_list` of a poll with what the code
computes from it, or a `kv_clear`.  Between two accesses of the trainer the
rollout may do anything.  The trainer may later clear trajectories that it was
given.

The state also records what the rollout did for each prompt and what became of
it.  A prompt is *gone* once it was returned or dropped.

*The invariant.*  The prompt keys in TransferQueue are the recorded prompts that
are not gone, and all their trajectories are there.  A prompt that is over does
not change any more, so what a poll found out about it stays true until the
prompt is cleared.
-/

namespace Verl

variable {T : Type}

/-! ## The system -/

/-- What the rollout did for a prompt. -/
structure PromptRecord (T : Type) where
  partitionId : String
  globalSteps : Int
  status : PromptStatus
  /-- The trajectory keys with their tags. -/
  written : AList fun _ : String => T

/-- The records by uid. -/
abbrev PromptRecords (T : Type) := AList fun _ : String => PromptRecord T

/-- A call of `sample` that returned. -/
structure Sampled (T : Type) where
  call : SampleCall
  /-- The content of TransferQueue at the last poll. -/
  snapshot : TransferQueue T
  selected : List String
  batch : List (String × T)

/-- The program counter of `sample`. -/
inductive SamplePc (T : Type) where
  | idle
  | polling (call : SampleCall)
  | dropping (call : SampleCall) (staleUids keys : List String)
  | selected (call : SampleCall) (snapshot : TransferQueue T) (uids : List String)
  | raised

structure ReplayState (T : Type) where
  store : TransferQueue T
  records : PromptRecords T
  pc : SamplePc T
  dropped : List String
  sampled : List (Sampled T)

inductive ReplayAct (T : Type) where
  /-- The rollout puts a fresh prompt. -/
  | submit (uid partitionId : String) (globalSteps : Int)
  | start (uid : String)
  | write (uid : String) (sessionId index : Nat) (tag : T)
  | terminate (uid : String) (status : PromptStatus)
  | call (call : SampleCall)
  /-- One poll, with an order in which the set of sampleable prompts is iterated. -/
  | poll (order : List String)
  | clearStale
  | clearSelected
  /-- The trainer clears trajectories of a batch that it was given. -/
  | clearTrajectories (batch : Nat) (keys : List String)

namespace ReplayState

/-- The state before the first step. -/
def init : ReplayState T := ⟨∅, ∅, .idle, [], []⟩

/-- The prompts that were returned or dropped. -/
def gone (s : ReplayState T) : List String := s.sampled.flatMap Sampled.selected ++ s.dropped

/-- A put of the prompt key with the tag of `r`. -/
def putPrompt (s : ReplayState T) (uid : String) (r : PromptRecord T) : ReplayState T :=
  { s with
    store := s.store.kvPut r.partitionId uid (.prompt r.status r.globalSteps)
    records := s.records.insert uid r }

/-- A put of a trajectory of the prompt `uid`. -/
def putTrajectory (s : ReplayState T) (uid : String) (r : PromptRecord T) (key : String) (tag : T) :
    ReplayState T :=
  { s with
    store := s.store.kvPut r.partitionId key (.trajectory tag)
    records := s.records.insert uid { r with written := r.written.insert key tag } }

/-- One pass of the loop in `sample`, up to its next access to TransferQueue. -/
def poll (cfg : ReplayConfig) (s : ReplayState T) (call : SampleCall) (order : List String) :
    Option (ReplayState T) :=
  let metadata := syncMetadata s.store call.partitionId
  let stale := metadata.staleUids cfg call
  if stale ≠ [] then some { s with pc := .dropping call stale (metadata.staleKeys cfg call) }
  else if metadata.hasEnoughSamples cfg call then
    if order.Perm (metadata.sampleableTerminalKeys cfg call) then
      some { s with pc := .selected call s.store (metadata.selectPrompts call order) }
    else none
  else some s

/-- The end of `sample`. -/
def finish (cfg : ReplayConfig) (s : ReplayState T) (call : SampleCall)
    (snapshot : TransferQueue T) (uids : List String) : ReplayState T :=
  let metadata := syncMetadata snapshot call.partitionId
  if metadata.spansWithin cfg call uids then
    { s with
      store := s.store.kvClear call.partitionId uids
      pc := .idle
      sampled := s.sampled ++ [⟨call, snapshot, uids, metadata.trajectoriesOf uids⟩] }
  else { s with pc := .raised }

/-- A step of the rollout or of the trainer. -/
def next (cfg : ReplayConfig) (s : ReplayState T) : ReplayAct T → Option (ReplayState T)
  | .submit uid partitionId globalSteps =>
      if IsUid uid ∧ uid ∉ s.records then
        some (s.putPrompt uid ⟨partitionId, globalSteps, .pending, ∅⟩)
      else none
  | .start uid =>
      (s.records.lookup uid).bind fun r =>
        if r.status = .pending then some (s.putPrompt uid { r with status := .running }) else none
  | .write uid sessionId index tag =>
      (s.records.lookup uid).bind fun r =>
        if r.status = .running then
          some (s.putTrajectory uid r (trajectoryKey uid sessionId index) tag)
        else none
  | .terminate uid status =>
      (s.records.lookup uid).bind fun r =>
        if r.status = .running ∧ status.IsTerminal then
          some (s.putPrompt uid { r with status })
        else none
  | .call call =>
      match s.pc with
      | .idle => some { s with pc := .polling call }
      | _ => none
  | .poll order =>
      match s.pc with
      | .polling call => s.poll cfg call order
      | _ => none
  | .clearStale =>
      match s.pc with
      | .dropping call staleUids keys =>
          some { s with
            store := s.store.kvClear call.partitionId keys
            dropped := s.dropped ++ staleUids
            pc := .polling call }
      | _ => none
  | .clearSelected =>
      match s.pc with
      | .selected call snapshot uids => some (s.finish cfg call snapshot uids)
      | _ => none
  | .clearTrajectories batch keys =>
      (s.sampled[batch]?).bind fun b =>
        if keys ⊆ b.batch.map Prod.fst then
          some { s with store := s.store.kvClear b.call.partitionId keys }
        else none

end ReplayState

/-! ## TransferQueue and the records -/

/-- TransferQueue holds the recorded prompts that are not gone, with all their
trajectories, and otherwise only trajectories of prompts that are gone. -/
structure StoreOk (store : TransferQueue T) (records : PromptRecords T) (gone : List String) :
    Prop where
  uids : ∀ uid r, records.lookup uid = some r → IsUid uid
  keys : ∀ uid r key tag, records.lookup uid = some r → r.written.lookup key = some tag →
    uidOfKey key = uid ∧ ¬ IsUid key
  prompts : ∀ p uid status g, store.get? p uid = some (.prompt status g) ↔
    uid ∉ gone ∧ ∃ r, records.lookup uid = some r ∧
      r.partitionId = p ∧ r.status = status ∧ r.globalSteps = g
  trajectories : ∀ p key tag, store.get? p key = some (.trajectory tag) →
    ∃ uid r, records.lookup uid = some r ∧ r.partitionId = p ∧ r.written.lookup key = some tag
  complete : ∀ uid r key tag, records.lookup uid = some r → uid ∉ gone →
    r.written.lookup key = some tag → store.get? r.partitionId key = some (.trajectory tag)
  terminal : ∀ uid ∈ gone, ∃ r, records.lookup uid = some r ∧ r.status.IsTerminal

/-- A prompt that is over keeps its record. -/
def Grows (records records' : PromptRecords T) : Prop :=
  ∀ uid r, records.lookup uid = some r → r.status.IsTerminal → records'.lookup uid = some r

namespace StoreOk

variable {store : TransferQueue T} {records : PromptRecords T} {gone : List String}

theorem init : StoreOk (∅ : TransferQueue T) ∅ [] where
  uids := fun _ _ h => nomatch h
  keys := fun _ _ _ _ h => nomatch h
  prompts := fun _ _ _ _ => iff_of_false nofun fun ⟨_, _, h, _⟩ => nomatch h
  trajectories := fun _ _ _ h => nomatch h
  complete := fun _ _ _ _ h => nomatch h
  terminal := fun _ h => nomatch h

/-- The record of a prompt may be replaced while the prompt is not over. -/
theorem grows_insert {uid : String} (r : PromptRecord T)
    (hopen : ∀ r', records.lookup uid = some r' → ¬ r'.status.IsTerminal) :
    Grows records (records.insert uid r) := by
  intro uid' r' hr' hterminal
  have hne : uid' ≠ uid := by
    rintro rfl
    exact hopen r' hr' hterminal
  rw [AList.lookup_insert_ne hne]
  exact hr'

theorem not_gone (h : StoreOk store records gone) {uid : String}
    (hopen : ∀ r', records.lookup uid = some r' → ¬ r'.status.IsTerminal) : uid ∉ gone := by
  intro hgone
  obtain ⟨r, hr, hterminal⟩ := h.terminal uid hgone
  exact hopen r hr hterminal

/-- A put of a prompt key: the prompt is fresh, or not over and keeps its
partition and its trajectories. -/
theorem putPrompt (h : StoreOk store records gone) {uid : String} {r : PromptRecord T}
    (huid : IsUid uid) (hopen : ∀ r', records.lookup uid = some r' → ¬ r'.status.IsTerminal)
    (hsame : ∀ r', records.lookup uid = some r' → r.partitionId = r'.partitionId)
    (hwritten : ∀ key tag, r.written.lookup key = some tag ↔
      ∃ r', records.lookup uid = some r' ∧ r'.written.lookup key = some tag) :
    StoreOk (store.kvPut r.partitionId uid (.prompt r.status r.globalSteps))
      (records.insert uid r) gone := by
  have hnot := h.not_gone hopen
  refine ⟨?_, ?_, ?_, ?_, ?_, ?_⟩
  · intro uid' r' hr'
    by_cases heq : uid' = uid
    · exact heq ▸ huid
    · rw [AList.lookup_insert_ne heq] at hr'
      exact h.uids uid' r' hr'
  · intro uid' r' key tag hr' hkey
    by_cases heq : uid' = uid
    · subst heq
      rw [AList.lookup_insert, Option.some.injEq] at hr'
      subst hr'
      obtain ⟨old, hold, holdkey⟩ := (hwritten key tag).mp hkey
      exact h.keys uid' old key tag hold holdkey
    · rw [AList.lookup_insert_ne heq] at hr'
      exact h.keys uid' r' key tag hr' hkey
  · intro p uid' status g
    rw [TransferQueue.get?_kvPut]
    by_cases heq : uid' = uid
    · subst heq
      rw [AList.lookup_insert]
      by_cases hp : p = r.partitionId
      · subst hp
        rw [if_pos ⟨rfl, rfl⟩, Option.some.injEq, Tag.prompt.injEq]
        constructor
        · rintro ⟨rfl, rfl⟩
          exact ⟨hnot, r, rfl, rfl, rfl, rfl⟩
        · rintro ⟨-, r', hr', -, rfl, rfl⟩
          rw [Option.some.inj hr']
          exact ⟨rfl, rfl⟩
      · rw [if_neg fun hand => hp hand.1, h.prompts]
        constructor
        · rintro ⟨-, r', hr', rfl, -⟩
          exact absurd (hsame r' hr').symm hp
        · rintro ⟨-, r', hr', rfl, -⟩
          rw [Option.some.inj hr'] at hp
          exact absurd rfl hp
    · rw [if_neg fun hand => heq hand.2, h.prompts, AList.lookup_insert_ne heq]
  · intro p key tag hget
    rw [TransferQueue.get?_kvPut] at hget
    split at hget
    next => cases hget
    next =>
      obtain ⟨uid', r', hr', hp, hkey⟩ := h.trajectories p key tag hget
      by_cases heq : uid' = uid
      · subst heq
        exact ⟨uid', r, AList.lookup_insert _, (hsame r' hr').trans hp,
          (hwritten key tag).mpr ⟨r', hr', hkey⟩⟩
      · exact ⟨uid', r', (AList.lookup_insert_ne heq).trans hr', hp, hkey⟩
  · intro uid' r' key tag hr' hgone hkey
    have hold : ∃ old, records.lookup uid' = some old ∧ old.partitionId = r'.partitionId ∧
        old.written.lookup key = some tag := by
      by_cases heq : uid' = uid
      · subst heq
        rw [AList.lookup_insert, Option.some.injEq] at hr'
        subst hr'
        obtain ⟨old, hold, holdkey⟩ := (hwritten key tag).mp hkey
        exact ⟨old, hold, (hsame old hold).symm, holdkey⟩
      · rw [AList.lookup_insert_ne heq] at hr'
        exact ⟨r', hr', rfl, hkey⟩
    obtain ⟨old, hold, hp, holdkey⟩ := hold
    have hne : key ≠ uid := by
      rintro rfl
      exact (h.keys uid' old key tag hold holdkey).2 huid
    rw [TransferQueue.get?_kvPut, if_neg fun hand => hne hand.2, ← hp]
    exact h.complete uid' old key tag hold hgone holdkey
  · intro uid' hgone
    obtain ⟨r', hr', hterminal⟩ := h.terminal uid' hgone
    exact ⟨r', grows_insert r hopen uid' r' hr' hterminal, hterminal⟩

/-- A put of a trajectory of a prompt that is not over. -/
theorem putTrajectory (h : StoreOk store records gone) {uid : String} {r : PromptRecord T}
    (hr : records.lookup uid = some r) (hopen : ¬ r.status.IsTerminal)
    (sessionId index : Nat) (tag : T) :
    StoreOk (store.kvPut r.partitionId (trajectoryKey uid sessionId index) (.trajectory tag))
      (records.insert uid
        { r with written := r.written.insert (trajectoryKey uid sessionId index) tag }) gone := by
  have huid := h.uids uid r hr
  have hnew := uidOfKey_trajectoryKey huid sessionId index
  have hnotuid := not_isUid_trajectoryKey uid sessionId index
  generalize trajectoryKey uid sessionId index = new at hnew hnotuid ⊢
  have hopen' : ∀ r', records.lookup uid = some r' → ¬ r'.status.IsTerminal := by
    intro r' hr'
    rw [hr, Option.some.injEq] at hr'
    exact hr' ▸ hopen
  -- A recorded key of the new records is the new one or an old one.
  have hcases : ∀ uid' r' key t,
      (records.insert uid { r with written := r.written.insert new tag }).lookup uid' = some r' →
      r'.written.lookup key = some t →
      (uid' = uid ∧ r'.partitionId = r.partitionId ∧ key = new ∧ t = tag) ∨
        key ≠ new ∧ ∃ old, records.lookup uid' = some old ∧ old.partitionId = r'.partitionId ∧
          old.written.lookup key = some t := by
    intro uid' r' key t hr' hkey
    by_cases heq : uid' = uid
    · subst heq
      rw [AList.lookup_insert, Option.some.injEq] at hr'
      subst hr'
      by_cases hkeyeq : key = new
      · subst hkeyeq
        rw [AList.lookup_insert, Option.some.injEq] at hkey
        exact .inl ⟨rfl, rfl, rfl, hkey.symm⟩
      · rw [AList.lookup_insert_ne hkeyeq] at hkey
        exact .inr ⟨hkeyeq, r, hr, rfl, hkey⟩
    · rw [AList.lookup_insert_ne heq] at hr'
      refine .inr ⟨?_, r', hr', rfl, hkey⟩
      rintro rfl
      exact heq ((h.keys uid' r' key t hr' hkey).1.symm.trans hnew)
  refine ⟨?_, ?_, ?_, ?_, ?_, ?_⟩
  · intro uid' r' hr'
    by_cases heq : uid' = uid
    · exact heq ▸ huid
    · rw [AList.lookup_insert_ne heq] at hr'
      exact h.uids uid' r' hr'
  · intro uid' r' key t hr' hkey
    rcases hcases uid' r' key t hr' hkey with ⟨rfl, -, rfl, -⟩ | ⟨-, old, hold, -, holdkey⟩
    · exact ⟨hnew, hnotuid⟩
    · exact h.keys uid' old key t hold holdkey
  · intro p uid' status g
    by_cases heq : uid' = uid
    · subst heq
      have hne : uid' ≠ new := fun heq => hnotuid (heq ▸ huid)
      rw [TransferQueue.get?_kvPut, if_neg fun hand => hne hand.2, h.prompts,
        AList.lookup_insert, hr]
      simp only [Option.some.injEq, exists_eq_left']
    · rw [AList.lookup_insert_ne heq, ← h.prompts, TransferQueue.get?_kvPut]
      split
      next hand =>
        refine iff_of_false nofun fun hget => ?_
        obtain ⟨-, r', hr', -⟩ := (h.prompts p uid' status g).mp hget
        exact hnotuid (hand.2 ▸ h.uids uid' r' hr')
      next => exact Iff.rfl
  · intro p key t hget
    rw [TransferQueue.get?_kvPut] at hget
    split at hget
    next hand =>
      obtain ⟨rfl, rfl⟩ := hand
      rw [Option.some.injEq, Tag.trajectory.injEq] at hget
      subst hget
      exact ⟨uid, _, AList.lookup_insert _, rfl, AList.lookup_insert _⟩
    next hand =>
      obtain ⟨uid', r', hr', hp, hkey⟩ := h.trajectories p key t hget
      by_cases heq : uid' = uid
      · subst heq
        rw [hr, Option.some.injEq] at hr'
        subst hr'
        have hne : key ≠ new := fun heq => hand ⟨hp.symm, heq⟩
        exact ⟨uid', _, AList.lookup_insert _, hp, (AList.lookup_insert_ne hne).trans hkey⟩
      · exact ⟨uid', r', (AList.lookup_insert_ne heq).trans hr', hp, hkey⟩
  · intro uid' r' key t hr' hgone hkey
    rw [TransferQueue.get?_kvPut]
    rcases hcases uid' r' key t hr' hkey with ⟨-, hp, hkeyeq, rfl⟩ |
      ⟨hne, old, hold, hp, holdkey⟩
    · rw [if_pos ⟨hp, hkeyeq⟩]
    · rw [if_neg fun hand => hne hand.2, ← hp]
      exact h.complete uid' old key t hold hgone holdkey
  · intro uid' hgone
    obtain ⟨r', hr', hterminal⟩ := h.terminal uid' hgone
    exact ⟨r', grows_insert _ hopen' uid' r' hr' hterminal, hterminal⟩

/-- A clear that makes the prompts of `gone'` gone: their keys that are still
there are cleared, and no other prompt loses a key. -/
theorem kvClear (h : StoreOk store records gone) {gone' keys : List String} {p : String}
    (hsub : gone ⊆ gone')
    (hover : ∀ uid ∈ gone', ∃ r, records.lookup uid = some r ∧ r.status.IsTerminal)
    (hkeys : ∀ key ∈ keys, uidOfKey key ∈ gone')
    (hcleared : ∀ uid ∈ gone', uid ∉ gone → uid ∈ keys ∧
      ∃ r, records.lookup uid = some r ∧ r.partitionId = p) :
    StoreOk (store.kvClear p keys) records gone' := by
  refine ⟨h.uids, h.keys, ?_, ?_, ?_, hover⟩
  · intro p' uid status g
    rw [TransferQueue.get?_kvClear]
    split
    next hand =>
      refine iff_of_false nofun ?_
      rintro ⟨hnot, r, hr, -⟩
      have hprefix := hkeys uid hand.2
      rw [uidOfKey_of_isUid (h.uids uid r hr)] at hprefix
      exact hnot hprefix
    next hand =>
      rw [h.prompts]
      constructor
      · rintro ⟨hnot, r, hr, hp, hrest⟩
        refine ⟨fun hgone => ?_, r, hr, hp, hrest⟩
        obtain ⟨hmem, r', hr', hp'⟩ := hcleared uid hgone hnot
        rw [hr, Option.some.injEq] at hr'
        subst hr'
        exact hand ⟨hp.symm.trans hp', hmem⟩
      · rintro ⟨hnot, hrecord⟩
        exact ⟨fun hgone => hnot (hsub hgone), hrecord⟩
  · intro p' key tag hget
    rw [TransferQueue.get?_kvClear] at hget
    split at hget
    next => cases hget
    next => exact h.trajectories p' key tag hget
  · intro uid r key tag hr hgone hkey
    rw [TransferQueue.get?_kvClear]
    split
    next hand =>
      have hprefix := hkeys key hand.2
      rw [(h.keys uid r key tag hr hkey).1] at hprefix
      exact absurd hprefix hgone
    next => exact h.complete uid r key tag hr (fun hmem => hgone (hsub hmem)) hkey

end StoreOk

/-! ## Selections -/

/-- The selected prompts are over, and the snapshot has their trajectories. -/
structure SelectionOk (cfg : ReplayConfig) (records : PromptRecords T) (call : SampleCall)
    (snapshot : TransferQueue T) (uids : List String) : Prop where
  length : uids.length = call.batchSize
  nodup : uids.Nodup
  recorded : ∀ uid ∈ uids, ∃ r, records.lookup uid = some r ∧ r.status.IsTerminal ∧
    r.partitionId = call.partitionId ∧ snapshot.HasSampleable cfg call uid r.globalSteps ∧
    ∀ key tag, r.written.lookup key = some tag ↔
      snapshot.get? call.partitionId key = some (.trajectory tag) ∧ uidOfKey key = uid
  waited : cfg.maxOffPolicyStrategy = .wait → ∀ uid g,
    snapshot.HasActive call.partitionId uid g → call.span g < cfg.maxOffPolicyThreshold
  oldest : ∀ uid g, snapshot.HasSampleable cfg call uid g → uid ∉ uids →
    ∀ selected ∈ uids, ∀ g', snapshot.HasTerminal call.partitionId selected g' → g' ≤ g

variable {cfg : ReplayConfig} {store : TransferQueue T} {records records' : PromptRecords T}
  {gone : List String} {call : SampleCall}

theorem SelectionOk.mono {snapshot : TransferQueue T} {uids : List String}
    (h : SelectionOk cfg records call snapshot uids) (hgrows : Grows records records') :
    SelectionOk cfg records' call snapshot uids := by
  refine ⟨h.length, h.nodup, fun uid huid => ?_, h.waited, h.oldest⟩
  obtain ⟨r, hr, hterminal, hrest⟩ := h.recorded uid huid
  exact ⟨r, hgrows uid r hr hterminal, hterminal, hrest⟩

/-- A prompt that a poll finds to be over has its record and all its trajectories. -/
theorem StoreOk.recorded (h : StoreOk store records gone) {p uid : String} {g : Int}
    (hterminal : store.HasTerminal p uid g) :
    uid ∉ gone ∧ ∃ r, records.lookup uid = some r ∧ r.status.IsTerminal ∧ r.partitionId = p ∧
      r.globalSteps = g ∧ ∀ key tag, r.written.lookup key = some tag ↔
        store.get? p key = some (.trajectory tag) ∧ uidOfKey key = uid := by
  obtain ⟨status, hget, hstatus⟩ := hterminal
  obtain ⟨hnot, r, hr, hp, rfl, hg⟩ := (h.prompts p uid status g).mp hget
  refine ⟨hnot, r, hr, hstatus, hp, hg, fun key tag => ⟨fun hkey => ?_, ?_⟩⟩
  · exact ⟨hp ▸ h.complete uid r key tag hr hnot hkey, (h.keys uid r key tag hr hkey).1⟩
  · rintro ⟨hkey, huid⟩
    obtain ⟨uid', r', hr', -, hwritten⟩ := h.trajectories p key tag hkey
    have heq : uid' = uid := (h.keys uid' r' key tag hr' hwritten).1.symm.trans huid
    rw [heq, hr, Option.some.injEq] at hr'
    exact hr' ▸ hwritten

/-- What a poll selects when it found enough samples. -/
theorem StoreOk.selectionOk (h : StoreOk store records gone) {order : List String}
    (henough : (syncMetadata store call.partitionId).hasEnoughSamples cfg call = true)
    (horder : order.Perm ((syncMetadata store call.partitionId).sampleableTerminalKeys cfg call)) :
    SelectionOk cfg records call store
        ((syncMetadata store call.partitionId).selectPrompts call order) ∧
      ∀ uid ∈ (syncMetadata store call.partitionId).selectPrompts call order, uid ∉ gone := by
  obtain ⟨hwait, hsize⟩ := hasEnoughSamples_spec henough
  have hsampleable : ∀ uid ∈ (syncMetadata store call.partitionId).selectPrompts call order,
      ∃ g, store.HasSampleable cfg call uid g := by
    intro uid huid
    exact mem_sampleableTerminalKeys.mp (horder.mem_iff.mp (mem_of_mem_selectPrompts huid))
  refine ⟨⟨?_, ?_, ?_, hwait, ?_⟩, ?_⟩
  · refine length_selectPrompts ?_
    rw [horder.length_eq]
    exact hsize
  · exact nodup_selectPrompts (horder.nodup_iff.mpr nodup_sampleableTerminalKeys)
  · intro uid huid
    obtain ⟨g, hg⟩ := hsampleable uid huid
    obtain ⟨-, r, hr, hterminal, hp, rfl, hwritten⟩ := h.recorded hg.1
    exact ⟨r, hr, hterminal, hp, hg, hwritten⟩
  · intro uid g hg hnot selected hselected g' hg'
    have hmem := horder.mem_iff.mpr (mem_sampleableTerminalKeys.mpr ⟨g, hg⟩)
    have hle := stepsOf_le_of_not_mem_selectPrompts hmem hnot hselected
    obtain ⟨⟨status, hget, -⟩, -⟩ := hg
    obtain ⟨status', hget', -⟩ := hg'
    rwa [stepsOf_syncMetadata 0 hget, stepsOf_syncMetadata 0 hget'] at hle
  · intro uid huid
    obtain ⟨g, hg⟩ := hsampleable uid huid
    exact (h.recorded hg.1).1

/-- The assertion at the end of `sample` does not fail. -/
theorem SelectionOk.spansWithin {snapshot : TransferQueue T} {uids : List String}
    (h : SelectionOk cfg records call snapshot uids) :
    (syncMetadata snapshot call.partitionId).spansWithin cfg call uids := by
  intro hdrop uid huid
  obtain ⟨r, -, -, -, ⟨⟨status, hget, -⟩, hspan⟩, -⟩ := h.recorded uid huid
  rw [stepsOf_syncMetadata _ hget]
  exact hspan hdrop

/-! ## The invariant -/

namespace ReplayState

/-- What the trainer knows between two accesses. -/
def PcOk (cfg : ReplayConfig) (s : ReplayState T) : Prop :=
  match s.pc with
  | .idle => True
  | .polling _ => True
  | .dropping call staleUids keys =>
      staleUids.Nodup ∧ (∀ key ∈ keys, uidOfKey key ∈ staleUids) ∧
        ∀ uid ∈ staleUids, uid ∈ keys ∧ uid ∉ s.gone ∧ ∃ r, s.records.lookup uid = some r ∧
          r.status.IsTerminal ∧ r.partitionId = call.partitionId
  | .selected call snapshot uids =>
      SelectionOk cfg s.records call snapshot uids ∧ ∀ uid ∈ uids, uid ∉ s.gone
  | .raised => False

/-- The invariant of the system. -/
structure Ok (cfg : ReplayConfig) (s : ReplayState T) : Prop where
  store : StoreOk s.store s.records s.gone
  gone_nodup : s.gone.Nodup
  sampled : ∀ b ∈ s.sampled, SelectionOk cfg s.records b.call b.snapshot b.selected ∧
    b.batch = (syncMetadata b.snapshot b.call.partitionId).trajectoriesOf b.selected
  pc : s.PcOk cfg

theorem init_ok (cfg : ReplayConfig) : (init : ReplayState T).Ok cfg :=
  ⟨.init, List.nodup_nil, (fun _ h => nomatch h), trivial⟩

/-- The rollout changes TransferQueue and the records. -/
theorem Ok.rollout {s : ReplayState T} (hs : s.Ok cfg) {store : TransferQueue T}
    {records : PromptRecords T} (hstore : StoreOk store records s.gone)
    (hgrows : Grows s.records records) : ({ s with store, records } : ReplayState T).Ok cfg := by
  refine ⟨hstore, hs.gone_nodup, fun b hb => ?_, ?_⟩
  · exact ⟨(hs.sampled b hb).1.mono hgrows, (hs.sampled b hb).2⟩
  · have hpc := hs.pc
    rw [PcOk] at hpc ⊢
    split
    next => trivial
    next => trivial
    next call staleUids keys heq =>
      rw [heq] at hpc
      refine ⟨hpc.1, hpc.2.1, fun uid huid => ?_⟩
      obtain ⟨hmem, hnot, r, hr, hterminal, hp⟩ := hpc.2.2 uid huid
      exact ⟨hmem, hnot, r, hgrows uid r hr hterminal, hterminal, hp⟩
    next call snapshot uids heq =>
      rw [heq] at hpc
      exact ⟨hpc.1.mono hgrows, hpc.2⟩
    next heq =>
      rw [heq] at hpc
      exact hpc

/-- A put of the prompt key of a prompt that is fresh or not over. -/
theorem Ok.putPrompt {s : ReplayState T} (hs : s.Ok cfg) {uid : String} {r : PromptRecord T}
    (huid : IsUid uid) (hopen : ∀ r', s.records.lookup uid = some r' → ¬ r'.status.IsTerminal)
    (hsame : ∀ r', s.records.lookup uid = some r' → r.partitionId = r'.partitionId)
    (hwritten : ∀ key tag, r.written.lookup key = some tag ↔
      ∃ r', s.records.lookup uid = some r' ∧ r'.written.lookup key = some tag) :
    (s.putPrompt uid r).Ok cfg :=
  hs.rollout (hs.store.putPrompt huid hopen hsame hwritten) (StoreOk.grows_insert r hopen)

/-- A new status of a prompt that is not over. -/
theorem Ok.putStatus {s : ReplayState T} (hs : s.Ok cfg) {uid : String} {r : PromptRecord T}
    (hr : s.records.lookup uid = some r) (hopen : ¬ r.status.IsTerminal) (status : PromptStatus) :
    (s.putPrompt uid { r with status }).Ok cfg := by
  have hunique : ∀ r', s.records.lookup uid = some r' → r' = r := by
    intro r' hr'
    rw [hr, Option.some.injEq] at hr'
    exact hr'.symm
  refine hs.putPrompt (hs.store.uids uid r hr) ?_ ?_ ?_
  · intro r' hr'
    rw [hunique r' hr']
    exact hopen
  · intro r' hr'
    rw [hunique r' hr']
  · intro key tag
    constructor
    · intro hkey
      exact ⟨r, hr, hkey⟩
    · rintro ⟨r', hr', hkey⟩
      rwa [hunique r' hr'] at hkey

/-- A step of `sample` that leaves TransferQueue and what is gone unchanged. -/
theorem Ok.movePc {s : ReplayState T} (hs : s.Ok cfg) {pc : SamplePc T}
    (hpc : ({ s with pc } : ReplayState T).PcOk cfg) : ({ s with pc } : ReplayState T).Ok cfg :=
  ⟨hs.store, hs.gone_nodup, hs.sampled, hpc⟩

/-- One poll. -/
theorem Ok.poll {s t : ReplayState T} (hs : s.Ok cfg) {order : List String}
    (h : s.poll cfg call order = some t) : t.Ok cfg := by
  rw [ReplayState.poll] at h
  split at h
  next hstale =>
    obtain rfl := Option.some.inj h
    refine hs.movePc ⟨nodup_staleUids, fun key hkey => ?_, fun uid huid => ?_⟩
    · rw [PartitionMetadata.staleKeys, List.mem_append] at hkey
      rcases hkey with hkey | hkey
      · obtain ⟨g, hg⟩ := hasTerminal_of_mem_staleUids hkey
        obtain ⟨-, r, hr, -⟩ := hs.store.recorded hg
        rwa [uidOfKey_of_isUid (hs.store.uids key r hr)]
      · obtain ⟨item, hitem, rfl⟩ := List.mem_map.mp hkey
        exact decide_eq_true_eq.mp (List.mem_filter.mp hitem).2
    · obtain ⟨g, hg⟩ := hasTerminal_of_mem_staleUids huid
      obtain ⟨hnot, r, hr, hterminal, hp, -⟩ := hs.store.recorded hg
      exact ⟨List.mem_append_left _ huid, hnot, r, hr, hterminal, hp⟩
  next =>
    split at h
    next henough =>
      split at h
      next horder =>
        obtain rfl := Option.some.inj h
        exact hs.movePc (hs.store.selectionOk henough horder)
      next => cases h
    next =>
      obtain rfl := Option.some.inj h
      exact hs

/-- The clear of stale prompts and their trajectories. -/
theorem Ok.clearStale {s : ReplayState T} (hs : s.Ok cfg) {staleUids keys : List String}
    (hpc : s.pc = .dropping call staleUids keys) :
    ({ s with
        store := s.store.kvClear call.partitionId keys
        dropped := s.dropped ++ staleUids
        pc := .polling call } : ReplayState T).Ok cfg := by
  have hdropping := hs.pc
  rw [PcOk, hpc] at hdropping
  obtain ⟨hnodup, hkeys, hstale⟩ := hdropping
  have hgone : ({ s with
      store := s.store.kvClear call.partitionId keys
      dropped := s.dropped ++ staleUids
      pc := .polling call } : ReplayState T).gone = s.gone ++ staleUids :=
    (List.append_assoc _ _ _).symm
  refine ⟨?_, ?_, hs.sampled, trivial⟩
  · rw [hgone]
    refine hs.store.kvClear (List.subset_append_left _ _) ?_ ?_ ?_
    · intro uid huid
      rcases List.mem_append.mp huid with huid | huid
      · exact hs.store.terminal uid huid
      · obtain ⟨-, -, r, hr, hterminal, -⟩ := hstale uid huid
        exact ⟨r, hr, hterminal⟩
    · intro key hkey
      exact List.mem_append_right _ (hkeys key hkey)
    · intro uid huid hnot
      obtain ⟨hmem, -, r, hr, -, hp⟩ := hstale uid ((List.mem_append.mp huid).resolve_left hnot)
      exact ⟨hmem, r, hr, hp⟩
  · rw [hgone]
    exact hs.gone_nodup.append hnodup fun uid hgone huid => (hstale uid huid).2.1 hgone

/-- The end of `sample`, which clears the selected prompts. -/
theorem Ok.finish {s : ReplayState T} (hs : s.Ok cfg) {snapshot : TransferQueue T}
    {uids : List String} (hpc : s.pc = .selected call snapshot uids) :
    (s.finish cfg call snapshot uids).Ok cfg := by
  have hselected := hs.pc
  rw [PcOk, hpc] at hselected
  obtain ⟨hselection, hnot⟩ := hselected
  rw [ReplayState.finish, if_pos hselection.spansWithin]
  have hperm : ∀ batch, (({ s with
      store := s.store.kvClear call.partitionId uids
      pc := .idle
      sampled := s.sampled ++ [⟨call, snapshot, uids, batch⟩] } : ReplayState T).gone).Perm
        (s.gone ++ uids) := by
    intro batch
    rw [gone, List.flatMap_append, List.flatMap_singleton, gone, List.append_assoc,
      List.append_assoc]
    exact List.perm_append_comm.append_left _
  have hnodup : (s.gone ++ uids).Nodup :=
    hs.gone_nodup.append hselection.nodup fun uid hgone huid => hnot uid huid hgone
  refine ⟨?_, (hperm _).nodup_iff.mpr hnodup, ?_, trivial⟩
  · refine hs.store.kvClear ?_ ?_ ?_ ?_
    · intro uid huid
      exact (hperm _).mem_iff.mpr (List.mem_append_left _ huid)
    · intro uid huid
      rcases List.mem_append.mp ((hperm _).mem_iff.mp huid) with huid | huid
      · exact hs.store.terminal uid huid
      · obtain ⟨r, hr, hterminal, -⟩ := hselection.recorded uid huid
        exact ⟨r, hr, hterminal⟩
    · intro key hkey
      obtain ⟨r, hr, -⟩ := hselection.recorded key hkey
      rw [uidOfKey_of_isUid (hs.store.uids key r hr)]
      exact (hperm _).mem_iff.mpr (List.mem_append_right _ hkey)
    · intro uid huid hgone
      have hmem := (List.mem_append.mp ((hperm _).mem_iff.mp huid)).resolve_left hgone
      obtain ⟨r, hr, -, hp, -⟩ := hselection.recorded uid hmem
      exact ⟨hmem, r, hr, hp⟩
  · intro b hb
    rcases List.mem_append.mp hb with hb | hb
    · exact hs.sampled b hb
    · rw [List.mem_singleton.mp hb]
      exact ⟨hselection, rfl⟩

/-- The trainer clears trajectories of prompts that are gone. -/
theorem Ok.clearTrajectories {s : ReplayState T} (hs : s.Ok cfg) {b : Sampled T}
    (hb : b ∈ s.sampled) {keys : List String} (hkeys : keys ⊆ b.batch.map Prod.fst) :
    ({ s with store := s.store.kvClear b.call.partitionId keys } : ReplayState T).Ok cfg := by
  refine hs.rollout ?_ (fun _ _ hr _ => hr)
  refine hs.store.kvClear (List.Subset.refl _) hs.store.terminal ?_ ?_
  · intro key hkey
    obtain ⟨item, hitem, rfl⟩ := List.mem_map.mp (hkeys hkey)
    rw [(hs.sampled b hb).2] at hitem
    have huid := decide_eq_true_eq.mp (List.mem_filter.mp hitem).2
    exact List.mem_append_left _ (List.mem_flatMap.mpr ⟨b, hb, huid⟩)
  · intro uid hgone hnot
    exact absurd hgone hnot

/-- Every step keeps the invariant. -/
theorem Ok.next {s t : ReplayState T} {a : ReplayAct T} (hs : s.Ok cfg)
    (h : s.next cfg a = some t) : t.Ok cfg := by
  cases a with
  | submit uid partitionId globalSteps =>
      simp only [ReplayState.next] at h
      split at h
      next hfresh =>
        obtain rfl := Option.some.inj h
        have hnone := AList.lookup_eq_none.mpr hfresh.2
        refine hs.putPrompt hfresh.1 ?_ ?_ ?_
        · intro r' hr'
          rw [hnone] at hr'
          cases hr'
        · intro r' hr'
          rw [hnone] at hr'
          cases hr'
        · intro key tag
          refine iff_of_false nofun ?_
          rintro ⟨r', hr', -⟩
          rw [hnone] at hr'
          cases hr'
      next => cases h
  | start uid =>
      obtain ⟨r, hr, h⟩ := Option.bind_eq_some_iff.mp h
      split at h
      next hpending =>
        obtain rfl := Option.some.inj h
        refine hs.putStatus hr ?_ .running
        rw [hpending]
        decide
      next => cases h
  | write uid sessionId index tag =>
      obtain ⟨r, hr, h⟩ := Option.bind_eq_some_iff.mp h
      split at h
      next hrunning =>
        obtain rfl := Option.some.inj h
        have hopen : ¬ r.status.IsTerminal := by
          rw [hrunning]
          decide
        refine hs.rollout (hs.store.putTrajectory hr hopen sessionId index tag) ?_
        refine StoreOk.grows_insert _ fun r' hr' => ?_
        rw [hr, Option.some.injEq] at hr'
        exact hr' ▸ hopen
      next => cases h
  | terminate uid status =>
      obtain ⟨r, hr, h⟩ := Option.bind_eq_some_iff.mp h
      split at h
      next hrunning =>
        obtain rfl := Option.some.inj h
        refine hs.putStatus hr ?_ status
        rw [hrunning.1]
        decide
      next => cases h
  | call call =>
      simp only [ReplayState.next] at h
      split at h
      next =>
        obtain rfl := Option.some.inj h
        exact hs.movePc trivial
      next => cases h
  | poll order =>
      simp only [ReplayState.next] at h
      split at h
      next => exact hs.poll h
      next => cases h
  | clearStale =>
      simp only [ReplayState.next] at h
      split at h
      next hpc =>
        obtain rfl := Option.some.inj h
        exact hs.clearStale hpc
      next => cases h
  | clearSelected =>
      simp only [ReplayState.next] at h
      split at h
      next hpc =>
        obtain rfl := Option.some.inj h
        exact hs.finish hpc
      next => cases h
  | clearTrajectories batch keys =>
      obtain ⟨b, hb, h⟩ := Option.bind_eq_some_iff.mp h
      split at h
      next hkeys =>
        obtain rfl := Option.some.inj h
        exact hs.clearTrajectories (List.mem_of_getElem? hb) hkeys
      next => cases h

end ReplayState

/-! ## Every interleaving -/

/-- What a call of `sample` returned, compared with the snapshot of its last poll
and with the records of the rollout. -/
structure Sampled.Ok (cfg : ReplayConfig) (records : PromptRecords T) (b : Sampled T) : Prop where
  batchSize : b.selected.length = b.call.batchSize
  distinct : b.selected.Nodup
  terminal : ∀ uid ∈ b.selected, ∃ r, records.lookup uid = some r ∧ r.status.IsTerminal ∧
    r.partitionId = b.call.partitionId ∧
    b.snapshot.HasTerminal b.call.partitionId uid r.globalSteps
  keys_nodup : (b.batch.map Prod.fst).Nodup
  /-- The batch has exactly the trajectories of the selected prompts. -/
  batch : ∀ key tag, (key, tag) ∈ b.batch ↔ ∃ uid ∈ b.selected, ∃ r,
    records.lookup uid = some r ∧ r.written.lookup key = some tag
  withinThreshold : cfg.maxOffPolicyStrategy = .drop → ∀ uid ∈ b.selected, ∀ r,
    records.lookup uid = some r → b.call.span r.globalSteps ≤ cfg.maxOffPolicyThreshold
  waited : cfg.maxOffPolicyStrategy = .wait → ∀ uid g,
    b.snapshot.HasActive b.call.partitionId uid g → b.call.span g < cfg.maxOffPolicyThreshold
  oldest : ∀ uid g, b.snapshot.HasSampleable cfg b.call uid g → uid ∉ b.selected →
    ∀ selected ∈ b.selected, ∀ g',
      b.snapshot.HasTerminal b.call.partitionId selected g' → g' ≤ g

/-- The batch of a selection. -/
theorem SelectionOk.sampled_ok {b : Sampled T}
    (h : SelectionOk cfg records b.call b.snapshot b.selected)
    (hbatch : b.batch = (syncMetadata b.snapshot b.call.partitionId).trajectoriesOf b.selected) :
    b.Ok cfg records := by
  refine ⟨h.length, h.nodup, fun uid huid => ?_, ?_, fun key tag => ?_, ?_, h.waited, h.oldest⟩
  · obtain ⟨r, hr, hterminal, hp, hsampleable, -⟩ := h.recorded uid huid
    exact ⟨r, hr, hterminal, hp, hsampleable.1⟩
  · rw [hbatch]
    exact (List.filter_sublist.map Prod.fst).nodup nodup_map_fst_trajectories
  · rw [hbatch, PartitionMetadata.trajectoriesOf, List.mem_filter, decide_eq_true_eq]
    show (key, tag) ∈ trajectories _ ∧ _ ↔ _
    rw [mem_trajectories]
    constructor
    · rintro ⟨hget, huid⟩
      obtain ⟨r, hr, -, -, -, hwritten⟩ := h.recorded _ huid
      exact ⟨_, huid, r, hr, (hwritten key tag).mpr ⟨hget, rfl⟩⟩
    · rintro ⟨uid, huid, r, hr, hkey⟩
      obtain ⟨r', hr', -, -, -, hwritten⟩ := h.recorded uid huid
      rw [hr, Option.some.injEq] at hr'
      subst hr'
      obtain ⟨hget, rfl⟩ := (hwritten key tag).mp hkey
      exact ⟨hget, huid⟩
  · intro hdrop uid huid r hr
    obtain ⟨r', hr', -, -, hsampleable, -⟩ := h.recorded uid huid
    rw [hr, Option.some.injEq] at hr'
    exact hr' ▸ hsampleable.2 hdrop

/-- For every interleaving of the rollout with the calls of `sample`, every call
returns exactly the trajectories of its selection, which meets the batch size,
the strategy and the order of the versions, and no prompt is returned twice, or
both dropped and returned. -/
theorem sample_exact (cfg : ReplayConfig) (as : List (ReplayAct T)) (s : ReplayState T)
    (h : Run.exec (ReplayState.next cfg) .init as = some s) :
    (∀ b ∈ s.sampled, b.Ok cfg s.records) ∧
      (s.sampled.flatMap Sampled.selected ++ s.dropped).Nodup := by
  have hs : s.Ok cfg := Run.exec_invariant (fun _ _ _ hs hnext => hs.next hnext)
    (ReplayState.init_ok cfg) h
  refine ⟨fun b hb => ?_, hs.gone_nodup⟩
  obtain ⟨hselection, hbatch⟩ := hs.sampled b hb
  exact hselection.sampled_ok hbatch

/-- A stale prompt is dropped and a younger one is returned. -/
theorem sample_exact_drop :
    let cfg : ReplayConfig := ⟨2, .drop, by decide⟩
    let as : List (ReplayAct Nat) := [.submit "a" "train" 1, .submit "b" "train" 2, .start "a",
      .start "b", .write "a" 0 0 5, .write "b" 0 0 6, .write "b" 1 0 7, .terminate "a" .finished,
      .call ⟨3, "train", 1⟩, .poll [], .terminate "b" .failure, .clearStale, .poll ["b"],
      .clearSelected]
    ∃ s, Run.exec (ReplayState.next cfg) .init as = some s ∧ s.dropped = ["a"] ∧
      s.sampled.map Sampled.batch = [[("b_1_0", 7), ("b_0_0", 6)]] ∧
      ∀ b ∈ s.sampled, b.Ok cfg s.records := by
  intro cfg as
  have hfinal : (Run.exec (ReplayState.next cfg) .init as).map
      (fun s => (s.dropped, s.sampled.map Sampled.batch)) =
        some (["a"], [[("b_1_0", 7), ("b_0_0", 6)]]) := by
    decide
  obtain ⟨s, hrun, hs⟩ := Option.map_eq_some_iff.mp hfinal
  obtain ⟨hdropped, hbatch⟩ := Prod.mk.inj hs
  exact ⟨s, hrun, hdropped, hbatch, (sample_exact cfg as s hrun).1⟩

end Verl
