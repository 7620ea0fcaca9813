import Verl.ReplayBuffer.TransferQueue
import Mathlib.Data.List.Sort

/-!
# Sampling from the replay buffer

`ReplayBuffer.sample` polls TransferQueue.  Every poll reads one snapshot of the
metadata, and dropping, gating and selection all use this snapshot.  This module
has the functions of one poll and says what each of them computes in terms of
the content of TransferQueue.

The sets of the code have no order.  Where it sorts a set, the order of the
iteration is a parameter.
-/

namespace Verl

/-! ## The configuration -/

/-- `max_off_policy_strategy`. -/
inductive OffPolicyStrategy where
  | drop
  | wait
deriving DecidableEq

/-- The fields of `ReplayBuffer` that `sample` reads.  The constructor asserts that
the threshold is positive. -/
structure ReplayConfig where
  maxOffPolicyThreshold : Int
  maxOffPolicyStrategy : OffPolicyStrategy
  threshold_pos : 0 < maxOffPolicyThreshold

/-- The arguments of `sample`. -/
structure SampleCall where
  globalSteps : Int
  partitionId : String
  batchSize : Nat
deriving DecidableEq

/-- The number of model versions that a prompt spans. -/
def SampleCall.span (call : SampleCall) (promptGlobalSteps : Int) : Int :=
  call.globalSteps - promptGlobalSteps + 1

/-! ## The metadata of one partition -/

/-- The metadata that one sync leaves for a partition. -/
structure PartitionMetadata (T : Type) where
  partition : List (String × T)
  pendingKeys : List String
  runningKeys : List String
  finishedKeys : List String
  failureKeys : List String
  promptGlobalSteps : List (String × Int)

variable {T : Type}

/-- The prompts of a status. -/
def promptKeys (items : List (String × Tag T)) (status : PromptStatus) : List String :=
  items.filterMap fun item =>
    match item.2 with
    | .prompt s _ => if s = status then some item.1 else none
    | .trajectory _ => none

/-- The versions that the prompts were submitted at. -/
def promptSteps (items : List (String × Tag T)) : List (String × Int) :=
  items.filterMap fun item =>
    match item.2 with
    | .prompt _ globalSteps => some (item.1, globalSteps)
    | .trajectory _ => none

/-- The trajectories. -/
def trajectories (items : List (String × Tag T)) : List (String × T) :=
  items.filterMap fun item =>
    match item.2 with
    | .prompt _ _ => none
    | .trajectory tag => some (item.1, tag)

/-- `_sync_metadata_from_transfer_queue`, for one partition. -/
def syncMetadata (store : TransferQueue T) (partitionId : String) : PartitionMetadata T :=
  let items := store.kvList partitionId
  { partition := trajectories items
    pendingKeys := promptKeys items .pending
    runningKeys := promptKeys items .running
    finishedKeys := promptKeys items .finished
    failureKeys := promptKeys items .failure
    promptGlobalSteps := promptSteps items }

namespace PartitionMetadata

/-- `finished_keys | failure_keys`. -/
def terminalKeys (metadata : PartitionMetadata T) : List String :=
  metadata.finishedKeys ++ metadata.failureKeys

/-- `prompt_global_steps.get(uid, default)`. -/
def stepsOf (metadata : PartitionMetadata T) (uid : String) (default : Int) : Int :=
  (List.lookup uid metadata.promptGlobalSteps).getD default

/-! ## One poll -/

/-- `_sampleable_terminal_keys`. -/
def sampleableTerminalKeys (cfg : ReplayConfig) (metadata : PartitionMetadata T)
    (call : SampleCall) : List String :=
  match cfg.maxOffPolicyStrategy with
  | .wait => metadata.terminalKeys
  | .drop => metadata.terminalKeys.filter fun uid =>
      call.span (metadata.stepsOf uid call.globalSteps) ≤ cfg.maxOffPolicyThreshold

/-- Some prompt that is not over has reached the threshold. -/
def blocked (cfg : ReplayConfig) (metadata : PartitionMetadata T) (call : SampleCall) : Bool :=
  (metadata.pendingKeys ++ metadata.runningKeys).any fun uid =>
    cfg.maxOffPolicyThreshold ≤ call.span (metadata.stepsOf uid call.globalSteps)

/-- `_has_enough_samples`. -/
def hasEnoughSamples (cfg : ReplayConfig) (metadata : PartitionMetadata T) (call : SampleCall) :
    Bool :=
  if cfg.maxOffPolicyStrategy = .wait ∧ metadata.blocked cfg call = true then false
  else decide (call.batchSize ≤ (metadata.sampleableTerminalKeys cfg call).length)

/-- The prompts that `_drop_stale_finished` drops. -/
def staleUids (cfg : ReplayConfig) (metadata : PartitionMetadata T) (call : SampleCall) :
    List String :=
  match cfg.maxOffPolicyStrategy with
  | .wait => []
  | .drop => metadata.terminalKeys.filter (· ∉ metadata.sampleableTerminalKeys cfg call)

/-- The trajectories of prompts, by the prefix of their keys. -/
def trajectoriesOf (metadata : PartitionMetadata T) (uids : List String) : List (String × T) :=
  metadata.partition.filter fun item => uidOfKey item.1 ∈ uids

/-- The keys that `_drop_stale_finished` clears. -/
def staleKeys (cfg : ReplayConfig) (metadata : PartitionMetadata T) (call : SampleCall) :
    List String :=
  let stale := metadata.staleUids cfg call
  stale ++ (metadata.trajectoriesOf stale).map Prod.fst

/-- The selection of `sample`: the prompts in the order `order`, sorted by the
version they were submitted at, up to the batch size. -/
def selectPrompts (metadata : PartitionMetadata T) (call : SampleCall) (order : List String) :
    List String :=
  (order.insertionSort (Order.Preimage (metadata.stepsOf · 0) (· ≤ ·))).take call.batchSize

/-- The assertion of `sample` on the spans of the selected prompts. -/
def spansWithin (cfg : ReplayConfig) (metadata : PartitionMetadata T) (call : SampleCall)
    (selected : List String) : Prop :=
  cfg.maxOffPolicyStrategy = .drop → ∀ uid ∈ selected,
    call.span (metadata.stepsOf uid call.globalSteps) ≤ cfg.maxOffPolicyThreshold

instance (cfg : ReplayConfig) (metadata : PartitionMetadata T) (call : SampleCall)
    (selected : List String) : Decidable (metadata.spansWithin cfg call selected) :=
  inferInstanceAs (Decidable (_ → _))

end PartitionMetadata

/-! ## The metadata in terms of TransferQueue -/

section Sync

variable {store : TransferQueue T} {partitionId uid : String}

theorem mem_promptKeys {status : PromptStatus} :
    uid ∈ promptKeys (store.kvList partitionId) status ↔
      ∃ globalSteps, store.get? partitionId uid = some (.prompt status globalSteps) := by
  rw [promptKeys, List.mem_filterMap]
  constructor
  · rintro ⟨⟨key, tag⟩, hitem, heq⟩
    cases tag with
    | prompt s globalSteps =>
        dsimp only at heq
        split at heq
        next hs =>
          obtain rfl := Option.some.inj heq
          exact ⟨globalSteps, hs ▸ TransferQueue.mem_kvList.mp hitem⟩
        next => cases heq
    | trajectory tag => cases heq
  · intro ⟨globalSteps, hget⟩
    exact ⟨_, TransferQueue.mem_kvList.mpr hget, if_pos rfl⟩

theorem mem_trajectories {key : String} {tag : T} :
    (key, tag) ∈ trajectories (store.kvList partitionId) ↔
      store.get? partitionId key = some (.trajectory tag) := by
  rw [trajectories, List.mem_filterMap]
  constructor
  · rintro ⟨⟨k, t⟩, hitem, heq⟩
    cases t with
    | prompt s globalSteps => cases heq
    | trajectory t =>
        obtain ⟨rfl, rfl⟩ := Prod.mk.inj (Option.some.inj heq)
        exact TransferQueue.mem_kvList.mp hitem
  · intro hget
    exact ⟨_, TransferQueue.mem_kvList.mpr hget, rfl⟩

theorem mem_promptSteps {globalSteps : Int} :
    (uid, globalSteps) ∈ promptSteps (store.kvList partitionId) ↔
      ∃ status, store.get? partitionId uid = some (.prompt status globalSteps) := by
  rw [promptSteps, List.mem_filterMap]
  constructor
  · rintro ⟨⟨k, t⟩, hitem, heq⟩
    cases t with
    | prompt status g =>
        obtain ⟨rfl, rfl⟩ := Prod.mk.inj (Option.some.inj heq)
        exact ⟨status, TransferQueue.mem_kvList.mp hitem⟩
    | trajectory t => cases heq
  · intro ⟨status, hget⟩
    exact ⟨_, TransferQueue.mem_kvList.mpr hget, rfl⟩

/-- A filter that keeps a field of the items it picks. -/
theorem filterMap_sublist {α β : Type*} {f : α → Option β} {g : α → β}
    (h : ∀ x y, f x = some y → y = g x) (xs : List α) : (xs.filterMap f).Sublist (xs.map g) := by
  induction xs with
  | nil => exact List.Sublist.slnil
  | cons x xs ih =>
      rw [List.filterMap_cons, List.map_cons]
      split
      next => exact ih.cons _
      next y hy =>
        rw [h x y hy]
        exact ih.cons_cons _

theorem nodup_promptKeys (status : PromptStatus) :
    (promptKeys (store.kvList partitionId) status).Nodup := by
  refine (filterMap_sublist (fun item key hkey => ?_) _).nodup (store.nodup_kvList partitionId)
  split at hkey
  · split at hkey
    · exact (Option.some.inj hkey).symm
    · cases hkey
  · cases hkey

theorem nodup_map_fst_trajectories :
    ((trajectories (store.kvList partitionId)).map Prod.fst).Nodup := by
  rw [trajectories, List.map_filterMap]
  refine (filterMap_sublist (fun item key hkey => ?_) _).nodup (store.nodup_kvList partitionId)
  split at hkey
  · cases hkey
  · exact (Option.some.inj hkey).symm

/-- The version that a prompt was submitted at. -/
theorem stepsOf_syncMetadata {status : PromptStatus} {globalSteps : Int} (default : Int)
    (h : store.get? partitionId uid = some (.prompt status globalSteps)) :
    (syncMetadata store partitionId).stepsOf uid default = globalSteps := by
  have hmem : (uid, globalSteps) ∈ promptSteps (store.kvList partitionId) :=
    mem_promptSteps.mpr ⟨status, h⟩
  rw [PartitionMetadata.stepsOf]
  show (List.lookup uid (promptSteps (store.kvList partitionId))).getD default = globalSteps
  cases hlookup : List.lookup uid (promptSteps (store.kvList partitionId)) with
  | none =>
      have hne := List.lookup_eq_none_iff.mp hlookup _ hmem
      rw [bne_self_eq_false] at hne
      cases hne
  | some g =>
      obtain ⟨before, after, hitems, -⟩ := List.lookup_eq_some_iff.mp hlookup
      have hg : (uid, g) ∈ promptSteps (store.kvList partitionId) := by
        rw [hitems]
        exact List.mem_append_right _ List.mem_cons_self
      obtain ⟨status', hget⟩ := mem_promptSteps.mp hg
      rw [h, Option.some.injEq, Tag.prompt.injEq] at hget
      exact hget.2.symm

end Sync

/-! ## What one poll finds -/

/-- The prompt is over, and was submitted at version `globalSteps`. -/
def TransferQueue.HasTerminal (store : TransferQueue T) (partitionId uid : String)
    (globalSteps : Int) : Prop :=
  ∃ status, store.get? partitionId uid = some (.prompt status globalSteps) ∧ status.IsTerminal

/-- The prompt is pending or running, and was submitted at version `globalSteps`. -/
def TransferQueue.HasActive (store : TransferQueue T) (partitionId uid : String)
    (globalSteps : Int) : Prop :=
  ∃ status, store.get? partitionId uid = some (.prompt status globalSteps) ∧ ¬ status.IsTerminal

/-- The prompt may be selected. -/
def TransferQueue.HasSampleable (store : TransferQueue T) (cfg : ReplayConfig) (call : SampleCall)
    (uid : String) (globalSteps : Int) : Prop :=
  store.HasTerminal call.partitionId uid globalSteps ∧
    (cfg.maxOffPolicyStrategy = .drop → call.span globalSteps ≤ cfg.maxOffPolicyThreshold)

section Poll

variable {cfg : ReplayConfig} {store : TransferQueue T} {call : SampleCall} {uid : String}

theorem mem_terminalKeys {partitionId : String} :
    uid ∈ (syncMetadata store partitionId).terminalKeys ↔
      ∃ globalSteps, store.HasTerminal partitionId uid globalSteps := by
  rw [PartitionMetadata.terminalKeys, List.mem_append]
  show uid ∈ promptKeys _ _ ∨ uid ∈ promptKeys _ _ ↔ _
  rw [mem_promptKeys, mem_promptKeys]
  constructor
  · rintro (⟨g, hget⟩ | ⟨g, hget⟩)
    · exact ⟨g, _, hget, .inl rfl⟩
    · exact ⟨g, _, hget, .inr rfl⟩
  · rintro ⟨g, status, hget, rfl | rfl⟩
    · exact .inl ⟨g, hget⟩
    · exact .inr ⟨g, hget⟩

theorem nodup_terminalKeys {partitionId : String} :
    (syncMetadata store partitionId).terminalKeys.Nodup := by
  refine (nodup_promptKeys .finished).append (nodup_promptKeys .failure) ?_
  intro uid hfinished hfailure
  obtain ⟨g, hget⟩ := mem_promptKeys.mp hfinished
  obtain ⟨g', hget'⟩ := mem_promptKeys.mp hfailure
  rw [hget, Option.some.injEq, Tag.prompt.injEq] at hget'
  cases hget'.1

/-- The sampleable prompts of a poll. -/
theorem mem_sampleableTerminalKeys :
    uid ∈ (syncMetadata store call.partitionId).sampleableTerminalKeys cfg call ↔
      ∃ globalSteps, store.HasSampleable cfg call uid globalSteps := by
  rw [PartitionMetadata.sampleableTerminalKeys]
  cases hstrategy : cfg.maxOffPolicyStrategy with
  | wait =>
      rw [mem_terminalKeys]
      refine exists_congr fun g => (and_iff_left ?_).symm
      rw [hstrategy]
      exact nofun
  | drop =>
      rw [List.mem_filter, mem_terminalKeys, decide_eq_true_eq]
      constructor
      · rintro ⟨⟨g, status, hget, hterminal⟩, hspan⟩
        rw [stepsOf_syncMetadata _ hget] at hspan
        exact ⟨g, ⟨status, hget, hterminal⟩, fun _ => hspan⟩
      · rintro ⟨g, ⟨status, hget, hterminal⟩, hspan⟩
        refine ⟨⟨g, status, hget, hterminal⟩, ?_⟩
        rw [stepsOf_syncMetadata _ hget]
        exact hspan hstrategy

theorem nodup_sampleableTerminalKeys :
    ((syncMetadata store call.partitionId).sampleableTerminalKeys cfg call).Nodup := by
  rw [PartitionMetadata.sampleableTerminalKeys]
  split
  · exact nodup_terminalKeys
  · exact nodup_terminalKeys.filter _

/-- The prompts that a poll drops are over, in its partition. -/
theorem hasTerminal_of_mem_staleUids
    (h : uid ∈ (syncMetadata store call.partitionId).staleUids cfg call) :
    ∃ globalSteps, store.HasTerminal call.partitionId uid globalSteps := by
  rw [PartitionMetadata.staleUids] at h
  split at h
  · cases h
  · exact mem_terminalKeys.mp (List.mem_of_mem_filter h)

theorem nodup_staleUids :
    ((syncMetadata store call.partitionId).staleUids cfg call).Nodup := by
  rw [PartitionMetadata.staleUids]
  split
  · exact List.nodup_nil
  · exact nodup_terminalKeys.filter _

/-- Enough samples: the wait strategy found no active prompt at the threshold. -/
theorem hasEnoughSamples_spec
    (h : (syncMetadata store call.partitionId).hasEnoughSamples cfg call = true) :
    (cfg.maxOffPolicyStrategy = .wait → ∀ uid globalSteps,
      store.HasActive call.partitionId uid globalSteps →
        call.span globalSteps < cfg.maxOffPolicyThreshold) ∧
      call.batchSize ≤
        ((syncMetadata store call.partitionId).sampleableTerminalKeys cfg call).length := by
  rw [PartitionMetadata.hasEnoughSamples] at h
  split at h
  next => cases h
  next hopen =>
    refine ⟨fun hwait uid g hactive => ?_, decide_eq_true_eq.mp h⟩
    obtain ⟨status, hget, hnot⟩ := hactive
    by_contra hspan
    apply hopen
    refine ⟨hwait, List.any_eq_true.mpr ⟨uid, ?_, ?_⟩⟩
    · rw [List.mem_append]
      show uid ∈ promptKeys _ _ ∨ uid ∈ promptKeys _ _
      rw [mem_promptKeys, mem_promptKeys]
      cases status with
      | pending => exact .inl ⟨g, hget⟩
      | running => exact .inr ⟨g, hget⟩
      | finished => exact absurd (.inl rfl) hnot
      | failure => exact absurd (.inr rfl) hnot
    · rw [decide_eq_true_eq, stepsOf_syncMetadata _ hget]
      exact not_lt.mp hspan

end Poll

/-! ## The selection -/

section Select

variable {metadata : PartitionMetadata T} {call : SampleCall} {order : List String}

theorem length_selectPrompts (h : call.batchSize ≤ order.length) :
    (metadata.selectPrompts call order).length = call.batchSize := by
  rw [PartitionMetadata.selectPrompts, List.length_take, List.length_insertionSort]
  exact Nat.min_eq_left h

theorem mem_of_mem_selectPrompts {uid : String} (h : uid ∈ metadata.selectPrompts call order) :
    uid ∈ order :=
  (List.mem_insertionSort _).mp (List.mem_of_mem_take h)

theorem nodup_selectPrompts (h : order.Nodup) : (metadata.selectPrompts call order).Nodup :=
  (((List.perm_insertionSort _ order).nodup_iff).mpr h).take

/-- No prompt that is left behind is older than a selected one. -/
theorem stepsOf_le_of_not_mem_selectPrompts {uid selected : String} (huid : uid ∈ order)
    (hnot : uid ∉ metadata.selectPrompts call order)
    (hselected : selected ∈ metadata.selectPrompts call order) :
    metadata.stepsOf selected 0 ≤ metadata.stepsOf uid 0 := by
  have hsorted := List.pairwise_insertionSort
    (Order.Preimage (metadata.stepsOf · 0) (· ≤ ·)) order
  rw [← List.take_append_drop call.batchSize (order.insertionSort _), List.pairwise_append]
    at hsorted
  have hmem := (List.mem_insertionSort
    (Order.Preimage (metadata.stepsOf · 0) (· ≤ ·))).mpr huid
  rw [← List.take_append_drop call.batchSize (order.insertionSort _), List.mem_append] at hmem
  exact hsorted.2.2 selected hselected uid (hmem.resolve_left hnot)

end Select

end Verl
