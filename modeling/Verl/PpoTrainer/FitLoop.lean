import Verl.PpoTrainer.PromptQueue

/-!
# The fit loop of the V1 trainer

`PPOTrainer.fit` in the asynchronous modes, next to the rollout that it feeds.
A step is one access to TransferQueue, one part of a checkpoint, or an update.
Between two steps of the trainer the rollout may do anything, and at any time
the job may crash and start again from the last checkpoint.

A prompt stands for its fields, which are put once.  The dataloader is a stream,
and its state is the number of prompts that were handed out.  The weights stand
for the prompts that the updates consumed.

*History.*  The state also records what no variable of the code holds: the
prompts in the order of the stream, those that were dropped, and the
trajectories that were written.
-/

namespace Verl

variable {T : Type}

/-! ## Checkpoints -/

/-- The fields of the configuration that the loop reads. -/
structure FitConfig where
  trainBatchSize : Nat
  parameterSyncStep : Nat
  numWarmupBatches : Nat
  saveFreq : Int
  totalTrainingSteps : Int
  replay : ReplayConfig

/-- What was done so far. -/
structure FitHistory (T : Type) where
  /-- The prompts of the stream. -/
  handedOut : List String
  /-- The prompts that were dropped because they were stale. -/
  dropped : List String
  /-- The trajectories of the prompts, from their last dispatch on. -/
  written : List (String × T)
  /-- The trajectories that a session wrote after its prompt was taken from the queue,
  or that the trainer held at a save which was resumed from. -/
  stray : List String

/-- A checkpoint folder: the weights, `data.pt` and `transfer_queue`.  The last two
fields are no part of it. -/
structure Checkpoint (T : Type) where
  globalSteps : Int
  weights : List String
  dataloader : Nat
  store : TransferQueue T
  held : List String
  history : FitHistory T

/-! ## States -/

/-- The program counter of `fit`. -/
inductive FitPc (T : Type) where
  | reissue
  /-- `_add_batch_to_generate`, with the warmup batches that are left. -/
  | feed (warmup : Nat)
  /-- `sample`, with the local updates that are left. -/
  | polling (left : Nat)
  | dropping (left : Nat) (staleUids trajectoryKeys : List String)
  | refilling (left num : Nat)
  | selected (left : Nat) (snapshot : TransferQueue T) (uids : List String)
  | training (left : Nat) (uids : List String)
  | saveActor
  | saveDataloader (weights : List String)
  | saveQueue (weights : List String) (dataloader : Nat)
  | writeTracker (checkpoint : Checkpoint T)
  | clearing
  | finished
  | raised

/-- The prompts that `sample` has found and is about to clear. -/
def FitPc.taking : FitPc T → List String
  | .dropping _ staleUids _ => staleUids
  | .selected _ _ uids => uids
  | _ => []

/-- The prompts of the next update. -/
def FitPc.inUpdate : FitPc T → List String
  | .training _ uids => uids
  | _ => []

structure FitState (T : Type) where
  globalSteps : Int
  weights : List String
  dataloader : Nat
  store : TransferQueue T
  /-- The keys of the batch that `step` returns. -/
  held : List String
  pc : FitPc T
  /-- The tasks of the rollout, with the last status that they put. -/
  tasks : String → Option PromptStatus
  dispatched : List String
  history : FitHistory T
  latest : Option (Checkpoint T)

inductive FitAct (T : Type) where
  /-- The trainer puts prompts from the dataloader and dispatches them. -/
  | submit (uids : List String)
  | start (uid : String)
  /-- A session puts its trajectories. -/
  | write (uid : String) (sessionId : Nat) (tags : List T)
  | terminate (uid : String) (status : PromptStatus)
  /-- One poll, with an order in which the set of sampleable prompts is iterated. -/
  | poll (order : List String)
  | clearStale
  | clearSelected
  /-- An update, with the padding trajectories of `_balance_batch`. -/
  | train (hex : String) (padTags : List T)
  | save
  | clear
  | crash
  | reissue

/-! ## Reissue -/

/-- `inflight_uids`. -/
def inflightUids (items : List (String × Tag T)) : List String :=
  items.filterMap fun item =>
    match item.2 with
    | .prompt status _ => if status = .pending ∨ status = .running then some item.1 else none
    | .trajectory _ => none

/-- `old_trajectory_keys`. -/
def oldTrajectoryKeys (items : List (String × Tag T)) (inflight : List String) : List String :=
  items.filterMap fun item =>
    match item.2 with
    | .prompt _ _ => none
    | .trajectory _ => if uidOfKey item.1 ∈ inflight then some item.1 else none

/-- `_reissue_inflight_prompts`: the content of TransferQueue, and the prompts that
are dispatched. -/
def reissueInflightPrompts (store : TransferQueue T) (globalSteps : Int) :
    TransferQueue T × List String :=
  let items := store.kvList "train"
  let inflight := inflightUids items
  if inflight = [] then (store, [])
  else
    let store := store.kvClear "train" (oldTrajectoryKeys items inflight)
    (store.putPrompts inflight (.prompt .pending globalSteps), inflight)

namespace FitState

/-! ## Steps of the trainer -/

/-- `_load_checkpoint`, and `fit` up to the reissue. -/
def load (latest : Option (Checkpoint T)) : FitState T :=
  match latest with
  | none => ⟨1, [], 0, ∅, [], .reissue, fun _ => none, [], ⟨[], [], [], []⟩, none⟩
  | some c =>
      ⟨c.globalSteps + 1, c.weights, c.dataloader, c.store, [], .reissue, fun _ => none, [],
        { c.history with stray := c.history.stray ++ c.held }, some c⟩

def init : FitState T := load none

/-- `generate_sequences` starts a task for each prompt. -/
def dispatch (s : FitState T) (uids : List String) : FitState T :=
  { s with
    tasks := fun uid => if uid ∈ uids then some .pending else s.tasks uid
    dispatched := s.dispatched ++ uids }

/-- `_next_train_batch` and `_submit_batch_to_rollout`. -/
def submit (s : FitState T) (uids : List String) : FitState T :=
  { s.dispatch uids with
    dataloader := s.dataloader + uids.length
    store := s.store.putPrompts uids (.prompt .pending s.globalSteps)
    history := { s.history with handedOut := s.history.handedOut ++ uids } }

/-- The uids of a batch are new. -/
def Fresh (s : FitState T) (uids : List String) : Prop :=
  uids.Nodup ∧ ∀ uid ∈ uids, IsUuid uid ∧ uid ∉ s.history.handedOut

instance (s : FitState T) (uids : List String) : Decidable (s.Fresh uids) :=
  inferInstanceAs (Decidable (_ ∧ _))

def sampleCall (cfg : FitConfig) (s : FitState T) : SampleCall :=
  ⟨s.globalSteps, "train", cfg.trainBatchSize / cfg.parameterSyncStep⟩

/-- One pass of the loop in `sample`, up to its next access to TransferQueue. -/
def poll (cfg : FitConfig) (s : FitState T) (left : Nat) (order : List String) :
    Option (FitState T) :=
  let call := s.sampleCall cfg
  let metadata := syncMetadata s.store "train"
  let stale := metadata.staleUids cfg.replay call
  if stale ≠ [] then
    some { s with pc := .dropping left stale ((metadata.trajectoriesOf stale).map Prod.fst) }
  else if metadata.hasEnoughSamples cfg.replay call then
    if order.Perm (metadata.sampleableTerminalKeys cfg.replay call) then
      some { s with pc := .selected left s.store (metadata.selectPrompts call order) }
    else none
  else some s

/-- The trajectory keys of a batch. -/
def batchKeys (snapshot : TransferQueue T) (uids : List String) : List String :=
  ((syncMetadata snapshot "train").trajectoriesOf uids).map Prod.fst

/-- The end of `sample`. -/
def finishSample (cfg : FitConfig) (s : FitState T) (left : Nat) (snapshot : TransferQueue T)
    (uids : List String) : FitState T :=
  if (syncMetadata snapshot "train").spansWithin cfg.replay (s.sampleCall cfg) uids then
    { s with
      store := s.store.kvClear "train" uids
      held := s.held ++ batchKeys snapshot uids
      pc := .training left uids }
  else { s with pc := .raised }

def isLastStep (cfg : FitConfig) (s : FitState T) : Prop := cfg.totalTrainingSteps ≤ s.globalSteps

instance (cfg : FitConfig) (s : FitState T) : Decidable (s.isLastStep cfg) :=
  inferInstanceAs (Decidable (_ ≤ _))

/-- A checkpoint is saved after this step. -/
def saves (cfg : FitConfig) (s : FitState T) : Prop :=
  0 < cfg.saveFreq ∧ (s.isLastStep cfg ∨ s.globalSteps % cfg.saveFreq = 0)

instance (cfg : FitConfig) (s : FitState T) : Decidable (s.saves cfg) :=
  inferInstanceAs (Decidable (_ ∧ _))

/-- The rest of `_step_once`, with the padding of `_balance_batch`. -/
def train (cfg : FitConfig) (s : FitState T) (left : Nat) (uids : List String)
    (padding : List (String × T)) : FitState T :=
  { s with
    weights := s.weights ++ uids
    store := s.store.putTrajectories padding
    held := s.held ++ padding.map Prod.fst
    pc := match left with
      | left + 1 => .polling left
      | 0 => if s.saves cfg then .saveActor else .clearing }

/-- The keys and tags of padding trajectories. -/
def paddingOf (hex : String) (padTags : List T) : List (String × T) :=
  padTags.mapIdx fun localIdx tag => (trajectoryKey ("pad" ++ hex) localIdx 0, tag)

/-- The end of a step in `fit`. -/
def clear (cfg : FitConfig) (s : FitState T) : FitState T :=
  { s with
    store := s.store.kvClear "train" s.held
    held := []
    globalSteps := s.globalSteps + 1
    pc := if s.isLastStep cfg then .finished else .feed 0 }

/-- The prompts that are dispatched again start anew. -/
def reissue (cfg : FitConfig) (s : FitState T) : FitState T :=
  let (store, inflight) := reissueInflightPrompts s.store s.globalSteps
  { s.dispatch inflight with
    store
    pc := .feed cfg.numWarmupBatches
    history := { s.history with
      written := s.history.written.filter fun entry => uidOfKey entry.1 ∉ inflight } }

/-! ## Steps of the rollout -/

/-- The prompts whose keys were cleared. -/
def taken (s : FitState T) : List String := s.weights ++ s.pc.inUpdate ++ s.history.dropped

/-- A put of a status of a prompt. -/
def putStatus (s : FitState T) (uid : String) (status : PromptStatus) : Option (FitState T) :=
  match s.store.get? "train" uid with
  | some (.prompt _ g) => some { s with
      store := s.store.putPrompts [uid] (.prompt status g)
      tasks := fun uid' => if uid' = uid then some status else s.tasks uid' }
  | _ => none

/-- The keys and tags of the trajectories of a session. -/
def sessionOf (uid : String) (sessionId : Nat) (tags : List T) : List (String × T) :=
  tags.mapIdx fun index tag => (trajectoryKey uid sessionId index, tag)

/-- A put of the trajectories of a session. -/
def write (s : FitState T) (uid : String) (entries : List (String × T)) : FitState T :=
  { s with
    store := s.store.putTrajectories entries
    history := { s.history with
      written := s.history.written ++ entries
      stray := if uid ∈ s.taken ++ s.pc.taking then s.history.stray ++ entries.map Prod.fst
        else s.history.stray } }

/-! ## The system -/

/-- A step.  A task puts `finished` when its sessions are over, and `failure` when
one has failed, while the others go on. -/
def next (cfg : FitConfig) (s : FitState T) : FitAct T → Option (FitState T)
  | .submit uids =>
      if s.Fresh uids then
        match s.pc with
        | .feed 0 =>
            if s.globalSteps ≤ cfg.totalTrainingSteps ∧ cfg.parameterSyncStep ≠ 0 ∧
                cfg.trainBatchSize % cfg.parameterSyncStep = 0 ∧
                  uids.length = cfg.trainBatchSize then
              some { s.submit uids with pc := .polling (cfg.parameterSyncStep - 1) }
            else none
        | .feed (warmup + 1) =>
            if uids.length = cfg.trainBatchSize then some { s.submit uids with pc := .feed warmup }
            else none
        | .refilling left num =>
            if uids.length = num then some { s.submit uids with pc := .polling left } else none
        | _ => none
      else none
  | .start uid => if s.tasks uid = some .pending then s.putStatus uid .running else none
  | .write uid sessionId tags =>
      let entries := sessionOf uid sessionId tags
      if (s.tasks uid = some .running ∨ s.tasks uid = some .failure) ∧
          ∀ key ∈ entries.map Prod.fst, key ∉ s.history.written.map Prod.fst then
        some (s.write uid entries)
      else none
  | .terminate uid status =>
      if s.tasks uid = some .running ∧ status.IsTerminal then s.putStatus uid status else none
  | .poll order =>
      match s.pc with
      | .polling left => s.poll cfg left order
      | _ => none
  | .clearStale =>
      match s.pc with
      | .dropping left staleUids trajectoryKeys => some { s with
          store := s.store.kvClear "train" (staleUids ++ trajectoryKeys)
          pc := .refilling left staleUids.length
          history := { s.history with dropped := s.history.dropped ++ staleUids } }
      | _ => none
  | .clearSelected =>
      match s.pc with
      | .selected left snapshot uids => some (s.finishSample cfg left snapshot uids)
      | _ => none
  | .train hex padTags =>
      match s.pc with
      | .training left uids =>
          let padding := paddingOf hex padTags
          if IsUuid hex ∧ ∀ key ∈ padding.map Prod.fst, s.store.get? "train" key = none then
            some (s.train cfg left uids padding)
          else none
      | _ => none
  | .save =>
      match s.pc with
      | .saveActor => some { s with pc := .saveDataloader s.weights }
      | .saveDataloader weights => some { s with pc := .saveQueue weights s.dataloader }
      | .saveQueue weights dataloader => some { s with
          pc := .writeTracker
            ⟨s.globalSteps, weights, dataloader, s.store, s.held, s.history⟩ }
      | .writeTracker checkpoint => some { s with latest := some checkpoint, pc := .clearing }
      | _ => none
  | .clear =>
      match s.pc with
      | .clearing => some (s.clear cfg)
      | _ => none
  | .crash => some (load s.latest)
  | .reissue =>
      match s.pc with
      | .reissue => some (s.reissue cfg)
      | _ => none

end FitState

end Verl
