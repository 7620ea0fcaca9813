import Mathlib.Data.List.Basic
import Verl.Lib.Python

/-!
# Weight versions of the fully-async trainer

The trainer takes batches from the message queue until it gets the termination
signal.  Every `trigger_parameter_sync_step` steps complete a version, which is
sent to the rollouter.  Checkpoints are labelled with the version.

The actor weights are known by the updates that made them, in order.  So two
weights are equal only if the same updates were made, whatever an update does.

Between two syncs old log-probs are recomputed with the weights that the cycle
started with.  These wait in slot 1 on the CPU, and the current weights wait in
the slot of the local step meanwhile.
-/

namespace Verl.FullyAsyncTrainer

/-! ## State -/

/-- The configuration that the training loop reads. -/
structure Config where
  triggerParameterSyncStep : Nat
  saveFreq : Int
  testFreq : Int
  criticWarmup : Int
  /-- `algorithm.rollout_correction.bypass_mode`. -/
  bypassMode : Bool

variable {β : Type}

/-- The batches of the updates, the first one first. -/
abbrev Weights (β : Type) := List β

/-- What one step gets from outside. -/
structure Input (β : Type) where
  batch : β
  /-- What `should_save_ckpt_esi` returns in the step. -/
  esiCloseToExpiration : Bool

structure Trainer (β : Type) where
  globalSteps : Nat
  localTriggerStep : Nat
  currentParamVersion : Nat
  lastCkptVersion : Nat
  actor : Weights β
  cpuSavedModels : Nat → Option (Weights β)
  /-- The calls of `checkpoint_manager.update_weights`. -/
  synced : List (Nat × Weights β)
  /-- The checkpoints by their labels, the newest last. -/
  disk : List (Nat × Weights β)
  /-- The batches whose old log-probs were recomputed, and the weights used. -/
  oldLogProbs : List (β × Weights β)

namespace Trainer

/-- `__init__`, with the checkpoints that are on disk. -/
def init (disk : List (Nat × Weights β)) : Trainer β where
  globalSteps := 0
  localTriggerStep := 1
  currentParamVersion := 0
  lastCkptVersion := 0
  actor := []
  cpuSavedModels := fun _ => none
  synced := []
  disk := disk
  oldLogProbs := []

/-! ## Slots on the CPU -/

def saveModelToCpu (t : Trainer β) (n : Nat) : Trainer β :=
  { t with cpuSavedModels := Function.update t.cpuSavedModels n (some t.actor) }

def restoreModelFromCpu (t : Trainer β) (n : Nat) : Trainer β :=
  { t with actor := (t.cpuSavedModels n).getD t.actor }

def clearCpuModel (t : Trainer β) (n : Nat) : Trainer β :=
  { t with cpuSavedModels := Function.update t.cpuSavedModels n none }

/-- `_compute_old_log_prob` of the super class. -/
def evaluate (t : Trainer β) (batch : β) : Trainer β :=
  { t with oldLogProbs := t.oldLogProbs ++ [(batch, t.actor)] }

def computeOldLogProb (t : Trainer β) (batch : β) : Trainer β :=
  if t.localTriggerStep = 1 then
    let t := t.saveModelToCpu 1
    t.evaluate batch
  else
    let t := t.saveModelToCpu t.localTriggerStep
    let t := t.restoreModelFromCpu 1
    let t := t.evaluate batch
    let t := t.restoreModelFromCpu t.localTriggerStep
    t.clearCpuModel t.localTriggerStep

/-! ## The training step -/

variable (cfg : Config)

def fitComputeLogProb (t : Trainer β) (batch : β) : Trainer β :=
  if cfg.bypassMode then t else t.computeOldLogProb batch

def fitUpdateActor (t : Trainer β) (batch : β) : Trainer β :=
  if cfg.criticWarmup ≤ t.globalSteps then { t with actor := t.actor ++ [batch] } else t

def fitUpdateLocalStep (t : Trainer β) : Trainer β :=
  if t.localTriggerStep < cfg.triggerParameterSyncStep then
    { t with localTriggerStep := t.localTriggerStep + 1 }
  else { t with currentParamVersion := t.currentParamVersion + 1, localTriggerStep := 1 }

def fitUpdateWeights (t : Trainer β) : Trainer β :=
  if t.localTriggerStep ≠ 1 then t
  else { t with synced := t.synced ++ [(t.currentParamVersion, t.actor)] }

/-- One of the conditions for saving a checkpoint, without `force`. -/
def saveDue (version : Nat) (esiCloseToExpiration : Bool) : Bool :=
  (version : Int).fmod cfg.saveFreq = 0 || esiCloseToExpiration

def fitSaveCheckpoint (t : Trainer β) (force esiCloseToExpiration : Bool) : Trainer β :=
  if t.currentParamVersion = t.lastCkptVersion then t
  else if cfg.saveFreq > 0 && (force || saveDue cfg t.currentParamVersion esiCloseToExpiration) then
    { t with
      disk := t.disk ++ [(t.currentParamVersion, t.actor)]
      lastCkptVersion := t.currentParamVersion }
  else t

def fitPostprocessStep (t : Trainer β) : Trainer β := { t with globalSteps := t.globalSteps + 1 }

def fitStep (t : Trainer β) (x : Input β) : Trainer β :=
  let t := t.fitComputeLogProb cfg x.batch
  let t := t.fitUpdateActor cfg x.batch
  let t := t.fitUpdateLocalStep cfg
  let t := t.fitUpdateWeights
  let t := t.fitSaveCheckpoint cfg false x.esiCloseToExpiration
  t.fitPostprocessStep

/-! ## A run -/

/-- `load_checkpoint`, with the version of the checkpoint that it finds.  The
updates are counted from the loaded weights. -/
def loadCheckpoint (t : Trainer β) : Option Nat → Trainer β
  | none => t
  | some version =>
      { t with
        currentParamVersion := version
        globalSteps := version * cfg.triggerParameterSyncStep + 1
        lastCkptVersion := version
        actor := [] }

/-- The trainer when `fit` is called: the checkpoint is loaded and its weights are
sent to the rollouter. -/
def start (resume : Option Nat) : Trainer β :=
  ((init (resume.toList.map fun version => (version, []))).loadCheckpoint cfg
    resume).fitUpdateWeights

/-- The steps of `fit` up to the termination signal. -/
def loop (t : Trainer β) (xs : List (Input β)) : Trainer β :=
  xs.foldl (fitStep cfg) { t with globalSteps := t.globalSteps + 1 }

/-- `fit`.  Validation does not change the weights. -/
def fit (t : Trainer β) (xs : List (Input β)) (esiCloseToExpiration : Bool) :
    Except Py.Error (Trainer β) := do
  let t := t.loop cfg xs
  let r ← Py.intMod t.currentParamVersion cfg.testFreq
  let t := if r ≠ 0 ∨ t.localTriggerStep > 1 then t.fitUpdateWeights else t
  .ok (t.fitSaveCheckpoint cfg true esiCloseToExpiration)

end Trainer

end Verl.FullyAsyncTrainer
