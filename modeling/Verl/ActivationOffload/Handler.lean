import Verl.Lib.Dict
import Verl.Lib.Python
import Verl.Lib.Streams

/-!
# The double buffer for saved activations

The tensors that a forward pass saves for the backward pass are put into groups, one
for each layer.  The handler copies the tensors of a group to the host while later
layers compute, and copies them back while the backward pass is still in a later
layer.  Copies run in two streams of their own.

The streams are modelled by what each has seen.  `hazard` is set when an operation is
issued to a stream that has not seen what it depends on, or when memory is freed that
such an operation may still read.
-/

namespace Verl

open Streams (Seen)

/-! ## Tensors and tags -/

/-- A tensor on the device.  `key` is `_get_unique_tensor_key`: where its memory
begins, and its type.  `elems` are its elements in the order of its indices. -/
structure DeviceTensor (κ α : Type) where
  key : κ
  shape : List Nat
  elems : List α
deriving DecidableEq

/-- The group of a tensor and its place in the group. -/
abbrev TensorTag := Nat × Nat

/-- What `tensor_push` returns: a tag, or the tensor itself. -/
inductive Pushed (κ α : Type) where
  | tag (tag : TensorTag)
  | direct (tensor : DeviceTensor κ α)
deriving DecidableEq

inductive DeviceStream where
  | current
  | d2h
  | h2d
deriving DecidableEq

inductive DeviceEvent where
  /-- The computation that made the tensor. -/
  | compute (tag : TensorTag)
  | offload (group : Nat)
  | reload (group : Nat)
deriving DecidableEq

/-- An entry of `tensor_tag_to_state`: a tensor and what wrote it, or the pair that
refers to the copy on the host. -/
inductive TensorState (κ α : Type) where
  | tensor (tensor : DeviceTensor κ α) (writer : DeviceEvent)
  | tuple (key : κ) (shape : List Nat)
deriving DecidableEq

/-- A copy on the host. -/
structure CpuBackup (α : Type) where
  elems : List α
deriving DecidableEq

structure OffloadHandler (κ α : Type) where
  currentGroup : Nat
  tensorCountCurrentGroup : Nat
  tensorTagToState : Py.Dict TensorTag (TensorState κ α)
  tensorTagToBuf : Py.Dict TensorTag (Option (DeviceTensor κ α))
  offloadedGroupCount : Nat
  groupOffloadMapping : Py.Dict Nat (Py.Dict κ (CpuBackup α))
  seen : Seen DeviceStream DeviceEvent
  hazard : Bool

/-! ## The window map -/

/-- One turn of the loop over the groups in `__init__`. -/
def addWindow (numLayers numOffloadGroup : Nat) (windows : List Int × Int) (i : Nat) :
    List Int × Int :=
  let window : Int := (numLayers / numOffloadGroup : Nat) * ((i : Int) + 1) - 1
  if i < numLayers % numOffloadGroup then (windows.1 ++ [window + (i + 1)], i + 1)
  else (windows.1 ++ [window + windows.2], windows.2)

/-- `layer_window_map`: after which layer a group is freed. -/
def layerWindowMap (numLayers numOffloadGroup : Nat) : List Int :=
  ((List.range numOffloadGroup).foldl (addWindow numLayers numOffloadGroup) ([], 0)).1

/-- `layer_window_map[i]`. -/
def layerWindow (windows : List Int) (i : Int) : Except Py.Error Int :=
  if i < 0 then .error .key
  else
    match windows[i.toNat]? with
    | some window => .ok window
    | none => .error .key

namespace OffloadHandler

section

variable {κ α : Type}

def init : OffloadHandler κ α where
  currentGroup := 0
  tensorCountCurrentGroup := 0
  tensorTagToState := .empty
  tensorTagToBuf := .empty
  offloadedGroupCount := 0
  groupOffloadMapping := .empty
  seen := fun _ _ => false
  hazard := false

/-- `a.wait_stream(b)`. -/
def waitStream (h : OffloadHandler κ α) (a b : DeviceStream) : OffloadHandler κ α :=
  { h with seen := h.seen.wait a b }

/-- An operation on a stream, after all of `needs`. -/
def issue (h : OffloadHandler κ α) (stream : DeviceStream) (event : DeviceEvent)
    (needs : List DeviceEvent) : OffloadHandler κ α :=
  { h with
    seen := h.seen.issue stream event
    hazard := h.hazard || needs.any fun need => !h.seen stream need }

/-! ## Push and pop -/

/-- `tensor_push`. -/
def tensorPush (numOffloadGroup : Nat) (h : OffloadHandler κ α) (tensor : DeviceTensor κ α)
    (needOffload : Bool) : Except Py.Error (Pushed κ α × OffloadHandler κ α) :=
  if needOffload then do
    let tag : TensorTag := (h.currentGroup, h.tensorCountCurrentGroup)
    Py.check (tag ∉ h.tensorTagToState.keys) ""
    let h := h.issue .current (.compute tag) []
    return (.tag tag, { h with
      tensorCountCurrentGroup := h.tensorCountCurrentGroup + 1
      tensorTagToState := h.tensorTagToState.set tag (.tensor tensor (.compute tag))
      tensorTagToBuf :=
        if h.currentGroup < numOffloadGroup then h.tensorTagToBuf.set tag (some tensor)
        else h.tensorTagToBuf })
  else
    return (.direct tensor, h)

/-- `tensor_pop`.  The current stream uses the tensor next. -/
def tensorPop (h : OffloadHandler κ α) :
    Pushed κ α → Except Py.Error (DeviceTensor κ α × OffloadHandler κ α)
  | .direct tensor => .ok (tensor, h)
  | .tag tag =>
      match h.tensorTagToState.get? tag with
      | none => .error (.assertion "")
      | some (.tuple _ _) => .error (.assertion "")
      | some (.tensor tensor writer) =>
          .ok (tensor, { h with
            tensorTagToState := h.tensorTagToState.pop tag
            tensorTagToBuf := h.tensorTagToBuf.pop tag
            hazard := h.hazard || !h.seen .current writer })

/-! ## Offloading -/

/-- `offload_mapping[key] = offload(state)`, for the first tensor with the key. -/
def addBackup [DecidableEq κ] (mapping : Py.Dict κ (CpuBackup α)) :
    TensorState κ α → Py.Dict κ (CpuBackup α)
  | .tensor tensor _ =>
      if tensor.key ∈ mapping.keys then mapping else mapping.set tensor.key ⟨tensor.elems⟩
  | .tuple _ _ => mapping

/-- The tensors of a group. -/
def groupStates (h : OffloadHandler κ α) (group : Nat) : List (TensorState κ α) :=
  (h.tensorTagToState.entries.filter fun e => e.1.1 = group).map Prod.snd

/-- `isinstance(state, tuple)`. -/
def isTuple : TensorState κ α → Bool
  | .tuple _ _ => true
  | .tensor _ _ => false

/-- What the copy of a tensor depends on. -/
def writers : List (TensorState κ α) → List DeviceEvent :=
  List.filterMap fun
    | .tensor _ writer => some writer
    | .tuple _ _ => none

/-- The reference that takes the place of a tensor. -/
def toTuple : TensorState κ α → TensorState κ α
  | .tensor tensor _ => .tuple tensor.key tensor.shape
  | .tuple key shape => .tuple key shape

/-- `bulk_offload_group`. -/
def bulkOffloadGroup [DecidableEq κ] (h : OffloadHandler κ α) (groupToOffload : Nat) :
    Except Py.Error (OffloadHandler κ α) := do
  let states := h.groupStates groupToOffload
  Py.check (states.all fun state => !isTuple state) ""
  let h := h.issue .d2h (.offload groupToOffload) (writers states)
  return { h with
    tensorTagToState := h.tensorTagToState.mapEntries fun tag state =>
      if tag.1 = groupToOffload then toTuple state else state
    groupOffloadMapping := h.groupOffloadMapping.set groupToOffload
      (states.foldl addBackup .empty) }

/-- The buffers of a group are set to `None`. -/
def freeGroup (h : OffloadHandler κ α) (group : Nat) : OffloadHandler κ α :=
  { h with
    tensorTagToBuf := h.tensorTagToBuf.mapEntries fun tag buf => if tag.1 = group then none else buf
    hazard := h.hazard || !h.seen .current (.offload group) }

/-- `synchronize_on_group_commit_forward`. -/
def synchronizeOnGroupCommitForward [DecidableEq κ] (numOffloadGroup : Nat) (windows : List Int)
    (h : OffloadHandler κ α) : Except Py.Error (OffloadHandler κ α) := do
  let h ←
    if h.currentGroup = 0 then (h.waitStream .d2h .current).bulkOffloadGroup 0 else pure h
  let window ← layerWindow windows h.offloadedGroupCount
  if window = h.currentGroup then
    let h := (h.waitStream .d2h .current).waitStream .current .d2h
    let h := h.freeGroup h.offloadedGroupCount
    let h ←
      if h.offloadedGroupCount + 1 < numOffloadGroup then
        h.bulkOffloadGroup (h.offloadedGroupCount + 1)
      else pure h
    return { h with offloadedGroupCount := h.offloadedGroupCount + 1 }
  else
    return h

/-- `on_group_commit_forward`. -/
def onGroupCommitForward [DecidableEq κ] (numOffloadGroup : Nat) (windows : List Int)
    (h : OffloadHandler κ α) : Except Py.Error (OffloadHandler κ α) := do
  let h ← h.synchronizeOnGroupCommitForward numOffloadGroup windows
  return { h with currentGroup := h.currentGroup + 1, tensorCountCurrentGroup := 0 }

/-! ## Reloading -/

/-- `offload_mapping[key].view(shape)`, if the state is a pair.  `address` is where the
copy of each key is put on the device. -/
def recoverState [DecidableEq κ] (address : κ → κ) (mapping : Py.Dict κ (CpuBackup α))
    (group : Nat) : TensorState κ α → Except Py.Error (TensorState κ α)
  | .tensor tensor writer => .ok (.tensor tensor writer)
  | .tuple key shape =>
      match mapping.get? key with
      | none => .error .key
      | some backup =>
          if backup.elems.length = shape.prod then
            .ok (.tensor ⟨address key, shape, backup.elems⟩ (.reload group))
          else .error (.runtime "shape is invalid for input")

/-- `bulk_reload_group`. -/
def bulkReloadGroup [DecidableEq κ] (address : κ → κ) (numOffloadGroup : Nat)
    (h : OffloadHandler κ α) (groupToReload : Nat) : Except Py.Error (OffloadHandler κ α) := do
  Py.check (groupToReload < numOffloadGroup) ""
  match h.groupOffloadMapping.get? groupToReload with
  | none => .error .key
  | some mapping => do
      let recover := recoverState address mapping groupToReload
      let _ ← (h.groupStates groupToReload).mapM recover
      let h := h.issue .h2d (.reload groupToReload) [.offload groupToReload]
      return { h with
        groupOffloadMapping := h.groupOffloadMapping.pop groupToReload
        tensorTagToState := h.tensorTagToState.mapEntries fun tag state =>
          if tag.1 = groupToReload then (recover state).toOption.getD state else state }

/-- `on_group_commit_backward`. -/
def onGroupCommitBackward [DecidableEq κ] (address : κ → κ) (numOffloadGroup : Nat)
    (windows : List Int) (h : OffloadHandler κ α) : Except Py.Error (OffloadHandler κ α) := do
  Py.check (0 < h.currentGroup) ""
  let h := { h with currentGroup := h.currentGroup - 1 }
  let window ← layerWindow windows ((h.offloadedGroupCount : Int) - 1)
  let h ←
    if window = h.currentGroup then do
      let h := (h.waitStream .h2d .current).waitStream .current .h2d
      let h ← h.bulkReloadGroup address numOffloadGroup (h.offloadedGroupCount - 1)
      pure { h with
        offloadedGroupCount :=
          if 1 < h.offloadedGroupCount then h.offloadedGroupCount - 1
          else h.offloadedGroupCount }
    else pure h
  if h.currentGroup = 0 then
    return { h.waitStream .current .h2d with offloadedGroupCount := 0 }
  else
    return h

end

end OffloadHandler

end Verl
