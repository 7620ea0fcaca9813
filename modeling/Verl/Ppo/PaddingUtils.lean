import Verl.AgentLoop.Postprocess
import Verl.Lib.Dict
import Verl.Ppo.Advantage
import Verl.ReplayBuffer.TransferQueue

/-!
# Padding trajectories

`upsample_batch_to_divisible_size` appends trajectories with no unmasked token
and no reward until the batch can be divided.  All of them have one new uid.
TransferQueue maps a partition and a key to the fields and the tag of a
trajectory.  Routed experts and multi-modal inputs are among the other fields,
and position ids have one dimension.
-/

namespace Verl

/-! ## Trajectories -/

/-- The fields of a trajectory. -/
structure Trajectory (F : Type) where
  uid : String
  sessionId : Option Int
  prompts : List Int
  responses : List Int
  inputIds : List Int
  attentionMask : List Int
  positionIds : List Int
  numTurns : Int
  responseMask : List Int
  lossMask : List Int
  rmScores : List ℚ
  rolloutLogProbs : List ℚ
  other : F
  mask_zero_or_one : ∀ m ∈ responseMask, m = 0 ∨ m = 1
  length_eq : rmScores.length = responseMask.length

/-- The tag of a trajectory. -/
structure TrajectoryTag (G : Type) where
  isPadding : Bool
  promptLen : Nat
  responseLen : Nat
  seqLen : Nat
  other : G

/-- `KVBatchMeta`. -/
structure KVBatchMeta (G : Type) where
  keys : List String
  tags : List (TrajectoryTag G)
  partitionId : String

/-- The trajectories in TransferQueue. -/
abbrev TrajectoryStore (F G : Type) := Py.Dict (String × String) (Trajectory F × TrajectoryTag G)

variable {F G : Type}

/-- `tq.kv_batch_get`, the fields. -/
def kvBatchGet (store : TrajectoryStore F G) (partitionId : String) (keys : List String) :
    Except Py.Error (List (Trajectory F)) :=
  keys.mapM fun key =>
    match store.get? (partitionId, key) with
    | some entry => .ok entry.1
    | none => .error .key

/-- `tq.kv_batch_put`. -/
def kvBatchPut (store : TrajectoryStore F G) (partitionId : String)
    (entries : List (String × Trajectory F × TrajectoryTag G)) : TrajectoryStore F G :=
  entries.foldl (fun store entry => store.set (partitionId, entry.1) entry.2) store

/-! ## Padding -/

/-- `construct_minimal_padding_template`: one prompt token and one response token,
which is masked. -/
def constructMinimalPaddingTemplate (source : Trajectory F) (sourceTag : TrajectoryTag G)
    (eosTokenId : Int) : Trajectory F × TrajectoryTag G :=
  let attentionMask : List Int := [1, 1]
  ({ source with
      prompts := [eosTokenId]
      responses := [eosTokenId]
      inputIds := [eosTokenId, eosTokenId]
      attentionMask := attentionMask
      positionIds := computePositionIdWithMask attentionMask
      numTurns := 0
      responseMask := [0]
      lossMask := [0]
      rmScores := [0]
      rolloutLogProbs := [0]
      mask_zero_or_one := fun _ hm => .inl (List.mem_singleton.mp hm)
      length_eq := rfl },
    { sourceTag with isPadding := true, promptLen := 1, responseLen := 1, seqLen := 2 })

/-- `upsample_batch_to_divisible_size`.  `hex` is the new `uuid4().hex`. -/
def upsampleBatchToDivisibleSize (store : TrajectoryStore F G) (batch : KVBatchMeta G)
    (batchMultiple : Nat) (eosTokenId : Int) (hex : String) :
    Except Py.Error (KVBatchMeta G × TrajectoryStore F G) := do
  let remainder ← Py.floorMod batch.keys.length batchMultiple
  if remainder = 0 then return (batch, store)
  let sourceKey ← Py.getItem batch.keys 0
  let sources ← kvBatchGet store batch.partitionId [sourceKey]
  let source ← Py.getItem sources 0
  let sourceTag ← Py.getItem batch.tags 0
  let template := constructMinimalPaddingTemplate source sourceTag eosTokenId
  let padUid := "pad" ++ hex
  let padSize := batchMultiple - remainder
  let padKeys := (List.range padSize).map fun localIdx => trajectoryKey padUid localIdx 0
  let padFields := (List.range padSize).map fun localIdx =>
    { template.1 with
      uid := padUid
      sessionId := template.1.sessionId.map fun _ => (localIdx : Int) }
  let padTags := List.replicate padSize template.2
  let store := kvBatchPut store batch.partitionId (padKeys.zip (padFields.zip padTags))
  return (⟨batch.keys ++ padKeys, batch.tags ++ padTags, batch.partitionId⟩, store)

/-! ## Advantages of a batch -/

/-- The row of a trajectory. -/
def Trajectory.advRow (t : Trajectory F) : AdvRow where
  uid := t.uid
  rewards := t.rmScores
  mask := t.responseMask.map fun m : Int => (m : ℚ)
  mask_zero_or_one := by
    intro m hm
    obtain ⟨x, hx, rfl⟩ := List.mem_map.mp hm
    exact (t.mask_zero_or_one x hx).imp (fun h => by rw [h, Int.cast_zero])
      fun h => by rw [h, Int.cast_one]
  length_eq := by rw [List.length_map, t.length_eq]

/-- The rows of a batch. -/
def advRows (store : TrajectoryStore F G) (batch : KVBatchMeta G) :
    Except Py.Error (List AdvRow) := do
  let trajectories ← kvBatchGet store batch.partitionId batch.keys
  return trajectories.map Trajectory.advRow

/-- The advantages of a batch, with the rewards of the trajectories. -/
def batchAdvantage (S : SquareRoot) (parseInt : String → Option Int) (config : AlgoConfig)
    (est : AdvantageEstimator) (store : TrajectoryStore F G) (batch : KVBatchMeta G) :
    Except Py.Error AdvOutput := do
  let rows ← advRows store batch
  computeAdvantage S parseInt config est rows

end Verl
