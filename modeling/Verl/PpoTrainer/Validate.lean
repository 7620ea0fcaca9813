import Mathlib.Algebra.Order.Ring.Rat
import Verl.PpoTrainer.OutputKeys

/-!
# The collection loop of validation

`_validate` runs the prompts of every validation batch and collects one record per session:
a score, a text, a ground truth, and what the reward function reported under
`reward_extra_info`.  The reported keys differ from sample to sample, so
`reward_extra_infos_dict` has a list for every key that was seen; a new list is filled with
`None` for the samples before, and a sample without the key adds a `None`.

The lists of a batch are filled only if the batch has the column `extra_fields`.
-/

namespace Verl

/-! ## Stored outputs -/

/-- A score, or a value that the reward function reported. -/
inductive InfoValue (ν : Type) where
  | score (value : ℚ)
  | reported (value : ν)

/-- `extra_fields` of an output, with its `reward_extra_info`. -/
inductive ExtraFields (ν : Type) where
  | notDict
  | dict (rewardExtraInfo : Option (Py.Dict String ν))

/-- `extra_field.get("reward_extra_info", {}) if isinstance(extra_field, dict) else {}`. -/
def ExtraFields.rewardExtraInfo {ν : Type} : ExtraFields ν → Py.Dict String ν
  | notDict => .empty
  | dict rewardExtraInfo => rewardExtraInfo.getD .empty

/-- The fields of an output in TransferQueue.  Of `reward_model` it is the ground truth. -/
structure ValOutput (ν γ : Type) where
  prompts : List Nat
  responses : List Nat
  uid : String
  rmScores : List ℚ
  numTurns : Nat
  groundTruth : Option γ
  dataSource : String
  extraFields : ExtraFields ν

/-- A sampled batch.  A column that the outputs do not have is missing for all of them. -/
structure ValBatch (ν γ : Type) where
  rows : List OutputKey
  output : String → ValOutput ν γ
  hasRewardModel : Bool
  hasDataSource : Bool
  hasExtraFields : Bool

/-- The tokenizer of the trainer; `decode` is called with `skip_special_tokens=True`. -/
structure ValTokenizer where
  padTokenId : Nat
  decode : List Nat → String

/-- The lists of `_validate`. -/
structure ValState (ν γ : Type) where
  sampleUids : List String
  sampleInputs : List String
  sampleOutputs : List String
  sampleGts : List (Option γ)
  sampleScores : List ℚ
  sampleTurns : List Nat
  dataSources : List String
  rewardExtraInfos : Py.Dict String (List (Option (InfoValue ν)))
  sessionToSampleIdx : Py.Dict String Nat

section Source

variable {ν γ : Type}

/-- `batch.keys`. -/
def ValBatch.keys (batch : ValBatch ν γ) : List String := batch.rows.map OutputKey.key

/-- The longest row of a field. -/
def ValBatch.width (batch : ValBatch ν γ) (field : ValOutput ν γ → List Nat) : Nat :=
  (batch.keys.map fun key => (field (batch.output key)).length).foldr max 0

/-- `to_padded_tensor` and `decode` for one row. -/
def ValBatch.text (tokenizer : ValTokenizer) (batch : ValBatch ν γ)
    (field : ValOutput ν γ → List Nat) (key : String) : String :=
  let ids := field (batch.output key)
  tokenizer.decode
    (ids ++ List.replicate (batch.width field - ids.length) tokenizer.padTokenId)

/-- `kv_batch_get` of a column. -/
def ValBatch.column {α : Type} (batch : ValBatch ν γ) (present : Bool)
    (field : ValOutput ν γ → α) (keys : List String) : Option (List α) :=
  if present then some (keys.map fun key => field (batch.output key)) else none

/-- The loop over `batch.keys` that fills `session_max`. -/
def sessionMax (best : Py.Dict String (Int × Nat)) (pos : Nat) :
    List String → Except Py.Error (Py.Dict String (Int × Nat))
  | [] => .ok best
  | key :: keys =>
      match Py.rsplit '_' 2 key with
      | [uid, sessionId, index] => do
          let index ← Py.int index
          sessionMax (keepMax best s!"{uid}_{sessionId}" index pos) (pos + 1) keys
      | _ => sessionMax (best.set key (0, pos)) (pos + 1) keys

/-- `reward_extra_infos_dict`. -/
abbrev ExtraInfos (ν : Type) : Type := Py.Dict String (List (Option (InfoValue ν)))

/-- The first loop for a sample: lists of keys that it does not have get a `None`. -/
def padMissing (infos : ExtraInfos ν) (info : Py.Dict String ν) : ExtraInfos ν :=
  infos.mapEntries fun key values =>
    if key ≠ "reward" ∧ key ∉ info.keys then values ++ [none] else values

/-- The second loop for a sample, for one of its keys. -/
def recordItem (nPrior : Nat) (infos : ExtraInfos ν) (item : String × ν) : ExtraInfos ν :=
  infos.set item.1 ((infos.get? item.1).getD (List.replicate nPrior none) ++
    [some (.reported item.2)])

def recordInfo (nPrior : Nat) (infos : ExtraInfos ν) (info : Py.Dict String ν) : ExtraInfos ν :=
  info.entries.foldl (recordItem nPrior) (padMissing infos info)

/-- The loop over the samples of a batch. -/
def recordInfos (nPrior : Nat) (infos : ExtraInfos ν) : List (Py.Dict String ν) → ExtraInfos ν
  | [] => infos
  | info :: more => recordInfos (nPrior + 1) (recordInfo nPrior infos info) more

/-- `reward_extra_infos_dict["reward"].extend(scores)`, and the extra fields. -/
def extendInfos (infos : ExtraInfos ν) (scores : List ℚ)
    (extraFields : Option (List (ExtraFields ν))) : ExtraInfos ν :=
  let rewards := (infos.get? "reward").getD [] ++ scores.map fun score => some (.score score)
  let infos := infos.set "reward" rewards
  match extraFields with
  | some extraFields =>
      recordInfos (rewards.length - extraFields.length) infos
        (extraFields.map ExtraFields.rewardExtraInfo)
  | none => infos

/-- The body of the loop over the validation batches. -/
def ValState.collect (tokenizer : ValTokenizer) (s : ValState ν γ) (batch : ValBatch ν γ) :
    Except Py.Error (ValState ν γ) := do
  let sessions ← sessionMax .empty 0 batch.keys
  let sortedSessions := sessions.entries.mergeSort fun x y => decide (x.2.2 ≤ y.2.2)
  let finalIndices := sortedSessions.map fun x => x.2.2
  let finalKeys ← finalIndices.mapM (Py.getItem batch.keys)
  let baseOffset := s.sampleScores.length
  let allInputs := batch.keys.map (batch.text tokenizer ValOutput.prompts)
  let allOutputs := batch.keys.map (batch.text tokenizer ValOutput.responses)
  let inputs ← finalIndices.mapM (Py.getItem allInputs)
  let outputs ← finalIndices.mapM (Py.getItem allOutputs)
  let scores := finalKeys.map fun key => (batch.output key).rmScores.sum
  return {
    sampleUids := s.sampleUids ++ finalKeys.map fun key => (batch.output key).uid
    sampleInputs := s.sampleInputs ++ inputs
    sampleOutputs := s.sampleOutputs ++ outputs
    sampleGts := s.sampleGts ++
      (batch.column batch.hasRewardModel ValOutput.groundTruth finalKeys).getD
        (List.replicate finalIndices.length none)
    sampleScores := s.sampleScores ++ scores
    sampleTurns := s.sampleTurns ++ finalKeys.map fun key => (batch.output key).numTurns
    dataSources := s.dataSources ++
      (batch.column batch.hasDataSource ValOutput.dataSource finalKeys).getD
        (List.replicate finalIndices.length "unknown")
    rewardExtraInfos := extendInfos s.rewardExtraInfos scores
      (batch.column batch.hasExtraFields ValOutput.extraFields finalKeys)
    sessionToSampleIdx := s.sessionToSampleIdx.update
      ((sortedSessions.map Prod.fst).zipIdx baseOffset) }

/-- The lists before the first batch. -/
def ValState.initial : ValState ν γ :=
  ⟨[], [], [], [], [], [], [], .empty, .empty⟩

/-- The loop over the validation batches. -/
def collectAll (tokenizer : ValTokenizer) (batches : List (ValBatch ν γ)) :
    Except Py.Error (ValState ν γ) :=
  batches.foldlM (ValState.collect tokenizer) .initial

end Source

/-! ## Reported values -/

section Infos

variable {ν : Type}

/-- The value that a sample has for a key. -/
def reportedValue (key : String) (info : Py.Dict String ν) : Option (InfoValue ν) :=
  (info.get? key).map .reported

theorem get?_padMissing (infos : ExtraInfos ν) (info : Py.Dict String ν) (key : String) :
    (padMissing infos info).get? key = (infos.get? key).map fun values =>
      if key ≠ "reward" ∧ key ∉ info.keys then values ++ [none] else values :=
  Py.Dict.get?_mapEntries _ _ _

theorem get?_foldl_recordItem_of_not_mem {nPrior : Nat} {infos : ExtraInfos ν}
    {items : List (String × ν)} {key : String} (h : key ∉ items.map Prod.fst) :
    (items.foldl (recordItem nPrior) infos).get? key = infos.get? key := by
  induction items generalizing infos with
  | nil => rfl
  | cons item items ih =>
      rw [List.map_cons, List.mem_cons, not_or] at h
      rw [List.foldl_cons, ih h.2, recordItem, Py.Dict.get?_set, if_neg h.1]

theorem get?_foldl_recordItem {nPrior : Nat} {infos : ExtraInfos ν} {items : List (String × ν)}
    {key : String} {value : ν} (hnodup : (items.map Prod.fst).Nodup) (h : (key, value) ∈ items) :
    (items.foldl (recordItem nPrior) infos).get? key =
      some ((infos.get? key).getD (List.replicate nPrior none) ++ [some (.reported value)]) := by
  induction items generalizing infos with
  | nil => cases h
  | cons item items ih =>
      rw [List.map_cons] at hnodup
      obtain ⟨hnew, hrest⟩ := List.nodup_cons.mp hnodup
      rw [List.foldl_cons]
      rcases List.mem_cons.mp h with rfl | h
      · rw [get?_foldl_recordItem_of_not_mem hnew, recordItem, Py.Dict.get?_set, if_pos rfl]
      · have hne : key ≠ item.1 := fun heq =>
          hnew (heq ▸ List.mem_map_of_mem (f := Prod.fst) h)
        rw [ih hrest h, recordItem, Py.Dict.get?_set, if_neg hne]

/-- The list of a key after a sample. -/
theorem get?_recordInfo {nPrior : Nat} {infos : ExtraInfos ν} {info : Py.Dict String ν}
    {key : String} (hkey : key ≠ "reward") :
    (recordInfo nPrior infos info).get? key =
      if key ∈ infos.keys ∨ key ∈ info.keys then
        some ((infos.get? key).getD (List.replicate nPrior none) ++ [reportedValue key info])
      else none := by
  rw [recordInfo]
  cases hvalue : info.get? key with
  | none =>
      have hmissing := Py.Dict.get?_eq_none_iff.mp hvalue
      rw [get?_foldl_recordItem_of_not_mem hmissing, get?_padMissing, reportedValue, hvalue]
      cases hvalues : infos.get? key with
      | none =>
          have hnew := Py.Dict.get?_eq_none_iff.mp hvalues
          rw [if_neg (not_or.mpr ⟨hnew, hmissing⟩)]
          rfl
      | some values =>
          rw [if_pos (.inl (Py.Dict.mem_keys_of_get?_eq_some hvalues)), Option.map_some,
            if_pos ⟨hkey, hmissing⟩]
          rfl
  | some value =>
      have hmem := Py.Dict.mem_keys_of_get?_eq_some hvalue
      rw [get?_foldl_recordItem info.nodup (Py.Dict.mem_entries_iff.mpr hvalue), get?_padMissing,
        if_pos (.inr hmem), reportedValue, hvalue]
      have hkept : (infos.get? key).map (fun values =>
          if key ≠ "reward" ∧ key ∉ info.keys then values ++ [none] else values) =
            infos.get? key := by
        rw [show (fun values : List (Option (InfoValue ν)) =>
            if key ≠ "reward" ∧ key ∉ info.keys then values ++ [none] else values) = id from
          funext fun values => if_neg fun h => h.2 hmem]
        exact Option.map_id_apply
      rw [hkept]
      rfl

theorem mem_keys_recordInfo {nPrior : Nat} {infos : ExtraInfos ν} {info : Py.Dict String ν}
    {key : String} (hkey : key ≠ "reward") :
    key ∈ (recordInfo nPrior infos info).keys ↔ key ∈ infos.keys ∨ key ∈ info.keys := by
  rw [← not_iff_not, ← Py.Dict.get?_eq_none_iff, get?_recordInfo hkey]
  split
  next h => exact iff_of_false (Option.some_ne_none _) (not_not_intro h)
  next h => exact iff_of_true rfl h

/-- The list of a key after the samples of a batch. -/
theorem get?_recordInfos {nPrior : Nat} {infos : ExtraInfos ν} {samples : List (Py.Dict String ν)}
    {key : String} (hkey : key ≠ "reward") :
    (recordInfos nPrior infos samples).get? key =
      if key ∈ infos.keys ∨ ∃ info ∈ samples, key ∈ info.keys then
        some ((infos.get? key).getD (List.replicate nPrior none) ++
          samples.map (reportedValue key))
      else none := by
  induction samples generalizing nPrior infos with
  | nil =>
      rw [recordInfos, List.map_nil, List.append_nil]
      cases hvalues : infos.get? key with
      | none =>
          refine (if_neg ?_).symm
          rintro (hmem | ⟨_, h, _⟩)
          · exact Py.Dict.get?_eq_none_iff.mp hvalues hmem
          · cases h
      | some values => exact (if_pos (.inl (Py.Dict.mem_keys_of_get?_eq_some hvalues))).symm
  | cons info more ih =>
      rw [recordInfos, ih]
      by_cases hseen : key ∈ infos.keys ∨ key ∈ info.keys
      · rw [if_pos (.inl ((mem_keys_recordInfo hkey).mpr hseen)), get?_recordInfo hkey,
          if_pos hseen, if_pos (hseen.imp id fun h => ⟨info, List.mem_cons_self, h⟩),
          Option.getD_some, List.append_assoc]
        rfl
      · have hlater : (key ∈ (recordInfo nPrior infos info).keys ∨
            ∃ info ∈ more, key ∈ info.keys) ↔
              (key ∈ infos.keys ∨ ∃ info' ∈ info :: more, key ∈ info'.keys) := by
          rw [mem_keys_recordInfo hkey, List.exists_mem_cons_iff, or_assoc]
        obtain ⟨hnew, hmissing⟩ := not_or.mp hseen
        rw [if_congr hlater rfl rfl, get?_recordInfo hkey, if_neg hseen,
          Py.Dict.get?_eq_none_iff.mpr hnew, Option.getD_none, Option.getD_none, List.map_cons,
          reportedValue, Py.Dict.get?_eq_none_iff.mpr hmissing, Option.map_none,
          List.replicate_succ', List.append_assoc]
        rfl

/-- The scores stay as they are. -/
theorem get?_recordInfos_reward {nPrior : Nat} {infos : ExtraInfos ν}
    {samples : List (Py.Dict String ν)} (h : ∀ info ∈ samples, "reward" ∉ info.keys) :
    (recordInfos nPrior infos samples).get? "reward" = infos.get? "reward" := by
  induction samples generalizing nPrior infos with
  | nil => rfl
  | cons info more ih =>
      rw [recordInfos, ih fun other hother => h other (List.mem_cons_of_mem info hother),
        recordInfo,
        get?_foldl_recordItem_of_not_mem (h info List.mem_cons_self), get?_padMissing]
      simp only [ne_eq, not_true_eq_false, false_and, if_false]
      exact Option.map_id'

end Infos

end Verl
