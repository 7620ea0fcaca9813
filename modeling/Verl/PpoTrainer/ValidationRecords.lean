import Mathlib.Data.List.Induction
import Verl.PpoTrainer.Validate

/-!
# Validation records are aligned

After the collection loop every list has one entry per session, all from the session's
final output, if no batch without the column `extra_fields` follows a reported key
(`recordsAligned_iff`).  Such a batch extends the list of scores and no list of a key, and
the lists of the keys stay shorter than the list of scores from then on.
-/

namespace Verl

theorem sessionMax_keys (best : Py.Dict String (Int × Nat)) (pos : Nat) (rows : List OutputKey) :
    sessionMax best pos (rows.map OutputKey.key) = .ok (bestRows best pos rows) := by
  induction rows generalizing best pos with
  | nil => rfl
  | cons row rows ih =>
      rw [List.map_cons, sessionMax, OutputKey.rsplit_key]
      simp only [Py.int_toString, Py.ok_bind]
      exact ih (keepMax best row.sessionKey row.index pos) (pos + 1)

/-! ## Records -/

section Records

variable {ν γ : Type} {tokenizer : ValTokenizer}

/-- The record of a session: the batch and its final output. -/
abbrev ValRecord (ν γ : Type) : Type := ValBatch ν γ × OutputKey

namespace ValRecord

def output (e : ValRecord ν γ) : ValOutput ν γ := e.1.output e.2.key

def score (e : ValRecord ν γ) : ℚ := (output e).rmScores.sum

def gt (e : ValRecord ν γ) : Option γ :=
  if e.1.hasRewardModel then (output e).groundTruth else none

def dataSource (e : ValRecord ν γ) : String :=
  if e.1.hasDataSource then (output e).dataSource else "unknown"

/-- `reward_extra_info` of the sample. -/
def info (e : ValRecord ν γ) : Py.Dict String ν :=
  if e.1.hasExtraFields then (output e).extraFields.rewardExtraInfo else .empty

/-- The entry of a sample in the list of a key. -/
def infoEntry (key : String) (e : ValRecord ν γ) : Option (InfoValue ν) :=
  if key = "reward" then some (.score (score e)) else reportedValue key (info e)

end ValRecord

/-- The lists other than those of `reward_extra_info` have an entry for every record. -/
structure Collected (tokenizer : ValTokenizer) (batches : List (ValBatch ν γ)) (s : ValState ν γ)
    (records : List (ValRecord ν γ)) : Prop where
  nodup : (records.map fun e => e.2.sessionKey).Nodup
  mem : ∀ batch ∈ batches, ∀ row ∈ batch.rows, ∃ e ∈ records, e.1 = batch ∧
    e.2.sessionKey = row.sessionKey
  isFinal : ∀ e ∈ records, e.1 ∈ batches ∧ e.2.IsFinal e.1.rows
  uids : s.sampleUids = records.map fun e => e.output.uid
  inputs : s.sampleInputs = records.map fun e => e.1.text tokenizer ValOutput.prompts e.2.key
  outputs : s.sampleOutputs = records.map fun e =>
    e.1.text tokenizer ValOutput.responses e.2.key
  gts : s.sampleGts = records.map ValRecord.gt
  scores : s.sampleScores = records.map ValRecord.score
  turns : s.sampleTurns = records.map fun e => e.output.numTurns
  dataSources : s.dataSources = records.map ValRecord.dataSource
  sessionIdx : ∀ sessionKey i, s.sessionToSampleIdx.get? sessionKey = some i ↔
    ∃ e, records[i]? = some e ∧ e.2.sessionKey = sessionKey

/-- Every list of `reward_extra_infos_dict` has an entry for every record, and every
reported key has a list. -/
structure InfosKept (s : ValState ν γ) (records : List (ValRecord ν γ)) : Prop where
  entry : ∀ key values, s.rewardExtraInfos.get? key = some values →
    values = records.map (ValRecord.infoEntry key)
  recorded : ∀ e ∈ records, ∀ key ∈ e.info.keys, key ∈ s.rewardExtraInfos.keys

/-- The lists of validation belong together. -/
def RecordsAligned (tokenizer : ValTokenizer) (batches : List (ValBatch ν γ)) : Prop :=
  ∃ s records, collectAll tokenizer batches = .ok s ∧ Collected tokenizer batches s records ∧
    InfosKept s records

/-- No batch without `extra_fields` comes after a final output with a reported key. -/
def ExtraFieldsKept (batches : List (ValBatch ν γ)) : Prop :=
  batches.Pairwise fun earlier later => later.hasExtraFields = true ∨ later.rows = [] ∨
    ∀ row, row.IsFinal earlier.rows → (ValRecord.info (earlier, row)).keys = []

/-- The sessions of two batches are different, as every prompt gets a new uid. -/
def FreshSessions (batches : List (ValBatch ν γ)) : Prop :=
  batches.Pairwise fun earlier later => ∀ row ∈ earlier.rows, ∀ row' ∈ later.rows,
    row.sessionKey ≠ row'.sessionKey

/-! ## One batch -/

/-- The records of a batch. -/
def recordsOf (batch : ValBatch ν γ) (finals : List OutputKey) : List (ValRecord ν γ) :=
  finals.map fun row => (batch, row)

/-- The lists after a batch with these final rows. -/
def ValState.extend (tokenizer : ValTokenizer) (s : ValState ν γ) (batch : ValBatch ν γ)
    (finals : List OutputKey) : ValState ν γ where
  sampleUids := s.sampleUids ++ (recordsOf batch finals).map fun e => e.output.uid
  sampleInputs := s.sampleInputs ++ (recordsOf batch finals).map fun e =>
    e.1.text tokenizer ValOutput.prompts e.2.key
  sampleOutputs := s.sampleOutputs ++ (recordsOf batch finals).map fun e =>
    e.1.text tokenizer ValOutput.responses e.2.key
  sampleGts := s.sampleGts ++ (recordsOf batch finals).map ValRecord.gt
  sampleScores := s.sampleScores ++ (recordsOf batch finals).map ValRecord.score
  sampleTurns := s.sampleTurns ++ (recordsOf batch finals).map fun e => e.output.numTurns
  dataSources := s.dataSources ++ (recordsOf batch finals).map ValRecord.dataSource
  rewardExtraInfos := extendInfos s.rewardExtraInfos
    ((recordsOf batch finals).map ValRecord.score)
    (if batch.hasExtraFields then some ((recordsOf batch finals).map fun e => e.output.extraFields)
      else none)
  sessionToSampleIdx := s.sessionToSampleIdx.update
    ((finals.map OutputKey.sessionKey).zipIdx s.sampleScores.length)

/-- A column that is missing is filled with a default. -/
theorem getD_column {α : Type} (batch : ValBatch ν γ) (present : Bool)
    (field : ValOutput ν γ → α) (finals : List OutputKey) (default : α) :
    (batch.column present field (finals.map OutputKey.key)).getD
        (List.replicate finals.length default) =
      (recordsOf batch finals).map fun e => if present then field e.output else default := by
  rw [ValBatch.column, recordsOf, List.map_map]
  cases present with
  | true =>
      rw [if_pos rfl, Option.getD_some, List.map_map]
      rfl
  | false =>
      rw [List.map_map]
      exact List.map_const.symm

/-- The loop body finds the final rows. -/
theorem collect_eq (s : ValState ν γ) (batch : ValBatch ν γ) :
    ∃ finals, FinalRows batch.rows finals ∧
      s.collect tokenizer batch = .ok (s.extend tokenizer batch finals) := by
  obtain ⟨sessions, hsessions⟩ : ∃ sessions, sessions =
      (bestRows .empty 0 batch.rows).entries.mergeSort fun x y => decide (x.2.2 ≤ y.2.2) :=
    ⟨_, rfl⟩
  obtain ⟨finals, hfinals, -, hkeys, hitems⟩ := @exists_finals _ batch.rows id sessions (by
    rw [List.map_id, hsessions]
    exact List.mergeSort_perm _ _)
  rw [List.map_id, List.map_id] at hfinals
  refine ⟨finals, hfinals, ?_⟩
  have htext (field : ValOutput ν γ → List Nat) :
      (sessions.map fun x => x.2.2).mapM
          (Py.getItem (batch.keys.map (batch.text tokenizer field))) =
        .ok ((recordsOf batch finals).map fun e => e.1.text tokenizer field e.2.key) := by
    rw [ValBatch.keys, List.map_map, hitems, recordsOf, List.map_map]
    rfl
  have hmax : sessionMax .empty 0 batch.keys = .ok (bestRows .empty 0 batch.rows) :=
    sessionMax_keys _ _ _
  have hfinalKeys : (sessions.map fun x => x.2.2).mapM (Py.getItem batch.keys) =
      .ok (finals.map OutputKey.key) := hitems OutputKey.key
  have hlength : (sessions.map fun x => x.2.2).length = finals.length := by
    rw [List.length_map, ← List.length_map (f := Prod.fst), hkeys, List.length_map]
  have hfields {α : Type} (field : ValOutput ν γ → α) :
      ((finals.map OutputKey.key).map fun key => field (batch.output key)) =
        (recordsOf batch finals).map fun e => field e.output := by
    rw [recordsOf, List.map_map, List.map_map]
    rfl
  have hextra : batch.column batch.hasExtraFields ValOutput.extraFields
      (finals.map OutputKey.key) = if batch.hasExtraFields then
        some ((recordsOf batch finals).map fun e => e.output.extraFields) else none := by
    rw [ValBatch.column, hfields]
  rw [ValState.collect, hmax, Py.ok_bind]
  simp only [← hsessions]
  rw [hfinalKeys, Py.ok_bind, htext, Py.ok_bind, htext, Py.ok_bind, Py.pure_eq_ok, hlength,
    getD_column, getD_column, hextra, hkeys, hfields ValOutput.uid, hfields ValOutput.numTurns,
    hfields fun output => output.rmScores.sum]
  have hgts (e : ValRecord ν γ) (he : e ∈ recordsOf batch finals) :
      (if batch.hasRewardModel then e.output.groundTruth else none) = e.gt := by
    obtain ⟨row, -, rfl⟩ := List.mem_map.mp he
    rfl
  have hsources (e : ValRecord ν γ) (he : e ∈ recordsOf batch finals) :
      (if batch.hasDataSource then e.output.dataSource else "unknown") = e.dataSource := by
    obtain ⟨row, -, rfl⟩ := List.mem_map.mp he
    rfl
  rw [List.map_congr_left hgts, List.map_congr_left hsources]
  rfl

/-- A batch of new sessions. -/
theorem Collected.extend {batches : List (ValBatch ν γ)} {s : ValState ν γ}
    {records : List (ValRecord ν γ)} (h : Collected tokenizer batches s records)
    {batch : ValBatch ν γ} {finals : List OutputKey} (hfinals : FinalRows batch.rows finals)
    (hfresh : ∀ earlier ∈ batches, ∀ row ∈ earlier.rows, ∀ row' ∈ batch.rows,
      row.sessionKey ≠ row'.sessionKey) :
    Collected tokenizer (batches ++ [batch]) (s.extend tokenizer batch finals)
      (records ++ recordsOf batch finals) := by
  have hold : ∀ e ∈ records, ∀ row ∈ batch.rows, e.2.sessionKey ≠ row.sessionKey :=
      fun e he row hrow =>
    hfresh e.1 (h.isFinal e he).1 e.2 (h.isFinal e he).2.1 row hrow
  have hsessions : (recordsOf batch finals).map (fun e => e.2.sessionKey) =
      finals.map OutputKey.sessionKey := by
    rw [recordsOf, List.map_map]
    rfl
  have hlength : s.sampleScores.length = records.length := by
    rw [h.scores, List.length_map]
  constructor
  case nodup =>
    rw [List.map_append, hsessions]
    refine List.nodup_append.mpr ⟨h.nodup, hfinals.nodup, fun key hkey key' hkey' heq => ?_⟩
    obtain ⟨e, he, rfl⟩ := List.mem_map.mp hkey
    obtain ⟨row, hrow, rfl⟩ := List.mem_map.mp hkey'
    exact hold e he row (hfinals.isFinal row hrow).1 heq
  case mem =>
    intro other hother row hrow
    rcases List.mem_append.mp hother with hother | hother
    · obtain ⟨e, he, hbatch⟩ := h.mem other hother row hrow
      exact ⟨e, List.mem_append_left _ he, hbatch⟩
    · obtain rfl := List.mem_singleton.mp hother
      obtain ⟨final, hfinal, hsession⟩ := List.mem_map.mp (hfinals.mem row hrow)
      exact ⟨(other, final), List.mem_append_right _ (List.mem_map_of_mem hfinal), rfl, hsession⟩
  case isFinal =>
    intro e he
    rcases List.mem_append.mp he with he | he
    · exact ⟨List.mem_append_left _ (h.isFinal e he).1, (h.isFinal e he).2⟩
    · obtain ⟨row, hrow, rfl⟩ := List.mem_map.mp he
      exact ⟨List.mem_append_right _ List.mem_cons_self, hfinals.isFinal row hrow⟩
  case sessionIdx =>
    intro sessionKey i
    have hnew : ∀ key ∈ finals.map OutputKey.sessionKey, key ∉ s.sessionToSampleIdx.keys := by
      intro key hkey hmem
      obtain ⟨row, hrow, rfl⟩ := List.mem_map.mp hkey
      obtain ⟨j, hj⟩ := Py.Dict.exists_get?_of_mem_keys hmem
      obtain ⟨e, he, hsame⟩ := (h.sessionIdx _ _).mp hj
      exact hold e (List.mem_of_getElem? he) row (hfinals.isFinal row hrow).1 hsame
    refine (Py.Dict.get?_update_zipIdx hfinals.nodup hnew sessionKey i).trans ?_
    rw [h.sessionIdx, hlength]
    constructor
    · rintro (⟨e, he, hsame⟩ | ⟨j, hj, rfl⟩)
      · refine ⟨e, ?_, hsame⟩
        rw [List.getElem?_append_left (List.getElem?_eq_some_iff.mp he).1, he]
      · rw [List.getElem?_map] at hj
        obtain ⟨row, hrow, hsame⟩ := Option.map_eq_some_iff.mp hj
        refine ⟨(batch, row), ?_, hsame⟩
        rw [List.getElem?_append_right (Nat.le_add_right _ _), Nat.add_sub_cancel_left, recordsOf,
          List.getElem?_map, hrow]
        rfl
    · rintro ⟨e, he, hsame⟩
      by_cases hlt : i < records.length
      · rw [List.getElem?_append_left hlt] at he
        exact .inl ⟨e, he, hsame⟩
      · rw [List.getElem?_append_right (by omega), recordsOf, List.getElem?_map] at he
        obtain ⟨row, hrow, rfl⟩ := Option.map_eq_some_iff.mp he
        refine .inr ⟨i - records.length, ?_, by omega⟩
        rw [List.getElem?_map, hrow]
        exact congrArg some hsame
  all_goals rw [List.map_append]
  case uids => exact congrArg (· ++ _) h.uids
  case inputs => exact congrArg (· ++ _) h.inputs
  case outputs => exact congrArg (· ++ _) h.outputs
  case gts => exact congrArg (· ++ _) h.gts
  case scores => exact congrArg (· ++ _) h.scores
  case turns => exact congrArg (· ++ _) h.turns
  case dataSources => exact congrArg (· ++ _) h.dataSources

/-! ## Reported keys -/

/-- No sample reports a key `reward`. -/
def RewardFree (batches : List (ValBatch ν γ)) : Prop :=
  ∀ batch ∈ batches, ∀ row ∈ batch.rows, "reward" ∉ (ValRecord.info (batch, row)).keys

/-- What holds of `reward_extra_infos_dict` after every run. -/
structure InfosRun (s : ValState ν γ) (records : List (ValRecord ν γ)) : Prop where
  rewards : (s.rewardExtraInfos.get? "reward").getD [] =
    records.map (ValRecord.infoEntry "reward")
  reported : ∀ key ∈ s.rewardExtraInfos.keys, key = "reward" ∨ ∃ e ∈ records, key ∈ e.info.keys
  recorded : ∀ e ∈ records, ∀ key ∈ e.info.keys, key ∈ s.rewardExtraInfos.keys

/-- The list of a key is shorter than the list of scores. -/
def Deficit (s : ValState ν γ) (records : List (ValRecord ν γ)) : Prop :=
  ∃ key values, s.rewardExtraInfos.get? key = some values ∧ values.length < records.length

section Extend

variable {s : ValState ν γ} {records : List (ValRecord ν γ)} {batch : ValBatch ν γ}
  {finals : List OutputKey}

/-- The scores of a batch. -/
theorem InfosRun.rewards_append (h : InfosRun s records) :
    (s.rewardExtraInfos.get? "reward").getD [] ++
        ((recordsOf batch finals).map ValRecord.score).map (fun score => some (.score score)) =
      (records ++ recordsOf batch finals).map (ValRecord.infoEntry "reward") := by
  rw [h.rewards, List.map_append, List.map_map]
  rfl

theorem get?_extend_reward (h : InfosRun s records)
    (hreward : ∀ e ∈ recordsOf batch finals, "reward" ∉ e.info.keys) :
    (s.extend tokenizer batch finals).rewardExtraInfos.get? "reward" =
      some ((records ++ recordsOf batch finals).map (ValRecord.infoEntry "reward")) := by
  rw [← h.rewards_append]
  change (extendInfos _ _ _).get? "reward" = _
  cases hcolumn : batch.hasExtraFields with
  | false => exact (Py.Dict.get?_set _ _ _ _).trans (if_pos rfl)
  | true =>
      simp only [extendInfos, if_true]
      rw [get?_recordInfos_reward fun info hinfo => ?_]
      · exact (Py.Dict.get?_set _ _ _ _).trans (if_pos rfl)
      · rw [List.map_map] at hinfo
        obtain ⟨e, he, rfl⟩ := List.mem_map.mp hinfo
        have hfree := hreward e he
        obtain ⟨row, -, rfl⟩ := List.mem_map.mp he
        rw [ValRecord.info, hcolumn, if_pos rfl] at hfree
        exact hfree

/-- A batch without the column changes no list of a key. -/
theorem get?_extend_of_no_column (hcolumn : batch.hasExtraFields = false) {key : String}
    (hkey : key ≠ "reward") : (s.extend tokenizer batch finals).rewardExtraInfos.get? key =
      s.rewardExtraInfos.get? key := by
  change (extendInfos _ _ _).get? key = _
  rw [hcolumn]
  exact (Py.Dict.get?_set _ _ _ _).trans (if_neg hkey)

/-- A batch with the column gives every list its entries. -/
theorem get?_extend_of_column (h : InfosRun s records) (hcolumn : batch.hasExtraFields = true)
    {key : String} (hkey : key ≠ "reward") :
    (s.extend tokenizer batch finals).rewardExtraInfos.get? key =
      if key ∈ s.rewardExtraInfos.keys ∨ ∃ e ∈ recordsOf batch finals, key ∈ e.info.keys then
        some ((s.rewardExtraInfos.get? key).getD (List.replicate records.length none) ++
          (recordsOf batch finals).map (ValRecord.infoEntry key))
      else none := by
  obtain ⟨rs, hrs⟩ : ∃ rs, rs = recordsOf batch finals := ⟨_, rfl⟩
  have hinfos : (rs.map fun e => e.output.extraFields).map ExtraFields.rewardExtraInfo =
      rs.map ValRecord.info := by
    rw [List.map_map]
    refine List.map_congr_left fun e he => ?_
    rw [hrs] at he
    obtain ⟨row, -, rfl⟩ := List.mem_map.mp he
    exact ((if_pos hcolumn).symm :)
  have hcount : ((s.rewardExtraInfos.get? "reward").getD [] ++
      (rs.map ValRecord.score).map fun score => some (InfoValue.score score)).length -
        (rs.map fun e => e.output.extraFields).length = records.length := by
    rw [hrs, h.rewards_append, List.length_map, List.length_map, List.length_append,
      Nat.add_sub_cancel]
  have hentries : (rs.map ValRecord.info).map (reportedValue key) =
      rs.map (ValRecord.infoEntry key) := by
    rw [List.map_map]
    exact List.map_congr_left fun e _ => (if_neg hkey).symm
  have hget : (s.rewardExtraInfos.set "reward" ((s.rewardExtraInfos.get? "reward").getD [] ++
      (rs.map ValRecord.score).map fun score => some (InfoValue.score score))).get? key =
        s.rewardExtraInfos.get? key := (Py.Dict.get?_set _ _ _ _).trans (if_neg hkey)
  have hmem : (key ∈ (s.rewardExtraInfos.set "reward"
      ((s.rewardExtraInfos.get? "reward").getD [] ++
        (rs.map ValRecord.score).map fun score => some (InfoValue.score score))).keys ∨
          ∃ info ∈ rs.map ValRecord.info, key ∈ info.keys) ↔
      (key ∈ s.rewardExtraInfos.keys ∨ ∃ e ∈ rs, key ∈ e.info.keys) := by
    rw [Py.Dict.mem_keys_set, or_iff_right hkey]
    simp only [List.mem_map, exists_exists_and_eq_and]
  change (extendInfos _ _ _).get? key = _
  rw [if_pos hcolumn, ← hrs]
  simp only [extendInfos]
  rw [get?_recordInfos hkey, hinfos, hcount, hget, hentries, if_congr hmem rfl rfl]

end Extend

/-- What holds of the reported keys goes on to hold. -/
theorem InfosRun.extend {s : ValState ν γ} {records : List (ValRecord ν γ)}
    {batch : ValBatch ν γ} {finals : List OutputKey} (h : InfosRun s records)
    (hreward : ∀ e ∈ recordsOf batch finals, "reward" ∉ e.info.keys) :
    InfosRun (s.extend tokenizer batch finals) (records ++ recordsOf batch finals) := by
  have hrewards := @get?_extend_reward _ _ tokenizer _ _ _ _ h hreward
  have hkeys : ∀ key, key ∈ (s.extend tokenizer batch finals).rewardExtraInfos.keys ↔
      key = "reward" ∨ key ∈ s.rewardExtraInfos.keys ∨
        ∃ e ∈ recordsOf batch finals, key ∈ e.info.keys := by
    intro key
    by_cases hkey : key = "reward"
    · rw [hkey]
      exact iff_of_true (Py.Dict.mem_keys_of_get?_eq_some hrewards) (.inl rfl)
    · rw [or_iff_right hkey, ← not_iff_not, ← Py.Dict.get?_eq_none_iff]
      cases hcolumn : batch.hasExtraFields with
      | true =>
          rw [get?_extend_of_column h hcolumn hkey]
          split
          next hseen => exact iff_of_false (Option.some_ne_none _) (not_not_intro hseen)
          next hseen => exact iff_of_true rfl hseen
      | false =>
          rw [get?_extend_of_no_column hcolumn hkey, Py.Dict.get?_eq_none_iff, not_or]
          refine (and_iff_left ?_).symm
          rintro ⟨e, he, hmem⟩
          obtain ⟨row, -, rfl⟩ := List.mem_map.mp he
          rw [ValRecord.info, hcolumn] at hmem
          cases hmem
  refine ⟨?_, fun key hkey => ?_, fun e he key hkey => ?_⟩
  · rw [hrewards, Option.getD_some]
  · obtain hreward | hold | ⟨e, he, hmem⟩ := (hkeys key).mp hkey
    · exact .inl hreward
    · refine (h.reported key hold).imp id ?_
      rintro ⟨e, he, hmem⟩
      exact ⟨e, List.mem_append_left _ he, hmem⟩
    · exact .inr ⟨e, List.mem_append_right _ he, hmem⟩
  · rcases List.mem_append.mp he with he | he
    · exact (hkeys key).mpr (.inr (.inl (h.recorded e he key hkey)))
    · exact (hkeys key).mpr (.inr (.inr ⟨e, he, hkey⟩))

/-- Every list of a key has an entry for every record. -/
def EntriesKept (s : ValState ν γ) (records : List (ValRecord ν γ)) : Prop :=
  ∀ key values, key ≠ "reward" → s.rewardExtraInfos.get? key = some values →
    values = records.map (ValRecord.infoEntry key)

section Step

variable {s : ValState ν γ} {records : List (ValRecord ν γ)} {batch : ValBatch ν γ}
  {finals : List OutputKey}

/-- The records before a key was reported have no value for it. -/
theorem map_infoEntry_eq_replicate {key : String} (hkey : key ≠ "reward")
    (h : ∀ e ∈ records, key ∉ e.info.keys) :
    records.map (ValRecord.infoEntry key) = List.replicate records.length none := by
  rw [List.eq_replicate_iff, List.length_map]
  refine ⟨rfl, fun entry hentry => ?_⟩
  obtain ⟨e, he, rfl⟩ := List.mem_map.mp hentry
  rw [ValRecord.infoEntry, if_neg hkey, reportedValue,
    Py.Dict.get?_eq_none_iff.mpr (h e he), Option.map_none]

theorem EntriesKept.extend_of_column (h : EntriesKept s records) (hrun : InfosRun s records)
    (hcolumn : batch.hasExtraFields = true) :
    EntriesKept (s.extend tokenizer batch finals) (records ++ recordsOf batch finals) := by
  intro key values hkey hvalues
  rw [get?_extend_of_column hrun hcolumn hkey] at hvalues
  obtain ⟨-, hvalues⟩ := Option.mem_ite_none_right.mp hvalues
  obtain rfl := Option.some.inj hvalues
  rw [List.map_append]
  refine congrArg (· ++ _) ?_
  cases hget : s.rewardExtraInfos.get? key with
  | some values => exact h key values hkey hget
  | none =>
      refine (map_infoEntry_eq_replicate hkey fun e he hmem => ?_).symm
      exact Py.Dict.get?_eq_none_iff.mp hget (hrun.recorded e he key hmem)

/-- Without the column, a batch of no sessions changes nothing. -/
theorem EntriesKept.extend_of_nil (h : EntriesKept s records)
    (hcolumn : batch.hasExtraFields = false) (hnil : recordsOf batch finals = []) :
    EntriesKept (s.extend tokenizer batch finals) (records ++ recordsOf batch finals) := by
  intro key values hkey hvalues
  rw [get?_extend_of_no_column hcolumn hkey] at hvalues
  rw [hnil, List.append_nil]
  exact h key values hkey hvalues

/-- Without the column, the lists stay right if there are none. -/
theorem InfosRun.entriesKept_of_nothing_reported (h : InfosRun s records)
    (hnothing : ∀ e ∈ records, e.info.keys = []) (hcolumn : batch.hasExtraFields = false) :
    EntriesKept (s.extend tokenizer batch finals) (records ++ recordsOf batch finals) := by
  intro key values hkey hvalues
  rw [get?_extend_of_no_column hcolumn hkey] at hvalues
  obtain ⟨e, he, hmem⟩ :=
    (h.reported key (Py.Dict.mem_keys_of_get?_eq_some hvalues)).resolve_left hkey
  rw [hnothing e he] at hmem
  cases hmem

/-- A short list stays short. -/
theorem Deficit.extend (h : Deficit s records) (hrun : InfosRun s records) :
    Deficit (s.extend tokenizer batch finals) (records ++ recordsOf batch finals) := by
  obtain ⟨key, values, hvalues, hshort⟩ := h
  have hkey : key ≠ "reward" := by
    rintro rfl
    have hrewards := hrun.rewards
    rw [hvalues, Option.getD_some] at hrewards
    rw [hrewards, List.length_map] at hshort
    exact lt_irrefl _ hshort
  cases hcolumn : batch.hasExtraFields with
  | true =>
      refine ⟨key, _, (get?_extend_of_column hrun hcolumn hkey).trans
        (if_pos (.inl (Py.Dict.mem_keys_of_get?_eq_some hvalues))), ?_⟩
      rw [hvalues, Option.getD_some, List.length_append, List.length_map, List.length_append]
      omega
  | false =>
      refine ⟨key, values, (get?_extend_of_no_column hcolumn hkey).trans hvalues, ?_⟩
      rw [List.length_append]
      omega

/-- Without the column, the list of a key that was reported gets too short. -/
theorem EntriesKept.deficit (h : EntriesKept s records) (hrun : InfosRun s records)
    (hcolumn : batch.hasExtraFields = false) (hne : recordsOf batch finals ≠ [])
    {e : ValRecord ν γ} (he : e ∈ records) {key : String} (hkey : key ≠ "reward")
    (hmem : key ∈ e.info.keys) :
    Deficit (s.extend tokenizer batch finals) (records ++ recordsOf batch finals) := by
  obtain ⟨values, hvalues⟩ := Py.Dict.exists_get?_of_mem_keys (hrun.recorded e he key hmem)
  refine ⟨key, values, (get?_extend_of_no_column hcolumn hkey).trans hvalues, ?_⟩
  have hpos := List.length_pos_iff.mpr hne
  rw [h key values hkey hvalues, List.length_map, List.length_append]
  omega

end Step

/-! ## The whole loop -/

theorem collectAll_append (batches : List (ValBatch ν γ)) (batch : ValBatch ν γ) :
    collectAll tokenizer (batches ++ [batch]) =
      collectAll tokenizer batches >>= fun s => s.collect tokenizer batch := by
  rw [collectAll, collectAll, List.foldlM_append]
  refine congrArg (_ >>= ·) (funext fun s => ?_)
  rw [List.foldlM_cons]
  exact bind_pure _

/-- The records have every final output. -/
theorem Collected.mem_records {batches : List (ValBatch ν γ)} {s : ValState ν γ}
    {records : List (ValRecord ν γ)} (h : Collected tokenizer batches s records)
    {batch : ValBatch ν γ} (hbatch : batch ∈ batches) {row : OutputKey}
    (hrow : row.IsFinal batch.rows) : (batch, row) ∈ records := by
  obtain ⟨e, he, rfl, hsession⟩ := h.mem batch hbatch row hrow.1
  rwa [← (h.isFinal e he).2.unique hrow hsession]

/-- After every run the lists belong together, or one of them is too short. -/
theorem collectAll_spec {batches : List (ValBatch ν γ)} (hfresh : FreshSessions batches)
    (hreward : RewardFree batches) :
    ∃ s records, collectAll tokenizer batches = .ok s ∧ Collected tokenizer batches s records ∧
      InfosRun s records ∧ (ExtraFieldsKept batches ∧ EntriesKept s records ∨
        ¬ ExtraFieldsKept batches ∧ Deficit s records) := by
  induction batches using List.reverseRecOn with
  | nil =>
      have hidx (sessionKey : String) (i : Nat) :
          (Py.Dict.empty : Py.Dict String Nat).get? sessionKey = some i ↔
            ∃ e, ([] : List (ValRecord ν γ))[i]? = some e ∧ e.2.sessionKey = sessionKey := by
        constructor
        · intro h
          cases h
        · rintro ⟨_, h, -⟩
          cases h
      refine ⟨.initial, [], rfl, ?_, ?_, .inl ⟨.nil, fun _ _ _ h => by cases h⟩⟩
      · exact ⟨.nil, fun _ h => (List.not_mem_nil h).elim, fun _ h => (List.not_mem_nil h).elim,
          rfl, rfl, rfl, rfl, rfl, rfl, rfl, hidx⟩
      · exact ⟨rfl, fun _ h => (List.not_mem_nil h).elim, fun _ h => (List.not_mem_nil h).elim⟩
  | append_singleton batches batch ih =>
      obtain ⟨hfreshBefore, -, hfreshBatch⟩ := List.pairwise_append.mp hfresh
      have hnew : ∀ earlier ∈ batches, ∀ row ∈ earlier.rows, ∀ row' ∈ batch.rows,
          row.sessionKey ≠ row'.sessionKey := fun earlier hearlier =>
        hfreshBatch earlier hearlier batch List.mem_cons_self
      obtain ⟨s, records, hall, hcollected, hrun, hinfos⟩ := ih hfreshBefore fun other hother =>
        hreward other (List.mem_append_left _ hother)
      obtain ⟨finals, hfinals, hcollect⟩ := @collect_eq _ _ tokenizer s batch
      have hrewardBatch : ∀ e ∈ recordsOf batch finals, "reward" ∉ e.info.keys := by
        intro e he
        obtain ⟨row, hrow, rfl⟩ := List.mem_map.mp he
        exact hreward batch (List.mem_append_right _ List.mem_cons_self) row
          (hfinals.isFinal row hrow).1
      refine ⟨s.extend tokenizer batch finals, records ++ recordsOf batch finals, ?_,
        hcollected.extend hfinals hnew, hrun.extend hrewardBatch, ?_⟩
      · rw [collectAll_append, hall, Py.ok_bind, hcollect]
      · have hkept : ExtraFieldsKept (batches ++ [batch]) ↔ ExtraFieldsKept batches ∧
            ∀ earlier ∈ batches, batch.hasExtraFields = true ∨ batch.rows = [] ∨
              ∀ row, row.IsFinal earlier.rows → (ValRecord.info (earlier, row)).keys = [] := by
          rw [ExtraFieldsKept, List.pairwise_append]
          simp only [List.pairwise_singleton, List.mem_singleton, forall_eq, true_and]
          exact Iff.rfl
        rw [hkept]
        obtain ⟨hbefore, hentries⟩ | ⟨hbefore, hdeficit⟩ := hinfos
        · cases hcolumn : batch.hasExtraFields with
          | true => exact .inl ⟨⟨hbefore, fun _ _ => .inl rfl⟩,
                hentries.extend_of_column hrun hcolumn⟩
          | false =>
              by_cases hrows : batch.rows = []
              · have hnil : recordsOf batch finals = [] := by
                  cases hfinalsCases : finals with
                  | nil => rfl
                  | cons row rest =>
                      have hmem := (hfinals.isFinal row (hfinalsCases ▸ List.mem_cons_self)).1
                      rw [hrows] at hmem
                      cases hmem
                exact .inl ⟨⟨hbefore, fun _ _ => .inr (.inl hrows)⟩,
                  hentries.extend_of_nil hcolumn hnil⟩
              · have hne : recordsOf batch finals ≠ [] := by
                  intro hnil
                  obtain ⟨row, rest, hcons⟩ := List.exists_cons_of_ne_nil hrows
                  have hmem := hfinals.mem row (hcons ▸ List.mem_cons_self)
                  rw [List.map_eq_nil_iff.mp hnil] at hmem
                  cases hmem
                by_cases hnothing : ∀ e ∈ records, e.info.keys = []
                · refine .inl ⟨⟨hbefore, fun earlier hearlier => .inr (.inr fun row hrow => ?_)⟩,
                    hrun.entriesKept_of_nothing_reported hnothing hcolumn⟩
                  exact hnothing _ (hcollected.mem_records hearlier hrow)
                · push Not at hnothing
                  obtain ⟨e, he, hkeys⟩ := hnothing
                  obtain ⟨key, hkey⟩ := List.exists_mem_of_ne_nil _ hkeys
                  obtain ⟨hbatch, hfinal⟩ := hcollected.isFinal e he
                  have hnotReward : key ≠ "reward" := by
                    rintro rfl
                    exact hreward e.1 (List.mem_append_left _ hbatch) e.2 hfinal.1 hkey
                  refine .inr ⟨fun ⟨_, hall⟩ => ?_,
                    hentries.deficit hrun hcolumn hne he hnotReward hkey⟩
                  obtain htrue | hempty | hnone := hall e.1 hbatch
                  · cases htrue
                  · exact hrows hempty
                  · exact hkeys (hnone e.2 hfinal)
        · exact .inr ⟨fun h => hbefore h.1, hdeficit.extend hrun⟩

/-- A list that is too short does not belong to the others. -/
theorem Deficit.not_recordsAligned {batches : List (ValBatch ν γ)} {s : ValState ν γ}
    {records : List (ValRecord ν γ)} (h : Deficit s records)
    (hall : collectAll tokenizer batches = .ok s)
    (hcollected : Collected tokenizer batches s records) :
    ¬ RecordsAligned tokenizer batches := by
  rintro ⟨s', records', hall', hcollected', hkept⟩
  rw [hall] at hall'
  obtain rfl := Except.ok.inj hall'
  obtain ⟨key, values, hvalues, hshort⟩ := h
  have hlength : records.length = records'.length := by
    rw [← List.length_map (f := ValRecord.score), ← hcollected.scores, hcollected'.scores,
      List.length_map]
  rw [hkept.entry key values hvalues, List.length_map, hlength] at hshort
  exact lt_irrefl _ hshort

/-- The lists belong together exactly if every batch after a reported key has its
`extra_fields`. -/
theorem recordsAligned_iff (tokenizer : ValTokenizer) (batches : List (ValBatch ν γ))
    (hfresh : FreshSessions batches) (hreward : RewardFree batches) :
    RecordsAligned tokenizer batches ↔ ExtraFieldsKept batches := by
  obtain ⟨s, records, hall, hcollected, hrun, hinfos⟩ :=
    @collectAll_spec _ _ tokenizer _ hfresh hreward
  constructor
  · intro h
    obtain ⟨hkept, -⟩ | ⟨-, hdeficit⟩ := hinfos
    · exact hkept
    · exact absurd h (hdeficit.not_recordsAligned hall hcollected)
  · intro h
    obtain ⟨-, hentries⟩ | ⟨hnot, -⟩ := hinfos
    · refine ⟨s, records, hall, hcollected, fun key values hvalues => ?_, hrun.recorded⟩
      by_cases hkey : key = "reward"
      · have hrewards := hrun.rewards
        rw [← hkey, hvalues, Option.getD_some] at hrewards
        exact hrewards
      · exact hentries key values hkey hvalues
    · exact absurd h hnot

/-- One session, with an accuracy reported by the reward function. -/
def oneSession (uid : String) (hasExtraFields : Bool) : ValBatch Nat Nat where
  rows := [⟨uid, 0, 0⟩]
  output _ :=
    { prompts := [1], responses := [2, 3], uid := uid, rmScores := [0, 1], numTurns := 2,
      groundTruth := none, dataSource := "math",
      extraFields := .dict (some (.ofKeys ["acc"] (List.nodup_singleton _) fun _ => 1)) }
  hasRewardModel := false
  hasDataSource := true
  hasExtraFields := hasExtraFields

theorem freshSessions_oneSession (first second : Bool) :
    FreshSessions [oneSession "a" first, oneSession "b" second] := by
  refine List.pairwise_pair.mpr fun row hrow row' hrow' hsession => ?_
  obtain rfl := List.mem_singleton.mp hrow
  obtain rfl := List.mem_singleton.mp hrow'
  have huid : "a" = "b" := (OutputKey.sessionKey_inj hsession).1
  exact absurd huid (by decide)

theorem rewardFree_oneSession (first second : Bool) :
    RewardFree [oneSession "a" first, oneSession "b" second] := by
  intro batch hbatch row _
  have hkeys : (ValRecord.info (batch, row)).keys ⊆ ["acc"] := by
    rcases List.mem_cons.mp hbatch with rfl | hbatch
    · cases first with
      | true => exact List.Subset.refl _
      | false => exact List.nil_subset _
    · obtain rfl := List.mem_singleton.mp hbatch
      cases second with
      | true => exact List.Subset.refl _
      | false => exact List.nil_subset _
  intro hmem
  exact absurd (List.mem_singleton.mp (hkeys hmem)) (by decide)

theorem recordsAligned_iff_oneSession :
    RecordsAligned ⟨0, fun _ => "text"⟩ [oneSession "a" true, oneSession "b" true] :=
  (recordsAligned_iff ⟨0, fun _ => "text"⟩ [oneSession "a" true, oneSession "b" true]
    (freshSessions_oneSession true true) (rewardFree_oneSession true true)).mpr
    (List.pairwise_pair.mpr (.inl rfl))

/-- The second batch has no column `extra_fields`. -/
theorem not_recordsAligned_oneSession :
    FreshSessions [oneSession "a" true, oneSession "b" false] ∧
      RewardFree [oneSession "a" true, oneSession "b" false] ∧
      ¬ RecordsAligned ⟨0, fun _ => "text"⟩ [oneSession "a" true, oneSession "b" false] := by
  refine ⟨freshSessions_oneSession true false, rewardFree_oneSession true false, ?_⟩
  obtain ⟨s, records, hall, hcollected, -, hinfos⟩ :=
    @collectAll_spec _ _ ⟨0, fun _ => "text"⟩ _ (freshSessions_oneSession true false)
      (rewardFree_oneSession true false)
  obtain ⟨hkept, -⟩ | ⟨-, hdeficit⟩ := hinfos
  · obtain hcolumn | hrows | hkeys := List.pairwise_pair.mp hkept
    · cases hcolumn
    · cases hrows
    · have hfinal : (⟨"a", 0, 0⟩ : OutputKey).IsFinal (oneSession "a" true).rows := by
        refine ⟨List.mem_cons_self, fun other hother _ => ?_⟩
        rw [List.mem_singleton.mp hother]
      cases hkeys _ hfinal
  · exact hdeficit.not_recordsAligned hall hcollected

end Records

end Verl
