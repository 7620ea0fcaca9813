import Verl.Ppo.PasskPadding
import Verl.PpoTrainer.OutputKeys

/-!
# Advantages of multi-trajectory agent loops

`compute_advantage_for_multi_trajectories` computes GRPO advantages for the final outputs
of all sessions, reads one number per session back from the advantages of its final output,
and gives it to every output of the session.  The number is read at the first unmasked token
of the final output.  If this output has no unmasked token, the number that is read is 0
whatever the session's score is (`creditsSessions_iff`).
-/

namespace Verl

/-- A row of the padded batch under its key. -/
structure KeyedRow where
  key : OutputKey
  row : AdvRow
  uid_eq : row.uid = key.uid

/-! ## The source function -/

/-- The loop over `batch_keys`: `final_sessions` and `row_session_keys`. -/
def finalSessions (best : Py.Dict String (Int × Nat)) (pos : Nat) :
    List String → Except Py.Error (Py.Dict String (Int × Nat) × List String)
  | [] => .ok (best, [])
  | key :: keys =>
      match Py.rsplit '_' 2 key with
      | [uid, sessionId, index] => do
          let index ← Py.int index
          let sessionKey := s!"{uid}_{sessionId}"
          let (best, rowSessionKeys) ←
              finalSessions (keepMax best sessionKey index pos) (pos + 1) keys
          return (best, sessionKey :: rowSessionKeys)
      | _ => .error (.assertion s!"Unexpected key format: {key}")

/-- `argmax` of a row: the first position of its largest entry. -/
def argmax (xs : List ℚ) : Except Py.Error Nat :=
  if xs = [] then .error .index else .ok (xs.idxOf (maxReward xs))

/-- `d[k]`. -/
def lookupKey {α : Type} (d : Py.Dict String α) (k : String) : Except Py.Error α :=
  match d.get? k with
  | some v => .ok v
  | none => .error .key

/-- `compute_advantage_for_multi_trajectories`. -/
def computeAdvantageForMultiTrajectories (S : SquareRoot) (parseInt : String → Option Int)
    (config : AlgoConfig) (est : AdvantageEstimator) (batchKeys : List String)
    (rows : List AdvRow) : Except Py.Error AdvOutput :=
  if est ≠ .grpo then est.compute S parseInt config rows
  else do
    let (sessions, rowSessionKeys) ← finalSessions .empty 0 batchKeys
    let finalIndices := sessions.entries.map fun x => x.2.2
    let sessionKeyToLocalIndex :=
      (Py.Dict.empty : Py.Dict String Nat).update (sessions.entries.map Prod.fst).zipIdx
    let rowToLocalIndex ← rowSessionKeys.mapM (lookupKey sessionKeyToLocalIndex)
    let finalRows ← finalIndices.mapM (Py.getItem rows)
    let finalData ← est.compute S parseInt config finalRows
    let firstNnzIndices ← finalRows.mapM fun row => argmax row.mask
    let finalScores ← (finalData.advantages.zip firstNnzIndices).mapM fun x => Py.getItem x.1 x.2
    let scores ← rowToLocalIndex.mapM (Py.getItem finalScores)
    let scores := List.zipWith broadcast scores (rows.map AdvRow.mask)
    return ⟨scores, scores⟩

/-! ## What a batch is promised -/

/-- The highest-index outputs of all sessions. -/
def finalsOf (batch : List KeyedRow) : List KeyedRow :=
  batch.filter fun t => ∀ other ∈ batch,
    other.key.sessionKey = t.key.sessionKey → other.key.index ≤ t.key.index

/-- The group-normalised score of a final output among those of its uid. -/
def normalisedScore (S : SquareRoot) (norm : Bool) (batch : List KeyedRow) (final : KeyedRow) :
    Num :=
  grpoScore S norm (groupOf ((finalsOf batch).map KeyedRow.row) final.row.uid) final.row.stat

/-- `compute_advantage_for_multi_trajectories` of a batch. -/
def multiAdvantage (S : SquareRoot) (parseInt : String → Option Int) (config : AlgoConfig)
    (batch : List KeyedRow) : Except Py.Error AdvOutput :=
  computeAdvantageForMultiTrajectories S parseInt config .grpo
    (batch.map fun t => t.key.key) (batch.map KeyedRow.row)

/-- Every output is credited with the score of the final output of its session. -/
structure CreditsSessions (S : SquareRoot) (parseInt : String → Option Int) (config : AlgoConfig)
    (batch : List KeyedRow) : Prop where
  credited : ∃ out, multiAdvantage S parseInt config batch = .ok out ∧
    out.returns = out.advantages ∧ out.advantages.length = batch.length ∧
    ∀ (i : Nat) (t final : KeyedRow), batch[i]? = some t → final ∈ finalsOf batch →
      final.key.sessionKey = t.key.sessionKey →
      out.advantages[i]? = some (t.row.mask.map fun m =>
        if m = 0 then some 0 else normalisedScore S config.normAdvByStdInGrpo batch final)
  single : (batch.map fun t => t.key.sessionKey).Nodup →
    multiAdvantage S parseInt config batch =
      AdvantageEstimator.compute S parseInt config .grpo (batch.map KeyedRow.row)

/-- Every session has an unmasked token in one of its outputs. -/
def SessionsUnmasked (batch : List KeyedRow) : Prop :=
  ∀ t ∈ batch, ∃ other ∈ batch, other.key.sessionKey = t.key.sessionKey ∧
    ∃ m ∈ other.row.mask, m ≠ 0

/-! ## Scores of a group -/

/-- The order of a group does not matter. -/
theorem grpoScore_perm (S : SquareRoot) (norm : Bool) {group group' : List RowStat}
    (h : group.Perm group') (row : RowStat) :
    grpoScore S norm group row = grpoScore S norm group' row := by
  have hlength := h.length_eq
  have hsum : (group.map RowStat.score).sum = (group'.map RowStat.score).sum :=
    (h.map RowStat.score).sum_eq
  have hmean : id2mean group = id2mean group' := by rw [id2mean, id2mean, hlength, hsum]
  have hstd : id2std S group = id2std S group' := by
    have hsquares (mean : ℚ) : ((group.map RowStat.score).map fun s => (s - mean) ^ 2).sum =
        ((group'.map RowStat.score).map fun s => (s - mean) ^ 2).sum :=
      ((h.map RowStat.score).map _).sum_eq
    rw [id2std, id2std, torchStd, torchStd, hlength, hsum, List.length_map, List.length_map,
      hlength,
      hsquares]
  rw [grpoScore, grpoScore, hmean, hstd]

theorem groupOf_perm {rows rows' : List AdvRow} (h : rows.Perm rows') (uid : String) :
    (groupOf rows uid).Perm (groupOf rows' uid) := (h.filter _).map _

/-! ## The first unmasked token -/

/-- The advantage that is read at the first unmasked token of a row. -/
def readBack (scalar : Num) (mask : List ℚ) : Num :=
  ((broadcast scalar mask)[mask.idxOf (maxReward mask)]?).getD none

theorem le_foldl_max_rat (r : ℚ) (rewards : List ℚ) :
    r ≤ rewards.foldl max r ∧ ∀ x ∈ rewards, x ≤ rewards.foldl max r := by
  induction rewards generalizing r with
  | nil => exact ⟨le_refl r, fun x hx => (List.not_mem_nil hx).elim⟩
  | cons r' rewards ih =>
      obtain ⟨hinit, hrest⟩ := ih (max r r')
      refine ⟨(le_max_left r r').trans hinit, fun x hx => ?_⟩
      rcases List.mem_cons.mp hx with rfl | hx
      · exact (le_max_right r x).trans hinit
      · exact hrest x hx

theorem le_maxReward {rewards : List ℚ} {x : ℚ} (h : x ∈ rewards) : x ≤ maxReward rewards :=
  (le_foldl_max_rat _ rewards).2 x h

/-- The largest entry of a mask is at its first unmasked token. -/
theorem maxReward_eq_one {mask : List ℚ} (hmask : ∀ m ∈ mask, m = 0 ∨ m = 1) {m : ℚ}
    (hm : m ∈ mask) (hne : m ≠ 0) : maxReward mask = 1 := by
  refine (hmask _ (maxReward_mem (List.ne_nil_of_mem hm))).resolve_left fun hzero => ?_
  have hle := le_maxReward hm
  rw [(hmask m hm).resolve_left hne, hzero] at hle
  exact absurd hle (not_le_of_gt zero_lt_one)

theorem getElem?_broadcast_argmax {scalar : Num} {mask : List ℚ} (hne : mask ≠ []) :
    (broadcast scalar mask)[mask.idxOf (maxReward mask)]? =
      some (scalar.map (· * maxReward mask)) := by
  have hlt := List.idxOf_lt_length_of_mem (maxReward_mem hne)
  rw [broadcast, List.getElem?_map, List.getElem?_eq_getElem hlt, List.getElem_idxOf hlt]
  rfl

/-- The number of a row with an unmasked token is read. -/
theorem readBack_of_unmasked {scalar : Num} {mask : List ℚ}
    (hmask : ∀ m ∈ mask, m = 0 ∨ m = 1) {m : ℚ} (hm : m ∈ mask) (hne : m ≠ 0) :
    readBack scalar mask = scalar := by
  rw [readBack, getElem?_broadcast_argmax (List.ne_nil_of_mem hm), maxReward_eq_one hmask hm hne]
  simp only [mul_one, Option.map_id', Option.getD_some]

/-- From a row without unmasked tokens a 0 is read. -/
theorem readBack_of_masked {x : ℚ} {mask : List ℚ} (hne : mask ≠ []) (h : ∀ m ∈ mask, m = 0) :
    readBack (some x) mask = some 0 := by
  rw [readBack, getElem?_broadcast_argmax hne, h _ (maxReward_mem hne), Option.getD_some,
    Option.map_some, mul_zero]

/-- A number on the unmasked tokens of a row. -/
theorem broadcast_eq_ite (x : ℚ) {mask : List ℚ} (hmask : ∀ m ∈ mask, m = 0 ∨ m = 1) :
    broadcast (some x) mask = mask.map fun m => if m = 0 then some 0 else some x := by
  refine List.map_congr_left fun m hm => ?_
  obtain rfl | rfl := hmask m hm
  · rw [if_pos rfl, Option.map_some, mul_zero]
  · rw [if_neg one_ne_zero, Option.map_some, mul_one]

/-! ## Final outputs -/

theorem finalSessions_keys (best : Py.Dict String (Int × Nat)) (pos : Nat)
    (rows : List OutputKey) :
    finalSessions best pos (rows.map OutputKey.key) =
      .ok (bestRows best pos rows, rows.map OutputKey.sessionKey) := by
  induction rows generalizing best pos with
  | nil => rfl
  | cons row rows ih =>
      rw [List.map_cons, finalSessions, OutputKey.rsplit_key]
      simp only [Py.int_toString, Py.ok_bind]
      change (finalSessions (keepMax best row.sessionKey row.index pos) (pos + 1)
        (rows.map OutputKey.key) >>= _) = _
      rw [ih]
      rfl

variable {batch : List KeyedRow}

theorem mem_finalsOf {t : KeyedRow} :
    t ∈ finalsOf batch ↔ t ∈ batch ∧ t.key.IsFinal (batch.map KeyedRow.key) := by
  rw [finalsOf, List.mem_filter, decide_eq_true_eq]
  refine and_congr_right fun ht => ⟨fun h => ⟨List.mem_map_of_mem ht, fun other hother => ?_⟩,
    fun h other hother => h.2 other.key (List.mem_map_of_mem hother)⟩
  obtain ⟨t', ht', rfl⟩ := List.mem_map.mp hother
  exact h t' ht'

/-- The rows that the dictionary finds are the highest-index outputs. -/
theorem perm_finalsOf (hkeys : (batch.map KeyedRow.key).Nodup) {finals : List KeyedRow}
    (hfinals : FinalRows (batch.map KeyedRow.key) (finals.map KeyedRow.key))
    (hbatch : ∀ t ∈ finals, t ∈ batch) : finals.Perm (finalsOf batch) := by
  have hnodup : finals.Nodup := (hfinals.nodup.of_map _).of_map _
  refine (List.perm_ext_iff_of_nodup hnodup ((hkeys.of_map _).filter _)).mpr fun t =>
    Iff.trans ?_ mem_finalsOf.symm
  constructor
  · exact fun ht => ⟨hbatch t ht, hfinals.isFinal t.key (List.mem_map_of_mem ht)⟩
  · rintro ⟨ht, hfinal⟩
    obtain ⟨key, hkey, hsession⟩ := List.mem_map.mp (hfinals.mem t.key (List.mem_map_of_mem ht))
    have hsame := (hfinals.isFinal key hkey).unique hfinal hsession
    obtain ⟨t', ht', rfl⟩ := List.mem_map.mp hkey
    rwa [← List.inj_on_of_nodup_map hkeys (hbatch t' ht') ht hsame]

/-- Every output has a final output in its session. -/
theorem exists_mem_finalsOf (hkeys : (batch.map KeyedRow.key).Nodup) {t : KeyedRow}
    (ht : t ∈ batch) : ∃ final ∈ finalsOf batch, final.key.sessionKey = t.key.sessionKey := by
  obtain ⟨finals, hfinals, hbatch, -, -⟩ := @exists_finals _ batch KeyedRow.key _ (List.Perm.refl _)
  obtain ⟨key, hkey, hsession⟩ := List.mem_map.mp (hfinals.mem t.key (List.mem_map_of_mem ht))
  obtain ⟨final, hfinal, rfl⟩ := List.mem_map.mp hkey
  exact ⟨final, (perm_finalsOf hkeys hfinals hbatch).mem_iff.mp hfinal, hsession⟩

/-! ## The result -/

/-- Every output gets the number that is read from the final output of its session. -/
theorem multiAdvantage_spec (S : SquareRoot) (parseInt : String → Option Int)
    (config : AlgoConfig) (hkeys : (batch.map KeyedRow.key).Nodup)
    (hmasks : ∀ t ∈ batch, t.row.mask ≠ []) :
    ∃ score : KeyedRow → Num,
      multiAdvantage S parseInt config batch =
        .ok ⟨batch.map fun t => broadcast (score t) t.row.mask,
          batch.map fun t => broadcast (score t) t.row.mask⟩ ∧
      ∀ t ∈ batch, ∀ final ∈ finalsOf batch, final.key.sessionKey = t.key.sessionKey →
        score t = readBack (normalisedScore S config.normAdvByStdInGrpo batch final)
          final.row.mask := by
  obtain ⟨finals, hfinals, hbatch, hsessions, hitems⟩ :=
    @exists_finals _ batch KeyedRow.key _ (List.Perm.refl _)
  have hperm := perm_finalsOf hkeys hfinals hbatch
  have hnodup : (finals.map fun t => t.key.sessionKey).Nodup := by
    have h := hfinals.nodup
    rwa [List.map_map] at h
  -- the numbers that are read from the final outputs
  obtain ⟨read, hread⟩ : ∃ read : KeyedRow → Num, read = fun final =>
      readBack (grpoScore S config.normAdvByStdInGrpo
        (groupOf (finals.map KeyedRow.row) final.row.uid) final.row.stat) final.row.mask := ⟨_, rfl⟩
  obtain ⟨localIndex, hlocal⟩ : ∃ localIndex, localIndex =
      (Py.Dict.empty : Py.Dict String Nat).update
        (finals.map fun t => t.key.sessionKey).zipIdx := ⟨_, rfl⟩
  have hlookup : ∀ t ∈ batch, ∃ j final, localIndex.get? t.key.sessionKey = some j ∧
      finals[j]? = some final ∧ final.key.sessionKey = t.key.sessionKey := by
    intro t ht
    obtain ⟨final, hfinal, hsession⟩ := exists_mem_finalsOf hkeys ht
    obtain ⟨j, hj⟩ := List.mem_iff_getElem?.mp (hperm.mem_iff.mpr hfinal)
    refine ⟨j, final, ?_, hj, hsession⟩
    rw [hlocal, Py.Dict.get?_update_zipIdx hnodup fun _ _ => List.not_mem_nil]
    refine .inr ⟨j, ?_, (Nat.zero_add j).symm⟩
    rw [List.getElem?_map, hj, Option.map_some, hsession]
  obtain ⟨score, hscore⟩ : ∃ score : KeyedRow → Num, score = fun t =>
      (finals.map read).getD ((localIndex.get? t.key.sessionKey).getD 0) none := ⟨_, rfl⟩
  refine ⟨score, ?_, fun t ht final hfinal hsession => ?_⟩
  · have hindices : (batch.map fun t => t.key.sessionKey).mapM (lookupKey localIndex) =
        .ok (batch.map fun t => (localIndex.get? t.key.sessionKey).getD 0) := by
      refine Py.mapM_map_eq_ok fun t ht => ?_
      obtain ⟨j, final, hj, -, -⟩ := hlookup t ht
      rw [lookupKey, hj]
      rfl
    have hcompute : AdvantageEstimator.compute S parseInt config .grpo (finals.map KeyedRow.row) =
        .ok ⟨finals.map fun final => broadcast (grpoScore S config.normAdvByStdInGrpo
            (groupOf (finals.map KeyedRow.row) final.row.uid) final.row.stat) final.row.mask,
          finals.map fun final => broadcast (grpoScore S config.normAdvByStdInGrpo
            (groupOf (finals.map KeyedRow.row) final.row.uid) final.row.stat) final.row.mask⟩ := by
      rw [AdvantageEstimator.compute, computeGrpoOutcomeAdvantage, groupAdvantage_uid,
        advantagesByUid, List.map_map]
      rfl
    have hargmax : (finals.map KeyedRow.row).mapM (fun row => argmax row.mask) =
        .ok (finals.map fun final => final.row.mask.idxOf (maxReward final.row.mask)) :=
      Py.mapM_map_eq_ok fun final hfinal => if_neg (hmasks final (hbatch final hfinal))
    have hscores : ((finals.map fun final => broadcast (grpoScore S config.normAdvByStdInGrpo
            (groupOf (finals.map KeyedRow.row) final.row.uid) final.row.stat) final.row.mask).zip
          (finals.map fun final => final.row.mask.idxOf (maxReward final.row.mask))).mapM
        (fun x => Py.getItem x.1 x.2) = .ok (finals.map read) := by
      rw [List.zip_map', List.mapM_map]
      refine Py.mapM_eq_ok fun final hfinal => Py.getItem_of_some ?_
      have hget := @getElem?_broadcast_argmax (grpoScore S config.normAdvByStdInGrpo
        (groupOf (finals.map KeyedRow.row) final.row.uid) final.row.stat) _
          (hmasks final (hbatch final hfinal))
      simp only [hread, readBack, hget, Option.getD_some]
    have hscatter : (batch.map fun t => (localIndex.get? t.key.sessionKey).getD 0).mapM
        (Py.getItem (finals.map read)) = .ok (batch.map score) := by
      refine Py.mapM_map_eq_ok fun t ht => ?_
      obtain ⟨j, final, hj, hfinal, -⟩ := hlookup t ht
      have hlt : j < (finals.map read).length := by
        rw [List.length_map]
        exact (List.getElem?_eq_some_iff.mp hfinal).1
      simp only [hscore, hj]
      exact Py.getItem_of_lt hlt none
    have hsessionKeys : (bestRows .empty 0 (batch.map KeyedRow.key)).entries.map Prod.fst =
        finals.map fun t => t.key.sessionKey := hsessions
    have hkeyList : (batch.map fun t => t.key.key) =
        (batch.map KeyedRow.key).map OutputKey.key := by
      rw [List.map_map]
      rfl
    have hsessionList : (batch.map KeyedRow.key).map OutputKey.sessionKey =
        batch.map fun t => t.key.sessionKey := by
      rw [List.map_map]
      rfl
    rw [multiAdvantage, computeAdvantageForMultiTrajectories, if_neg (not_not_intro rfl), hkeyList,
      finalSessions_keys, Py.ok_bind]
    simp only [hsessionList, hsessionKeys, ← hlocal, hindices, hitems, hcompute, hargmax, hscores,
      hscatter, Py.ok_bind]
    rw [List.map_map, List.zipWith_map, List.zipWith_self]
    rfl
  · obtain ⟨j, found, hj, hfound, hsame⟩ := hlookup t ht
    have hfoundFinal := hperm.mem_iff.mp (List.mem_of_getElem? hfound)
    have hkey : found.key = final.key :=
      (mem_finalsOf.mp hfoundFinal).2.unique (mem_finalsOf.mp hfinal).2 (hsame.trans hsession.symm)
    obtain rfl := List.inj_on_of_nodup_map hkeys (mem_finalsOf.mp hfoundFinal).1
      (mem_finalsOf.mp hfinal).1 hkey
    have hgroup := groupOf_perm (hperm.map KeyedRow.row) found.row.uid
    simp only [hscore, hj, Option.getD_some]
    rw [List.getD_eq_getElem?_getD, List.getElem?_map, hfound, Option.map_some, Option.getD_some,
      hread, normalisedScore]
    simp only [grpoScore_perm S _ hgroup]

/-! ## Credit -/

/-- The final output of every session has an unmasked token, or a normalised score of 0. -/
def FinalsReadable (S : SquareRoot) (config : AlgoConfig) (batch : List KeyedRow) : Prop :=
  ∀ final ∈ finalsOf batch, (∃ m ∈ final.row.mask, m ≠ 0) ∨
    normalisedScore S config.normAdvByStdInGrpo batch final = some 0

theorem mask_ne_nil {width : Nat} (hwidth : ∀ t ∈ batch, t.row.mask.length = width)
    (hunmasked : SessionsUnmasked batch) : ∀ t ∈ batch, t.row.mask ≠ [] := by
  intro t ht hnil
  obtain ⟨other, hother, -, m, hm, -⟩ := hunmasked t ht
  have hpos := List.length_pos_of_mem hm
  have hlength := hwidth t ht
  rw [hnil] at hlength
  rw [hwidth other hother, ← hlength] at hpos
  exact lt_irrefl _ hpos

theorem normalisedScore_defined (S : SquareRoot) (norm : Bool) (batch : List KeyedRow)
    (final : KeyedRow) : ∃ x, normalisedScore S norm batch final = some x :=
  grpoScore_defined S norm _ _

/-- The number that is read is the normalised score. -/
theorem FinalsReadable.readBack {S : SquareRoot} {config : AlgoConfig}
    (h : FinalsReadable S config batch) (hmasks : ∀ t ∈ batch, t.row.mask ≠ [])
    {final : KeyedRow} (hfinal : final ∈ finalsOf batch) :
    readBack (normalisedScore S config.normAdvByStdInGrpo batch final) final.row.mask =
      normalisedScore S config.normAdvByStdInGrpo batch final := by
  have hzeroOne := final.row.mask_zero_or_one
  by_cases hmask : ∃ m ∈ final.row.mask, m ≠ 0
  · obtain ⟨m, hm, hne⟩ := hmask
    exact readBack_of_unmasked hzeroOne hm hne
  · have hzero := (h final hfinal).resolve_left hmask
    push Not at hmask
    rw [hzero, readBack_of_masked (hmasks final (mem_finalsOf.mp hfinal).1) hmask]

/-- A batch of one output per session has only final outputs. -/
theorem finalsOf_eq_self (h : (batch.map fun t => t.key.sessionKey).Nodup) :
    finalsOf batch = batch := by
  refine List.filter_eq_self.mpr fun t ht => decide_eq_true fun other hother hsame => ?_
  rw [List.inj_on_of_nodup_map h hother ht hsame]

/-- A final output that cannot be read takes the credit from its session. -/
theorem CreditsSessions.finalsReadable {S : SquareRoot} {parseInt : String → Option Int}
    {config : AlgoConfig} {width : Nat} (h : CreditsSessions S parseInt config batch)
    (hkeys : (batch.map KeyedRow.key).Nodup) (hwidth : ∀ t ∈ batch, t.row.mask.length = width)
    (hunmasked : SessionsUnmasked batch) : FinalsReadable S config batch := by
  have hmasks := mask_ne_nil hwidth hunmasked
  obtain ⟨score, hrun, hscore⟩ := multiAdvantage_spec S parseInt config hkeys hmasks
  intro final hfinal
  by_cases hmask : ∃ m ∈ final.row.mask, m ≠ 0
  · exact .inl hmask
  · right
    push Not at hmask
    have hbatch := (mem_finalsOf.mp hfinal).1
    obtain ⟨x, hx⟩ := normalisedScore_defined S config.normAdvByStdInGrpo batch final
    obtain ⟨t, ht, hsession, m, hm, hne⟩ := hunmasked final hbatch
    obtain ⟨out, hout, -, -, hcredited⟩ := h.credited
    rw [hrun] at hout
    obtain rfl := Except.ok.inj hout
    obtain ⟨i, hi⟩ := List.mem_iff_getElem?.mp ht
    have hentry := hcredited i t final hi hfinal hsession.symm
    have hread := hscore t ht final hfinal hsession.symm
    rw [hx, readBack_of_masked (hmasks final hbatch) hmask] at hread
    rw [List.getElem?_map, hi, Option.map_some, hread, Option.some_inj] at hentry
    have hat := List.map_inj_left.mp hentry m hm
    rw [Option.map_some, zero_mul, if_neg hne] at hat
    exact hat.symm

/-- Every output is credited with its session's score exactly if the final outputs can be
read. -/
theorem creditsSessions_iff (S : SquareRoot) (parseInt : String → Option Int)
    (config : AlgoConfig) (batch : List KeyedRow) (width : Nat)
    (hkeys : (batch.map KeyedRow.key).Nodup) (hwidth : ∀ t ∈ batch, t.row.mask.length = width)
    (hunmasked : SessionsUnmasked batch) :
    CreditsSessions S parseInt config batch ↔ FinalsReadable S config batch := by
  constructor
  · exact fun h => h.finalsReadable hkeys hwidth hunmasked
  · intro h
    have hmasks := mask_ne_nil hwidth hunmasked
    obtain ⟨score, hrun, hscore⟩ := multiAdvantage_spec S parseInt config hkeys hmasks
    have hall : ∀ t ∈ batch, ∀ final ∈ finalsOf batch, final.key.sessionKey = t.key.sessionKey →
        score t = normalisedScore S config.normAdvByStdInGrpo batch final :=
      fun t ht final hfinal hsession =>
        (hscore t ht final hfinal hsession).trans (h.readBack hmasks hfinal)
    refine ⟨⟨_, hrun, rfl, List.length_map _, fun i t final hi hfinal hsession => ?_⟩,
      fun hsingle => ?_⟩
    · obtain ⟨x, hx⟩ := normalisedScore_defined S config.normAdvByStdInGrpo batch final
      rw [List.getElem?_map, hi, Option.map_some,
        hall t (List.mem_of_getElem? hi) final hfinal hsession, hx,
        broadcast_eq_ite x t.row.mask_zero_or_one]
    · have hself := finalsOf_eq_self hsingle
      rw [hrun, AdvantageEstimator.compute, computeGrpoOutcomeAdvantage, groupAdvantage_uid,
        advantagesByUid, List.map_map]
      have hrows : (batch.map fun t => broadcast (score t) t.row.mask) =
          batch.map ((fun row => broadcast (grpoScore S config.normAdvByStdInGrpo
            (groupOf (batch.map KeyedRow.row) row.uid) row.stat) row.mask) ∘ KeyedRow.row) := by
        refine List.map_congr_left fun t ht => ?_
        rw [hall t ht t (hself.symm ▸ ht) rfl, normalisedScore, hself]
        rfl
      rw [hrows]

theorem twoSessions_mask : ∀ m ∈ ([1] : List ℚ), m = 0 ∨ m = 1 := by decide

theorem twoSessions_length : ([0] : List ℚ).length = ([1] : List ℚ).length := rfl

/-- Two sessions; the first has two outputs, of which the last can be masked out. -/
def twoSessions (lastMask : ℚ) (h : lastMask = 0 ∨ lastMask = 1) : List KeyedRow :=
  [⟨⟨"u", 0, 0⟩, ⟨"u", [0], [1], twoSessions_mask, twoSessions_length⟩, rfl⟩,
   ⟨⟨"u", 1, 0⟩, ⟨"u", [0], [1], twoSessions_mask, twoSessions_length⟩, rfl⟩,
   ⟨⟨"u", 0, 1⟩, ⟨"u", [2], [lastMask], by simpa using h, rfl⟩, rfl⟩]

theorem sessionsUnmasked_twoSessions (lastMask : ℚ) (h : lastMask = 0 ∨ lastMask = 1) :
    SessionsUnmasked (twoSessions lastMask h) := by
  intro t ht
  rcases List.mem_cons.mp ht with rfl | ht
  · exact ⟨_, List.mem_cons_self, rfl, 1, List.mem_cons_self, one_ne_zero⟩
  · rcases List.mem_cons.mp ht with rfl | ht
    · exact ⟨_, List.mem_cons_of_mem _ List.mem_cons_self, rfl, 1, List.mem_cons_self, one_ne_zero⟩
    · obtain rfl := List.mem_singleton.mp ht
      exact ⟨_, List.mem_cons_self, rfl, 1, List.mem_cons_self, one_ne_zero⟩

theorem length_mask_twoSessions (lastMask : ℚ) (h : lastMask = 0 ∨ lastMask = 1) :
    ∀ t ∈ twoSessions lastMask h, t.row.mask.length = 1 := by
  intro t ht
  rcases List.mem_cons.mp ht with rfl | ht
  · rfl
  · rcases List.mem_cons.mp ht with rfl | ht
    · rfl
    · obtain rfl := List.mem_singleton.mp ht
      rfl

theorem creditsSessions_iff_twoSessions :
    CreditsSessions floorSqrt (fun _ => none) ⟨true, 1⟩ (twoSessions 1 (.inr rfl)) :=
  (creditsSessions_iff floorSqrt (fun _ => none) ⟨true, 1⟩ (twoSessions 1 (.inr rfl)) 1
    (by decide) (length_mask_twoSessions 1 (.inr rfl))
    (sessionsUnmasked_twoSessions 1 (.inr rfl))).mpr (by
      intro final hfinal
      have hmem := (mem_finalsOf.mp hfinal).1
      rcases List.mem_cons.mp hmem with rfl | hmem
      · exact .inl ⟨1, List.mem_cons_self, one_ne_zero⟩
      · rcases List.mem_cons.mp hmem with rfl | hmem
        · exact .inl ⟨1, List.mem_cons_self, one_ne_zero⟩
        · obtain rfl := List.mem_singleton.mp hmem
          exact .inl ⟨1, List.mem_cons_self, one_ne_zero⟩)

/-- The last output of the first session is masked out; its score is above the mean. -/
theorem not_creditsSessions_twoSessions :
    SessionsUnmasked (twoSessions 0 (.inl rfl)) ∧
      ¬ CreditsSessions floorSqrt (fun _ => none) ⟨false, 1⟩ (twoSessions 0 (.inl rfl)) := by
  refine ⟨sessionsUnmasked_twoSessions 0 (.inl rfl), fun h => ?_⟩
  have hreadable := h.finalsReadable (by decide) (length_mask_twoSessions 0 (.inl rfl))
    (sessionsUnmasked_twoSessions 0 (.inl rfl))
  have hscore : ∀ last ∈ (twoSessions 0 (.inl rfl))[2]?,
      last ∈ finalsOf (twoSessions 0 (.inl rfl)) ∧ last.row.mask = [0] ∧
        normalisedScore floorSqrt false (twoSessions 0 (.inl rfl)) last = some 1 := by
    intro last hlast
    obtain rfl := Option.some.inj hlast
    exact ⟨List.mem_filter.mpr ⟨List.mem_of_getElem? hlast, by decide⟩, rfl, by decide +kernel⟩
  obtain ⟨hfinal, hmask, hnormalised⟩ := hscore _ rfl
  obtain ⟨m, hm, hne⟩ | hzero := hreadable _ hfinal
  · rw [hmask] at hm
    exact hne (List.mem_singleton.mp hm)
  · rw [hnormalised, Option.some_inj] at hzero
    exact one_ne_zero hzero

end Verl
