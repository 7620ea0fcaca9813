import Verl.Ppo.PaddingInert

/-!
# Padding rows and pass@k

`compute_grpo_passk_outcome_advantage` gives an advantage to the best row of each
group.  The padding rows are the last group.  Two or more of them get the
difference of two zeros, and a single one is refused, as every group of one row is.
-/

namespace Verl

open Py (groupBy valuesOf)

variable {S : SquareRoot} {parseInt : String → Option Int} {config : AlgoConfig}
  {rows : List AdvRow} {padUid : String} {p : Nat}

/-! ## The best of a group -/

theorem foldl_max_mem (r : ℚ) (rewards : List ℚ) : rewards.foldl max r ∈ r :: rewards := by
  induction rewards generalizing r with
  | nil => exact List.mem_singleton.mpr rfl
  | cons r' rewards ih =>
      rw [List.foldl_cons]
      rcases List.mem_cons.mp (ih (max r r')) with h | h
      · rcases max_choice r r' with hmax | hmax
        · rw [h, hmax]
          exact List.mem_cons_self
        · rw [h, hmax]
          exact List.mem_cons_of_mem r List.mem_cons_self
      · exact List.mem_cons_of_mem r (List.mem_cons_of_mem r' h)

theorem maxReward_mem {rewards : List ℚ} (h : rewards ≠ []) : maxReward rewards ∈ rewards := by
  cases rewards with
  | nil => exact (h rfl).elim
  | cons r rewards =>
      rw [maxReward, List.headD_cons, List.foldl_cons, max_self]
      exact foldl_max_mem r rewards

theorem topk2_lt_length {rewards : List ℚ} (h : rewards ≠ []) :
    (topk2 rewards).2 < rewards.length :=
  List.idxOf_lt_length_of_mem (maxReward_mem h)

theorem maxReward_replicate_zero (p : Nat) : maxReward (List.replicate p 0) = 0 := by
  rcases Nat.eq_zero_or_pos p with rfl | hp
  · rfl
  · refine List.eq_of_mem_replicate (maxReward_mem ?_)
    rw [Ne, List.replicate_eq_nil_iff]
    exact hp.ne'

theorem topk2_replicate_zero {p : Nat} (hp : p ≠ 0) :
    topk2 (List.replicate p 0) = ((0, 0), 0) := by
  obtain ⟨q, rfl⟩ := Nat.exists_eq_succ_of_ne_zero hp
  rw [topk2, maxReward_replicate_zero, List.replicate_succ, List.idxOf_cons_self,
    List.eraseIdx_zero, List.tail_cons, maxReward_replicate_zero]

/-! ## One group -/

/-- The message for a group of one row. -/
def passkMessage (size : Nat) (uid : String) : String :=
  "Pass@k requires at least 2 samples per group. " ++ s!"Got {size} for group {uid}."

/-- The advantage of the best row of a group. -/
def passkAdvantage (S : SquareRoot) (normAdvByStdInGrpo : Bool) (rewards : List ℚ) : Num :=
  let ((rMax, rSecondMax), _) := topk2 rewards
  if normAdvByStdInGrpo then numDiv (rMax - rSecondMax) (torchStd S rewards + epsilon)
  else some (rMax - rSecondMax)

theorem passkGroup_eq (norm : Bool) (id2indices : Py.Dict String (List Nat))
    (advantages : List Num) (uid : String) (rewards : List ℚ) :
    passkGroup S norm id2indices advantages (uid, rewards) =
      if rewards.length < 2 then .error (.value (passkMessage rewards.length uid))
      else .ok (advantages.set (((id2indices.get? uid).getD []).getD (topk2 rewards).2 0)
        (passkAdvantage S norm rewards)) := rfl

theorem passkAdvantage_padding (norm : Bool) {p : Nat} (hp : p ≠ 0) :
    passkAdvantage S norm (List.replicate p 0) = some 0 := by
  rw [passkAdvantage, topk2_replicate_zero hp]
  dsimp only
  rw [sub_self]
  split
  · rw [torchStd, numDiv_add_epsilon (S.sqrt_nonneg _), zero_div]
  · rfl

/-- What a group does: it gives its best row an advantage. -/
theorem passkGroup_ok {norm : Bool} {id2indices : Py.Dict String (List Nat)}
    {advantages advantages' : List Num} {group : String × List ℚ}
    (h : passkGroup S norm id2indices advantages group = .ok advantages') :
    2 ≤ group.2.length ∧ ∃ i x, advantages' = advantages.set i x := by
  obtain ⟨uid, rewards⟩ := group
  rw [passkGroup_eq] at h
  split at h
  · cases h
  next hsize =>
    obtain rfl := Except.ok.inj h
    exact ⟨Nat.le_of_not_lt hsize, _, _, rfl⟩

/-- A group with its rows among the first ones leaves the rest as it is. -/
theorem passkGroup_append {norm : Bool} {id2indices id2indices' : Py.Dict String (List Nat)}
    {advantages : List Num} {group : String × List ℚ} (tail : List Num)
    (hsame : (id2indices'.get? group.1).getD [] = (id2indices.get? group.1).getD [])
    (hlt : ∀ i ∈ (id2indices.get? group.1).getD [], i < advantages.length)
    (hsize : ((id2indices.get? group.1).getD []).length = group.2.length) :
    passkGroup S norm id2indices' (advantages ++ tail) group = (do
      let advantages' ← passkGroup S norm id2indices advantages group
      return advantages' ++ tail) := by
  obtain ⟨uid, rewards⟩ := group
  rw [passkGroup_eq, passkGroup_eq, hsame]
  split
  · rfl
  next h =>
    have htop : (topk2 rewards).2 < ((id2indices.get? uid).getD []).length := by
      rw [hsize]
      refine topk2_lt_length fun hnil => h ?_
      rw [hnil]
      exact Nat.zero_lt_two
    have hmem : ((id2indices.get? uid).getD []).getD (topk2 rewards).2 0 ∈
        (id2indices.get? uid).getD [] := by
      rw [List.getD_eq_getElem?_getD, List.getElem?_eq_getElem htop, Option.getD_some]
      exact List.getElem_mem htop
    rw [List.set_append_left _ _ (hlt _ hmem)]
    rfl

/-- The group of the padding rows, if there are several. -/
theorem passkGroup_padding {norm : Bool} {id2indices : Py.Dict String (List Nat)}
    {advantages : List Num} (hp : 2 ≤ p)
    (hindex : ((id2indices.get? padUid).getD []).getD 0 0 = advantages.length) :
    passkGroup S norm id2indices (advantages ++ List.replicate p (some 0))
        (padUid, List.replicate p 0) = .ok (advantages ++ List.replicate p (some 0)) := by
  have hne : p ≠ 0 := (Nat.zero_lt_of_lt hp).ne'
  rw [passkGroup_eq, List.length_replicate, if_neg (Nat.not_lt.mpr hp), topk2_replicate_zero hne,
    hindex, passkAdvantage_padding norm hne, List.set_append_right _ _ le_rfl, Nat.sub_self]
  refine congrArg (fun xs => Except.ok (advantages ++ xs)) ?_
  refine List.ext_getElem? fun i => ?_
  rw [List.getElem?_set, List.length_replicate, List.getElem?_replicate]
  split
  next hi => rw [← hi]
  · rfl

/-! ## All groups -/

/-- `id2scores`. -/
def id2scores (rows : List AdvRow) : Py.Dict String (List ℚ) :=
  groupBy ((rows.map AdvRow.uid).zip (rows.map AdvRow.score))

/-- `id2indices`. -/
def id2indices (rows : List AdvRow) : Py.Dict String (List Nat) :=
  groupBy ((rows.map AdvRow.uid).zip (List.range rows.length))

/-- The loop of `compute_grpo_passk_outcome_advantage`. -/
def passkScores (S : SquareRoot) (norm : Bool) (rows : List AdvRow) :
    Except Py.Error (List Num) :=
  (id2scores rows).entries.foldlM (passkGroup S norm (id2indices rows))
    (List.replicate rows.length (some 0))

/-- The advantages are as many as the rows, and they exist if no group has one row. -/
theorem foldlM_passkGroup (norm : Bool) (id2indices : Py.Dict String (List Nat))
    (groups : List (String × List ℚ)) (advantages : List Num) :
    (∀ advantages', groups.foldlM (passkGroup S norm id2indices) advantages = .ok advantages' →
        advantages'.length = advantages.length) ∧
      ((∃ advantages', groups.foldlM (passkGroup S norm id2indices) advantages =
        .ok advantages') ↔ ∀ group ∈ groups, 2 ≤ group.2.length) := by
  induction groups generalizing advantages with
  | nil =>
      refine ⟨?_, iff_of_true ⟨_, rfl⟩ nofun⟩
      intro advantages' h
      rw [List.foldlM_nil] at h
      obtain rfl := Except.ok.inj h
      rfl
  | cons group groups ih =>
      rw [List.foldlM_cons]
      constructor
      · intro advantages' h
        obtain ⟨next, hnext, h⟩ := Py.bind_eq_ok.mp h
        obtain ⟨_, i, x, rfl⟩ := passkGroup_ok hnext
        rw [(ih _).1 _ h, List.length_set]
      · rw [List.forall_mem_cons]
        constructor
        · rintro ⟨advantages', h⟩
          obtain ⟨next, hnext, h⟩ := Py.bind_eq_ok.mp h
          exact ⟨(passkGroup_ok hnext).1, (ih next).2.mp ⟨_, h⟩⟩
        · rintro ⟨hsize, hsizes⟩
          rw [passkGroup_eq, if_neg (Nat.not_lt.mpr hsize), Py.ok_bind]
          exact (ih _).2.mpr hsizes

/-- The last entries of the list take no part in the groups before them. -/
theorem foldlM_passkGroup_append {norm : Bool} {id2indices id2indices' : Py.Dict String (List Nat)}
    {groups : List (String × List ℚ)} (tail : List Num) {advantages : List Num}
    (hsame : ∀ group ∈ groups,
      (id2indices'.get? group.1).getD [] = (id2indices.get? group.1).getD [])
    (hlt : ∀ group ∈ groups, ∀ i ∈ (id2indices.get? group.1).getD [], i < advantages.length)
    (hsize : ∀ group ∈ groups,
      ((id2indices.get? group.1).getD []).length = group.2.length) :
    groups.foldlM (passkGroup S norm id2indices') (advantages ++ tail) = (do
      let advantages' ← groups.foldlM (passkGroup S norm id2indices) advantages
      return advantages' ++ tail) := by
  induction groups generalizing advantages with
  | nil => rfl
  | cons group groups ih =>
      rw [List.forall_mem_cons] at hsame hlt hsize
      rw [List.foldlM_cons, List.foldlM_cons, passkGroup_append tail hsame.1 hlt.1 hsize.1]
      cases hnext : passkGroup S norm id2indices advantages group with
      | error e => rfl
      | ok next =>
          obtain ⟨_, i, x, rfl⟩ := passkGroup_ok hnext
          refine ih hsame.2 ?_ hsize.2
          rw [List.length_set]
          exact hlt.2

/-! ## Groups of the batch -/

theorem map_fst_zip_uid {α : Type} {xs : List α} (h : xs.length = rows.length) :
    ((rows.map AdvRow.uid).zip xs).map Prod.fst = rows.map AdvRow.uid :=
  List.map_fst_zip (by rw [List.length_map, h])

/-- The scores and the indices of a group belong to its rows. -/
theorem valuesOf_uid_zip (uid : String) (rows : List AdvRow) :
    (valuesOf uid ((rows.map AdvRow.uid).zip (List.range rows.length))).length =
      (valuesOf uid ((rows.map AdvRow.uid).zip (rows.map AdvRow.score))).length := by
  rw [List.zip_map', Py.valuesOf_map, List.length_map, valuesOf, List.length_map,
    ← List.countP_eq_length_filter, ← List.countP_eq_length_filter]
  have hfst : ((rows.map AdvRow.uid).zip (List.range rows.length)).map Prod.fst =
      rows.map AdvRow.uid :=
    List.map_fst_zip (by rw [List.length_map, List.length_range])
  have hcount := congrArg (List.countP fun u => decide (u = uid)) hfst
  rw [List.countP_map, List.countP_map] at hcount
  exact hcount

theorem mem_passk_groups {group : String × List ℚ}
    (h : group ∈ (id2scores rows).entries) :
    (∃ row ∈ rows, row.uid = group.1) ∧
      group.2 = valuesOf group.1 ((rows.map AdvRow.uid).zip (rows.map AdvRow.score)) := by
  have hget := Py.Dict.mem_entries_iff.mp h
  rw [id2scores, Py.get?_groupBy] at hget
  split at hget
  next hmem =>
    refine ⟨?_, (Option.some.inj hget).symm⟩
    rw [map_fst_zip_uid (List.length_map _)] at hmem
    exact List.mem_map.mp hmem
  · cases hget

theorem lt_of_mem_id2indices {uid : String} {i : Nat}
    (h : i ∈ ((id2indices rows).get? uid).getD []) : i < rows.length := by
  rw [id2indices, Py.getD_get?_groupBy, valuesOf] at h
  obtain ⟨x, hx, rfl⟩ := List.mem_map.mp h
  exact List.mem_range.mp (List.of_mem_zip (List.mem_filter.mp hx).1).2

theorem passkScores_ok_iff (norm : Bool) (rows : List AdvRow) :
    (∃ advantages, passkScores S norm rows = .ok advantages) ↔
      ∀ row ∈ rows, 2 ≤ (groupOf rows row.uid).length := by
  have hscores (uid : String) :
      valuesOf uid ((rows.map AdvRow.uid).zip (rows.map AdvRow.score)) =
        (rows.filter fun row => row.uid = uid).map AdvRow.score := by
    rw [List.zip_map', Py.valuesOf_map]
  rw [passkScores, (foldlM_passkGroup norm _ _ _).2]
  constructor
  · intro h row hrow
    have hmem : (row.uid, valuesOf row.uid ((rows.map AdvRow.uid).zip (rows.map AdvRow.score))) ∈
        (id2scores rows).entries := by
      rw [Py.Dict.mem_entries_iff, id2scores, Py.get?_groupBy, if_pos]
      rw [map_fst_zip_uid (List.length_map _)]
      exact List.mem_map_of_mem hrow
    have hsize := h _ hmem
    rwa [hscores, List.length_map, ← List.length_map AdvRow.stat] at hsize
  · intro h group hgroup
    obtain ⟨⟨row, hrow, huid⟩, hvalues⟩ := mem_passk_groups hgroup
    have hsize := h row hrow
    rw [huid, groupOf, List.length_map] at hsize
    rwa [hvalues, hscores, List.length_map]

theorem length_passkScores {norm : Bool} {advantages : List Num}
    (h : passkScores S norm rows = .ok advantages) : advantages.length = rows.length := by
  rw [passkScores] at h
  rw [(foldlM_passkGroup norm _ _ _).1 _ h, List.length_replicate]

/-! ## The batch with padding rows -/

theorem map_uid_withPadding (rows : List AdvRow) (p : Nat) (padUid : String) :
    (withPadding rows p padUid).map AdvRow.uid = rows.map AdvRow.uid ++ List.replicate p padUid :=
  map_withPadding AdvRow.uid rows p padUid

theorem zip_uid_score_withPadding (rows : List AdvRow) (p : Nat) (padUid : String) :
    ((withPadding rows p padUid).map AdvRow.uid).zip
    ((withPadding rows p padUid).map AdvRow.score) =
      (rows.map AdvRow.uid).zip (rows.map AdvRow.score) ++
        (List.replicate p 0).map fun score : ℚ => (padUid, score) := by
  rw [map_uid_withPadding, map_withPadding, List.zip_append (by simp only [List.length_map]),
    List.zip_replicate', List.map_replicate]
  exact congrArg (fun x => _ ++ List.replicate p (padUid, x)) (congrArg RowStat.score
    (padRow_stat padUid))

theorem zip_uid_range_withPadding (rows : List AdvRow) (p : Nat) (padUid : String) :
    ((withPadding rows p padUid).map AdvRow.uid).zip
    (List.range (withPadding rows p padUid).length) =
      (rows.map AdvRow.uid).zip (List.range rows.length) ++
        ((List.range p).map (rows.length + ·)).map fun i => (padUid, i) := by
  rw [map_uid_withPadding, withPadding, List.length_append, List.length_replicate, List.range_add,
    List.zip_append (by rw [List.length_map, List.length_range])]
  have hpad : List.replicate p padUid = (List.range p).map fun _ => padUid := by
    rw [List.map_const', List.length_range]
  rw [hpad, List.zip_map', List.map_map]
  rfl

section Fresh

variable (hfresh : ∀ row ∈ rows, row.uid ≠ padUid)
include hfresh

theorem padUid_not_mem : padUid ∉ rows.map AdvRow.uid := by
  intro hmem
  obtain ⟨row, hrow, huid⟩ := List.mem_map.mp hmem
  exact hfresh row hrow huid

theorem id2indices_withPadding {row : AdvRow} (hrow : row ∈ rows) (p : Nat) :
    ((id2indices (withPadding rows p padUid)).get? row.uid).getD [] =
      ((id2indices rows).get? row.uid).getD [] := by
  have hother : row.uid ∉
      (((List.range p).map (rows.length + ·)).map fun i => (padUid, i)).map Prod.fst := by
    rw [List.map_map]
    intro hmem
    obtain ⟨_, _, heq⟩ := List.mem_map.mp hmem
    exact hfresh row hrow heq.symm
  rw [id2indices, id2indices, zip_uid_range_withPadding, Py.getD_get?_groupBy,
    Py.getD_get?_groupBy, Py.valuesOf_append, Py.valuesOf_eq_nil hother, List.append_nil]

theorem id2indices_padUid (p : Nat) :
    ((id2indices (withPadding rows p padUid)).get? padUid).getD [] =
      (List.range p).map (rows.length + ·) := by
  have hnone : padUid ∉ ((rows.map AdvRow.uid).zip (List.range rows.length)).map Prod.fst := by
    rw [map_fst_zip_uid List.length_range]
    exact padUid_not_mem hfresh
  rw [id2indices, zip_uid_range_withPadding, Py.getD_get?_groupBy, Py.valuesOf_append,
    Py.valuesOf_eq_nil hnone, List.nil_append, Py.valuesOf_eq_map, List.map_map]
  · exact List.map_id _
  · intro x hx
    obtain ⟨i, _, rfl⟩ := List.mem_map.mp hx
    rfl

theorem entries_id2scores_withPadding (hp : p ≠ 0) :
    (id2scores (withPadding rows p padUid)).entries =
      (id2scores rows).entries ++ [(padUid, List.replicate p 0)] := by
  rw [id2scores, zip_uid_score_withPadding, Py.entries_groupBy_append]
  · rfl
  · rw [map_fst_zip_uid (List.length_map _)]
    exact padUid_not_mem hfresh
  · rwa [Ne, List.replicate_eq_nil_iff]

/-- The loop with padding rows, which are refused if there is one. -/
theorem passkScores_withPadding (norm : Bool) (hp : p ≠ 0) :
    passkScores S norm (withPadding rows p padUid) = (do
      let advantages ← passkScores S norm rows
      if p = 1 then .error (.value (passkMessage 1 padUid))
      else return advantages ++ List.replicate p (some 0)) := by
  have hlength : (withPadding rows p padUid).length = rows.length + p := by
    rw [withPadding, List.length_append, List.length_replicate]
  rw [passkScores, entries_id2scores_withPadding hfresh hp, hlength,
    ← List.replicate_append_replicate,
    List.foldlM_append, @foldlM_passkGroup_append S norm (id2indices rows)]
  · rw [passkScores]
    cases hscores : (id2scores rows).entries.foldlM (passkGroup S norm (id2indices rows))
      (List.replicate rows.length (some 0)) with
    | error e => rfl
    | ok advantages =>
        have hadv : advantages.length = rows.length := length_passkScores hscores
        rw [Py.ok_bind, Py.ok_bind, Py.pure_eq_ok, Py.ok_bind, List.foldlM_cons]
        split
        next hone =>
          rw [hone, passkGroup_eq, List.length_replicate, if_pos Nat.one_lt_two]
          rfl
        next hone =>
          rw [passkGroup_padding (by omega)]
          · rfl
          · rw [id2indices_padUid hfresh, hadv]
            obtain ⟨q, rfl⟩ := Nat.exists_eq_succ_of_ne_zero hp
            rw [List.range_succ_eq_map]
            rfl
  · intro group hgroup
    obtain ⟨⟨row, hrow, huid⟩, _⟩ := mem_passk_groups hgroup
    rw [← huid]
    exact id2indices_withPadding hfresh hrow p
  · intro group hgroup i hi
    rw [List.length_replicate]
    exact lt_of_mem_id2indices hi
  · intro group hgroup
    obtain ⟨_, hvalues⟩ := mem_passk_groups hgroup
    rw [hvalues, id2indices, Py.getD_get?_groupBy, valuesOf_uid_zip]

end Fresh

/-! ## Pass@k is inert -/

theorem responseToNested_zipWith_broadcast {width : Nat} {advantages : List Num}
    (hwidth : ∀ row ∈ rows, row.mask.length ≤ width) :
    responseToNested rows (List.zipWith (fun advantage row => broadcast advantage row.mask)
        advantages (rows.map (AdvRow.padTo width))) =
      List.zipWith (fun advantage row => broadcast advantage row.mask) advantages rows := by
  rw [responseToNested]
  induction rows generalizing advantages with
  | nil => rw [List.zipWith_nil_left, List.zipWith_nil_right]
  | cons row rows ih =>
      rw [List.forall_mem_cons] at hwidth
      cases advantages with
      | nil => rfl
      | cons advantage advantages =>
          rw [List.map_cons, List.zipWith_cons_cons, List.zipWith_cons_cons,
            List.zipWith_cons_cons, ih hwidth.2, AdvRow.mask_padTo,
            take_broadcast_padTo _ hwidth.1]

theorem computeAdvantage_grpoPassk (rows : List AdvRow) :
    computeAdvantage S parseInt config .grpoPassk rows = (do
      let advantages ← passkScores S config.normAdvByStdInGrpo rows
      let advantages := List.zipWith (fun advantage row => broadcast advantage row.mask)
        advantages rows
      return ⟨advantages, advantages⟩) := by
  have hscores : passkScores S config.normAdvByStdInGrpo (paddedRows rows) =
      passkScores S config.normAdvByStdInGrpo rows := by
    rw [passkScores, passkScores, id2scores, id2scores, id2indices, id2indices,
      map_uid_paddedRows, map_score_paddedRows, paddedRows, List.length_map]
  have hcompute : AdvantageEstimator.compute S parseInt config .grpoPassk (paddedRows rows) = (do
      let advantages ← passkScores S config.normAdvByStdInGrpo (paddedRows rows)
      let advantages := List.zipWith (fun advantage row => broadcast advantage row.mask)
        advantages (paddedRows rows)
      return ⟨advantages, advantages⟩) := rfl
  rw [computeAdvantage_eq, hcompute, hscores]
  cases passkScores S config.normAdvByStdInGrpo rows with
  | error e => rfl
  | ok advantages =>
      rw [Py.ok_bind, Py.ok_bind, Py.pure_eq_ok, Py.ok_bind, paddedRows,
        responseToNested_zipWith_broadcast fun row => le_batchWidth]

section Inert

variable (hfresh : ∀ row ∈ rows, row.uid ≠ padUid)
include hfresh

/-- Several padding rows get the difference of two zeros. -/
theorem rowsInert_grpoPassk (hp : 2 ≤ p) :
    RowsInert (computeAdvantage S parseInt config .grpoPassk) rows p padUid := by
  have hpadded := @passkScores_withPadding S rows padUid p hfresh config.normAdvByStdInGrpo
    (by omega)
  simp only [if_neg (show p ≠ 1 by omega)] at hpadded
  refine rowsInert_append ?_ ?_
  · rw [computeAdvantage_grpoPassk, computeAdvantage_grpoPassk, hpadded]
    cases hscores : passkScores S config.normAdvByStdInGrpo rows with
    | error e => rfl
    | ok advantages =>
        have hpad : broadcast (some 0) (padRow padUid).mask = [some 0] :=
          congrArg (fun x : ℚ => [some x]) (mul_zero 0)
        rw [Py.ok_bind, Py.ok_bind, Py.pure_eq_ok, Py.ok_bind, withPadding]
        dsimp only
        rw [List.zipWith_append (length_passkScores hscores), List.zipWith_replicate', hpad]
        rfl
  · intro out hout
    rw [computeAdvantage_grpoPassk] at hout
    obtain ⟨advantages, hscores, hout⟩ := Py.bind_eq_ok.mp hout
    obtain rfl := Except.ok.inj hout
    rw [List.length_zipWith, length_passkScores hscores, Nat.min_self]
    exact ⟨rfl, rfl⟩

/-- A single padding row is refused, unless a group of one row is refused before. -/
theorem rowsInert_grpoPassk_one_iff :
    RowsInert (computeAdvantage S parseInt config .grpoPassk) rows 1 padUid ↔
      ∃ row ∈ rows, (groupOf rows row.uid).length < 2 := by
  have hpadded := @passkScores_withPadding S rows padUid 1 hfresh config.normAdvByStdInGrpo
    Nat.one_ne_zero
  have hok := @passkScores_ok_iff S config.normAdvByStdInGrpo rows
  cases hscores : passkScores S config.normAdvByStdInGrpo rows with
  | error e =>
      refine iff_of_true (rowsInert_append ?_ ?_) ?_
      · rw [computeAdvantage_grpoPassk, computeAdvantage_grpoPassk, hpadded, hscores]
        rfl
      · intro out hout
        rw [computeAdvantage_grpoPassk, hscores] at hout
        cases hout
      · by_contra hnone
        push Not at hnone
        obtain ⟨advantages, hadv⟩ := hok.mpr hnone
        rw [hscores] at hadv
        cases hadv
  | ok advantages =>
      refine iff_of_false ?_ ?_
      · intro h
        have he := h.errors (.value (passkMessage 1 padUid)) (by
          rw [computeAdvantage_grpoPassk, hpadded, hscores]
          rfl)
        rw [computeAdvantage_grpoPassk, hscores] at he
        cases he
      · rintro ⟨row, hrow, hlt⟩
        exact Nat.not_lt.mpr (hok.mp ⟨advantages, hscores⟩ row hrow) hlt

theorem rowsInert_grpoPassk_iff :
    RowsInert (computeAdvantage S parseInt config .grpoPassk) rows p padUid ↔
      p = 1 → ∃ row ∈ rows, (groupOf rows row.uid).length < 2 := by
  constructor
  · rintro h rfl
    exact (rowsInert_grpoPassk_one_iff hfresh).mp h
  · intro h
    rcases Nat.lt_trichotomy p 1 with hp | rfl | hp
    · obtain rfl := Nat.lt_one_iff.mp hp
      exact rowsInert_zero .grpoPassk rows padUid
    · exact (rowsInert_grpoPassk_one_iff hfresh).mpr (h rfl)
    · exact rowsInert_grpoPassk hfresh hp

end Inert

end Verl
