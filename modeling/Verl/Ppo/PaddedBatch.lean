import Verl.Ppo.PasskPadding

/-!
# The padded batch

`upsample_batch_to_divisible_size` adds as few trajectories as it can and changes
no trajectory of the store.  The rows of the new batch are those of the old one
and the padding rows, so advantages depend on padding as the estimators do.
-/

namespace Verl

variable {F G : Type} {S : SquareRoot} {parseInt : String → Option Int} {config : AlgoConfig}
  {rows : List AdvRow}

/-! ## The store -/

theorem get?_kvBatchPut_of_not_mem {partitionId partitionId' key : String}
    {entries : List (String × Trajectory F × TrajectoryTag G)} (h : key ∉ entries.map Prod.fst)
    (store : TrajectoryStore F G) :
    (kvBatchPut store partitionId entries).get? (partitionId', key) =
      store.get? (partitionId', key) := by
  induction entries generalizing store with
  | nil => rfl
  | cons entry entries ih =>
      rw [List.map_cons, List.mem_cons, not_or] at h
      have hne : ((partitionId', key) : String × String) ≠ (partitionId, entry.1) :=
        fun heq => h.1 (congrArg Prod.snd heq)
      rw [kvBatchPut, List.foldl_cons]
      exact (ih h.2 _).trans ((Py.Dict.get?_set _ _ _ _).trans (if_neg hne))

theorem get?_kvBatchPut {partitionId key : String}
    {entries : List (String × Trajectory F × TrajectoryTag G)} {x : Trajectory F × TrajectoryTag G}
    (hnodup : (entries.map Prod.fst).Nodup) (hmem : (key, x) ∈ entries)
    (store : TrajectoryStore F G) :
    (kvBatchPut store partitionId entries).get? (partitionId, key) = some x := by
  induction entries generalizing store with
  | nil => cases hmem
  | cons entry entries ih =>
      rw [List.map_cons, List.nodup_cons] at hnodup
      rw [kvBatchPut, List.foldl_cons]
      rcases List.mem_cons.mp hmem with rfl | hmem
      · exact (get?_kvBatchPut_of_not_mem hnodup.1 _).trans
          ((Py.Dict.get?_set _ _ _ _).trans (if_pos rfl))
      · exact ih hnodup.2 hmem _

theorem kvBatchGet_congr {store store' : TrajectoryStore F G} {partitionId : String}
    {keys : List String}
    (h : ∀ key ∈ keys, store'.get? (partitionId, key) = store.get? (partitionId, key)) :
    kvBatchGet store' partitionId keys = kvBatchGet store partitionId keys := by
  induction keys with
  | nil => rfl
  | cons key keys ih =>
      rw [List.forall_mem_cons] at h
      have hrest := ih h.2
      rw [kvBatchGet, kvBatchGet] at hrest ⊢
      rw [List.mapM_cons, List.mapM_cons, h.1, hrest]

/-- What is read is stored. -/
theorem mem_kvBatchGet {store : TrajectoryStore F G} {partitionId : String} {keys : List String}
    {trajectories : List (Trajectory F)} {t : Trajectory F}
    (h : kvBatchGet store partitionId keys = .ok trajectories) (ht : t ∈ trajectories) :
    ∃ key entry, store.get? (partitionId, key) = some entry ∧ entry.1 = t := by
  induction keys generalizing trajectories with
  | nil =>
      obtain rfl := Except.ok.inj h
      cases ht
  | cons key keys ih =>
      rw [kvBatchGet, List.mapM_cons] at h
      obtain ⟨t', hread, h⟩ := Py.bind_eq_ok.mp h
      obtain ⟨ts, hrest, h⟩ := Py.bind_eq_ok.mp h
      obtain rfl := Except.ok.inj h
      rcases List.mem_cons.mp ht with rfl | ht
      · split at hread
        next entry hentry => exact ⟨key, entry, hentry, Except.ok.inj hread⟩
        · cases hread
      · exact ih hrest ht

/-- As many trajectories are read as there are keys. -/
theorem length_kvBatchGet {store : TrajectoryStore F G} {partitionId : String} {keys : List String}
    {trajectories : List (Trajectory F)}
    (h : kvBatchGet store partitionId keys = .ok trajectories) :
    trajectories.length = keys.length := by
  induction keys generalizing trajectories with
  | nil =>
      obtain rfl := Except.ok.inj h
      rfl
  | cons key keys ih =>
      rw [kvBatchGet, List.mapM_cons] at h
      obtain ⟨t', _, h⟩ := Py.bind_eq_ok.mp h
      obtain ⟨ts, hrest, h⟩ := Py.bind_eq_ok.mp h
      obtain rfl := Except.ok.inj h
      rw [List.length_cons, List.length_cons, ih hrest]

theorem kvBatchGet_append (store : TrajectoryStore F G) (partitionId : String)
    (keys keys' : List String) :
    kvBatchGet store partitionId (keys ++ keys') = (do
      let trajectories ← kvBatchGet store partitionId keys
      let trajectories' ← kvBatchGet store partitionId keys'
      return trajectories ++ trajectories') := List.mapM_append

/-! ## Padding trajectories -/

/-- A padding trajectory. -/
def padTrajectory (template : Trajectory F) (padUid : String) (localIdx : Nat) : Trajectory F :=
  { template with
    uid := padUid
    sessionId := template.sessionId.map fun _ => (localIdx : Int) }

/-- `pad_keys`. -/
def padKeys (padUid : String) (padSize : Nat) : List String :=
  (List.range padSize).map fun localIdx => trajectoryKey padUid localIdx 0

/-- The entries that are put. -/
def padEntries (template : Trajectory F × TrajectoryTag G) (padUid : String) (padSize : Nat) :
    List (String × Trajectory F × TrajectoryTag G) :=
  (List.range padSize).map fun localIdx =>
    (trajectoryKey padUid localIdx 0, padTrajectory template.1 padUid localIdx, template.2)

theorem map_fst_padEntries (template : Trajectory F × TrajectoryTag G) (padUid : String)
    (padSize : Nat) :
    (padEntries template padUid padSize).map Prod.fst = padKeys padUid padSize := by
  rw [padEntries, List.map_map]
  rfl

theorem zip_padEntries (template : Trajectory F × TrajectoryTag G) (padUid : String)
    (padSize : Nat) :
    (padKeys padUid padSize).zip
        (((List.range padSize).map (padTrajectory template.1 padUid)).zip
          (List.replicate padSize template.2)) = padEntries template padUid padSize := by
  have htags : List.replicate padSize template.2 =
      (List.range padSize).map fun _ => template.2 := by
    rw [List.map_const', List.length_range]
  rw [htags, List.zip_map', padKeys, List.zip_map', padEntries]

theorem nodup_padKeys (padUid : String) (padSize : Nat) : (padKeys padUid padSize).Nodup :=
  List.nodup_range.map fun _ _ => sessionId_inj

theorem length_padKeys (padUid : String) (padSize : Nat) :
    (padKeys padUid padSize).length = padSize := by
  rw [padKeys, List.length_map, List.length_range]

/-- A padding trajectory of a minimal template has the row of padding. -/
theorem advRow_padTrajectory {template : Trajectory F} (hscores : template.rmScores = [0])
    (hmask : template.responseMask = [0]) (padUid : String) (localIdx : Nat) :
    (padTrajectory template padUid localIdx).advRow = padRow padUid := by
  have hcast : template.responseMask.map (fun m : Int => (m : ℚ)) = [0] := by
    rw [hmask]
    exact congrArg (fun x : ℚ => [x]) Int.cast_zero
  rw [padTrajectory, Trajectory.advRow, padRow, AdvRow.mk.injEq]
  exact ⟨rfl, hscores, hcast⟩

/-- How many trajectories are missing. -/
def padSize (length batchMultiple : Nat) : Nat :=
  if length % batchMultiple = 0 then 0 else batchMultiple - length % batchMultiple

theorem dvd_add_padSize (length : Nat) {batchMultiple : Nat} (h : 1 ≤ batchMultiple) :
    batchMultiple ∣ length + padSize length batchMultiple := by
  rw [padSize]
  split
  next hrem => exact Nat.dvd_of_mod_eq_zero hrem
  next hrem =>
    have hlt := Nat.mod_lt length h
    have hdiv := Nat.div_add_mod length batchMultiple
    refine ⟨length / batchMultiple + 1, ?_⟩
    rw [Nat.mul_succ]
    omega

/-- No smaller number will do. -/
theorem add_padSize_le {length batchMultiple n : Nat} (h : 1 ≤ batchMultiple)
    (hle : length ≤ n) (hdvd : batchMultiple ∣ n) :
    length + padSize length batchMultiple ≤ n := by
  rw [padSize]
  split
  · exact hle
  next hrem =>
    obtain ⟨k, rfl⟩ := hdvd
    have hlt := Nat.mod_lt length h
    have hdiv := Nat.div_add_mod length batchMultiple
    have hk : length / batchMultiple + 1 ≤ k := by
      by_contra hsmall
      have hmul := Nat.mul_le_mul_left batchMultiple (show k ≤ length / batchMultiple by omega)
      exact hrem (by omega)
    have hmul := Nat.mul_le_mul_left batchMultiple hk
    rw [Nat.mul_succ] at hmul
    omega

/-! ## What padding does -/

/-- The trajectories of a batch are stored under distinct keys. -/
structure BatchOk (store : TrajectoryStore F G) (batch : KVBatchMeta G) : Prop where
  nodup : batch.keys.Nodup
  stored : ∀ key ∈ batch.keys, store.get? (batch.partitionId, key) ≠ none
  tags : batch.tags.length = batch.keys.length

/-- A new `uuid4().hex` is part of no key and of no uid. -/
structure FreshHex (store : TrajectoryStore F G) (hex : String) : Prop where
  keys : ∀ partitionId localIdx,
    store.get? (partitionId, trajectoryKey ("pad" ++ hex) localIdx 0) = none
  uids : ∀ key entry, store.get? key = some entry → entry.1.uid ≠ "pad" ++ hex

/-- The batch is followed by the fewest new trajectories that fill it up, and every
stored trajectory is as before. -/
structure Upsampled (store store' : TrajectoryStore F G) (batch batch' : KVBatchMeta G)
    (batchMultiple : Nat) : Prop where
  partitionId : batch'.partitionId = batch.partitionId
  keys : batch.keys <+: batch'.keys
  tags : batch.tags <+: batch'.tags
  length_eq : batch'.tags.length = batch'.keys.length
  dvd : batchMultiple ∣ batch'.keys.length
  fewest : ∀ n, batch.keys.length ≤ n → batchMultiple ∣ n → batch'.keys.length ≤ n
  fresh : ∀ key ∈ batch'.keys.drop batch.keys.length,
    store.get? (batch.partitionId, key) = none
  distinct : batch'.keys.Nodup
  unchanged : ∀ key entry, store.get? key = some entry → store'.get? key = some entry

theorem getItem_zero_eq_ok {α : Type} {xs : List α} (h : xs ≠ []) :
    ∃ x ∈ xs, Py.getItem xs 0 = .ok x := by
  cases xs with
  | nil => exact (h rfl).elim
  | cons x xs => exact ⟨x, List.mem_cons_self, Py.getItem_of_some List.getElem?_cons_zero⟩

/-- The batch is filled up with trajectories of a template with no reward and no
unmasked token. -/
theorem upsample_eq {store : TrajectoryStore F G} {batch : KVBatchMeta G} {batchMultiple : Nat}
    (hbatch : BatchOk store batch) (h : 1 ≤ batchMultiple) (eosTokenId : Int) (hex : String) :
    upsampleBatchToDivisibleSize store batch batchMultiple eosTokenId hex = .ok (batch, store) ∧
        padSize batch.keys.length batchMultiple = 0 ∨
      ∃ template : Trajectory F × TrajectoryTag G,
        (template.1.rmScores = [0] ∧ template.1.responseMask = [0]) ∧
          upsampleBatchToDivisibleSize store batch batchMultiple eosTokenId hex =
            .ok (⟨batch.keys ++ padKeys ("pad" ++ hex) (padSize batch.keys.length batchMultiple),
              batch.tags ++ List.replicate (padSize batch.keys.length batchMultiple) template.2,
              batch.partitionId⟩,
              kvBatchPut store batch.partitionId (padEntries template ("pad" ++ hex)
                (padSize batch.keys.length batchMultiple))) := by
  rw [upsampleBatchToDivisibleSize, Py.floorMod_of_pos h, Py.ok_bind, padSize]
  split
  · exact .inl ⟨rfl, rfl⟩
  next hrem =>
    right
    have hkeys : batch.keys ≠ [] := by
      intro hnil
      rw [hnil, List.length_nil, Nat.zero_mod] at hrem
      exact hrem rfl
    have htags : batch.tags ≠ [] := by
      intro hnil
      exact hkeys (List.length_eq_zero_iff.mp (hbatch.tags.symm.trans (by rw [hnil]; rfl)))
    obtain ⟨sourceKey, hmem, hkey⟩ := getItem_zero_eq_ok hkeys
    obtain ⟨sourceTag, _, htag⟩ := getItem_zero_eq_ok htags
    obtain ⟨source, hsource⟩ := Option.ne_none_iff_exists'.mp (hbatch.stored sourceKey hmem)
    have hget : kvBatchGet store batch.partitionId [sourceKey] = .ok [source.1] := by
      rw [kvBatchGet, List.mapM_cons, hsource]
      rfl
    refine ⟨constructMinimalPaddingTemplate source.1 sourceTag eosTokenId, ⟨rfl, rfl⟩, ?_⟩
    rw [hkey, Py.ok_bind, hget, Py.ok_bind, Py.getItem_of_some List.getElem?_cons_zero,
      Py.ok_bind, htag, Py.ok_bind, ← zip_padEntries]
    rfl

/-- A batch that can be divided is left alone. -/
theorem upsampled_self {store : TrajectoryStore F G} {batch : KVBatchMeta G} {batchMultiple : Nat}
    (hbatch : BatchOk store batch) (h : batchMultiple ∣ batch.keys.length) :
    Upsampled store store batch batch batchMultiple where
  partitionId := rfl
  keys := List.prefix_rfl
  tags := List.prefix_rfl
  length_eq := hbatch.tags
  dvd := h
  fewest := fun _ hle _ => hle
  fresh := by
    rw [List.drop_length]
    exact nofun
  distinct := hbatch.nodup
  unchanged := fun _ _ hentry => hentry

section Padded

variable {store : TrajectoryStore F G} {batch : KVBatchMeta G} {hex : String}
  {template : Trajectory F × TrajectoryTag G} {batchMultiple p : Nat}

/-- A key of the store is no key of a padding trajectory. -/
theorem not_mem_padKeys (hhex : FreshHex store hex) {partitionId key : String}
    (h : store.get? (partitionId, key) ≠ none) : key ∉ padKeys ("pad" ++ hex) p := by
  intro hmem
  obtain ⟨localIdx, _, rfl⟩ := List.mem_map.mp hmem
  exact h (hhex.keys partitionId localIdx)

theorem get?_padded (hhex : FreshHex store hex) {partitionId key : String}
    (h : store.get? (partitionId, key) ≠ none) :
    (kvBatchPut store batch.partitionId (padEntries template ("pad" ++ hex) p)).get?
      (partitionId, key) = store.get? (partitionId, key) := by
  refine get?_kvBatchPut_of_not_mem ?_ store
  rw [map_fst_padEntries]
  exact not_mem_padKeys hhex h

theorem upsampled_padded (hbatch : BatchOk store batch) (hhex : FreshHex store hex)
    (h : 1 ≤ batchMultiple) (hp : p = padSize batch.keys.length batchMultiple) :
    Upsampled store
      (kvBatchPut store batch.partitionId (padEntries template ("pad" ++ hex) p)) batch
      ⟨batch.keys ++ padKeys ("pad" ++ hex) p, batch.tags ++ List.replicate p template.2,
        batch.partitionId⟩ batchMultiple where
  partitionId := rfl
  keys := List.prefix_append _ _
  tags := List.prefix_append _ _
  length_eq := by
    rw [List.length_append, List.length_append, length_padKeys, List.length_replicate, hbatch.tags]
  dvd := by
    rw [List.length_append, length_padKeys, hp]
    exact dvd_add_padSize _ h
  fewest := by
    intro n hle hdvd
    rw [List.length_append, length_padKeys, hp]
    exact add_padSize_le h hle hdvd
  fresh := by
    intro key hkey
    rw [List.drop_left] at hkey
    obtain ⟨localIdx, _, rfl⟩ := List.mem_map.mp hkey
    exact hhex.keys _ localIdx
  distinct := by
    refine List.Nodup.append hbatch.nodup (nodup_padKeys _ _) ?_
    intro key hkey hpad
    exact not_mem_padKeys hhex (hbatch.stored key hkey) hpad
  unchanged := by
    rintro ⟨partitionId, key⟩ entry hentry
    rw [get?_padded hhex (by rw [hentry]; exact Option.some_ne_none entry), hentry]

theorem kvBatchGet_padKeys (store : TrajectoryStore F G) (partitionId padUid : String)
    (template : Trajectory F × TrajectoryTag G) (p : Nat) :
    kvBatchGet (kvBatchPut store partitionId (padEntries template padUid p)) partitionId
      (padKeys padUid p) = .ok ((List.range p).map (padTrajectory template.1 padUid)) := by
  rw [kvBatchGet, padKeys, List.mapM_map]
  refine Py.mapM_eq_ok fun localIdx hlt => ?_
  have hnodup : ((padEntries template padUid p).map Prod.fst).Nodup := by
    rw [map_fst_padEntries]
    exact nodup_padKeys padUid p
  have hmem : (trajectoryKey padUid localIdx 0, padTrajectory template.1 padUid localIdx,
      template.2) ∈ padEntries template padUid p := List.mem_map_of_mem hlt
  have hput := @get?_kvBatchPut F G partitionId _ _ _ hnodup hmem store
  dsimp only [Function.comp_apply]
  rw [hput]

/-- The rows of the padded batch. -/
theorem advRows_padded (hbatch : BatchOk store batch) (hhex : FreshHex store hex)
    (hscores : template.1.rmScores = [0]) (hmask : template.1.responseMask = [0])
    (hrows : advRows store batch = .ok rows) :
    advRows (kvBatchPut store batch.partitionId (padEntries template ("pad" ++ hex) p))
      ⟨batch.keys ++ padKeys ("pad" ++ hex) p, batch.tags ++ List.replicate p template.2,
        batch.partitionId⟩ = .ok (withPadding rows p ("pad" ++ hex)) := by
  obtain ⟨trajectories, hget, hrows⟩ := Py.bind_eq_ok.mp hrows
  obtain rfl := Except.ok.inj hrows
  have hreal := kvBatchGet_congr fun key hkey =>
    @get?_padded F G store batch hex template p hhex _ _ (hbatch.stored key hkey)
  rw [advRows, kvBatchGet_append, hreal, hget, kvBatchGet_padKeys]
  refine congrArg Except.ok ?_
  rw [List.map_append, withPadding, List.map_map]
  refine congrArg _ (List.eq_replicate_iff.mpr ⟨?_, ?_⟩)
  · rw [List.length_map, List.length_range]
  · intro row hrow
    obtain ⟨localIdx, _, rfl⟩ := List.mem_map.mp hrow
    exact advRow_padTrajectory hscores hmask _ localIdx

/-- Every row of the batch is a stored trajectory. -/
theorem uid_ne_of_advRows (hhex : FreshHex store hex) (hrows : advRows store batch = .ok rows) :
    ∀ row ∈ rows, row.uid ≠ "pad" ++ hex := by
  obtain ⟨trajectories, hget, hrows⟩ := Py.bind_eq_ok.mp hrows
  obtain rfl := Except.ok.inj hrows
  intro row hrow
  obtain ⟨t, ht, rfl⟩ := List.mem_map.mp hrow
  obtain ⟨key, entry, hentry, rfl⟩ := mem_kvBatchGet hget ht
  exact hhex.uids _ entry hentry

end Padded

/-! ## Padding is inert -/

/-- When an estimator gives nothing to padding and takes nothing from it. -/
def InertFor (est : AdvantageEstimator) (rows : List AdvRow) (p : Nat) : Prop :=
  match est with
  | .grpoPassk => p = 1 → ∃ row ∈ rows, (groupOf rows row.uid).length < 2
  | .opo => p ≤ 1
  | .gpg => p = 0 ∨ ∀ row ∈ rows, (∃ m ∈ row.mask, m ≠ 0) →
      row.score = id2mean (groupOf rows row.uid)
  | _ => True

theorem rowsInert_iff {padUid : String} {p : Nat} (est : AdvantageEstimator)
    (hfresh : ∀ row ∈ rows, row.uid ≠ padUid) (hlabels : LabelsByUid parseInt rows)
    (hparse : parseInt padUid = none) :
    RowsInert (computeAdvantage S parseInt config est) rows p padUid ↔ InertFor est rows p := by
  cases est with
  | grpo => exact iff_of_true (rowsInert_grpo hfresh) trivial
  | grpoVectorized => exact iff_of_true (rowsInert_grpoVectorized hfresh hlabels hparse) trivial
  | grpoPassk => exact rowsInert_grpoPassk_iff hfresh
  | reinforcePlusPlus => exact iff_of_true rowsInert_reinforcePlusPlus trivial
  | reinforcePlusPlusBaseline =>
      exact iff_of_true (rowsInert_reinforcePlusPlusBaseline hfresh) trivial
  | rloo => exact iff_of_true (rowsInert_rloo hfresh) trivial
  | rlooVectorized => exact iff_of_true (rowsInert_rlooVectorized hfresh) trivial
  | opo => exact rowsInert_opo_iff hfresh
  | gpg => exact rowsInert_gpg_iff hfresh

/-- The batch is filled up as it should be, and its advantages are those without
padding. -/
def UpsamplesInertly (S : SquareRoot) (parseInt : String → Option Int) (config : AlgoConfig)
    (est : AdvantageEstimator) (store : TrajectoryStore F G) (batch : KVBatchMeta G)
    (batchMultiple : Nat) (eosTokenId : Int) (hex : String) : Prop :=
  ∃ batch' store',
    upsampleBatchToDivisibleSize store batch batchMultiple eosTokenId hex = .ok (batch', store') ∧
      Upsampled store store' batch batch' batchMultiple ∧
      PaddingInert (batchAdvantage S parseInt config est store batch)
        (batchAdvantage S parseInt config est store' batch') batch.keys.length
        (batch'.keys.length - batch.keys.length)

/-- The advantages of the batch that is returned are those of the padded rows. -/
theorem upsamplesInertly_iff_rowsInert {store : TrajectoryStore F G} {batch : KVBatchMeta G}
    {batchMultiple : Nat} {hex : String} (est : AdvantageEstimator) (eosTokenId : Int)
    (hbatch : BatchOk store batch) (hhex : FreshHex store hex) (h : 1 ≤ batchMultiple)
    (hrows : advRows store batch = .ok rows) :
    UpsamplesInertly S parseInt config est store batch batchMultiple eosTokenId hex ↔
      RowsInert (computeAdvantage S parseInt config est) rows
        (padSize batch.keys.length batchMultiple) ("pad" ++ hex) := by
  have hlength : rows.length = batch.keys.length := by
    obtain ⟨trajectories, hget, heq⟩ := Py.bind_eq_ok.mp hrows
    obtain rfl := Except.ok.inj heq
    rw [List.length_map, length_kvBatchGet hget]
  have hreal : batchAdvantage S parseInt config est store batch =
      computeAdvantage S parseInt config est rows := by
    rw [batchAdvantage, hrows, Py.ok_bind]
  have hdvd := dvd_add_padSize batch.keys.length h
  rw [UpsamplesInertly, hreal, RowsInert, hlength]
  rcases upsample_eq hbatch h eosTokenId hex with ⟨hup, hp⟩ | ⟨template, ⟨hscores, hmask⟩, hup⟩
  · have hzero := @rowsInert_zero S parseInt config est rows ("pad" ++ hex)
    rw [RowsInert, withPadding_zero, hlength] at hzero
    rw [hp] at hdvd
    rw [hup, hp, withPadding_zero]
    refine iff_of_true ⟨batch, store, rfl, upsampled_self hbatch hdvd, ?_⟩ hzero
    rwa [hreal, Nat.sub_self]
  · have hpadded := @advRows_padded F G rows store batch hex template
      (padSize batch.keys.length batchMultiple) hbatch hhex hscores hmask hrows
    rw [hup]
    constructor
    · rintro ⟨batch', store', heq, _, hinert⟩
      obtain ⟨rfl, rfl⟩ := Prod.mk.inj (Except.ok.inj heq)
      rwa [batchAdvantage, hpadded, Py.ok_bind, List.length_append, length_padKeys,
        Nat.add_sub_cancel_left] at hinert
    · intro hinert
      refine ⟨_, _, rfl, upsampled_padded hbatch hhex h rfl, ?_⟩
      rwa [batchAdvantage, hpadded, Py.ok_bind, List.length_append, length_padKeys,
        Nat.add_sub_cancel_left]

/-- Padding is inert unless the number of a padding row is not defined (`opo`), a
single padding row is refused (`grpo_passk`), or padding rows are counted (`gpg`). -/
theorem upsamplesInertly_iff {store : TrajectoryStore F G} {batch : KVBatchMeta G}
    {batchMultiple : Nat} {hex : String} (est : AdvantageEstimator) (eosTokenId : Int)
    (hbatch : BatchOk store batch) (hhex : FreshHex store hex) (h : 1 ≤ batchMultiple)
    (hrows : advRows store batch = .ok rows) (hlabels : LabelsByUid parseInt rows)
    (hparse : parseInt ("pad" ++ hex) = none) :
    UpsamplesInertly S parseInt config est store batch batchMultiple eosTokenId hex ↔
      InertFor est rows (padSize batch.keys.length batchMultiple) := by
  rw [upsamplesInertly_iff_rowsInert est eosTokenId hbatch hhex h hrows]
  exact rowsInert_iff est (uid_ne_of_advRows hhex hrows) hlabels hparse

/-- Two trajectories of a prompt, the first with reward 1. -/
def twoTrajectory (sessionId : Int) (reward : ℚ) : Trajectory Unit where
  uid := "u"
  sessionId := some sessionId
  prompts := [1]
  responses := [2]
  inputIds := [1, 2]
  attentionMask := [1, 1]
  positionIds := [0, 1]
  numTurns := 2
  responseMask := [1]
  lossMask := [1]
  rmScores := [reward]
  rolloutLogProbs := [0]
  other := ()
  mask_zero_or_one := fun _ hm => .inr (List.mem_singleton.mp hm)
  length_eq := rfl

def twoTag : TrajectoryTag Unit where
  isPadding := false
  promptLen := 1
  responseLen := 1
  seqLen := 2
  other := ()

def twoStore : TrajectoryStore Unit Unit where
  entries := [(("train", "u_0_0"), twoTrajectory 0 1, twoTag),
    (("train", "u_1_0"), twoTrajectory 1 0, twoTag)]
  nodup := by decide

def twoBatch : KVBatchMeta Unit := ⟨["u_0_0", "u_1_0"], [twoTag, twoTag], "train"⟩

def twoRows : List AdvRow := [(twoTrajectory 0 1).advRow, (twoTrajectory 1 0).advRow]

theorem batchOk_two : BatchOk twoStore twoBatch where
  nodup := by decide
  stored := by decide
  tags := rfl

theorem freshHex_two : FreshHex twoStore "0" where
  keys := by
    intro partitionId localIdx
    have huid : uidOfKey (trajectoryKey ("pad" ++ "0") localIdx 0) = "pad0" :=
      uidOfKey_trajectoryKey (by decide) localIdx 0
    rw [Py.Dict.get?_eq_none_iff]
    intro hmem
    rcases List.mem_cons.mp hmem with heq | hmem
    · rw [(Prod.mk.inj heq).2] at huid
      exact absurd huid (by decide)
    · rw [(Prod.mk.inj (List.mem_singleton.mp hmem)).2] at huid
      exact absurd huid (by decide)
  uids := by
    intro key entry hentry
    have hmem := Py.Dict.mem_entries_iff.mpr hentry
    rcases List.mem_cons.mp hmem with heq | hmem
    · rw [(Prod.mk.inj heq).2]
      decide
    · rw [(Prod.mk.inj (List.mem_singleton.mp hmem)).2]
      decide

theorem advRows_two : advRows twoStore twoBatch = .ok twoRows := rfl

theorem labelsByUid_two : LabelsByUid (fun _ => none) twoRows := fun _ _ _ _ h => (h rfl).elim

/-- One padding trajectory is a group of its own to `opo`. -/
theorem upsamplesInertly_two : UpsamplesInertly floorSqrt (fun _ => none) ⟨true, 1⟩ .opo
    twoStore twoBatch 3 2 "0" :=
  (upsamplesInertly_iff .opo 2 batchOk_two freshHex_two (by decide) advRows_two labelsByUid_two
    rfl).mpr (by decide : (1 : Nat) ≤ 1)

/-- `grpo_passk` refuses one padding trajectory, `opo` divides 0 by 0 for two, and
`gpg` scales the advantages of the others. -/
theorem not_upsamplesInertly :
    ¬ UpsamplesInertly floorSqrt (fun _ => none) ⟨true, 1⟩ .grpoPassk twoStore twoBatch 3 2 "0" ∧
      ¬ UpsamplesInertly floorSqrt (fun _ => none) ⟨true, 1⟩ .opo twoStore twoBatch 4 2 "0" ∧
      ¬ UpsamplesInertly floorSqrt (fun _ => none) ⟨true, 1⟩ .gpg twoStore twoBatch 3 2 "0" := by
  have hfresh := uid_ne_of_advRows freshHex_two advRows_two
  refine ⟨?_, ?_, ?_⟩
  · rw [upsamplesInertly_iff_rowsInert .grpoPassk 2 batchOk_two freshHex_two (by decide)
      advRows_two]
    rintro h
    obtain ⟨row, hrow, hlt⟩ := (rowsInert_grpoPassk_one_iff hfresh).mp h
    have huid : row.uid = "u" := by
      rcases List.mem_cons.mp hrow with rfl | hrow
      · rfl
      · rw [List.mem_singleton.mp hrow]
        rfl
    rw [huid] at hlt
    exact absurd hlt (by decide)
  · rw [upsamplesInertly_iff_rowsInert .opo 2 batchOk_two freshHex_two (by decide) advRows_two,
      rowsInert_opo_iff hfresh]
    decide
  · rw [upsamplesInertly_iff_rowsInert .gpg 2 batchOk_two freshHex_two (by decide) advRows_two,
      rowsInert_gpg_iff hfresh]
    rintro (h | h)
    · exact absurd h (by decide)
    · have hmean := h _ List.mem_cons_self ⟨1, List.mem_singleton.mpr rfl, one_ne_zero⟩
      exact absurd hmean (by decide +kernel)

end Verl
