import Verl.Workers.Ulysses

/-!
# The layout of Ulysses sequence parallelism is lossless

`ulysses_pad_and_slice_inputs` gives every rank a slice of the padded tokens.  What a
function of the tokens makes of the slices is gathered in the order of the tokens,
and the padding is cut off again (`gather_mapTokens`).  With the facts about heads this
is `ulysses_lossless`.
-/

namespace Verl.Ulysses

open Function (update)
open NdTensor (append catRange InBounds Same Uniform full)

variable {α β : Type}

/-! ## Padding the tokens -/

/-- A packed input: token ids of the shape `(1, n)`, and position ids of the shape
`(1, n)` or `(channels, 1, n)`. -/
structure PackedInput (α : Type) where
  inputIds : NdTensor α
  positionIds : Option (NdTensor Nat)
  ids_ndim : inputIds.ndim = 2
  ids_rows : inputIds.size 0 = 1
  positions_ndim : ∀ p ∈ positionIds, p.ndim = 2 ∨ p.ndim = 3
  positions_rows : ∀ p ∈ positionIds, p.size (p.ndim - 2) = 1
  positions_length : ∀ p ∈ positionIds, p.size (p.ndim - 1) = inputIds.size 1

/-- The number of tokens. -/
def PackedInput.length (input : PackedInput α) : Nat := input.inputIds.size 1

/-- Token ids with `padSize` tokens more. -/
def padIds (padSize : Nat) (ids : NdTensor α) (padValue : α) : NdTensor α :=
  if 0 < padSize then append 1 ids (full 2 (update ids.size 1 padSize) padValue) else ids

/-- Position ids with `padSize` positions more. -/
def padPositions (padSize : Nat) (positions : NdTensor Nat) : NdTensor Nat :=
  if 0 < padSize then append (positions.ndim - 1) positions (padPosIds positions padSize)
  else positions

theorem padIds_spec (padSize : Nat) (ids : NdTensor α) (padValue : α) :
    (padIds padSize ids padValue).ndim = ids.ndim ∧
      (padIds padSize ids padValue).size = update ids.size 1 (ids.size 1 + padSize) ∧
      ∀ idx, idx 1 < ids.size 1 → (padIds padSize ids padValue).entry idx = ids.entry idx := by
  rw [padIds]
  split
  · refine ⟨rfl, ?_, fun idx hidx => if_pos hidx⟩
    rw [append, full]
    change update ids.size 1 (ids.size 1 + update ids.size 1 padSize 1) = _
    rw [Function.update_self]
  next hzero =>
    rw [Nat.eq_zero_of_not_pos hzero, Nat.add_zero, Function.update_eq_self]
    exact ⟨rfl, rfl, fun _ _ => rfl⟩

/-- The positions of the padding start from 0 again. -/
theorem padPositions_spec {padSize length : Nat} {positions : NdTensor Nat}
    (hndim : 0 < positions.ndim) (hlength : positions.size (positions.ndim - 1) = length) :
    (padPositions padSize positions).ndim = positions.ndim ∧
      (padPositions padSize positions).size =
        update positions.size (positions.ndim - 1) (length + padSize) ∧
      ∀ idx, idx (positions.ndim - 1) < length + padSize →
        (padPositions padSize positions).entry idx =
          if idx (positions.ndim - 1) < length then positions.entry idx
          else idx (positions.ndim - 1) - length := by
  rw [padPositions]
  split
  · refine ⟨rfl, ?_, fun idx _ => ?_⟩
    · rw [append, hlength]
      change update positions.size _ (length + if positions.ndim - 1 + 1 = positions.ndim then
        padSize else _) = _
      rw [if_pos (Nat.sub_add_cancel hndim)]
    · rw [append, hlength]
      change (if _ then _ else update idx _ _ (positions.ndim - 1)) = _
      rw [Function.update_self]
  next hzero =>
    rw [Nat.eq_zero_of_not_pos hzero, Nat.add_zero]
    refine ⟨rfl, ?_, fun idx hidx => (if_pos hidx).symm⟩
    rw [← hlength, Function.update_eq_self]

theorem padIds_zero (ids : NdTensor α) (padValue : α) : padIds 0 ids padValue = ids :=
  if_neg (Nat.lt_irrefl 0)

theorem padPositions_zero : padPositions 0 = id :=
  funext fun _ => if_neg (Nat.lt_irrefl 0)

theorem checkPositionIds_eq (input : PackedInput α) :
    checkPositionIds input.inputIds input.positionIds = .ok () := by
  cases hpositions : input.positionIds with
  | none => rfl
  | some p =>
      have hmem : p ∈ input.positionIds := hpositions
      have hlength : input.inputIds.size (input.inputIds.ndim - 1) = p.size (p.ndim - 1) := by
        rw [input.ids_ndim, input.positions_length p hmem]
      rw [checkPositionIds, Py.check_of_true (input.positions_rows p hmem), Py.ok_bind,
        Py.check_of_true hlength]

theorem ulyssesPad_eq {spSize : Nat} (hpos : 0 < spSize) (input : PackedInput α) (padValue : α) :
    ulyssesPad input.inputIds input.positionIds spSize padValue =
      .ok (padIds (Shards.padSize spSize input.length) input.inputIds padValue,
        input.positionIds.map (padPositions (Shards.padSize spSize input.length)),
        Shards.padSize spSize input.length) := by
  rw [ulyssesPad, checkPositionIds_eq, Py.ok_bind]
  by_cases hone : spSize ≤ 1
  · have hzero : Shards.padSize spSize input.length = 0 := by
      have hlt := Shards.padSize_lt hpos input.length
      omega
    rw [if_pos hone, hzero, padIds_zero, padPositions_zero, Option.map_id, id]
    rfl
  · rw [if_neg hone, if_neg (fun h => h input.ids_ndim)]
    by_cases hpad : 0 < Shards.padSize spSize input.length
    · have hpositions : padPositions (Shards.padSize spSize input.length) = fun p =>
          append (p.ndim - 1) p (padPosIds p (Shards.padSize spSize input.length)) :=
        funext fun _ => if_pos hpad
      rw [padIds, if_pos hpad, hpositions]
      exact if_pos hpad
    · rw [Nat.eq_zero_of_not_pos hpad, padIds_zero, padPositions_zero, Option.map_id, id]
      refine (if_neg hpad).trans ?_
      exact congrArg (fun padSize => Except.ok (_, _, padSize)) (Nat.eq_zero_of_not_pos hpad)

/-! ## Slicing and gathering -/

/-- The slice of a rank. -/
theorem sliceInputTensor_eq [Zero α] {spWorldSize spRank dim : Nat} {x : NdTensor α}
    (hrank : spRank < spWorldSize) :
    sliceInputTensor spWorldSize spRank x dim false =
      x.narrow dim (spRank * (x.size dim / spWorldSize)) (x.size dim / spWorldSize) := by
  have hlast : (spRank + 1) * (x.size dim / spWorldSize) ≤ x.size dim :=
    (Nat.mul_le_mul_right _ hrank).trans (Nat.mul_div_le _ _)
  have hlength : (spRank + 1) * (x.size dim / spWorldSize) -
      spRank * (x.size dim / spWorldSize) = x.size dim / spWorldSize := by
    rw [Nat.succ_mul, Nat.add_sub_cancel_left]
  rw [sliceInputTensor, if_neg fun h => Bool.false_ne_true h.1]
  change x.slice dim (spRank * (x.size dim / spWorldSize))
    ((spRank + 1) * (x.size dim / spWorldSize)) = _
  rw [NdTensor.slice_of_le (Nat.mul_le_mul_right _ (Nat.le_succ spRank)) hlast, hlength]

section GatherForward

variable {spWorldSize ndim gatherDim : Nat} {sizes : Nat → Nat} {x : Nat → NdTensor α}

/-- What is cut from the gathered tensors are the tensors of the ranks. -/
theorem slice_catRange_zero (hpos : 0 < spWorldSize) (hx : Uniform spWorldSize ndim sizes x)
    {i : Nat} (hi : i < spWorldSize) :
    ((catRange 0 x (spWorldSize - 1)).slice 0 (i * sizes 0) ((i + 1) * sizes 0)).size = sizes ∧
      ∀ idx, idx 0 < sizes 0 →
        ((catRange 0 x (spWorldSize - 1)).slice 0 (i * sizes 0) ((i + 1) * sizes 0)).entry idx =
          (x i).entry idx := by
  have hlast : spWorldSize - 1 + 1 = spWorldSize := Nat.sub_add_cancel hpos
  have hsizes : ∀ rank ≤ spWorldSize - 1, (x rank).size = sizes := fun rank hrank =>
    (hx rank (by omega)).2
  have hsize := @NdTensor.size_catRange _ 0 _ _ (spWorldSize - 1) hsizes
  rw [hlast] at hsize
  have hfits : (i + 1) * sizes 0 ≤ (catRange 0 x (spWorldSize - 1)).size 0 := by
    rw [hsize, Function.update_self]
    exact Nat.mul_le_mul_right _ hi
  have hlength : (i + 1) * sizes 0 - i * sizes 0 = sizes 0 := by
    rw [Nat.succ_mul, Nat.add_sub_cancel_left]
  rw [NdTensor.slice_of_le (Nat.mul_le_mul_right _ (Nat.le_succ i)) hfits, hlength]
  refine ⟨?_, fun idx hidx => ?_⟩
  · rw [NdTensor.size_narrow, hsize, Function.update_idem, Function.update_eq_self]
  · have hplace : i * sizes 0 + idx 0 < (spWorldSize - 1 + 1) * sizes 0 := by
      have hle := Nat.mul_le_mul_right (sizes 0) hi
      rw [Nat.succ_mul] at hle
      rw [hlast]
      omega
    have hdiv : (i * sizes 0 + idx 0) / sizes 0 = i := by
      rw [Nat.mul_comm, Nat.mul_add_div (by omega), Nat.div_eq_of_lt hidx, Nat.add_zero]
    have hmod : (i * sizes 0 + idx 0) % sizes 0 = idx 0 := by
      rw [Nat.mul_comm, Nat.mul_add_mod, Nat.mod_eq_of_lt hidx]
    change (catRange 0 x (spWorldSize - 1)).entry (update idx 0 (i * sizes 0 + idx 0)) = _
    rw [NdTensor.entry_catRange _ hsizes (by rw [Function.update_self]; exact hplace),
      Function.update_self, hdiv, hmod, Function.update_idem, Function.update_eq_self]

theorem gatherForward_spec (hpos : 0 < spWorldSize) (hx : Uniform spWorldSize ndim sizes x)
    (hrows : 0 < sizes 0) {rank : Nat} (hrank : rank < spWorldSize) :
    (gatherForward spWorldSize x gatherDim rank).ndim = ndim ∧
      (gatherForward spWorldSize x gatherDim rank).size =
        update sizes gatherDim (spWorldSize * sizes gatherDim) ∧
      ∀ idx, idx gatherDim < spWorldSize * sizes gatherDim → (gatherDim ≠ 0 → idx 0 < sizes 0) →
        (gatherForward spWorldSize x gatherDim rank).entry idx =
          (x (idx gatherDim / sizes gatherDim)).entry
            (update idx gatherDim (idx gatherDim % sizes gatherDim)) := by
  let output := catRange 0 x (spWorldSize - 1)
  let chunk := fun i => output.slice 0 (i * sizes 0) ((i + 1) * sizes 0)
  have hlast : spWorldSize - 1 + 1 = spWorldSize := Nat.sub_add_cancel hpos
  have hchunk (i : Nat) (hi : i ≤ spWorldSize - 1) :=
    slice_catRange_zero hpos hx (show i < spWorldSize by omega)
  have hsizes : ∀ i ≤ spWorldSize - 1, (chunk i).size = sizes := fun i hi => (hchunk i hi).1
  have hforward : gatherForward spWorldSize x gatherDim rank =
      catRange gatherDim chunk (spWorldSize - 1) := by
    have houtput : output.size 0 = spWorldSize * sizes 0 := by
      have hsize := @NdTensor.size_catRange _ 0 _ _ (spWorldSize - 1) fun r hr =>
        (hx r (by omega)).2
      rw [hlast] at hsize
      rw [hsize, Function.update_self]
    have hchunks : (output.size 0 + sizes 0 - 1) / sizes 0 = spWorldSize := by
      rw [houtput]
      refine Nat.div_eq_of_lt_le (by omega) ?_
      rw [Nat.succ_mul]
      omega
    rw [gatherForward, (hx rank hrank).2, if_neg hrows.ne']
    change catRange gatherDim chunk ((output.size 0 + sizes 0 - 1) / sizes 0 - 1) = _
    rw [hchunks]
  rw [hforward]
  refine ⟨?_, ?_, fun idx hidx hzero => ?_⟩
  · rw [NdTensor.ndim_catRange]
    exact (NdTensor.ndim_catRange _).trans (hx 0 hpos).1
  · rw [NdTensor.size_catRange _ hsizes, hlast]
  · have hi : idx gatherDim / sizes gatherDim < spWorldSize :=
      Nat.div_lt_of_lt_mul (by rw [Nat.mul_comm]; exact hidx)
    rw [NdTensor.entry_catRange _ hsizes (by rw [hlast]; exact hidx)]
    refine (hchunk _ (by omega)).2 _ ?_
    by_cases hdim : gatherDim = 0
    · subst hdim
      rw [Function.update_self]
      exact Nat.mod_lt _ hrows
    · rw [Function.update_of_ne (Ne.symm hdim)]
      exact hzero hdim

end GatherForward

/-! ## Functions of the tokens -/

/-- The index of a token in a tensor of the shape `(1, n)`. -/
def tokenIdx (j : Nat) : Nat → Nat := update (fun _ => 0) 1 j

/-- A function of the tokens: it gives each token a tensor of features, and the tokens
lie along a dimension of the output. -/
def mapTokens (f : α → Option Nat → (Nat → Nat) → β) (ndim : Nat) (features : Nat → Nat)
    (tokenDim : Nat) (ids : NdTensor α) (positions : Option (NdTensor Nat)) : NdTensor β where
  ndim := ndim
  size := update features tokenDim (ids.size 1)
  entry := fun idx =>
    f (ids.entry (tokenIdx (idx tokenDim)))
      (positions.map fun p => p.entry (tokenIdx (idx tokenDim))) (update idx tokenDim 0)

section Tokens

variable {spSize : Nat} {input : PackedInput α}

/-- The token ids of a rank. -/
def localIds [Zero α] (spSize : Nat) (input : PackedInput α) (padValue : α) (rank : Nat) :
    NdTensor α :=
  sliceInputTensor spSize rank
    (padIds (Shards.padSize spSize input.length) input.inputIds padValue) 1 false

/-- The position ids of a rank. -/
def localPositions (spSize : Nat) (input : PackedInput α) (skipPositionIds : Bool) (rank : Nat) :
    Option (NdTensor Nat) :=
  let padded := input.positionIds.map (padPositions (Shards.padSize spSize input.length))
  if skipPositionIds then padded
  else padded.map fun positions => sliceInputTensor spSize rank positions 1 false

theorem ulyssesPadAndSliceInputs_eq [Zero α] (hpos : 0 < spSize) (skipPositionIds : Bool)
    (padValue : α)
    (rank : Nat) :
    ulyssesPadAndSliceInputs spSize rank input.inputIds input.positionIds spSize skipPositionIds
        padValue =
      .ok (localIds spSize input padValue rank, localPositions spSize input skipPositionIds rank,
        Shards.padSize spSize input.length) := by
  rw [ulyssesPadAndSliceInputs, ulyssesPad_eq hpos]
  rfl

theorem size_padIds_one (padValue : α) :
    (padIds (Shards.padSize spSize input.length) input.inputIds padValue).size 1 =
      input.length + Shards.padSize spSize input.length := by
  rw [(padIds_spec _ _ _).2.1, Function.update_self]
  rfl

theorem localIds_size [Zero α] (padValue : α) {rank : Nat} (hrank : rank < spSize) :
    (localIds spSize input padValue rank).size 1 =
      (input.length + Shards.padSize spSize input.length) / spSize := by
  rw [localIds, sliceInputTensor_eq hrank, NdTensor.size_narrow, Function.update_self,
    size_padIds_one]

/-- A token id of a rank. -/
theorem localIds_entry [Zero α] (padValue : α) {rank j : Nat} (hrank : rank < spSize)
    (hj : rank * ((input.length + Shards.padSize spSize input.length) / spSize) + j <
      input.length) :
    (localIds spSize input padValue rank).entry (tokenIdx j) =
      input.inputIds.entry (tokenIdx
        (rank * ((input.length + Shards.padSize spSize input.length) / spSize) + j)) := by
  obtain ⟨-, -, hentry⟩ := padIds_spec (Shards.padSize spSize input.length) input.inputIds padValue
  rw [localIds, sliceInputTensor_eq hrank, size_padIds_one]
  change (padIds _ _ _).entry (update (tokenIdx j) 1 (_ + tokenIdx j 1)) = _
  rw [tokenIdx, Function.update_self, Function.update_idem]
  refine hentry _ ?_
  rw [Function.update_self]
  exact hj

/-- A position id of a rank. -/
theorem localPositions_entry (h : ∀ p ∈ input.positionIds, p.ndim = 2) {rank j : Nat}
    (hrank : rank < spSize)
    (hj : rank * ((input.length + Shards.padSize spSize input.length) / spSize) + j <
      input.length) :
    ((localPositions spSize input false rank).map fun p => p.entry (tokenIdx j)) =
      input.positionIds.map fun p => p.entry (tokenIdx
        (rank * ((input.length + Shards.padSize spSize input.length) / spSize) + j)) := by
  cases hpositions : input.positionIds with
  | none =>
      rw [localPositions, hpositions]
      rfl
  | some p =>
      have hndim := h p hpositions
      have hlast := input.positions_length p hpositions
      obtain ⟨-, hsize, hentry⟩ := @padPositions_spec (Shards.padSize spSize input.length)
        input.length p (by omega) hlast
      rw [hndim] at hsize hentry
      have hlength : (padPositions (Shards.padSize spSize input.length) p).size 1 =
          input.length + Shards.padSize spSize input.length := by
        rw [hsize, Function.update_self]
      rw [localPositions, hpositions]
      change some ((sliceInputTensor spSize rank (padPositions _ p) 1 false).entry (tokenIdx j)) = _
      rw [sliceInputTensor_eq hrank, hlength]
      change some ((padPositions _ p).entry (update (tokenIdx j) 1 (_ + tokenIdx j 1))) = _
      rw [tokenIdx, Function.update_self, Function.update_idem, hentry _ ?_, Function.update_self,
        if_pos hj]
      · rfl
      · rw [Function.update_self]
        exact Nat.lt_add_right _ hj

/-- The outputs of the ranks, gathered and without the padding. -/
theorem gatherOutputsAndUnpad_spec {x : Nat → NdTensor β} {ndim gatherDim length padSize : Nat}
    {sizes : Nat → Nat} (hpos : 0 < spSize) (hx : Uniform spSize ndim sizes x)
    (hrows : 0 < sizes 0) (hlength : spSize * sizes gatherDim = length + padSize) {rank : Nat}
    (hrank : rank < spSize) :
    (gatherOutputsAndUnpad spSize x gatherDim (some gatherDim) padSize rank).ndim = ndim ∧
      (gatherOutputsAndUnpad spSize x gatherDim (some gatherDim) padSize rank).size =
        update sizes gatherDim length ∧
      ∀ idx, idx gatherDim < length → (gatherDim ≠ 0 → idx 0 < sizes 0) →
        (gatherOutputsAndUnpad spSize x gatherDim (some gatherDim) padSize rank).entry idx =
          (x (idx gatherDim / sizes gatherDim)).entry
            (update idx gatherDim (idx gatherDim % sizes gatherDim)) := by
  obtain ⟨hndim, hsize, hentry⟩ := @gatherForward_spec β spSize ndim gatherDim sizes x hpos hx
    hrows rank hrank
  rw [hlength] at hsize hentry
  by_cases hpad : padSize = 0
  · subst hpad
    have hsame : gatherOutputsAndUnpad spSize x gatherDim (some gatherDim) (0 : Nat) rank =
        gatherForward spSize x gatherDim rank := by
      rw [gatherOutputsAndUnpad]
      exact if_pos rfl
    rw [hsame]
    exact ⟨hndim, hsize, fun idx hidx => hentry idx (Nat.lt_add_right _ hidx)⟩
  · have hunpad : gatherOutputsAndUnpad spSize x gatherDim (some gatherDim) padSize rank =
        (gatherForward spSize x gatherDim rank).narrow gatherDim 0 length := by
      rw [gatherOutputsAndUnpad]
      refine (if_neg (by omega)).trans (unpadTensor_eq ?_ (Nat.pos_of_ne_zero hpad))
      rw [hsize, Function.update_self]
    rw [hunpad]
    refine ⟨hndim, ?_, fun idx hidx hzero => ?_⟩
    · rw [NdTensor.size_narrow, hsize, Function.update_idem]
    · rw [narrow_zero_entry]
      exact hentry idx (Nat.lt_add_right _ hidx) hzero

/-- A token that a rank has is mapped like the token of the input. -/
theorem entry_mapTokens_local [Zero α] {skipPositionIds : Bool}
    (hpositions : skipPositionIds = false → ∀ p ∈ input.positionIds, p.ndim = 2) (padValue : α)
    (f : α → Option Nat → (Nat → Nat) → β) {ndim tokenDim : Nat} {features : Nat → Nat}
    {idx : Nat → Nat} (hidx : idx tokenDim < input.length)
    (howner : idx tokenDim / ((input.length + Shards.padSize spSize input.length) / spSize) <
      spSize) :
    (mapTokens f ndim features tokenDim
        (localIds spSize input padValue
          (idx tokenDim / ((input.length + Shards.padSize spSize input.length) / spSize)))
        (if skipPositionIds then none
          else localPositions spSize input skipPositionIds
            (idx tokenDim / ((input.length + Shards.padSize spSize input.length) / spSize)))).entry
      (update idx tokenDim
        (idx tokenDim % ((input.length + Shards.padSize spSize input.length) / spSize))) =
    (mapTokens f ndim features tokenDim input.inputIds
      (if skipPositionIds then none else input.positionIds)).entry idx := by
  have hplace : idx tokenDim / ((input.length + Shards.padSize spSize input.length) / spSize) *
      ((input.length + Shards.padSize spSize input.length) / spSize) +
        idx tokenDim % ((input.length + Shards.padSize spSize input.length) / spSize) =
      idx tokenDim := by
    rw [Nat.mul_comm, Nat.div_add_mod]
  have hids := localIds_entry padValue howner (hplace.symm ▸ hidx)
  rw [hplace] at hids
  simp only [mapTokens, Function.update_self, Function.update_idem, hids]
  cases skipPositionIds with
  | true => rfl
  | false =>
      have hlocal := localPositions_entry (hpositions rfl) howner (hplace.symm ▸ hidx)
      rw [hplace] at hlocal
      exact congrArg (fun p => f _ p _) hlocal

/-- What the ranks make of their tokens, gathered and unpadded. -/
theorem gather_mapTokens [Zero α] (hpos : 0 < spSize) (hlength : 1 ≤ input.length)
    (skipPositionIds : Bool) (padValue : α)
    (hpositions : skipPositionIds = false → ∀ p ∈ input.positionIds, p.ndim = 2)
    (f : α → Option Nat → (Nat → Nat) → β) {ndim tokenDim : Nat} {features : Nat → Nat}
    (htokenDim : tokenDim < ndim) (hfeatures : tokenDim ≠ 0 → 0 < features 0) {rank : Nat}
    (hrank : rank < spSize) :
    (gatherOutputsAndUnpad spSize
        (fun r => mapTokens f ndim features tokenDim (localIds spSize input padValue r)
          (if skipPositionIds then none else localPositions spSize input skipPositionIds r))
        tokenDim (some tokenDim) (Shards.padSize spSize input.length) rank).Same
      (mapTokens f ndim features tokenDim input.inputIds
        (if skipPositionIds then none else input.positionIds)) := by
  let part := (input.length + Shards.padSize spSize input.length) / spSize
  let out := fun r => mapTokens f ndim features tokenDim (localIds spSize input padValue r)
    (if skipPositionIds then none else localPositions spSize input skipPositionIds r)
  have hparts : spSize * part = input.length + Shards.padSize spSize input.length :=
    Nat.mul_div_cancel' (Shards.dvd_add_padSize hpos input.length)
  have hpart : 0 < part := by
    refine Nat.pos_of_ne_zero fun hzero => ?_
    rw [hzero, Nat.mul_zero] at hparts
    omega
  have huniform : Uniform spSize ndim (update features tokenDim part) out := by
    intro r hr
    refine ⟨rfl, ?_⟩
    change update features tokenDim ((localIds spSize input padValue r).size 1) = _
    rw [localIds_size padValue hr]
  have hfeature (h : tokenDim ≠ 0) : update features tokenDim part 0 = features 0 :=
    Function.update_of_ne (Ne.symm h) _ _
  have hrows : 0 < update features tokenDim part 0 := by
    by_cases hdim : tokenDim = 0
    · rw [hdim, Function.update_self]
      exact hpart
    · rw [hfeature hdim]
      exact hfeatures hdim
  obtain ⟨hndim, hsize, hentry⟩ := @gatherOutputsAndUnpad_spec β spSize out ndim tokenDim
    input.length (Shards.padSize spSize input.length) (update features tokenDim part) hpos
    huniform hrows (by rw [Function.update_self, hparts]) rank hrank
  rw [Function.update_idem] at hsize
  rw [Function.update_self] at hentry
  refine ⟨hndim, hsize, fun idx hidx => ?_⟩
  have hbound (dim : Nat) (hdim : dim < ndim) :
      idx dim < update features tokenDim input.length dim := by
    have hlt := hidx dim (hndim.symm ▸ hdim)
    rwa [hsize] at hlt
  have htoken : idx tokenDim < input.length := by
    have hlt := hbound tokenDim htokenDim
    rwa [Function.update_self] at hlt
  have hzero (h : tokenDim ≠ 0) : idx 0 < update features tokenDim part 0 := by
    have hlt := hbound 0 ((Nat.pos_of_ne_zero h).trans htokenDim)
    rwa [Function.update_of_ne (Ne.symm h), ← hfeature h] at hlt
  have howner : idx tokenDim / part < spSize :=
    Nat.div_lt_of_lt_mul (by rw [Nat.mul_comm, hparts]; exact Nat.lt_add_right _ htoken)
  rw [hentry idx htoken hzero]
  exact entry_mapTokens_local hpositions padValue f htoken howner

end Tokens

/-! ## The whole layout -/

/-- What `ulysses_pad_and_slice_inputs` and `gather_outputs_and_unpad` promise for every
function of the tokens. -/
def TokensLossless (spSize : Nat) : Prop :=
  ∀ (α β : Type) [Zero α] (input : PackedInput α) (skipPositionIds : Bool) (padValue : α)
    (f : α → Option Nat → (Nat → Nat) → β) (ndim tokenDim : Nat) (features : Nat → Nat),
    1 ≤ input.length →
    (skipPositionIds = false → ∀ p ∈ input.positionIds, p.ndim = 2) →
    tokenDim < ndim → (tokenDim ≠ 0 → 0 < features 0) →
    ∃ (ids : Nat → NdTensor α) (positions : Nat → Option (NdTensor Nat)) (padSize : Nat),
      (∀ rank < spSize, ulyssesPadAndSliceInputs spSize rank input.inputIds input.positionIds
        spSize skipPositionIds padValue = .ok (ids rank, positions rank, padSize)) ∧
      spSize ∣ input.length + padSize ∧
      (∀ more, spSize ∣ input.length + more → padSize ≤ more) ∧
      ∀ rank < spSize,
        (gatherOutputsAndUnpad spSize
            (fun r => mapTokens f ndim features tokenDim (ids r)
              (if skipPositionIds then none else positions r))
            tokenDim (some tokenDim) padSize rank).Same
          (mapTokens f ndim features tokenDim input.inputIds
            (if skipPositionIds then none else input.positionIds))

/-- The position ids of the padding are `0, 1, …`, on every channel. -/
def PositionsRestart (spSize : Nat) : Prop :=
  ∀ (α : Type) (input : PackedInput α) (padValue : α),
    ∃ (ids : NdTensor α) (padded : NdTensor Nat → NdTensor Nat) (padSize : Nat),
      ulyssesPad input.inputIds input.positionIds spSize padValue =
        .ok (ids, input.positionIds.map padded, padSize) ∧
      ∀ p ∈ input.positionIds, ∀ idx, idx (p.ndim - 1) < input.length + padSize →
        (padded p).entry idx =
          if idx (p.ndim - 1) < input.length then p.entry idx
          else idx (p.ndim - 1) - input.length

/-- What the two functions on attention heads promise for the parts of a sequence.  With
the length `n` of the sequence the padding is cut off, and comes back as zeros. -/
def HeadsLossless (spSize : Nat) : Prop :=
  ∀ (α : Type) [Zero α] (x : Nat → NdTensor α) (ndim seqDim headDim : Nat) (sizes : Nat → Nat),
    headDim ≠ seqDim → seqDim < ndim → headDim < ndim → Uniform spSize ndim sizes x →
    spSize ∣ sizes headDim →
    ∀ rank < spSize,
      let block := (catRange seqDim x (spSize - 1)).narrow headDim
        (rank * (sizes headDim / spSize)) (sizes headDim / spSize)
      (gatherSeqScatterHeads spSize x seqDim headDim 0 rank).Same block ∧
      (gatherHeadsScatterSeq spSize (gatherSeqScatterHeads spSize x seqDim headDim 0) headDim
        seqDim rank).Same (x rank) ∧
      ∀ n, 1 ≤ n → spSize * sizes seqDim = n + Shards.padSize spSize n →
        (gatherSeqScatterHeads spSize x seqDim headDim n rank).Same (block.narrow seqDim 0 n) ∧
        (gatherHeadsScatterSeq spSize (gatherSeqScatterHeads spSize x seqDim headDim n) headDim
          seqDim rank).Same
            { x rank with
              entry := fun idx =>
                if rank * sizes seqDim + idx seqDim < n then (x rank).entry idx else 0 }

/-- `SeqAllToAll.backward` is the inverse of `SeqAllToAll.forward`. -/
def BackwardInverse (spSize : Nat) : Prop :=
  ∀ (α : Type) (ndim scatterDim gatherDim : Nat) (sizes : Nat → Nat),
    scatterDim ≠ gatherDim → scatterDim < ndim → gatherDim < ndim → spSize ∣ sizes scatterDim →
    let ctx : SeqAllToAll := ⟨spSize, scatterDim, gatherDim⟩
    (∀ x : Nat → NdTensor α, Uniform spSize ndim sizes x →
      ∀ rank < spSize, (ctx.backward (ctx.forward x) rank).Same (x rank)) ∧
    ∀ grad : Nat → NdTensor α,
      Uniform spSize ndim (allToAllSizes spSize sizes scatterDim gatherDim) grad →
      ∀ rank < spSize, (ctx.forward (ctx.backward grad) rank).Same (grad rank)

theorem tokensLossless {spSize : Nat} (hpos : 0 < spSize) : TokensLossless spSize := by
  intro α β _ input skipPositionIds padValue f ndim tokenDim features hlength hpositions htokenDim
    hfeatures
  refine ⟨localIds spSize input padValue, localPositions spSize input skipPositionIds,
    Shards.padSize spSize input.length, fun rank _ => ?_, Shards.dvd_add_padSize hpos _,
    fun more => Shards.padSize_le hpos, fun rank hrank => ?_⟩
  · exact ulyssesPadAndSliceInputs_eq hpos skipPositionIds padValue rank
  · exact gather_mapTokens hpos hlength skipPositionIds padValue hpositions f htokenDim hfeatures
      hrank

theorem positionsRestart {spSize : Nat} (hpos : 0 < spSize) : PositionsRestart spSize := by
  intro α input padValue
  refine ⟨_, _, _, ulyssesPad_eq hpos input padValue, fun p hp => ?_⟩
  have hndim : 0 < p.ndim := by
    obtain htwo | hthree := input.positions_ndim p hp
    · omega
    · omega
  exact (padPositions_spec hndim (input.positions_length p hp)).2.2

theorem headsLossless {spSize : Nat} (hpos : 0 < spSize) : HeadsLossless spSize := by
  intro α _ x ndim seqDim headDim sizes hne hseq hhead hx hheads rank hrank block
  have hblock := allToAllTensor_same_block hpos hne hseq hx hheads rank
  have hforward : gatherSeqScatterHeads spSize x seqDim headDim 0 =
      allToAllTensor spSize x headDim seqDim := by
    funext r
    rw [gatherSeqScatterHeads]
    exact if_neg fun h => h.1 rfl
  refine ⟨?_, ?_, fun n hn hlength => ⟨?_, ?_⟩⟩
  · rw [hforward]
    exact hblock
  · rw [hforward, gatherHeadsScatterSeq_of_dvd fun r => ?_]
    · exact allToAllTensor_inverse hpos hne hhead hseq hx hheads hrank
    · rw [(allToAllTensor_spec hpos hne hx hheads r).2.1, allToAllSizes_gather]
      exact Nat.dvd_mul_right _ _
  · obtain ⟨hndim, hsize, hentry⟩ :=
      gatherSeqScatterHeads_unpadded hpos hne hx hheads hn hlength rank
    obtain ⟨hallNdim, hallSize, -⟩ := allToAllTensor_spec hpos hne hx hheads rank
    refine ⟨hndim.trans (hallNdim.symm.trans hblock.ndim), ?_, fun idx hidx => ?_⟩
    · rw [hsize, NdTensor.size_narrow, ← hblock.size, hallSize]
    · rw [hentry, narrow_zero_entry]
      refine hblock.entry idx fun dim hdim => ?_
      have hlt := hidx dim (hndim.symm ▸ hallNdim ▸ hdim)
      rw [hsize] at hlt
      rw [hallSize]
      by_cases hseqDim : dim = seqDim
      · subst hseqDim
        rw [Function.update_self] at hlt
        rw [allToAllSizes_gather, hlength]
        exact Nat.lt_add_right _ hlt
      · rwa [Function.update_of_ne hseqDim] at hlt
  · exact gatherHeadsScatterSeq_unpadded hpos hne hhead hseq hx hheads hn hlength hrank

theorem backwardInverse {spSize : Nat} (hpos : 0 < spSize) : BackwardInverse spSize := by
  intro α ndim scatterDim gatherDim sizes hne hscatter hgather hdvd ctx
  refine ⟨fun x hx rank hrank => ?_, fun grad hgrad rank hrank => ?_⟩
  · exact allToAllTensor_inverse hpos hne hscatter hgather hx hdvd hrank
  · refine allToAllTensor_inverse hpos (Ne.symm hne) hgather hscatter hgrad ?_ hrank
    rw [allToAllSizes_gather]
    exact Nat.dvd_mul_right _ _

/-- Ulysses sequence parallelism loses nothing of the tokens and nothing of the heads. -/
theorem ulysses_lossless {spSize : Nat} (hpos : 1 ≤ spSize) :
    TokensLossless spSize ∧ PositionsRestart spSize ∧ HeadsLossless spSize ∧
      BackwardInverse spSize :=
  ⟨tokensLossless hpos, positionsRestart hpos, headsLossless hpos, backwardInverse hpos⟩

/-- A group of two ranks. -/
theorem ulysses_lossless_two :
    TokensLossless 2 ∧ PositionsRestart 2 ∧ HeadsLossless 2 ∧ BackwardInverse 2 :=
  ulysses_lossless (by decide)

end Verl.Ulysses
