import Verl.Lib.Python
import Verl.Lib.Shards
import Verl.Lib.Tensors

/-!
# Ulysses sequence parallelism

The ranks of a group hold parts of one sequence.  A value for each rank is a function
of the rank, and a collective makes the values after it from all values before it.
The group is set; without one the functions return what they are given.

Everything comes from one equation, `allToAllTensor_spec`: an entry of the output of
an all-to-all is an entry of the rank that its place along the gathered dimension
belongs to.  Two of them with the dimensions exchanged are the identity
(`allToAllTensor_inverse`).
-/

namespace Verl.Ulysses

open Function (update)
open NdTensor (append catRange InBounds Same Uniform full)

variable {α β : Type}

/-! ## The source functions -/

/-- `_pad_tensor`. -/
def padTensor [Zero α] (x : NdTensor α) (dim paddingSize : Nat) : NdTensor α :=
  append dim x (full x.ndim (update x.size dim paddingSize) 0)

/-- `_unpad_tensor`, the slice `0:-padding_size`. -/
def unpadTensor (x : NdTensor α) (dim : Nat) (paddingSize : Int) : NdTensor α :=
  x.slice dim 0
    (if 0 < paddingSize then x.size dim - paddingSize.toNat else (-paddingSize).toNat)

/-- `slice_input_tensor` on one rank. -/
def sliceInputTensor [Zero α] (spWorldSize spRank : Nat) (x : NdTensor α) (dim : Nat)
    (padding : Bool) : NdTensor α :=
  let x :=
    if padding = true ∧ x.size dim % spWorldSize ≠ 0 then
      padTensor x dim (spWorldSize - x.size dim % spWorldSize)
    else x
  let parts := x.size dim / spWorldSize
  x.slice dim (spRank * parts) ((spRank + 1) * parts)

/-- `all_to_all_tensor`: every rank gets its section from each rank. -/
def allToAllTensor (seqWorldSize : Nat) (localInput : Nat → NdTensor α)
    (scatterDim gatherDim rank : Nat) : NdTensor α :=
  catRange gatherDim (fun src => (localInput src).tensorSplit seqWorldSize scatterDim rank)
    (seqWorldSize - 1)

/-- `SeqAllToAll`, with what `ctx` keeps for the backward. -/
structure SeqAllToAll where
  worldSize : Nat
  scatterDim : Nat
  gatherDim : Nat

def SeqAllToAll.forward (ctx : SeqAllToAll) (localInput : Nat → NdTensor α) (rank : Nat) :
    NdTensor α := allToAllTensor ctx.worldSize localInput ctx.scatterDim ctx.gatherDim rank

def SeqAllToAll.backward (ctx : SeqAllToAll) (gradOutput : Nat → NdTensor α) (rank : Nat) :
    NdTensor α := allToAllTensor ctx.worldSize gradOutput ctx.gatherDim ctx.scatterDim rank

/-- `gather_seq_scatter_heads`. -/
def gatherSeqScatterHeads (spWorld : Nat) (x : Nat → NdTensor α)
    (seqDim headDim unpaddedDimSize rank : Nat) : NdTensor α :=
  let x := SeqAllToAll.forward ⟨spWorld, headDim, seqDim⟩ x rank
  if unpaddedDimSize ≠ 0 ∧ unpaddedDimSize % spWorld ≠ 0 then
    unpadTensor x seqDim ((x.size seqDim : Int) - unpaddedDimSize)
  else x

/-- `gather_heads_scatter_seq`. -/
def gatherHeadsScatterSeq [Zero α] (spWorld : Nat) (x : Nat → NdTensor α)
    (headDim seqDim rank : Nat) : NdTensor α :=
  let padded := fun r =>
    if (x r).size seqDim % spWorld ≠ 0 then
      padTensor (x r) seqDim (spWorld - (x r).size seqDim % spWorld)
    else x r
  SeqAllToAll.forward ⟨spWorld, seqDim, headDim⟩ padded rank

/-- `Gather.forward`: the ranks one after the other along dimension 0, cut apart again
and concatenated along `gather_dim`. -/
def gatherForward (spWorldSize : Nat) (localTensor : Nat → NdTensor α) (gatherDim rank : Nat) :
    NdTensor α :=
  let splitSize := (localTensor rank).size 0
  let output := catRange 0 localTensor (spWorldSize - 1)
  let chunks := if splitSize = 0 then 1 else (output.size 0 + splitSize - 1) / splitSize
  catRange gatherDim (fun i => output.slice 0 (i * splitSize) ((i + 1) * splitSize)) (chunks - 1)

/-- `gather_outputs_and_unpad`. -/
def gatherOutputsAndUnpad (spWorldSize : Nat) (x : Nat → NdTensor α) (gatherDim : Nat)
    (unpadDim : Option Nat) (paddingSize : Int) (rank : Nat) : NdTensor α :=
  let x := gatherForward spWorldSize x gatherDim rank
  match unpadDim with
  | none => x
  | some dim => if paddingSize = 0 then x else unpadTensor x dim paddingSize

/-- `torch.arange(pad_size)` in the shape of the position ids. -/
def padPosIds (positionIds : NdTensor Nat) (padSize : Nat) : NdTensor Nat where
  ndim := positionIds.ndim
  size := fun dim =>
    if dim + 1 = positionIds.ndim then padSize
    else if positionIds.ndim = 3 ∧ dim = 0 then positionIds.size 0
    else 1
  entry := fun idx => idx (positionIds.ndim - 1)

/-- The asserts of `ulysses_pad` about the position ids. -/
def checkPositionIds (inputIds : NdTensor α) : Option (NdTensor Nat) → Except Py.Error Unit
  | none => .ok ()
  | some positionIds => do
      Py.check (positionIds.size (positionIds.ndim - 2) = 1) ""
      Py.check (inputIds.size (inputIds.ndim - 1) = positionIds.size (positionIds.ndim - 1)) ""

/-- `ulysses_pad`. -/
def ulyssesPad (inputIds : NdTensor α) (positionIds : Option (NdTensor Nat)) (spSize : Nat)
    (padValue : α) : Except Py.Error (NdTensor α × Option (NdTensor Nat) × Nat) := do
  checkPositionIds inputIds positionIds
  if spSize ≤ 1 then
    return (inputIds, positionIds, 0)
  else if inputIds.ndim ≠ 2 then
    .error (.value "too many values to unpack (expected 2)")
  else
    let totalSeqLen := inputIds.size 1
    let padSize := (spSize - totalSeqLen % spSize) % spSize
    if 0 < padSize then
      let pad := full 2 (update inputIds.size 1 padSize) padValue
      let padPositions := positionIds.map fun positions =>
        append (positions.ndim - 1) positions (padPosIds positions padSize)
      return (append 1 inputIds pad, padPositions, padSize)
    else
      return (inputIds, positionIds, padSize)

/-- `ulysses_pad_and_slice_inputs` on one rank. -/
def ulyssesPadAndSliceInputs [Zero α] (spWorldSize spRank : Nat) (inputIds : NdTensor α)
    (positionIds : Option (NdTensor Nat)) (spSize : Nat) (skipPositionIds : Bool) (padValue : α) :
    Except Py.Error (NdTensor α × Option (NdTensor Nat) × Nat) := do
  let (inputIds, positionIds, padSize) ← ulyssesPad inputIds positionIds spSize padValue
  let inputIds := sliceInputTensor spWorldSize spRank inputIds 1 false
  let positionIds :=
    if skipPositionIds then positionIds
    else positionIds.map fun positions => sliceInputTensor spWorldSize spRank positions 1 false
  return (inputIds, positionIds, padSize)

/-! ## All-to-all -/

section AllToAll

variable {worldSize ndim scatterDim gatherDim : Nat} {sizes : Nat → Nat} {x : Nat → NdTensor α}

/-- The sizes after an all-to-all. -/
def allToAllSizes (worldSize : Nat) (sizes : Nat → Nat) (scatterDim gatherDim : Nat) : Nat → Nat :=
  update (update sizes scatterDim (sizes scatterDim / worldSize)) gatherDim
    (worldSize * sizes gatherDim)

/-- An entry comes from the rank of its place along the gathered dimension. -/
theorem allToAllTensor_spec (hpos : 0 < worldSize) (hne : scatterDim ≠ gatherDim)
    (hx : Uniform worldSize ndim sizes x) (hdvd : worldSize ∣ sizes scatterDim) (rank : Nat) :
    (allToAllTensor worldSize x scatterDim gatherDim rank).ndim = ndim ∧
      (allToAllTensor worldSize x scatterDim gatherDim rank).size =
        allToAllSizes worldSize sizes scatterDim gatherDim ∧
      ∀ idx, idx gatherDim < worldSize * sizes gatherDim →
        (allToAllTensor worldSize x scatterDim gatherDim rank).entry idx =
          (x (idx gatherDim / sizes gatherDim)).entry
            (update (update idx gatherDim (idx gatherDim % sizes gatherDim)) scatterDim
              (rank * (sizes scatterDim / worldSize) + idx scatterDim)) := by
  let part := fun src => (x src).tensorSplit worldSize scatterDim rank
  let partSizes := update sizes scatterDim (sizes scatterDim / worldSize)
  have hlast : worldSize - 1 + 1 = worldSize := Nat.sub_add_cancel hpos
  have hpart : ∀ src < worldSize, part src =
      (x src).narrow scatterDim (rank * (sizes scatterDim / worldSize))
        (sizes scatterDim / worldSize) := by
    intro src hsrc
    have hsize := (hx src hsrc).2
    have hsplit := (x src).tensorSplit_of_dvd (hsize ▸ hdvd) rank
    rwa [hsize] at hsplit
  have hsizes : ∀ src ≤ worldSize - 1, (part src).size = partSizes := by
    intro src hsrc
    rw [hpart src (by omega), NdTensor.size_narrow, (hx src (by omega)).2]
  have hgather : partSizes gatherDim = sizes gatherDim :=
    Function.update_of_ne (Ne.symm hne) _ _
  refine ⟨?_, ?_, fun idx hidx => ?_⟩
  · rw [allToAllTensor, NdTensor.ndim_catRange]
    exact (congrArg NdTensor.ndim (hpart 0 hpos)).trans (hx 0 hpos).1
  · rw [allToAllTensor, NdTensor.size_catRange _ hsizes, hlast, hgather]
    rfl
  · have hbound : idx gatherDim < (worldSize - 1 + 1) * partSizes gatherDim := by
      rw [hlast, hgather]
      exact hidx
    have hsrc : idx gatherDim / sizes gatherDim < worldSize :=
      Nat.div_lt_of_lt_mul (by rw [Nat.mul_comm]; exact hidx)
    rw [allToAllTensor, NdTensor.entry_catRange _ hsizes hbound, hgather]
    change (part (idx gatherDim / sizes gatherDim)).entry _ = _
    rw [hpart _ hsrc, NdTensor.narrow]
    change (x _).entry (update _ scatterDim (_ + update idx gatherDim _ scatterDim)) = _
    rw [Function.update_of_ne hne]

theorem uniform_allToAllTensor (hpos : 0 < worldSize) (hne : scatterDim ≠ gatherDim)
    (hx : Uniform worldSize ndim sizes x) (hdvd : worldSize ∣ sizes scatterDim) :
    Uniform worldSize ndim (allToAllSizes worldSize sizes scatterDim gatherDim)
      (allToAllTensor worldSize x scatterDim gatherDim) := by
  intro rank _
  obtain ⟨hndim, hsize, -⟩ := allToAllTensor_spec hpos hne hx hdvd rank
  exact ⟨hndim, hsize⟩

theorem allToAllSizes_scatter (hne : scatterDim ≠ gatherDim) :
    allToAllSizes worldSize sizes scatterDim gatherDim scatterDim =
      sizes scatterDim / worldSize := by
  rw [allToAllSizes, Function.update_of_ne hne, Function.update_self]

theorem allToAllSizes_gather :
    allToAllSizes worldSize sizes scatterDim gatherDim gatherDim =
      worldSize * sizes gatherDim := Function.update_self ..

/-- Exchanging the dimensions brings the sizes back. -/
theorem allToAllSizes_inverse (hpos : 0 < worldSize) (hne : scatterDim ≠ gatherDim)
    (hdvd : worldSize ∣ sizes scatterDim) :
    allToAllSizes worldSize (allToAllSizes worldSize sizes scatterDim gatherDim) gatherDim
      scatterDim = sizes := by
  rw [allToAllSizes, allToAllSizes_gather, allToAllSizes_scatter hne, Nat.mul_div_cancel' hdvd,
    Nat.mul_div_cancel_left _ hpos]
  funext dim
  by_cases hscatter : dim = scatterDim
  · rw [hscatter, Function.update_self]
  · by_cases hgather : dim = gatherDim
    · rw [hgather, Function.update_of_ne (Ne.symm hne), Function.update_self]
    · rw [Function.update_of_ne hscatter, Function.update_of_ne hgather, allToAllSizes,
        Function.update_of_ne hgather, Function.update_of_ne hscatter]

/-- An entry of two all-to-alls, the second with the dimensions exchanged and with any
tensors that agree with the first where it reads them. -/
theorem entry_allToAllTensor_exchanged (hpos : 0 < worldSize) (hne : scatterDim ≠ gatherDim)
    {y : Nat → NdTensor α}
    (hy : Uniform worldSize ndim (allToAllSizes worldSize sizes scatterDim gatherDim) y)
    (hdvd : worldSize ∣ sizes scatterDim) {rank : Nat} {idx : Nat → Nat}
    (hscatter : idx scatterDim < sizes scatterDim) :
    (allToAllTensor worldSize y gatherDim scatterDim rank).entry idx =
      (y (idx scatterDim / (sizes scatterDim / worldSize))).entry
        (update (update idx scatterDim (idx scatterDim % (sizes scatterDim / worldSize))) gatherDim
          (rank * sizes gatherDim + idx gatherDim)) := by
  have hdvd' : worldSize ∣ allToAllSizes worldSize sizes scatterDim gatherDim gatherDim := by
    rw [allToAllSizes_gather]
    exact Nat.dvd_mul_right _ _
  obtain ⟨-, -, hentry⟩ := allToAllTensor_spec hpos (Ne.symm hne) hy hdvd' rank
  rw [allToAllSizes_scatter hne, allToAllSizes_gather, Nat.mul_div_cancel_left _ hpos] at hentry
  refine hentry idx ?_
  rw [Nat.mul_div_cancel' hdvd]
  exact hscatter

/-- The place of an entry before the two all-to-alls. -/
theorem entry_allToAllTensor_place (hpos : 0 < worldSize) (hne : scatterDim ≠ gatherDim)
    (hx : Uniform worldSize ndim sizes x) (hdvd : worldSize ∣ sizes scatterDim) {rank : Nat}
    (hrank : rank < worldSize) {idx : Nat → Nat} (hgather : idx gatherDim < sizes gatherDim) :
    (allToAllTensor worldSize x scatterDim gatherDim
        (idx scatterDim / (sizes scatterDim / worldSize))).entry
      (update (update idx scatterDim (idx scatterDim % (sizes scatterDim / worldSize))) gatherDim
        (rank * sizes gatherDim + idx gatherDim)) = (x rank).entry idx := by
  obtain ⟨-, -, hentry⟩ := allToAllTensor_spec hpos hne hx hdvd
    (idx scatterDim / (sizes scatterDim / worldSize))
  have hplace : rank * sizes gatherDim + idx gatherDim < worldSize * sizes gatherDim := by
    have hle := Nat.mul_le_mul_right (sizes gatherDim) hrank
    rw [Nat.succ_mul] at hle
    omega
  have hdiv : (rank * sizes gatherDim + idx gatherDim) / sizes gatherDim = rank := by
    rw [Nat.mul_comm, Nat.mul_add_div (by omega), Nat.div_eq_of_lt hgather, Nat.add_zero]
  have hmod : (rank * sizes gatherDim + idx gatherDim) % sizes gatherDim = idx gatherDim := by
    rw [Nat.mul_comm, Nat.mul_add_mod, Nat.mod_eq_of_lt hgather]
  rw [hentry _ (by rw [Function.update_self]; exact hplace), Function.update_self, hdiv, hmod,
    Function.update_idem, Function.update_of_ne hne, Function.update_self]
  congr 1
  rw [Nat.mul_comm, Nat.div_add_mod, Function.update_comm hne, Function.update_idem,
    Function.update_eq_self, Function.update_eq_self]

/-- An all-to-all with the dimensions exchanged is the inverse. -/
theorem allToAllTensor_inverse (hpos : 0 < worldSize) (hne : scatterDim ≠ gatherDim)
    (hscatter : scatterDim < ndim) (hgather : gatherDim < ndim)
    (hx : Uniform worldSize ndim sizes x) (hdvd : worldSize ∣ sizes scatterDim) {rank : Nat}
    (hrank : rank < worldSize) :
    (allToAllTensor worldSize (allToAllTensor worldSize x scatterDim gatherDim) gatherDim
      scatterDim rank).Same (x rank) := by
  have hy := uniform_allToAllTensor hpos hne hx hdvd
  have hdvd' : worldSize ∣ allToAllSizes worldSize sizes scatterDim gatherDim gatherDim := by
    rw [allToAllSizes_gather]
    exact Nat.dvd_mul_right _ _
  obtain ⟨hndim, hsize, -⟩ := allToAllTensor_spec hpos (Ne.symm hne) hy hdvd' rank
  rw [allToAllSizes_inverse hpos hne hdvd] at hsize
  refine ⟨hndim.trans (hx rank hrank).1.symm, hsize.trans (hx rank hrank).2.symm,
    fun idx hidx => ?_⟩
  have hbound (dim : Nat) (hdim : dim < ndim) : idx dim < sizes dim := by
    have hlt := hidx dim (hndim.symm ▸ hdim)
    rwa [hsize] at hlt
  rw [entry_allToAllTensor_exchanged hpos hne hy hdvd (hbound scatterDim hscatter)]
  exact entry_allToAllTensor_place hpos hne hx hdvd hrank (hbound gatherDim hgather)

end AllToAll

/-! ## Heads -/

section Heads

variable {spWorld ndim seqDim headDim : Nat} {sizes : Nat → Nat} {x : Nat → NdTensor α}

/-- Without unpadding a rank has all positions of its block of heads. -/
theorem allToAllTensor_same_block (hpos : 0 < spWorld) (hne : headDim ≠ seqDim)
    (hseq : seqDim < ndim) (hx : Uniform spWorld ndim sizes x) (hheads : spWorld ∣ sizes headDim)
    (rank : Nat) :
    (allToAllTensor spWorld x headDim seqDim rank).Same
      ((catRange seqDim x (spWorld - 1)).narrow headDim (rank * (sizes headDim / spWorld))
        (sizes headDim / spWorld)) := by
  have hlast : spWorld - 1 + 1 = spWorld := Nat.sub_add_cancel hpos
  have hsizes : ∀ r ≤ spWorld - 1, (x r).size = sizes := fun r hr => (hx r (by omega)).2
  obtain ⟨hndim, hsize, hentry⟩ := allToAllTensor_spec hpos hne hx hheads rank
  refine ⟨?_, ?_, fun idx hidx => ?_⟩
  · exact hndim.trans ((NdTensor.ndim_catRange _).trans (hx 0 hpos).1).symm
  · rw [hsize, NdTensor.size_narrow, NdTensor.size_catRange _ hsizes, hlast, allToAllSizes,
      Function.update_comm hne]
  · have hlt := hidx seqDim (hndim.symm ▸ hseq)
    rw [hsize, allToAllSizes_gather] at hlt
    have hplace : update idx headDim (rank * (sizes headDim / spWorld) + idx headDim) seqDim <
        (spWorld - 1 + 1) * sizes seqDim := by
      rw [Function.update_of_ne (Ne.symm hne), hlast]
      exact hlt
    rw [hentry idx hlt]
    change _ = (catRange seqDim x (spWorld - 1)).entry (update idx headDim _)
    rw [NdTensor.entry_catRange _ hsizes hplace, Function.update_of_ne (Ne.symm hne),
      Function.update_comm hne]

theorem narrow_zero_entry (y : NdTensor α) (dim length : Nat) (idx : Nat → Nat) :
    (y.narrow dim 0 length).entry idx = y.entry idx := by
  change y.entry (update idx dim (0 + idx dim)) = _
  rw [Nat.zero_add, Function.update_eq_self]

theorem unpadTensor_eq {y : NdTensor α} {dim length padding : Nat}
    (h : y.size dim = length + padding) (hpadding : 0 < padding) :
    unpadTensor y dim padding = y.narrow dim 0 length := by
  have hstop : y.size dim - (padding : Int).toNat = length := by
    rw [h, Int.toNat_natCast, Nat.add_sub_cancel]
  rw [unpadTensor, if_pos (Int.natCast_pos.mpr hpadding), hstop,
    NdTensor.slice_of_le (Nat.zero_le _) (by omega), Nat.sub_zero]

/-- With the original length the gathered sequence has no padding. -/
theorem gatherSeqScatterHeads_unpadded (hpos : 0 < spWorld) (hne : headDim ≠ seqDim)
    (hx : Uniform spWorld ndim sizes x) (hheads : spWorld ∣ sizes headDim) {length : Nat}
    (hlength : 0 < length)
    (hseq : spWorld * sizes seqDim = length + Shards.padSize spWorld length) (rank : Nat) :
    (gatherSeqScatterHeads spWorld x seqDim headDim length rank).ndim = ndim ∧
      (gatherSeqScatterHeads spWorld x seqDim headDim length rank).size =
        update (allToAllSizes spWorld sizes headDim seqDim) seqDim length ∧
      ∀ idx, (gatherSeqScatterHeads spWorld x seqDim headDim length rank).entry idx =
        (allToAllTensor spWorld x headDim seqDim rank).entry idx := by
  obtain ⟨hndim, hsize, -⟩ := allToAllTensor_spec hpos hne hx hheads rank
  have hgathered : (allToAllTensor spWorld x headDim seqDim rank).size seqDim =
      length + Shards.padSize spWorld length := by
    rw [hsize, allToAllSizes_gather, hseq]
  rw [gatherSeqScatterHeads, SeqAllToAll.forward]
  by_cases hrest : length % spWorld = 0
  · rw [if_neg fun h => h.2 hrest]
    rw [Shards.padSize_of_mod_eq_zero hrest, Nat.add_zero] at hgathered
    refine ⟨hndim, ?_, fun _ => rfl⟩
    rw [← hgathered, ← hsize, Function.update_eq_self]
  · have hpad : 0 < Shards.padSize spWorld length := by
      rw [Shards.padSize]
      have hlt := Nat.mod_lt length hpos
      rw [Nat.mod_eq_of_lt (by omega)]
      omega
    have hpadding : ((allToAllTensor spWorld x headDim seqDim rank).size seqDim : Int) - length =
        Shards.padSize spWorld length := by
      rw [hgathered]
      omega
    rw [if_pos ⟨hlength.ne', hrest⟩, hpadding, unpadTensor_eq hgathered hpad]
    refine ⟨hndim, ?_, fun idx => narrow_zero_entry _ _ _ idx⟩
    rw [NdTensor.size_narrow, hsize]

/-- A sequence of a length, padded with zeros to a multiple of the group. -/
theorem padTensor_spec [Zero α] {y : NdTensor α} {length : Nat} (hpos : 0 < spWorld)
    (hlength : y.size seqDim = length) :
    let padded :=
      if y.size seqDim % spWorld ≠ 0 then
        padTensor y seqDim (spWorld - y.size seqDim % spWorld)
      else y
    padded.ndim = y.ndim ∧
      padded.size = update y.size seqDim (length + Shards.padSize spWorld length) ∧
      ∀ idx, idx seqDim < length + Shards.padSize spWorld length →
        padded.entry idx = if idx seqDim < length then y.entry idx else 0 := by
  intro padded
  by_cases hrest : length % spWorld = 0
  · have hpadded : padded = y := if_neg fun h => h (hlength ▸ hrest)
    rw [hpadded, Shards.padSize_of_mod_eq_zero hrest, Nat.add_zero]
    refine ⟨rfl, ?_, fun idx hidx => (if_pos hidx).symm⟩
    rw [← hlength, Function.update_eq_self]
  · have hpadded : padded = padTensor y seqDim (spWorld - y.size seqDim % spWorld) :=
      if_pos (hlength.symm ▸ hrest)
    rw [hpadded, hlength, Shards.padSize_of_mod_ne_zero hpos hrest]
    refine ⟨rfl, ?_, fun idx _ => ?_⟩
    · rw [padTensor, append]
      change update y.size seqDim (y.size seqDim + update y.size seqDim _ seqDim) = _
      rw [Function.update_self, hlength]
    · rw [padTensor, append]
      change (if idx seqDim < y.size seqDim then _ else _) = _
      rw [hlength]
      rfl

/-- A sequence that is a multiple of the group is not padded. -/
theorem gatherHeadsScatterSeq_of_dvd [Zero α] {y : Nat → NdTensor α}
    (h : ∀ r, spWorld ∣ (y r).size seqDim) (rank : Nat) :
    gatherHeadsScatterSeq spWorld y headDim seqDim rank =
      allToAllTensor spWorld y seqDim headDim rank := by
  have hpadded : (fun r =>
      if (y r).size seqDim % spWorld ≠ 0 then
        padTensor (y r) seqDim (spWorld - (y r).size seqDim % spWorld)
      else y r) = y :=
    funext fun r => if_neg fun hrest => hrest (Nat.mod_eq_zero_of_dvd (h r))
  rw [gatherHeadsScatterSeq, hpadded]
  rfl

/-- Gathering the heads gives the shards back, with zeros for the padding. -/
theorem gatherHeadsScatterSeq_unpadded [Zero α] (hpos : 0 < spWorld) (hne : headDim ≠ seqDim)
    (hhead : headDim < ndim) (hseqlt : seqDim < ndim) (hx : Uniform spWorld ndim sizes x)
    (hheads : spWorld ∣ sizes headDim) {length : Nat} (hlength : 0 < length)
    (hseq : spWorld * sizes seqDim = length + Shards.padSize spWorld length) {rank : Nat}
    (hrank : rank < spWorld) :
    (gatherHeadsScatterSeq spWorld (gatherSeqScatterHeads spWorld x seqDim headDim length)
        headDim seqDim rank).Same
      { x rank with
        entry := fun idx =>
          if rank * sizes seqDim + idx seqDim < length then (x rank).entry idx else 0 } := by
  let gathered := gatherSeqScatterHeads spWorld x seqDim headDim length
  let padded := fun r =>
    if (gathered r).size seqDim % spWorld ≠ 0 then
      padTensor (gathered r) seqDim (spWorld - (gathered r).size seqDim % spWorld)
    else gathered r
  have hgathered := gatherSeqScatterHeads_unpadded hpos hne hx hheads hlength hseq
  have hgatheredSeq (r : Nat) : (gathered r).size seqDim = length := by
    rw [(hgathered r).2.1, Function.update_self]
  have hpaddedEntry (r : Nat) := (padTensor_spec hpos (hgatheredSeq r)).2.2
  have huniform : Uniform spWorld ndim (allToAllSizes spWorld sizes headDim seqDim) padded := by
    intro r _
    obtain ⟨hndim, hsize, -⟩ := padTensor_spec hpos (hgatheredSeq r)
    refine ⟨hndim.trans (hgathered r).1, hsize.trans ?_⟩
    rw [(hgathered r).2.1, Function.update_idem, ← hseq, ← allToAllSizes_gather,
      Function.update_eq_self]
  have hdvd : spWorld ∣ allToAllSizes spWorld sizes headDim seqDim seqDim := by
    rw [allToAllSizes_gather]
    exact Nat.dvd_mul_right _ _
  change (allToAllTensor spWorld padded seqDim headDim rank).Same _
  obtain ⟨hndim, hsize, -⟩ := allToAllTensor_spec hpos (Ne.symm hne) huniform hdvd rank
  rw [allToAllSizes_inverse hpos hne hheads] at hsize
  refine ⟨hndim.trans (hx rank hrank).1.symm, hsize.trans (hx rank hrank).2.symm,
    fun idx hidx => ?_⟩
  have hbound (dim : Nat) (hdim : dim < ndim) : idx dim < sizes dim := by
    have hlt := hidx dim (hndim.symm ▸ hdim)
    rwa [hsize] at hlt
  have hplace : rank * sizes seqDim + idx seqDim < length + Shards.padSize spWorld length := by
    have hle := Nat.mul_le_mul_right (sizes seqDim) hrank
    have hlt := hbound seqDim hseqlt
    rw [Nat.succ_mul, hseq] at hle
    omega
  rw [entry_allToAllTensor_exchanged hpos hne huniform hheads (hbound headDim hhead),
    hpaddedEntry _ _ (by rw [Function.update_self]; exact hplace), Function.update_self]
  refine if_congr Iff.rfl ?_ rfl
  rw [(hgathered _).2.2]
  exact entry_allToAllTensor_place hpos hne hx hheads hrank (hbound seqDim hseqlt)

end Heads

end Verl.Ulysses
