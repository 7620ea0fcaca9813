import Mathlib.Algebra.Ring.Int.Defs
import Verl.Lib.Jagged
import Verl.Lib.Python

/-!
# Padded and packed batches

`left_right_2_no_padding` packs a batch that is padded on both sides by its
attention mask.  `no_padding_2_padding` cuts the responses out of a packed model
output, one token to the left, since the output at a token is about the next
one.
-/

namespace Verl

open Jagged (cumsum index nonzero rows select)
open Slices (slice)

/-! ## From padded to packed -/

/-- What `left_right_2_no_padding` writes to the data. -/
structure NoPaddingData where
  inputIds : List (List Int)
  positionIds : List (List Int)
  lossMask : List (List Int)
  indices : List Nat
  maxSeqLen : Nat
  maxResponseLen : Nat

/-- `unpad_input`, with the indices and the rows at the cumulative lengths. -/
def unpadInput {α : Type} (hiddenStates : List (List α)) (attentionMask : List (List Int)) :
    List Nat × List (List α) :=
  let indices := nonzero attentionMask.flatten
  (indices, rows (index hiddenStates.flatten indices)
    (attentionMask.map fun mask => mask.sum.toNat))

/-- `left_right_2_no_padding` of a batch of these widths. -/
def leftRight2NoPadding (seqLen responseLen : Nat)
    (inputIds attentionMask responseMask positionIds : List (List Int)) : NoPaddingData where
  inputIds := (unpadInput inputIds attentionMask).2
  positionIds := List.zipWith select attentionMask positionIds
  lossMask := responseMask
  indices := (unpadInput inputIds attentionMask).1
  maxSeqLen := seqLen
  maxResponseLen := responseLen

/-! ## From packed to padded -/

/-- `F.pad` at the end to a size.  A negative padding crops. -/
def padTo {α : Type} [Zero α] (size : Nat) (xs : List α) : List α :=
  (xs ++ List.replicate (size - xs.length) 0).take size

/-- `no_padding_2_padding`, once the lengths are known. -/
def sliceResponses {α : Type} [Zero α] (values : List α) (promptLens responseLens : List Nat)
    (maxResponseLen : Nat) : Except Py.Error (List (List α)) := do
  let sequenceOffsets := cumsum (List.zipWith (· + ·) promptLens responseLens)
  let total ← Py.getItem sequenceOffsets (sequenceOffsets.length - 1)
  Py.check (total = values.length) ""
  Py.check (0 ∉ promptLens)
    s!"seq_offset - resp_len - 1 assumes prompt_len > 0. Got {promptLens}"
  return List.zipWith
    (fun respLen seqOffset => padTo maxResponseLen (slice values (seqOffset - respLen - 1) respLen))
    responseLens sequenceOffsets

/-- `no_padding_2_padding` where prompts and responses are padded. -/
def noPadding2Padding {α : Type} [Zero α] (values : List α) (promptWidth responseWidth : Nat)
    (attentionMask : List (List Int)) : Except Py.Error (List (List α)) :=
  sliceResponses values (attentionMask.map fun mask => (mask.take promptWidth).sum.toNat)
    (attentionMask.map fun mask => (mask.drop promptWidth).sum.toNat) responseWidth

/-- `no_padding_2_padding` where prompts and responses are nested.  Without a
`max_response_len` it is the length of the longest response. -/
def noPadding2PaddingNested {α : Type} [Zero α] (values : List α)
    (prompts responses : List (List Int)) (maxResponseLen : Option Nat) :
    Except Py.Error (List (List α)) :=
  sliceResponses values (prompts.map List.length) (responses.map List.length)
    (maxResponseLen.getD ((responses.map List.length).foldr max 0))

/-- The prompts and the responses of a batch, from which the lengths are read. -/
inductive ResponseLayout where
  | padded (promptWidth responseWidth : Nat) (attentionMask : List (List Int))
  | nested (prompts responses : List (List Int)) (maxResponseLen : Option Nat)

namespace ResponseLayout

/-- `no_padding_2_padding`. -/
def noPadding2Padding {α : Type} [Zero α] (layout : ResponseLayout) (values : List α) :
    Except Py.Error (List (List α)) :=
  match layout with
  | .padded promptWidth responseWidth attentionMask =>
      Verl.noPadding2Padding values promptWidth responseWidth attentionMask
  | .nested prompts responses maxResponseLen =>
      noPadding2PaddingNested values prompts responses maxResponseLen

def promptLens (layout : ResponseLayout) : List Nat :=
  match layout with
  | .padded promptWidth _ attentionMask =>
      attentionMask.map fun mask => (mask.take promptWidth).sum.toNat
  | .nested prompts _ _ => prompts.map List.length

def responseLens (layout : ResponseLayout) : List Nat :=
  match layout with
  | .padded promptWidth _ attentionMask =>
      attentionMask.map fun mask => (mask.drop promptWidth).sum.toNat
  | .nested _ responses _ => responses.map List.length

def maxResponseLen (layout : ResponseLayout) : Nat :=
  match layout with
  | .padded _ responseWidth _ => responseWidth
  | .nested _ responses maxResponseLen =>
      maxResponseLen.getD ((responses.map List.length).foldr max 0)

theorem noPadding2Padding_eq {α : Type} [Zero α] (layout : ResponseLayout) (values : List α) :
    layout.noPadding2Padding values =
      sliceResponses values layout.promptLens layout.responseLens layout.maxResponseLen := by
  cases layout <;> rfl

end ResponseLayout

/-! ## Slices of responses -/

variable {α : Type} [Zero α]

/-- The response of a row: the outputs from the last token of the prompt on. -/
def responseOf (promptLen responseLen : Nat) (outputs : List α) : List α :=
  slice outputs (promptLen - 1) responseLen

/-- The padding to a size, element by element. -/
theorem getElem?_padTo {size j : Nat} (h : j < size) (xs : List α) :
    (padTo size xs)[j]? = some (xs.getD j 0) := by
  rw [padTo, List.getElem?_take_of_lt h, List.getD_eq_getElem?_getD]
  rcases Nat.lt_or_ge j xs.length with hj | hj
  · rw [List.getElem?_append_left hj, List.getElem?_eq_getElem hj, Option.getD_some]
  · rw [List.getElem?_append_right hj, List.getElem?_replicate, if_pos (by omega),
      List.getElem?_eq_none hj, Option.getD_none]

theorem length_padTo (size : Nat) (xs : List α) :
    (padTo size xs).length = size := by
  rw [padTo, List.length_take, List.length_append, List.length_replicate]
  omega

/-- The element `j` of a response. -/
theorem getD_responseOf {promptLen responseLen : Nat} {out : List α}
    (hpos : 1 ≤ promptLen) (hlength : out.length = promptLen + responseLen) (j : Nat) :
    (responseOf promptLen responseLen out).getD j 0 =
      if j < responseLen then out.getD (promptLen + j - 1) 0 else 0 := by
  rw [responseOf, Slices.slice, List.getD_eq_getElem?_getD]
  split
  next hj =>
    rw [List.getElem?_take_of_lt hj, List.getElem?_drop, List.getD_eq_getElem?_getD]
    congr 2
    omega
  next hj =>
    rw [List.getElem?_eq_none, Option.getD_none]
    rw [List.length_take]
    omega

/-- The responses of a packed output are cut out row by row. -/
theorem sliceResponses_map {ι : Type} {xs : List ι} (hne : xs ≠ []) {p r : ι → Nat}
    {out : ι → List α} (hlength : ∀ x ∈ xs, (out x).length = p x + r x)
    (hpos : ∀ x ∈ xs, p x ≠ 0) (maxResponseLen : Nat) :
    sliceResponses (xs.map out).flatten (xs.map p) (xs.map r) maxResponseLen =
      .ok (xs.map fun x => padTo maxResponseLen (responseOf (p x) (r x) (out x))) := by
  have hsums : List.zipWith (· + ·) (xs.map p) (xs.map r) = (xs.map out).map List.length := by
    rw [List.zipWith_map, List.zipWith_self, List.map_map]
    exact List.map_congr_left fun x hx => (hlength x hx).symm
  have hlast : 0 < xs.length := List.length_pos_iff.mpr hne
  have htotal : Py.getItem (cumsum ((xs.map out).map List.length)) (xs.length - 1) =
      .ok (xs.map out).flatten.length := by
    have hlt : xs.length - 1 < (cumsum ((xs.map out).map List.length)).length := by
      rw [Jagged.length_cumsum, List.length_map, List.length_map]
      omega
    refine Py.getItem_of_some ?_
    rw [List.getElem?_eq_getElem hlt, Jagged.getElem_cumsum, Nat.sub_add_cancel hlast,
      List.take_of_length_le (by rw [List.length_map, List.length_map]), List.length_flatten]
  have hzero : 0 ∉ xs.map p := by
    intro hmem
    obtain ⟨x, hx, hpx⟩ := List.mem_map.mp hmem
    exact hpos x hx hpx
  rw [sliceResponses, hsums, Jagged.length_cumsum, List.length_map, List.length_map, htotal,
    Py.ok_bind,
    Py.check_of_true rfl, Py.ok_bind, Py.check_of_true hzero, Py.ok_bind, Py.pure_eq_ok]
  refine congrArg Except.ok (List.ext_getElem ?_ fun i hi hi' => ?_)
  · rw [List.length_zipWith, Jagged.length_cumsum, List.length_map, List.length_map,
      List.length_map, List.length_map, Nat.min_self]
  · have hx : i < xs.length := by rwa [List.length_map] at hi'
    have hrow := hlength xs[i] (List.getElem_mem hx)
    have hp := hpos xs[i] (List.getElem_mem hx)
    have hi'' : i < (xs.map out).length := by rwa [List.length_map]
    have hpart : slice (xs.map out).flatten
        ((((xs.map out).map List.length).take i).sum + (p xs[i] - 1)) (r xs[i]) =
          slice (xs.map out)[i] (p xs[i] - 1) (r xs[i]) := by
      refine Slices.slice_flatten_part hi'' ?_
      rw [List.getElem_map, hrow]
      omega
    rw [List.getElem_map] at hpart
    rw [List.getElem_zipWith, List.getElem_map, List.getElem_map, Jagged.getElem_cumsum,
      List.take_succ_eq_append_getElem (by rwa [List.length_map]), List.sum_append,
      List.sum_singleton, List.getElem_map, List.getElem_map, hrow, responseOf, ← hpart]
    congr 2
    omega

end Verl
