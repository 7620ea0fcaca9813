import Verl.Lib.Python
import Verl.Lib.Slices

/-!
# Weight chunks

`split_weight_chunks` cuts each weight into chunks of at most `bucket_size`
bytes.  `merge_weight_chunks` puts them together again.  The merger decides by
the size of the whole weight whether it was cut, and fills a buffer of its own
if it was.

A byte of that buffer is `none` until it is written, as `torch.empty` does not
initialise it.  A merged weight therefore has bytes of type `Option UInt8`, and
it is the sent one when they are all there.
-/

namespace Verl

open Slices (slice write)

/-! ## Weights and chunks -/

structure DType where
  name : String
  itemsize : Nat
deriving DecidableEq

/-- A named weight.  `data` is `weight.view(-1).view(torch.uint8)`. -/
structure Weight where
  name : String
  shape : List Nat
  dtype : DType
  data : List UInt8
  nbytes_eq : data.length = shape.prod * dtype.itemsize
deriving DecidableEq

def Weight.nbytes (w : Weight) : Nat := w.data.length

structure TensorMeta where
  name : String
  shape : List Nat
  dtype : DType
  chunkOffset : Nat
  chunkSize : Nat
  offset : Option Nat
deriving DecidableEq

/-- A chunk with its metadata. -/
abbrev Chunk := TensorMeta × List UInt8

/-! ## Splitting -/

/-- The loop over the chunks of one weight.  The fuel is `nbytes`, as every
chunk has a byte. -/
def splitFrom (bucketSize : Nat) (w : Weight) : Nat → Nat → List Chunk
  | 0, _ => []
  | fuel + 1, chunkOffset =>
      if chunkOffset < w.nbytes then
        let chunkSize := min bucketSize (w.nbytes - chunkOffset)
        (⟨w.name, w.shape, w.dtype, chunkOffset, chunkSize, none⟩,
            slice w.data chunkOffset chunkSize) ::
          splitFrom bucketSize w fuel (chunkOffset + chunkSize)
      else []

def splitWeightChunks (bucketSize : Nat) (weights : List Weight) : List Chunk :=
  weights.flatMap fun w => splitFrom bucketSize w w.nbytes 0

/-! ## Merging -/

/-- A received tensor. -/
structure Tensor where
  name : String
  shape : List Nat
  dtype : DType
  data : List (Option UInt8)
deriving DecidableEq

def Weight.tensor (w : Weight) : Tensor := ⟨w.name, w.shape, w.dtype, w.data.map some⟩

/-- `merge_name`, `merge_weight` with its buffer, and `merge_offset`. -/
structure Merging where
  name : String
  shape : List Nat
  dtype : DType
  buffer : List (Option UInt8)
  offset : Nat
deriving DecidableEq

/-- What the merger yields: the chunk itself seen as a weight, or a weight of
its own memory. -/
inductive Merged where
  | view (tensorMeta : TensorMeta)
  | owned (tensor : Tensor)
deriving DecidableEq

/-- The tensor, when the chunk holds these bytes. -/
def Merged.tensor (chunk : List UInt8) : Merged → Tensor
  | view tensorMeta => ⟨tensorMeta.name, tensorMeta.shape, tensorMeta.dtype, chunk.map some⟩
  | owned tensor => tensor

/-- `chunk.view(dtype).view(shape)` needs an aligned start and as many bytes as
the shape has. -/
def checkView (tensorMeta : TensorMeta) (storageOffset : Nat) (chunk : List UInt8) :
    Except Py.Error Unit :=
  if storageOffset % tensorMeta.dtype.itemsize = 0 ∧
      chunk.length = tensorMeta.shape.prod * tensorMeta.dtype.itemsize then .ok ()
  else .error (.value "shape is invalid for input")

/-- The weight under assembly, a new one if there is none. -/
def startMerge (merging : Option Merging) (tensorMeta : TensorMeta) : Except Py.Error Merging :=
  match merging with
  | some merging => .ok merging
  | none => do
      Py.check (tensorMeta.chunkOffset = 0) "Chunk offset must be 0"
      return ⟨tensorMeta.name, tensorMeta.shape, tensorMeta.dtype,
        List.replicate (tensorMeta.shape.prod * tensorMeta.dtype.itemsize) none, 0⟩

/-- One turn of the loop of `merge_weight_chunks`, with the weight it yields. -/
def mergeChunk (bucketSize : Nat) (merging : Option Merging) (tensorMeta : TensorMeta)
    (storageOffset : Nat) (chunk : List UInt8) :
    Except Py.Error (Option Merging × Option Merged) :=
  let nbytes := tensorMeta.shape.prod * tensorMeta.dtype.itemsize
  if nbytes ≤ bucketSize then do
    Py.check (merging = none) "Weight must be None"
    checkView tensorMeta storageOffset chunk
    return (none, some (.view tensorMeta))
  else do
    let merging ← startMerge merging tensorMeta
    Py.check (tensorMeta.name = merging.name) ""
    Py.check (merging.offset = tensorMeta.chunkOffset) ""
    let merging := { merging with
      buffer := write merging.buffer tensorMeta.chunkOffset (chunk.map some)
      offset := merging.offset + tensorMeta.chunkSize }
    if tensorMeta.chunkOffset + tensorMeta.chunkSize = nbytes then
      return (none, some (.owned ⟨merging.name, merging.shape, merging.dtype, merging.buffer⟩))
    else
      return (some merging, none)

/-- One turn with the tensor it yields. -/
def mergeTensor (bucketSize : Nat) (merging : Option Merging) (chunk : Chunk) :
    Except Py.Error (Option Merging × Option Tensor) := do
  let (merging, merged) ←
    mergeChunk bucketSize merging chunk.1 (chunk.1.offset.getD 0) chunk.2
  return (merging, merged.map (Merged.tensor chunk.2))

/-- A yielded view is the chunk that was taken. -/
theorem mergeChunk_view {bucketSize : Nat} {merging merging' : Option Merging}
    {tensorMeta tensorMeta' : TensorMeta} {storageOffset : Nat} {chunk : List UInt8}
    (h : mergeChunk bucketSize merging tensorMeta storageOffset chunk =
      .ok (merging', some (.view tensorMeta'))) : tensorMeta' = tensorMeta := by
  simp only [mergeChunk] at h
  split at h
  · obtain ⟨-, -, h⟩ := Py.bind_eq_ok.mp h
    obtain ⟨-, -, h⟩ := Py.bind_eq_ok.mp h
    cases h
    rfl
  · obtain ⟨merging, -, h⟩ := Py.bind_eq_ok.mp h
    obtain ⟨-, -, h⟩ := Py.bind_eq_ok.mp h
    obtain ⟨-, -, h⟩ := Py.bind_eq_ok.mp h
    split at h <;> cases h

/-- The whole loop, with the tensors it yields. -/
def mergeChunks (bucketSize : Nat) :
    Option Merging → List Chunk → Except Py.Error (Option Merging × List Tensor)
  | merging, [] => .ok (merging, [])
  | merging, chunk :: chunks => do
      let (merging, tensor) ← mergeTensor bucketSize merging chunk
      let (merging, tensors) ← mergeChunks bucketSize merging chunks
      return (merging, tensor.toList ++ tensors)

/-- Merging a list of chunks in two parts. -/
theorem mergeChunks_append (bucketSize : Nat) (merging : Option Merging) (xs ys : List Chunk) :
    mergeChunks bucketSize merging (xs ++ ys) = do
      let (merging, tensors) ← mergeChunks bucketSize merging xs
      let (merging, tensors') ← mergeChunks bucketSize merging ys
      return (merging, tensors ++ tensors') := by
  induction xs generalizing merging with
  | nil =>
      simp only [List.nil_append, mergeChunks, Py.ok_bind]
      cases mergeChunks bucketSize merging ys with
      | error e => rfl
      | ok result => rfl
  | cons chunk xs ih =>
      simp only [List.cons_append, mergeChunks, ih]
      cases mergeTensor bucketSize merging chunk with
      | error e => rfl
      | ok result =>
          simp only [Py.ok_bind]
          cases mergeChunks bucketSize result.1 xs with
          | error e => rfl
          | ok result' =>
              simp only [Py.ok_bind, Py.pure_eq_ok]
              cases mergeChunks bucketSize result'.1 ys with
              | error e => rfl
              | ok result'' => simp only [Py.ok_bind, List.append_assoc]

/-- Merging continues where it was. -/
theorem mergeChunks_append_of_ok {bucketSize : Nat} {merging merging' : Option Merging}
    {xs : List Chunk} {tensors : List Tensor}
    (h : mergeChunks bucketSize merging xs = .ok (merging', tensors)) (ys : List Chunk) :
    mergeChunks bucketSize merging (xs ++ ys) = do
      let (merging, tensors') ← mergeChunks bucketSize merging' ys
      return (merging, tensors ++ tensors') := by
  rw [mergeChunks_append, h, Py.ok_bind]

/-! ## The chunks of a weight -/

/-- What every chunk satisfies. -/
structure ChunkOk (bucketSize : Nat) (w : Weight) (chunk : Chunk) : Prop where
  name_eq : chunk.1.name = w.name
  dtype_eq : chunk.1.dtype = w.dtype
  offset_eq : chunk.1.offset = none
  size_pos : 0 < chunk.1.chunkSize
  size_le : chunk.1.chunkSize ≤ bucketSize
  length_eq : chunk.2.length = chunk.1.chunkSize
  aligned : w.dtype.itemsize ∣ bucketSize → w.dtype.itemsize ∣ chunk.1.chunkSize

theorem itemsize_dvd_nbytes (w : Weight) : w.dtype.itemsize ∣ w.nbytes := by
  rw [Weight.nbytes, w.nbytes_eq]
  exact Nat.dvd_mul_left _ _

theorem splitFrom_ok {bucketSize : Nat} (hsize : 0 < bucketSize) (w : Weight)
    (fuel chunkOffset : Nat)
    (hdvd : w.dtype.itemsize ∣ bucketSize → w.dtype.itemsize ∣ chunkOffset) :
    ∀ chunk ∈ splitFrom bucketSize w fuel chunkOffset, ChunkOk bucketSize w chunk := by
  induction fuel generalizing chunkOffset with
  | zero => exact fun chunk hchunk => absurd hchunk List.not_mem_nil
  | succ fuel ih =>
      rw [splitFrom]
      split
      next hlt =>
        have haligned : w.dtype.itemsize ∣ bucketSize →
            w.dtype.itemsize ∣ min bucketSize (w.nbytes - chunkOffset) := by
          intro h
          obtain hmin | hmin := Nat.le_total bucketSize (w.nbytes - chunkOffset)
          · rw [Nat.min_eq_left hmin]
            exact h
          · rw [Nat.min_eq_right hmin]
            exact Nat.dvd_sub (itemsize_dvd_nbytes w) (hdvd h)
        intro chunk hchunk
        rw [List.mem_cons] at hchunk
        obtain rfl | hchunk := hchunk
        · constructor
          · rfl
          · rfl
          · rfl
          · show 0 < min bucketSize (w.nbytes - chunkOffset)
            omega
          · exact Nat.min_le_left _ _
          · refine Slices.length_slice ?_
            have hle := Nat.min_le_right bucketSize (w.nbytes - chunkOffset)
            rw [Weight.nbytes] at *
            omega
          · exact haligned
        · exact ih _ (fun h => Nat.dvd_add (hdvd h) (haligned h)) chunk hchunk
      · exact fun chunk hchunk => absurd hchunk List.not_mem_nil

/-- Only the last chunk of a weight may be smaller than a bucket. -/
theorem splitFrom_pairwise (bucketSize : Nat) (w : Weight) (fuel chunkOffset : Nat) :
    (splitFrom bucketSize w fuel chunkOffset).Pairwise fun chunk _ =>
      chunk.1.chunkSize = bucketSize := by
  induction fuel generalizing chunkOffset with
  | zero => exact List.Pairwise.nil
  | succ fuel ih =>
      rw [splitFrom]
      split
      next hlt =>
        refine List.Pairwise.cons (fun chunk hchunk => ?_) (ih _)
        show min bucketSize (w.nbytes - chunkOffset) = bucketSize
        by_contra hne
        have hlast : chunkOffset + min bucketSize (w.nbytes - chunkOffset) = w.nbytes := by omega
        rw [hlast] at hchunk
        cases fuel with
        | zero => exact List.not_mem_nil hchunk
        | succ fuel =>
            rw [splitFrom, if_neg (Nat.lt_irrefl _)] at hchunk
            exact List.not_mem_nil hchunk
      · exact List.Pairwise.nil

/-! ## Merging the chunks of a weight -/

/-- The weight under assembly after its first bytes were written. -/
def mergingAt (w : Weight) (written : Nat) : Merging :=
  ⟨w.name, w.shape, w.dtype,
    (w.data.take written).map some ++ List.replicate (w.nbytes - written) none, written⟩

theorem write_mergingAt {w : Weight} {written size : Nat} (h : written + size ≤ w.nbytes) :
    write (mergingAt w written).buffer written ((slice w.data written size).map some) =
      (mergingAt w (written + size)).buffer := by
  have hlength : ((w.data.take written).map some).length = written := by
    rw [List.length_map, List.length_take]
    rw [Weight.nbytes] at h
    omega
  have hslice : ((slice w.data written size).map some).length = size := by
    rw [List.length_map, Slices.length_slice h]
  rw [write, mergingAt, List.take_left' hlength, ← List.drop_drop, List.drop_left' hlength, hslice,
    List.drop_replicate, mergingAt, List.take_add, List.map_append, slice, Nat.sub_sub]

theorem startMerge_eq_ok {w : Weight} {written size : Nat} {merging : Option Merging}
    (hmerging : merging = some (mergingAt w written) ∨ merging = none ∧ written = 0) :
    startMerge merging ⟨w.name, w.shape, w.dtype, written, size, none⟩ =
      .ok (mergingAt w written) := by
  obtain rfl | ⟨rfl, rfl⟩ := hmerging
  · rfl
  · rw [startMerge, Py.check_of_true rfl, Py.ok_bind, mergingAt, Weight.nbytes, w.nbytes_eq]
    rfl

/-- The merger takes one chunk of a weight that needs several. -/
theorem mergeTensor_mergingAt {bucketSize : Nat} {w : Weight} (hlarge : bucketSize < w.nbytes)
    {written size : Nat} (hle : written + size ≤ w.nbytes) {merging : Option Merging}
    (hmerging : merging = some (mergingAt w written) ∨ merging = none ∧ written = 0) :
    mergeTensor bucketSize merging
        (⟨w.name, w.shape, w.dtype, written, size, none⟩, slice w.data written size) =
      if written + size = w.nbytes then .ok (none, some w.tensor)
      else .ok (some (mergingAt w (written + size)), none) := by
  have hnbytes : w.shape.prod * w.dtype.itemsize = w.nbytes := w.nbytes_eq.symm
  have hnot : ¬ w.nbytes ≤ bucketSize := Nat.not_le.mpr hlarge
  have hstart := @startMerge_eq_ok w written size merging hmerging
  have hname : w.name = (mergingAt w written).name := rfl
  have hoffset : (mergingAt w written).offset = written := rfl
  simp only [mergeTensor, mergeChunk, hnbytes, if_neg hnot, hstart, Py.check_of_true hname,
    Py.check_of_true hoffset, Py.ok_bind, write_mergingAt hle]
  split
  next hdone =>
    have hall : (mergingAt w (written + size)).buffer = w.data.map some := by
      rw [mergingAt, hdone, Nat.sub_self, List.replicate_zero, List.append_nil,
        Weight.nbytes, List.take_length]
    rw [hall]
    rfl
  · rfl

/-- The chunks of a weight that needs several, from one of them on. -/
theorem mergeChunks_splitFrom {bucketSize : Nat} (hsize : 0 < bucketSize) {w : Weight}
    (hlarge : bucketSize < w.nbytes) (fuel written : Nat) (hlt : written < w.nbytes)
    (hfuel : w.nbytes - written ≤ fuel) {merging : Option Merging}
    (hmerging : merging = some (mergingAt w written) ∨ merging = none ∧ written = 0) :
    mergeChunks bucketSize merging (splitFrom bucketSize w fuel written) =
      .ok (none, [w.tensor]) := by
  induction fuel generalizing written merging with
  | zero => omega
  | succ fuel ih =>
      have hle : written + min bucketSize (w.nbytes - written) ≤ w.nbytes := by omega
      rw [splitFrom, if_pos hlt, mergeChunks, mergeTensor_mergingAt hlarge hle hmerging]
      split
      next hdone =>
        have hrest : splitFrom bucketSize w fuel w.nbytes = [] := by
          cases fuel with
          | zero => rfl
          | succ fuel => rw [splitFrom, if_neg (Nat.lt_irrefl _)]
        rw [hdone, hrest]
        rfl
      next hmore =>
        rw [Py.ok_bind]
        have hrest := ih (written + min bucketSize (w.nbytes - written)) (by omega) (by omega)
          (Or.inl rfl)
        simp only [hrest]
        rfl

/-- A weight that fits into a bucket is one chunk. -/
theorem mergeChunks_splitFrom_small {bucketSize : Nat} {w : Weight} (hpos : 0 < w.nbytes)
    (hsmall : w.nbytes ≤ bucketSize) :
    mergeChunks bucketSize none (splitFrom bucketSize w w.nbytes 0) = .ok (none, [w.tensor]) := by
  have hsplit : splitFrom bucketSize w w.nbytes 0 =
      [(⟨w.name, w.shape, w.dtype, 0, w.nbytes, none⟩, w.data)] := by
    obtain ⟨fuel, hfuel⟩ := Nat.exists_eq_succ_of_ne_zero (Nat.pos_iff_ne_zero.mp hpos)
    have hrest : splitFrom bucketSize w fuel w.nbytes = [] := by
      cases fuel with
      | zero => rfl
      | succ fuel => rw [splitFrom, if_neg (Nat.lt_irrefl _)]
    have hslice : slice w.data 0 w.nbytes = w.data :=
      Slices.slice_zero_of_length_le (Nat.le_refl _)
    conv_lhs => rw [hfuel]
    rw [splitFrom, if_pos hpos, Nat.sub_zero, Nat.min_eq_right hsmall]
    simp only [Nat.zero_add, hrest, hslice]
  have hnbytes : w.shape.prod * w.dtype.itemsize ≤ bucketSize := by
    rw [← w.nbytes_eq]
    exact hsmall
  have hview : 0 % w.dtype.itemsize = 0 ∧
      w.data.length = w.shape.prod * w.dtype.itemsize := ⟨Nat.zero_mod _, w.nbytes_eq⟩
  have hmerge : mergeTensor bucketSize none
      (⟨w.name, w.shape, w.dtype, 0, w.nbytes, none⟩, w.data) = .ok (none, some w.tensor) := by
    simp only [mergeTensor, mergeChunk, if_pos hnbytes, Py.check_of_true, checkView,
      Option.getD_none, if_pos hview, Py.ok_bind]
    rfl
  rw [hsplit, mergeChunks, hmerge]
  rfl

/-- The merger gives back the weights that were split. -/
theorem mergeChunks_splitWeightChunks {bucketSize : Nat} (hsize : 0 < bucketSize)
    {weights : List Weight} (hpos : ∀ w ∈ weights, 0 < w.nbytes) :
    mergeChunks bucketSize none (splitWeightChunks bucketSize weights) =
      .ok (none, weights.map Weight.tensor) := by
  induction weights with
  | nil => rfl
  | cons w weights ih =>
      have hw := hpos w List.mem_cons_self
      have hrest := ih fun w' hw' => hpos w' (List.mem_cons_of_mem w hw')
      have hhead : mergeChunks bucketSize none (splitFrom bucketSize w w.nbytes 0) =
          .ok (none, [w.tensor]) := by
        by_cases hsmall : w.nbytes ≤ bucketSize
        · exact mergeChunks_splitFrom_small hw hsmall
        · exact mergeChunks_splitFrom hsize (Nat.not_le.mp hsmall) w.nbytes 0 hw
            (Nat.le_of_eq (Nat.sub_zero _)) (Or.inr ⟨rfl, rfl⟩)
      rw [splitWeightChunks, List.flatMap_cons, mergeChunks_append_of_ok hhead]
      rw [splitWeightChunks] at hrest
      rw [hrest]
      rfl

/-! ## All chunks -/

theorem splitWeightChunks_ok {bucketSize : Nat} (hsize : 0 < bucketSize) {weights : List Weight} :
    ∀ chunk ∈ splitWeightChunks bucketSize weights, ∃ w ∈ weights, ChunkOk bucketSize w chunk := by
  intro chunk hchunk
  obtain ⟨w, hw, hchunk⟩ := List.mem_flatMap.mp hchunk
  exact ⟨w, hw, splitFrom_ok hsize w w.nbytes 0 (fun _ => Nat.dvd_zero _) chunk hchunk⟩

/-- A chunk that is followed by one of the same weight fills a bucket. -/
theorem splitWeightChunks_pairwise {bucketSize : Nat} (hsize : 0 < bucketSize)
    {weights : List Weight} (hnames : (weights.map Weight.name).Nodup) :
    (splitWeightChunks bucketSize weights).Pairwise fun chunk later =>
      chunk.1.name = later.1.name → chunk.1.chunkSize = bucketSize := by
  induction weights with
  | nil => exact List.Pairwise.nil
  | cons w weights ih =>
      rw [List.map_cons, List.nodup_cons] at hnames
      rw [splitWeightChunks, List.flatMap_cons, List.pairwise_append]
      refine ⟨?_, ih hnames.2, fun chunk hchunk later hlater hname => ?_⟩
      · refine (splitFrom_pairwise bucketSize w w.nbytes 0).imp ?_
        intro chunk later h _
        exact h
      · have hw := splitFrom_ok hsize w w.nbytes 0 (fun _ => Nat.dvd_zero _) chunk hchunk
        obtain ⟨w', hw', hlater⟩ := splitWeightChunks_ok hsize later hlater
        refine absurd (List.mem_map.mpr ⟨w', hw', ?_⟩) hnames.1
        rw [← hlater.name_eq, ← hname, hw.name_eq]

/-! ## Chunks in a bucket -/

/-- A chunk without its place in the bucket. -/
def Chunk.unplaced (chunk : Chunk) : Chunk := ({ chunk.1 with offset := none }, chunk.2)

/-- An aligned place does not change what the merger makes of a chunk. -/
theorem mergeTensor_unplaced {bucketSize : Nat} {merging : Option Merging} {chunk : Chunk}
    (haligned : chunk.1.offset.getD 0 % chunk.1.dtype.itemsize = 0) :
    mergeTensor bucketSize merging (Chunk.unplaced chunk) =
      mergeTensor bucketSize merging chunk := by
  obtain ⟨tensorMeta, data⟩ := chunk
  have hstart : startMerge merging { tensorMeta with offset := none } =
      startMerge merging tensorMeta := by
    cases merging with
    | none => rfl
    | some merging => rfl
  simp only [Chunk.unplaced, mergeTensor, mergeChunk, hstart]
  split
  · simp only [checkView, Option.getD_none, Nat.zero_mod, haligned]
    cases Py.check (merging = none) "Weight must be None" with
    | error e => rfl
    | ok u =>
        simp only [Py.ok_bind]
        split
        · rfl
        · rfl
  · rfl

end Verl
