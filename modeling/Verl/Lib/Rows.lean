import Verl.Lib.Python
import Verl.Lib.Slices

/-!
# Tensors as lists of rows

`torch.chunk`, `torch.split` and `torch.cat` along the first axis, on the list of the
rows of a tensor.  A tensor whose rows are a whole number of chunks is cut into slices
of one size (`chunk_of_length`).
-/

namespace Rows

open Slices

universe u

variable {Row : Type u}

/-- `tensor[start:stop]`. -/
def between (tensor : List Row) (start stop : Nat) : List Row :=
  slice tensor start (stop - start)

/-- `tensor.chunk(chunks)`.  The chunks have `ceil(rows / chunks)` rows, the last one can
be shorter, and there can be fewer of them than asked for. -/
def chunk (tensor : List Row) (chunks : Nat) : Except Py.Error (List (List Row)) :=
  if chunks = 0 then .error (.runtime "chunk expects `chunks` to be greater than 0, got: 0")
  else if (tensor.length + chunks - 1) / chunks = 0 then .ok (List.replicate chunks [])
  else
    .ok ((List.range ((tensor.length + (tensor.length + chunks - 1) / chunks - 1) /
        ((tensor.length + chunks - 1) / chunks))).map fun i =>
      slice tensor (i * ((tensor.length + chunks - 1) / chunks))
        ((tensor.length + chunks - 1) / chunks))

/-- The parts of the given sizes. -/
def splitSizes : List Row → List Nat → List (List Row)
  | _, [] => []
  | tensor, size :: sizes => tensor.take size :: splitSizes (tensor.drop size) sizes

/-- `tensor.split(sizes)`. -/
def split (tensor : List Row) (sizes : List Nat) : Except Py.Error (List (List Row)) :=
  if sizes.sum = tensor.length then .ok (splitSizes tensor sizes)
  else
    .error (.runtime
      s!"split_with_sizes expects split_sizes to sum exactly to {tensor.length}")

/-- `torch.cat(parts, dim=0)`. -/
def cat : List (List Row) → Except Py.Error (List Row)
  | [] => .error (.runtime "torch.cat(): expected a non-empty list of Tensors")
  | part :: parts => .ok (part :: parts).flatten

theorem cat_of_ne_nil {parts : List (List Row)} (h : parts ≠ []) :
    cat parts = .ok parts.flatten := by
  cases parts with
  | nil => exact absurd rfl h
  | cons part parts => rfl

theorem ceil_mul (count : Nat) {size : Nat} (h : 0 < size) :
    (count * size + size - 1) / size = count := by
  rw [Nat.add_sub_assoc h, Nat.mul_comm, Nat.mul_add_div h, Nat.div_eq_of_lt (Nat.sub_lt h
    Nat.one_pos), Nat.add_zero]

/-- A whole number of chunks. -/
theorem chunk_of_length {tensor : List Row} {chunks size : Nat} (hpos : 0 < chunks)
    (hlength : tensor.length = chunks * size) :
    chunk tensor chunks = .ok ((List.range chunks).map fun i => slice tensor (i * size) size) := by
  have hsize : (tensor.length + chunks - 1) / chunks = size := by
    rw [hlength, Nat.mul_comm, ceil_mul size hpos]
  rw [chunk, if_neg (Nat.ne_of_gt hpos), hsize]
  split
  next hzero =>
    subst hzero
    congr 1
    rw [eq_comm, List.eq_replicate_iff, List.length_map, List.length_range]
    refine ⟨rfl, fun part hpart => ?_⟩
    obtain ⟨i, -, rfl⟩ := List.mem_map.mp hpart
    rw [slice, List.take_zero]
  next hne =>
    rw [hlength, ceil_mul chunks (Nat.pos_of_ne_zero hne)]

/-- Three parts that are all the rows. -/
theorem split_three {tensor : List Row} {first second third : Nat}
    (h : tensor.length = first + second + third) :
    split tensor [first, second, third] =
      .ok [slice tensor 0 first, slice tensor first second,
        slice tensor (first + second) third] := by
  have hsum : [first, second, third].sum = tensor.length := by
    rw [h, List.sum_cons, List.sum_cons, List.sum_singleton, Nat.add_assoc]
  rw [split, if_pos hsum]
  simp only [splitSizes, slice, List.drop_zero, List.drop_drop]

end Rows
