import Mathlib.Algebra.GroupWithZero.Nat
import Mathlib.Data.List.Basic

/-!
# Slices of a list

`slice xs start size` is `xs[start : start + size]`.  `write xs start ys` is
the assignment to the slice of the size of `ys` that begins at `start`.  A
slice that was written reads back what was written, and a slice beside it is
unchanged.
-/

namespace Slices

variable {α : Type*}

def slice (xs : List α) (start size : Nat) : List α := (xs.drop start).take size

def write (xs : List α) (start : Nat) (ys : List α) : List α :=
  xs.take start ++ ys ++ xs.drop (start + ys.length)

theorem length_write {xs : List α} {start : Nat} {ys : List α}
    (h : start + ys.length ≤ xs.length) : (write xs start ys).length = xs.length := by
  rw [write, List.length_append, List.length_append, List.length_take, List.length_drop]
  omega

theorem length_slice {xs : List α} {start size : Nat} (h : start + size ≤ xs.length) :
    (slice xs start size).length = size := by
  rw [slice, List.length_take, List.length_drop]
  omega

/-- What was written is read back. -/
theorem slice_write_self {xs : List α} {start : Nat} {ys : List α}
    (h : start + ys.length ≤ xs.length) : slice (write xs start ys) start ys.length = ys := by
  have hlength : (xs.take start).length = start := by
    rw [List.length_take]
    omega
  rw [slice, write, List.append_assoc, List.drop_left' hlength, List.take_left]

/-- A slice before the written one is unchanged. -/
theorem slice_write_of_le {xs : List α} {start size start' : Nat} {ys : List α}
    (h : start + size ≤ start') (hlength : start' ≤ xs.length) :
    slice (write xs start' ys) start size = slice xs start size := by
  have htake : (xs.take start').length = start' := by
    rw [List.length_take]
    omega
  rw [slice, slice, write, List.append_assoc, List.drop_append_of_le_length (by omega),
    List.take_append_of_le_length (by rw [List.length_drop]; omega), List.drop_take,
    List.take_take]
  congr 1
  omega

/-- Two adjacent slices are one. -/
theorem slice_append_slice (xs : List α) (start size size' : Nat) :
    slice xs start size ++ slice xs (start + size) size' = slice xs start (size + size') := by
  rw [slice, slice, slice, ← List.drop_drop, List.take_add]

/-- Slices of one size, one after the other, are the beginning of the list. -/
theorem flatMap_range_slice (count size : Nat) (xs : List α) :
    ((List.range count).flatMap fun i => slice xs (i * size) size) =
      slice xs 0 (count * size) := by
  induction count with
  | zero => rw [List.range_zero, List.flatMap_nil, Nat.zero_mul, slice, List.take_zero]
  | succ count ih =>
      have hnext := slice_append_slice xs 0 (count * size) size
      rw [Nat.zero_add] at hnext
      rw [List.range_succ, List.flatMap_append, ih, List.flatMap_singleton, hnext, Nat.add_mul,
        Nat.one_mul]

/-- Blocks of blocks are blocks. -/
theorem flatMap_range_mul {β : Type*} (count size : Nat) (f : Nat → List β) :
    ((List.range count).flatMap fun i => (List.range size).flatMap fun j => f (i * size + j)) =
      (List.range (count * size)).flatMap f := by
  induction count with
  | zero => rw [Nat.zero_mul, List.range_zero, List.flatMap_nil, List.flatMap_nil]
  | succ count ih =>
      rw [List.range_succ, List.flatMap_append, ih, List.flatMap_singleton, Nat.add_mul,
        Nat.one_mul, List.range_add, List.flatMap_append, List.flatMap_map]

/-- The slice of a slice. -/
theorem slice_slice {xs : List α} {start size start' size' : Nat} (h : start' + size' ≤ size) :
    slice (slice xs start size) start' size' = slice xs (start + start') size' := by
  rw [slice, slice, slice, List.drop_take, List.take_take, List.drop_drop,
    Nat.min_eq_left (by omega)]

theorem slice_zero_of_length_le {xs : List α} {size : Nat} (h : xs.length ≤ size) :
    slice xs 0 size = xs := by
  rw [slice, List.drop_zero, List.take_of_length_le h]

/-- The slice of a part of a concatenation. -/
theorem slice_append_middle {pre xs post : List α} {start size : Nat}
    (hstart : pre.length = start) (hsize : xs.length = size) :
    slice (pre ++ (xs ++ post)) start size = xs := by
  rw [slice, List.drop_left' hstart, List.take_left' hsize]

/-- The block `i` of blocks of one size. -/
theorem slice_flatMap_range {count size : Nat} {f : Nat → List α}
    (hf : ∀ i < count, (f i).length = size) {i : Nat} (hi : i < count) :
    slice ((List.range count).flatMap f) (i * size) size = f i := by
  induction count with
  | zero => exact absurd hi (Nat.not_lt_zero i)
  | succ count ih =>
      have hlength : ((List.range count).flatMap f).length = count * size := by
        have hsizes : (List.range count).map (fun j => (f j).length) =
            List.replicate count size := by
          rw [List.eq_replicate_iff, List.length_map, List.length_range]
          refine ⟨rfl, fun length hmem => ?_⟩
          obtain ⟨j, hj, rfl⟩ := List.mem_map.mp hmem
          exact hf j (Nat.lt_succ_of_lt (List.mem_range.mp hj))
        rw [List.length_flatMap, hsizes, List.sum_replicate_nat]
      rw [List.range_succ, List.flatMap_append, List.flatMap_singleton]
      obtain hlt | rfl := Nat.lt_or_eq_of_le (Nat.le_of_lt_succ hi)
      · have hfit : i * size + size ≤ ((List.range count).flatMap f).length := by
          rw [hlength, ← Nat.succ_mul]
          exact Nat.mul_le_mul_right _ hlt
        rw [← ih (fun j hj => hf j (Nat.lt_succ_of_lt hj)) hlt, slice, slice,
          List.drop_append_of_le_length (by omega),
          List.take_append_of_le_length (by rw [List.length_drop]; omega)]
      · have hlast := @slice_append_middle _ _ _ [] _ _ hlength (hf i hi)
        rwa [List.append_nil] at hlast

/-- A slice of the part `i` of a concatenation, found by the lengths of the parts
before. -/
theorem slice_flatten_part {xss : List (List α)} {i start size : Nat} (h : i < xss.length)
    (hfit : start + size ≤ xss[i].length) :
    slice xss.flatten (((xss.map List.length).take i).sum + start) size =
      slice xss[i] start size := by
  have hlength : (xss.take i).flatten.length = ((xss.map List.length).take i).sum := by
    rw [List.length_flatten, List.map_take]
  have hsplit : xss.flatten = (xss.take i).flatten ++ (xss[i] ++ (xss.drop (i + 1)).flatten) := by
    rw [← List.flatten_cons, ← List.drop_eq_getElem_cons h, ← List.flatten_append,
      List.take_append_drop]
  rw [hsplit, slice, slice, ← List.drop_drop, List.drop_left' hlength,
    List.drop_append_of_le_length (by omega),
    List.take_append_of_le_length (by rw [List.length_drop]; omega)]

/-- The part `i` of a concatenation. -/
theorem slice_flatten {xss : List (List α)} {i : Nat} (h : i < xss.length) :
    slice xss.flatten ((xss.map List.length).take i).sum xss[i].length = xss[i] := by
  have hpart := @slice_flatten_part _ xss i 0 xss[i].length h (Nat.le_of_eq (Nat.zero_add _))
  rwa [Nat.add_zero, slice_zero_of_length_le (Nat.le_refl _)] at hpart

/-- A part lies within the concatenation. -/
theorem sum_take_add_le {xss : List (List α)} {i : Nat} (h : i < xss.length) :
    ((xss.map List.length).take i).sum + xss[i].length ≤ xss.flatten.length := by
  have hsplit : xss = xss.take i ++ xss[i] :: xss.drop (i + 1) := by
    rw [← List.drop_eq_getElem_cons h, List.take_append_drop]
  have hlength : xss.flatten.length =
      (xss.take i).flatten.length + (xss[i].length + (xss.drop (i + 1)).flatten.length) := by
    rw [← List.length_append, ← List.flatten_cons, ← List.length_append, ← List.flatten_append,
      ← hsplit]
  rw [hlength, ← List.map_take, ← List.length_flatten]
  omega

/-- The written part of a padded buffer. -/
theorem slice_write_pad {xs ys : List α} {start size : Nat} (h : start + size ≤ ys.length) :
    slice (write xs 0 ys) start size = slice ys start size := by
  rw [slice, slice, write, List.take_zero, List.nil_append,
    List.drop_append_of_le_length (by omega),
    List.take_append_of_le_length (by rw [List.length_drop]; omega)]

end Slices
