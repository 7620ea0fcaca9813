import Mathlib.Algebra.Order.Field.Basic
import Mathlib.Algebra.BigOperators.Group.List.Basic
import Mathlib.Data.Option.Basic

/-!
# Statistics of samples that come in parts

The mean of all samples is the mean of the means of the parts, weighted by their
sizes.  A statistic that is made by one associative operation, such as the maximum
or the minimum, is that of the statistics of the parts, where an empty part has
none.
-/

namespace Pooling

/-! ## Means -/

section Mean

variable {F : Type*} [Field F]

/-- The mean, or 0 if there is nothing. -/
def mean (xs : List F) : F := xs.sum / xs.length

variable [CharZero F]

theorem mean_mul_length (xs : List F) : mean xs * xs.length = xs.sum := by
  cases xs with
  | nil => rw [List.length_nil, Nat.cast_zero, mul_zero, List.sum_nil]
  | cons x xs =>
      have hne : ((x :: xs).length : F) ≠ 0 := Nat.cast_ne_zero.mpr (Nat.succ_ne_zero _)
      rw [mean, div_mul_cancel₀ _ hne]

/-- Two parts. -/
theorem mean_append (xs ys : List F) :
    (mean xs * xs.length + mean ys * ys.length) / (xs.length + ys.length) = mean (xs ++ ys) := by
  rw [mean_mul_length, mean_mul_length, ← List.sum_append, ← Nat.cast_add, ← List.length_append]
  rfl

/-- Any number of parts. -/
theorem mean_flatten (xss : List (List F)) :
    (xss.map fun xs : List F => mean xs * xs.length).sum / (((xss.map List.length).sum : ℕ) : F) =
      mean xss.flatten := by
  simp only [mean_mul_length]
  rw [mean, List.sum_flatten, List.length_flatten]

end Mean

/-! ## One operation -/

section Reduce

variable {α : Type*}

/-- The elements put together by an operation, from the left. -/
def reduce? (op : α → α → α) : List α → Option α
  | [] => none
  | x :: xs => some (xs.foldl op x)

theorem max?_eq_reduce? [Max α] (xs : List α) : xs.max? = reduce? max xs := by
  cases xs <;> rfl

theorem min?_eq_reduce? [Min α] (xs : List α) : xs.min? = reduce? min xs := by
  cases xs <;> rfl

theorem isSome_reduce? (op : α → α → α) {xs : List α} (h : xs ≠ []) :
    ∃ x, reduce? op xs = some x := by
  cases xs with
  | nil => exact (h rfl).elim
  | cons x xs => exact ⟨_, rfl⟩

variable {op : α → α → α} [Std.Associative op]

/-- Two parts. -/
theorem reduce?_append (xs ys : List α) :
    reduce? op (xs ++ ys) = (reduce? op xs).merge op (reduce? op ys) := by
  cases xs with
  | nil =>
      cases ys with
      | nil => rfl
      | cons y ys => rfl
  | cons x xs =>
      cases ys with
      | nil => rw [List.append_nil]; rfl
      | cons y ys =>
          rw [List.cons_append, reduce?, List.foldl_append, List.foldl_cons, List.foldl_assoc]
          rfl

/-- Any number of parts. -/
theorem reduce?_flatten (xss : List (List α)) :
    reduce? op (xss.filterMap (reduce? op)) = reduce? op xss.flatten := by
  induction xss with
  | nil => rfl
  | cons xs xss ih =>
      rw [List.flatten_cons, reduce?_append, ← ih, List.filterMap_cons]
      cases reduce? op xs with
      | none =>
          cases reduce? op (xss.filterMap (reduce? op)) with
          | none => rfl
          | some y => rfl
      | some x => exact reduce?_append [x] (xss.filterMap (reduce? op))

end Reduce

end Pooling
