import Mathlib.Algebra.BigOperators.Group.Multiset.Basic
import Mathlib.Algebra.Order.BigOperators.Group.Finset
import Mathlib.Data.Fintype.BigOperators

/-!
# Least loaded first

A weight that goes to the least load does not set the loads further apart than
the heaviest weight (`Within.add_least`).  Where every weight is 1 this bounds the
counts, and counts that are within 1 are equal if they can be.
-/

namespace LeastLoaded

section Within

variable {ι M : Type*} [AddCommMonoid M] [PartialOrder M] [IsOrderedAddMonoid M]
  {bound weight : M} {load : ι → M} {least : ι}

/-- No load is more than `bound` above another. -/
def Within (bound : M) (load : ι → M) : Prop := ∀ a b, load a ≤ load b + bound

theorem within_const (hbound : 0 ≤ bound) (value : M) : Within bound fun _ : ι => value :=
  fun _ _ => le_add_of_nonneg_right hbound

theorem Within.add_least [DecidableEq ι] (h : Within bound load)
    (hleast : ∀ b, load least ≤ load b) (hweight : 0 ≤ weight) (hle : weight ≤ bound) :
    Within bound (Function.update load least (load least + weight)) := by
  have hgrows : load least ≤ load least + weight := le_add_of_nonneg_right hweight
  intro a b
  by_cases ha : a = least
  · subst ha
    rw [Function.update_self]
    by_cases hb : b = a
    · rw [hb, Function.update_self]
      exact le_add_of_nonneg_right (hweight.trans hle)
    · rw [Function.update_of_ne hb]
      exact add_le_add (hleast b) hle
  · rw [Function.update_of_ne ha]
    by_cases hb : b = least
    · rw [hb, Function.update_self]
      exact (h a least).trans (add_le_add_left hgrows bound)
    · rw [Function.update_of_ne hb]
      exact h a b

end Within

section Counts

variable {ι : Type*} [Fintype ι] {count : ι → Nat}

/-- Counts within 1 of each other are all the mean, if it is a whole number. -/
theorem Within.eq_of_sum {size : Nat} (h : Within 1 count)
    (hsum : ∑ i, count i = Fintype.card ι * size) (a : ι) : count a = size := by
  have hmean : ∑ _i : ι, size = Fintype.card ι * size := Finset.sum_const_nat fun _ _ => rfl
  obtain hlt | heq | hgt := Nat.lt_trichotomy (count a) size
  · have hle : ∀ i ∈ Finset.univ, count i ≤ size := fun i _ => by
      have := h i a
      omega
    have := Finset.sum_lt_sum hle ⟨a, Finset.mem_univ a, hlt⟩
    omega
  · exact heq
  · have hle : ∀ i ∈ Finset.univ, size ≤ count i := fun i _ => by
      have := h a i
      omega
    have := Finset.sum_lt_sum hle ⟨a, Finset.mem_univ a, hgt⟩
    omega

end Counts

/-! ## Loads with a bias -/

/-- A bias above all values makes the least load one of the least counts. -/
theorem count_le_of_load_le {bias count count' value value' : Nat} (hvalue : value' < bias)
    (h : count * bias + value ≤ count' * bias + value') : count ≤ count' := by
  by_contra hlt
  have hstep : (count' + 1) * bias ≤ count * bias := Nat.mul_le_mul_right bias (by omega)
  rw [Nat.add_mul, Nat.one_mul] at hstep
  omega

end LeastLoaded
