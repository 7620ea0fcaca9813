import Mathlib.Algebra.Order.BigOperators.Group.Finset
import Mathlib.Algebra.Order.Field.Basic
import Mathlib.Algebra.Order.Field.Rat
import Mathlib.Order.Interval.Set.Defs

/-!
# Exponential, logarithm and means

The two functions over an ordered field, by their values at 0 and 1, their signs
and their order.  A mean is taken over the first values of a family.
-/

open Finset

/-! ## Means -/

namespace Means

/-- The mean of the first `n` values. -/
def mean {K : Type} [Field K] (n : Nat) (f : Nat → K) : K := (∑ i ∈ range n, f i) / n

theorem mean_eq_zero {K : Type} [Field K] {n : Nat} {f : Nat → K} (h : ∀ i < n, f i = 0) :
    mean n f = 0 := by
  rw [mean, sum_eq_zero fun i hi => h i (mem_range.mp hi), zero_div]

end Means

/-! ## The functions -/

/-- An exponential and a logarithm. -/
structure ExpLog (K : Type) [Field K] [LinearOrder K] [IsStrictOrderedRing K] where
  exp : K → K
  log : K → K
  exp_zero : exp 0 = 1
  exp_pos : ∀ x, 0 < exp x
  exp_mono : Monotone exp
  log_one : log 1 = 0
  log_strictMono : StrictMonoOn log (Set.Ioi 0)

variable {K : Type} [Field K] [LinearOrder K] [IsStrictOrderedRing K]

theorem Means.mean_nonneg {n : Nat} {f : Nat → K} (h : ∀ i < n, 0 ≤ f i) : 0 ≤ mean n f :=
  div_nonneg (sum_nonneg fun i hi => h i (mem_range.mp hi)) (Nat.cast_nonneg n)

namespace ExpLog

theorem exp_neg_le_one (E : ExpLog K) {x : K} (h : 0 ≤ x) : E.exp (-x) ≤ 1 := by
  rw [← E.exp_zero]
  exact E.exp_mono (neg_nonpos.mpr h)

theorem log_nonpos (E : ExpLog K) {x : K} (hpos : 0 < x) (h : x ≤ 1) : E.log x ≤ 0 := by
  rw [← E.log_one]
  exact E.log_strictMono.monotoneOn hpos one_pos h

/-- The logarithm of a value from below a bound falls. -/
theorem log_max_of_le (E : ExpLog K) {x y : K} (hx : 0 < x) : E.log x ≤ E.log (max x y) :=
  E.log_strictMono.monotoneOn hx (lt_of_lt_of_le hx (le_max_left x y)) (le_max_left x y)

theorem log_lt_log_max (E : ExpLog K) {x y : K} (hx : 0 < x) (h : x < y) :
    E.log x < E.log (max x y) := by
  rw [max_eq_right h.le]
  exact E.log_strictMono hx (hx.trans h) h

end ExpLog

/-- Linear functions with the values of the exponential at 0 and of the logarithm
at 1. -/
def linearExpLog : ExpLog ℚ where
  exp x := max (1 + x) (1 / 2)
  log x := x - 1
  exp_zero := by rw [add_zero]; exact max_eq_left (by decide +kernel)
  exp_pos x := lt_max_of_lt_right (by decide +kernel)
  exp_mono x y h := max_le_max_right _ (add_le_add_right h 1)
  log_one := sub_self 1
  log_strictMono := fun x _ y _ h => sub_lt_sub_right h 1
