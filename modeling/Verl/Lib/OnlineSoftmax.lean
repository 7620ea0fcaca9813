import Mathlib.Analysis.SpecialFunctions.Log.Basic

/-!
# Sums of exponentials with a running shift

A sum of exponentials is kept as a value `a` and a shift: it stands for `a * exp shift`.
When the shift moves, the value is scaled.  The shift is there for the range of the
numbers only, and any shift gives the same sum.
-/

open Finset

namespace OnlineSoftmax

/-- The value `a` with a shift stands for `total`. -/
def Scaled (shift a total : ℝ) : Prop := a * Real.exp shift = total

variable {shift shift' a b total total' : ℝ}

theorem Scaled.rescale (h : Scaled shift a total) (shift' : ℝ) :
    Scaled shift' (Real.exp (shift - shift') * a) total := by
  rw [Scaled, mul_right_comm, ← Real.exp_add, sub_add_cancel, mul_comm]
  exact h

theorem Scaled.add (h : Scaled shift a total) (h' : Scaled shift b total') :
    Scaled shift (a + b) (total + total') := by
  rw [Scaled, add_mul, h, h']

theorem Scaled.sum {ι : Type*} {s : Finset ι} {f g : ι → ℝ}
    (h : ∀ i ∈ s, Scaled shift (f i) (g i)) : Scaled shift (∑ i ∈ s, f i) (∑ i ∈ s, g i) := by
  rw [Scaled, sum_mul]
  exact sum_congr rfl h

theorem scaled_zero (shift : ℝ) : Scaled shift 0 0 := zero_mul _

theorem scaled_exp (shift x : ℝ) : Scaled shift (Real.exp (x - shift)) (Real.exp x) := by
  rw [Scaled, ← Real.exp_add, sub_add_cancel]

theorem Scaled.const_mul (h : Scaled shift a total) (x : ℝ) :
    Scaled shift (x * a) (x * total) := by
  rw [Scaled, mul_assoc, h]

/-- The shift cancels in a quotient. -/
theorem Scaled.div_eq (h : Scaled shift a total) (h' : Scaled shift b total') :
    b / a = total' / total := by
  rw [← h, ← h', mul_div_mul_right _ _ (Real.exp_ne_zero shift)]

theorem Scaled.pos (h : Scaled shift a total) (hpos : 0 < total) : 0 < a := by
  rw [← h] at hpos
  exact pos_of_mul_pos_left hpos (Real.exp_pos shift).le

/-- The logarithm of the sum. -/
theorem Scaled.log_add (h : Scaled shift a total) (hpos : 0 < total) :
    Real.log a + shift = Real.log total := by
  rw [← h, Real.log_mul (h.pos hpos).ne' (Real.exp_ne_zero shift), Real.log_exp]

/-! ## Before the first term -/

/-- A shift that begins at minus infinity. -/
def ScaledFrom (shift : Option ℝ) (a total : ℝ) : Prop :=
  match shift with
  | none => total = 0
  | some shift => Scaled shift a total

/-- `exp(old - new)` for the old shift. -/
noncomputable def coeff (old : Option ℝ) (new : ℝ) : ℝ :=
  match old with
  | none => 0
  | some old => Real.exp (old - new)

theorem ScaledFrom.rescale {old : Option ℝ} (h : ScaledFrom old a total) (new : ℝ) :
    Scaled new (coeff old new * a) total := by
  cases old with
  | none =>
      have h : total = 0 := h
      rw [h, coeff, zero_mul]
      exact scaled_zero new
  | some old => exact Scaled.rescale h new

end OnlineSoftmax
