import Mathlib.Algebra.BigOperators.Group.List.Basic
import Mathlib.Algebra.Order.Field.Rat

/-!
# Rationals with infinities and NaN

Exact arithmetic with the special values of IEEE numbers.  There is one zero, so a
quotient by zero has the sign of its numerator.  A result is finite only when
the arguments are: a sum (`isFinite_sum_iff`), a product with a finite
factor (`isFinite_mul_fin_iff`) and a quotient by a number that is not 0
(`isFinite_div_fin_iff`).
-/

inductive XRat where
  | fin (q : ℚ)
  | inf (negative : Bool)
  | nan
deriving DecidableEq

namespace XRat

/-! ## Operations -/

def add : XRat → XRat → XRat
  | fin p, fin q => fin (p + q)
  | fin _, inf s => inf s
  | inf s, fin _ => inf s
  | inf s, inf s' => if s = s' then inf s else nan
  | nan, _ => nan
  | _, nan => nan

def neg : XRat → XRat
  | fin p => fin (-p)
  | inf s => inf (!s)
  | nan => nan

def mul : XRat → XRat → XRat
  | fin p, fin q => fin (p * q)
  | fin p, inf s => if p = 0 then nan else inf (s != decide (p < 0))
  | inf s, fin q => if q = 0 then nan else inf (s != decide (q < 0))
  | inf s, inf s' => inf (s != s')
  | nan, _ => nan
  | _, nan => nan

def div : XRat → XRat → XRat
  | fin p, fin q => if q = 0 then if p = 0 then nan else inf (decide (p < 0)) else fin (p / q)
  | fin _, inf _ => fin 0
  | inf s, fin q => inf (s != decide (q < 0))
  | inf _, inf _ => nan
  | nan, _ => nan
  | _, nan => nan

instance : Zero XRat := ⟨fin 0⟩
instance : Add XRat := ⟨add⟩
instance : Sub XRat := ⟨fun x y => add x (neg y)⟩
instance : Mul XRat := ⟨mul⟩
instance : Div XRat := ⟨div⟩

/-- The finite part, 0 for the special values. -/
def toRat : XRat → ℚ
  | fin q => q
  | inf _ => 0
  | nan => 0

/-- A number that is none of the special values. -/
def IsFinite (x : XRat) : Prop := x = fin x.toRat

instance (x : XRat) : Decidable x.IsFinite := inferInstanceAs (Decidable (_ = _))

/-! ## Finite arguments -/

@[simp] theorem fin_add_fin (p q : ℚ) : fin p + fin q = fin (p + q) := rfl

@[simp] theorem fin_sub_fin (p q : ℚ) : fin p - fin q = fin (p - q) :=
  congrArg fin (sub_eq_add_neg p q).symm

@[simp] theorem fin_mul_fin (p q : ℚ) : fin p * fin q = fin (p * q) := rfl

theorem mul_fin_one (x : XRat) : x * fin 1 = x := by
  cases x with
  | fin q => exact congrArg fin (mul_one q)
  | inf negative => exact congrArg inf (Bool.xor_false negative)
  | nan => rfl

theorem fin_div_fin {p q : ℚ} (h : q ≠ 0) : fin p / fin q = fin (p / q) := if_neg h

@[simp] theorem isFinite_fin (q : ℚ) : (fin q).IsFinite := rfl

@[simp] theorem not_isFinite_inf (s : Bool) : ¬ (inf s).IsFinite := by
  intro h
  cases h

@[simp] theorem not_isFinite_nan : ¬ nan.IsFinite := by
  intro h
  cases h

/-! ## Finite results -/

theorem isFinite_add_iff {x y : XRat} : (x + y).IsFinite ↔ x.IsFinite ∧ y.IsFinite := by
  change (add x y).IsFinite ↔ _
  cases x with
  | fin p => cases y <;> simp [add]
  | inf s =>
      cases y with
      | fin q => simp [add]
      | inf s' =>
          rw [add]
          split <;> simp
      | nan => simp [add]
  | nan => simp [add]

theorem isFinite_mul_fin_iff {x : XRat} {q : ℚ} : (x * fin q).IsFinite ↔ x.IsFinite := by
  change (mul x (fin q)).IsFinite ↔ _
  cases x with
  | fin p => simp [mul]
  | inf s =>
      rw [mul]
      split <;> simp
  | nan => simp [mul]

theorem isFinite_div_fin_iff {x : XRat} {q : ℚ} (h : q ≠ 0) :
    (x / fin q).IsFinite ↔ x.IsFinite := by
  change (div x (fin q)).IsFinite ↔ _
  cases x with
  | fin p => simp [div, h]
  | inf s => simp [div]
  | nan => simp [div]

/-! ## Sums -/

/-- The sum of a list. -/
def sum (xs : List XRat) : XRat := xs.foldr (· + ·) 0

@[simp] theorem sum_nil : sum [] = fin 0 := rfl

@[simp] theorem sum_cons (x : XRat) (xs : List XRat) : sum (x :: xs) = x + sum xs := rfl

theorem isFinite_sum_iff {xs : List XRat} : (sum xs).IsFinite ↔ ∀ x ∈ xs, x.IsFinite := by
  induction xs with
  | nil => simp
  | cons x xs ih => rw [sum_cons, isFinite_add_iff, ih, List.forall_mem_cons]

theorem sum_map_fin {α : Type*} (f : α → ℚ) (xs : List α) :
    sum (xs.map fun x => fin (f x)) = fin (xs.map f).sum := by
  induction xs with
  | nil => rfl
  | cons x xs ih => rw [List.map_cons, sum_cons, ih, fin_add_fin, List.map_cons, List.sum_cons]

end XRat
