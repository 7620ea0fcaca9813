import Mathlib.Tactic.Linarith
import Verl.Lib.Slices

/-!
# Shards of a list

`shard size xs rank` is the part of a rank when a list is cut into `size` parts
of one length, and `allGather` puts the parts of all ranks one after the other.
A list of a length that the size divides is gathered back from its shards, also
when every rank has mapped its own.
-/

namespace Shards

open Slices (slice)

variable {α β : Type*}

/-- The number of elements that are missing to a multiple of `size`. -/
def padSize (size length : Nat) : Nat := (size - length % size) % size

def shard (size : Nat) (xs : List α) (rank : Nat) : List α :=
  slice xs (rank * (xs.length / size)) (xs.length / size)

def allGather (size : Nat) (part : Nat → List α) : List α := (List.range size).flatMap part

/-! ## Padding -/

theorem padSize_lt {size : Nat} (hpos : 0 < size) (length : Nat) : padSize size length < size :=
  Nat.mod_lt _ hpos

theorem padSize_of_mod_eq_zero {size length : Nat} (h : length % size = 0) :
    padSize size length = 0 := by
  rw [padSize, h, Nat.sub_zero, Nat.mod_self]

theorem padSize_of_mod_ne_zero {size length : Nat} (hpos : 0 < size) (h : length % size ≠ 0) :
    padSize size length = size - length % size := by
  have hlt := Nat.mod_lt length hpos
  exact Nat.mod_eq_of_lt (by omega)

/-- No smaller number makes a multiple. -/
theorem padSize_le {size length more : Nat} (hpos : 0 < size) (h : size ∣ length + more) :
    padSize size length ≤ more := by
  by_cases hrest : length % size = 0
  · rw [padSize_of_mod_eq_zero hrest]
    exact Nat.zero_le _
  · rw [padSize_of_mod_ne_zero hpos hrest]
    have hlt := Nat.mod_lt length hpos
    have hdecomp := Nat.div_add_mod length size
    obtain ⟨quotient, hquotient⟩ := h
    by_contra hmore
    have hlow : size * (length / size) < size * quotient := by omega
    have hhigh : size * quotient < size * (length / size + 1) := by
      rw [Nat.mul_add, Nat.mul_one]
      omega
    have hquotientLow := Nat.lt_of_mul_lt_mul_left hlow
    have hquotientHigh := Nat.lt_of_mul_lt_mul_left hhigh
    omega

theorem dvd_add_padSize {size : Nat} (hpos : 0 < size) (length : Nat) :
    size ∣ length + padSize size length := by
  have hlt := Nat.mod_lt length hpos
  have hdecomp := Nat.div_add_mod length size
  rw [padSize]
  cases Nat.eq_zero_or_pos (length % size) with
  | inl hzero =>
      rw [hzero, Nat.sub_zero, Nat.mod_self, Nat.add_zero]
      exact Nat.dvd_of_mod_eq_zero hzero
  | inr hrest =>
      rw [Nat.mod_eq_of_lt (by omega)]
      refine ⟨length / size + 1, ?_⟩
      rw [Nat.mul_add, Nat.mul_one]
      omega

/-- A shard of a padded list has as many elements as the list only if there is
one shard or at most one element. -/
theorem le_padded_div_iff {size length : Nat} (hpos : 0 < size) :
    length ≤ (length + padSize size length) / size ↔ size = 1 ∨ length ≤ 1 := by
  have hlt := padSize_lt hpos length
  obtain ⟨quotient, hquotient⟩ := dvd_add_padSize hpos length
  rw [hquotient, Nat.mul_div_cancel_left _ hpos]
  constructor
  · intro hle
    by_contra hneither
    obtain ⟨hsize, hlength⟩ := not_or.mp hneither
    have hmul : size * length ≤ size * quotient := Nat.mul_le_mul_left size hle
    obtain ⟨size', rfl⟩ := Nat.exists_eq_add_of_le (show 2 ≤ size by omega)
    obtain ⟨length', rfl⟩ := Nat.exists_eq_add_of_le (show 2 ≤ length by omega)
    nlinarith
  · rintro (rfl | hlength)
    · omega
    · cases quotient with
      | zero => omega
      | succ quotient => omega

/-! ## Gathering -/

theorem length_shard {size rank : Nat} (hrank : rank < size) (xs : List α) :
    (shard size xs rank).length = xs.length / size := by
  refine Slices.length_slice ?_
  have hparts : (rank + 1) * (xs.length / size) ≤ size * (xs.length / size) :=
    Nat.mul_le_mul_right _ hrank
  have hall := Nat.mul_div_le xs.length size
  rw [Nat.add_mul, Nat.one_mul] at hparts
  omega

/-- Parts of one size, element by element. -/
theorem flatMap_range_map (count size : Nat) (f : Nat → α) :
    ((List.range count).flatMap fun i => (List.range size).map fun j => f (i * size + j)) =
      (List.range (count * size)).map f := by
  induction count with
  | zero => rw [Nat.zero_mul, List.range_zero, List.flatMap_nil, List.map_nil]
  | succ count ih =>
      rw [List.range_succ, List.flatMap_append, ih, List.flatMap_singleton, Nat.add_mul,
        Nat.one_mul, List.range_add, List.map_append, List.map_map]
      rfl

theorem allGather_shard {size : Nat} {xs : List α} (h : size ∣ xs.length) :
    allGather size (shard size xs) = xs := by
  have hshards := Slices.flatMap_range_slice size (xs.length / size) xs
  rw [Nat.mul_div_cancel' h, Slices.slice_zero_of_length_le (Nat.le_refl _)] at hshards
  exact hshards

/-- What every rank computes from its shard is gathered in the order of the list. -/
theorem allGather_map_shard {size : Nat} {xs : List α} (h : size ∣ xs.length) (f : α → β) :
    allGather size (fun rank => (shard size xs rank).map f) = xs.map f := by
  rw [allGather, ← List.map_flatMap]
  exact congrArg (List.map f) (allGather_shard h)

end Shards
