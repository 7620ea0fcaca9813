import Mathlib.Logic.Function.Basic
import Mathlib.Tactic.Ring

/-!
# Tensors of any number of dimensions

A tensor is its sizes and its entries; an index gives a coordinate to every
dimension.  Entries outside of the bounds mean nothing, so two tensors are the
same when their sizes and their entries within the bounds are.

`narrow` takes a part along a dimension and `append` puts two tensors one after the
other.  `catRange` concatenates a family of tensors.  Where these have one size,
`entry_catRange` says which of them an entry comes from.
-/

/-- A tensor: the size of each dimension, and the entry at each index. -/
structure NdTensor (α : Type*) where
  ndim : Nat
  size : Nat → Nat
  entry : (Nat → Nat) → α

namespace NdTensor

open Function (update)

variable {α : Type*}

/-- Indices within the bounds. -/
def InBounds (x : NdTensor α) (idx : Nat → Nat) : Prop := ∀ dim < x.ndim, idx dim < x.size dim

/-- The same sizes and the same entries. -/
structure Same (x y : NdTensor α) : Prop where
  ndim : x.ndim = y.ndim
  size : x.size = y.size
  entry : ∀ idx, x.InBounds idx → x.entry idx = y.entry idx

/-! ## Operations -/

/-- The entries from `start` on, `length` of them, along a dimension. -/
def narrow (x : NdTensor α) (dim start length : Nat) : NdTensor α where
  ndim := x.ndim
  size := update x.size dim length
  entry := fun idx => x.entry (update idx dim (start + idx dim))

/-- One tensor after the other along a dimension. -/
def append (dim : Nat) (x y : NdTensor α) : NdTensor α where
  ndim := x.ndim
  size := update x.size dim (x.size dim + y.size dim)
  entry := fun idx =>
    if idx dim < x.size dim then x.entry idx else y.entry (update idx dim (idx dim - x.size dim))

/-- The tensors `part 0`, …, `part last` one after the other. -/
def catRange (dim : Nat) (part : Nat → NdTensor α) : Nat → NdTensor α
  | 0 => part 0
  | last + 1 => append dim (catRange dim part last) (part (last + 1))

/-- One value at all indices. -/
def full (ndim : Nat) (size : Nat → Nat) (value : α) : NdTensor α where
  ndim := ndim
  size := size
  entry := fun _ => value

/-- `x[start:stop]` along a dimension. -/
def slice (x : NdTensor α) (dim start stop : Nat) : NdTensor α :=
  x.narrow dim (min start (x.size dim)) (min stop (x.size dim) - min start (x.size dim))

/-- `torch.tensor_split(x, sections, dim)[i]`.  The first sections are one longer
when the size is no multiple of their number. -/
def tensorSplit (x : NdTensor α) (sections dim i : Nat) : NdTensor α :=
  x.narrow dim (i * (x.size dim / sections) + min i (x.size dim % sections))
    (x.size dim / sections + if i < x.size dim % sections then 1 else 0)

/-! ## Concatenation -/

section Cat

variable {dim count : Nat} {part : Nat → NdTensor α} {sizes : Nat → Nat}

@[simp] theorem size_narrow (x : NdTensor α) (dim start length : Nat) :
    (x.narrow dim start length).size = update x.size dim length := rfl

@[simp] theorem ndim_catRange (last : Nat) : (catRange dim part last).ndim = (part 0).ndim := by
  induction last with
  | zero => rfl
  | succ last ih => exact ih

theorem size_catRange (last : Nat) (h : ∀ i ≤ last, (part i).size = sizes) :
    (catRange dim part last).size = update sizes dim ((last + 1) * sizes dim) := by
  induction last with
  | zero => rw [catRange, h 0 (Nat.le_refl 0), Nat.zero_add, Nat.one_mul, Function.update_eq_self]
  | succ last ih =>
      have hprev := ih fun i hi => h i (Nat.le_succ_of_le hi)
      rw [catRange, append]
      change update _ dim _ = _
      rw [hprev, h (last + 1) (Nat.le_refl _), Function.update_idem, Function.update_self,
        Nat.succ_mul (last + 1)]

/-- An entry of the concatenation of tensors of one size. -/
theorem entry_catRange (last : Nat) (h : ∀ i ≤ last, (part i).size = sizes) {idx : Nat → Nat}
    (hidx : idx dim < (last + 1) * sizes dim) :
    (catRange dim part last).entry idx =
      (part (idx dim / sizes dim)).entry (update idx dim (idx dim % sizes dim)) := by
  induction last with
  | zero =>
      rw [Nat.zero_add, Nat.one_mul] at hidx
      rw [catRange, Nat.div_eq_of_lt hidx, Nat.mod_eq_of_lt hidx, Function.update_eq_self]
  | succ last ih =>
      have hprev : ∀ i ≤ last, (part i).size = sizes := fun i hi => h i (Nat.le_succ_of_le hi)
      have hsize : (catRange dim part last).size dim = (last + 1) * sizes dim := by
        rw [size_catRange last hprev, Function.update_self]
      rw [catRange, append]
      change (if idx dim < (catRange dim part last).size dim then _ else _) = _
      rw [hsize]
      split
      next hlt => exact ih hprev hlt
      next hge =>
        -- the last part
        rw [Nat.succ_mul (last + 1)] at hidx
        have hdiv : idx dim / sizes dim = last + 1 := by
          refine Nat.div_eq_of_lt_le (Nat.le_of_not_lt hge) ?_
          rw [Nat.succ_mul (last + 1)]
          exact hidx
        have hmod : idx dim % sizes dim = idx dim - (last + 1) * sizes dim := by
          have hdecomp := Nat.div_add_mod (idx dim) (sizes dim)
          rw [hdiv, Nat.mul_comm] at hdecomp
          omega
        rw [hdiv, hmod]

end Cat

/-! ## Parts -/

theorem slice_of_le {x : NdTensor α} {dim start stop : Nat} (hstart : start ≤ stop)
    (hstop : stop ≤ x.size dim) : x.slice dim start stop = x.narrow dim start (stop - start) := by
  rw [slice, Nat.min_eq_left (hstart.trans hstop), Nat.min_eq_left hstop]

/-- A section of a size that the number of sections divides. -/
theorem tensorSplit_of_dvd {x : NdTensor α} {sections dim : Nat} (h : sections ∣ x.size dim)
    (i : Nat) : x.tensorSplit sections dim i =
      x.narrow dim (i * (x.size dim / sections)) (x.size dim / sections) := by
  rw [tensorSplit, Nat.mod_eq_zero_of_dvd h, Nat.min_zero, Nat.add_zero,
    if_neg (Nat.not_lt_zero i), Nat.add_zero]

/-- The tensors of the ranks of a group, all of one shape. -/
def Uniform (count ndim : Nat) (sizes : Nat → Nat) (x : Nat → NdTensor α) : Prop :=
  ∀ rank < count, (x rank).ndim = ndim ∧ (x rank).size = sizes

end NdTensor
