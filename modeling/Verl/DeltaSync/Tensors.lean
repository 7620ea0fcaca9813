import Verl.Lib.Bytes
import Verl.Lib.Python

/-!
# Tensors of the delta engine

`Torch` collects what the engine and the loader use of torch: the dtypes, the
bit patterns of a dtype and how they lie in memory, conversion between dtypes,
and the result dtype of `torch.cat`.  `Torch.Lawful` is what the code relies on.
It speaks of the floating dtypes that one list of parameters may mix.

*Conversions.*  A value travels through several concatenations, and each may
convert it to a wider dtype.  `Holds t d xs` says that converting `t` is
converting the values `xs` of dtype `d`, so nothing was lost on the way.  It is
kept by concatenation and by slicing, and at the end `Holds.cast_self` reads the
values back.
-/

namespace Verl.DeltaSync

open Bytes (Codec)
open Slices (slice)

/-! ## Torch -/

/-- A value of `Val d` is a bit pattern of dtype `d`. -/
structure Torch where
  DType : Type
  Val : DType → Type
  /-- How a value lies in memory. -/
  codec : (d : DType) → Codec (Val d)
  isFloatingPoint : DType → Bool
  zero : (d : DType) → Val d
  nan : (d : DType) → Val d
  isnan : (d : DType) → Val d → Bool
  /-- What `torch.empty` leaves at a position. -/
  uninit : (d : DType) → Nat → Val d
  /-- `Tensor.to(dtype)`. -/
  cast : (d e : DType) → Val d → Val e
  /-- The dtype of `torch.cat`. -/
  catDType : List DType → DType
  /-- `torch.hash_tensor`, of values and of bytes. -/
  hashTensor : (d : DType) → List (Val d) → Nat
  hashBytes : List UInt8 → Nat

namespace Torch

variable (T : Torch)

def elementSize (d : T.DType) : Nat := (T.codec d).width

/-- Every value of `d` that is not NaN is a value of `e`: converting it to `e`
first makes no difference. -/
structure Widens (d e : T.DType) : Prop where
  isnan : ∀ v, T.isnan d v = false → T.isnan e (T.cast d e v) = false
  cast : ∀ v c, T.isnan d v = false → T.isFloatingPoint c = true →
    T.cast e c (T.cast d e v) = T.cast d c v

/-- What the code relies on. -/
structure Lawful : Prop where
  codec_exact : ∀ d, (T.codec d).Exact fun _ => True
  elementSize_mem : ∀ d, T.isFloatingPoint d = true → T.elementSize d ∈ [1, 2, 4, 8]
  isnan_nan : ∀ d, T.isFloatingPoint d = true → T.isnan d (T.nan d) = true
  cast_self : ∀ d v, T.cast d d v = v
  /-- Type promotion among the floating dtypes. -/
  cat_floating : ∀ ds, ds ≠ [] → (∀ d ∈ ds, T.isFloatingPoint d = true) →
    T.isFloatingPoint (T.catDType ds) = true
  cat_widens : ∀ ds, (∀ d ∈ ds, T.isFloatingPoint d = true) → ∀ d ∈ ds,
    T.Widens d (T.catDType ds)

end Torch

variable {T : Torch}

/-! ## Tensors -/

/-- A tensor of one dimension. -/
structure Flat (T : Torch) where
  dtype : T.DType
  data : List (T.Val dtype)

/-- `_prodshape`, and `math.prod` of a shape. -/
def prodshape (shape : List Nat) : Nat := shape.foldl (· * ·) 1

/-- A contiguous tensor. -/
structure Tensor (T : Torch) where
  shape : List Nat
  flat : Flat T

namespace Flat

def numel (t : Flat T) : Nat := t.data.length

def elementSize (t : Flat T) : Nat := T.elementSize t.dtype

def nbytes (t : Flat T) : Nat := t.numel * t.elementSize

def cast (t : Flat T) (d : T.DType) : Flat T := ⟨d, t.data.map (T.cast t.dtype d)⟩

/-- `torch.cat`. -/
def cat (ts : List (Flat T)) : Flat T where
  dtype := T.catDType (ts.map dtype)
  data := ts.flatMap fun t => t.data.map (T.cast t.dtype (T.catDType (ts.map dtype)))

/-- `t[start : start + size]`. -/
def slice (t : Flat T) (start size : Nat) : Flat T := ⟨t.dtype, Slices.slice t.data start size⟩

/-- `torch.empty(0, dtype)`. -/
def empty (d : T.DType) : Flat T := ⟨d, []⟩

/-- `torch.zeros(size)` with `t` written to its start. -/
def pad (t : Flat T) (size : Nat) : Flat T :=
  ⟨t.dtype, Slices.write (List.replicate size (T.zero t.dtype)) 0 t.data⟩

/-- `t.view(torch.uint8)`. -/
def bytes (t : Flat T) : List UInt8 := (T.codec t.dtype).pack t.data

/-- `t.view(shape)`. -/
def view (t : Flat T) (shape : List Nat) : Except Py.Error (Tensor T) :=
  if prodshape shape = t.numel then .ok ⟨shape, t⟩
  else .error (.runtime "shape is invalid for input of another size")

theorem slice_cat (pre : List (Flat T)) (t : Flat T) (post : List (Flat T)) :
    (cat (pre ++ t :: post)).slice (pre.map numel).sum t.numel =
      t.cast (T.catDType ((pre ++ t :: post).map dtype)) := by
  have hlength : (pre.flatMap fun u => u.data.map (T.cast u.dtype
      (T.catDType ((pre ++ t :: post).map dtype)))).length = (pre.map numel).sum := by
    simp only [List.length_flatMap, List.length_map]
    rfl
  simp only [slice, cat, cast, List.flatMap_append, List.flatMap_cons]
  exact congrArg (mk _) (Slices.slice_append_middle hlength (List.length_map ..))

end Flat

namespace Torch.Lawful

variable {α : Type} {as : List α} {f : α → Flat T}

/-- `torch.cat` stays among the floating dtypes. -/
theorem floating_cat (hT : T.Lawful) (hne : as ≠ [])
    (h : ∀ a ∈ as, T.isFloatingPoint (f a).dtype = true) :
    T.isFloatingPoint (Flat.cat (as.map f)).dtype = true := by
  refine hT.cat_floating _ (fun hnil => ?_) ?_
  · exact hne (List.map_eq_nil_iff.mp (List.map_eq_nil_iff.mp hnil))
  · rw [List.forall_mem_map, List.forall_mem_map]
    exact h

theorem widens_cat (hT : T.Lawful) (h : ∀ a ∈ as, T.isFloatingPoint (f a).dtype = true) {a : α}
    (ha : a ∈ as) : T.Widens (f a).dtype (Flat.cat (as.map f)).dtype := by
  refine hT.cat_widens _ ?_ _ (List.mem_map_of_mem (List.mem_map_of_mem ha))
  rw [List.forall_mem_map, List.forall_mem_map]
  exact h

end Torch.Lawful

/-- `checksum` of a flush. -/
def checksum (positions : List UInt8) (values : Flat T) : Nat :=
  let p := if positions.length = 0 then 0 else T.hashBytes positions
  let v := if values.numel = 0 then 0 else T.hashTensor values.dtype values.data
  p ^^^ (v <<< 1)

/-! ## Values kept through conversions -/

/-- `t` holds exactly the values `xs` of dtype `d`. -/
structure Holds (t : Flat T) (d : T.DType) (xs : List (T.Val d)) : Prop where
  floating : T.isFloatingPoint t.dtype = true
  isnan : ∀ v ∈ t.data, T.isnan t.dtype v = false
  cast : ∀ e, T.isFloatingPoint e = true → (t.cast e).data = xs.map (T.cast d e)

namespace Holds

variable {t : Flat T} {d : T.DType} {xs : List (T.Val d)}

theorem refl (hd : T.isFloatingPoint d = true) (hxs : ∀ v ∈ xs, T.isnan d v = false) :
    Holds ⟨d, xs⟩ d xs := ⟨hd, hxs, fun _ _ => rfl⟩

theorem numel_eq (h : Holds t d xs) : t.numel = xs.length := by
  have hcast := congrArg List.length (h.cast t.dtype h.floating)
  simp only [Flat.cast, List.length_map] at hcast
  exact hcast

/-- The values are read back. -/
theorem cast_self (hT : T.Lawful) (h : Holds t d xs) (hd : T.isFloatingPoint d = true) :
    (t.cast d).data = xs := by
  rw [h.cast d hd]
  exact (List.map_congr_left fun v _ => hT.cast_self d v).trans (List.map_id' xs)

theorem slice (h : Holds t d xs) (start size : Nat) :
    Holds (t.slice start size) d (Slices.slice xs start size) where
  floating := h.floating
  isnan v hv := h.isnan v (List.mem_of_mem_drop (List.mem_of_mem_take hv))
  cast e he := by
    have hcast := h.cast e he
    simp only [Flat.cast] at hcast
    simp only [Flat.cast, Flat.slice, Slices.slice, List.map_take, List.map_drop, hcast]

theorem empty (hd : T.isFloatingPoint t.dtype = true) (hdata : t.data = []) :
    Holds t d [] where
  floating := hd
  isnan v hv := by
    rw [hdata] at hv
    cases hv
  cast e _ := by simp only [Flat.cast, hdata, List.map_nil]

/-- A conversion to a wider dtype. -/
theorem widen {e : T.DType} (h : Holds t d xs) (he : T.isFloatingPoint e = true)
    (hwidens : T.Widens t.dtype e) : Holds (t.cast e) d xs where
  floating := he
  isnan v hv := by
    obtain ⟨u, hu, rfl⟩ := List.mem_map.mp hv
    exact hwidens.isnan u (h.isnan u hu)
  cast c hc := by
    rw [← h.cast c hc]
    simp only [Flat.cast, List.map_map]
    exact List.map_congr_left fun v hv => hwidens.cast v c (h.isnan v hv) hc

/-- The conversion that `torch.cat` makes of one of its tensors. -/
theorem cast_cat (hT : T.Lawful) {α : Type} {as : List α} {f : α → Flat T} {a : α}
    (h : Holds (f a) d xs) (hfloating : ∀ a ∈ as, T.isFloatingPoint (f a).dtype = true)
    (ha : a ∈ as) : Holds ((f a).cast (Flat.cat (as.map f)).dtype) d xs :=
  h.widen (hT.floating_cat (List.ne_nil_of_mem ha) hfloating) (hT.widens_cat hfloating ha)

/-- Pieces of one dtype, put together. -/
theorem flatMap {α : Type} {e : T.DType} {as : List α} {f : α → List (T.Val e)}
    {g : α → List (T.Val d)} (he : T.isFloatingPoint e = true)
    (h : ∀ a ∈ as, Holds ⟨e, f a⟩ d (g a)) : Holds ⟨e, as.flatMap f⟩ d (as.flatMap g) where
  floating := he
  isnan v hv := by
    obtain ⟨a, ha, hva⟩ := List.mem_flatMap.mp hv
    exact (h a ha).isnan v hva
  cast c hc := by
    simp only [Flat.cast, List.map_flatMap]
    rw [List.flatMap_def, List.flatMap_def]
    congr 1
    exact List.map_congr_left fun a ha => (h a ha).cast c hc

/-- `torch.cat` of tensors that hold values of one dtype. -/
theorem cat (hT : T.Lawful) {α : Type} {as : List α} {f : α → Flat T} {g : α → List (T.Val d)}
    (hne : as ≠ []) (h : ∀ a ∈ as, Holds (f a) d (g a)) :
    Holds (.cat (as.map f)) d (as.flatMap g) := by
  have hfloating : ∀ a ∈ as, T.isFloatingPoint (f a).dtype = true := fun a ha => (h a ha).floating
  rw [Flat.cat, List.flatMap_map]
  exact flatMap (hT.floating_cat hne hfloating) fun a ha => (h a ha).cast_cat hT hfloating ha

end Holds

end Verl.DeltaSync
