import Mathlib.Data.Set.Lattice
import Mathlib.Data.Set.Piecewise

/-!
# Overwriting towards a target

`overlay w s m` is `m` with the cells in `s` overwritten from the target `w`.
Overwrites from one target commute, repeat without effect and add up to an
overwrite of the union.  So an incremental update ends at its target if and only
if what it covers includes every cell in which the old content differs, however
the update was cut into pieces and in whatever order the pieces arrive.
-/

namespace Overlay

open scoped Classical in
/-- `m` with the cells in `s` taken from `w`. -/
noncomputable def overlay {ι : Type*} {β : ι → Type*} (w : ∀ i, β i) (s : Set ι) (m : ∀ i, β i) :
    ∀ i, β i :=
  s.piecewise w m

variable {ι : Type*} {β : ι → Type*} {w m : ∀ i, β i} {s t : Set ι} {i : ι}

theorem overlay_of_mem (h : i ∈ s) : overlay w s m i = w i := by
  classical exact Set.piecewise_eq_of_mem s w m h

theorem overlay_of_notMem (h : i ∉ s) : overlay w s m i = m i := by
  classical exact Set.piecewise_eq_of_notMem s w m h

theorem overlay_empty : overlay w ∅ m = m :=
  funext fun i => overlay_of_notMem (Set.notMem_empty i)

/-- Two overwrites are the overwrite of the union. -/
theorem overlay_overlay : overlay w t (overlay w s m) = overlay w (s ∪ t) m := by
  funext i
  by_cases ht : i ∈ t
  · rw [overlay_of_mem ht, overlay_of_mem (Set.mem_union_right s ht)]
  · rw [overlay_of_notMem ht]
    by_cases hs : i ∈ s
    · rw [overlay_of_mem hs, overlay_of_mem (Set.mem_union_left t hs)]
    · rw [overlay_of_notMem hs, overlay_of_notMem fun h => h.elim hs ht]

/-- A sequence of overwrites is the overwrite of all that they cover. -/
theorem foldl_overlay {α : Type*} (cover : α → Set ι) (xs : List α) :
    xs.foldl (fun m x => overlay w (cover x) m) m = overlay w (⋃ x ∈ xs, cover x) m := by
  induction xs generalizing m with
  | nil => simp only [List.foldl_nil, List.not_mem_nil, Set.iUnion_of_empty, Set.iUnion_empty,
      overlay_empty]
  | cons x xs ih =>
      rw [List.foldl_cons, ih, overlay_overlay]
      congr 1
      ext i
      simp only [Set.mem_union, Set.mem_iUnion, List.mem_cons, exists_prop, exists_eq_or_imp]

/-- A cell has the target's content if and only if it was covered or had it before. -/
theorem overlay_eq_target_iff : overlay w s m i = w i ↔ (m i ≠ w i → i ∈ s) := by
  constructor
  · intro h hne
    by_contra hs
    rw [overlay_of_notMem hs] at h
    exact hne h
  · intro h
    by_cases hs : i ∈ s
    · exact overlay_of_mem hs
    · rw [overlay_of_notMem hs]
      by_contra hne
      exact hs (h hne)

end Overlay
