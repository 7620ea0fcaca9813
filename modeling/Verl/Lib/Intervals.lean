import Mathlib.Data.List.Nodup
import Mathlib.Data.List.Range

/-!
# Intervals of integers

`interval start count` lists the integers of `[start, start + count)`.  Intervals that
begin where the one before ends are one interval (`flatMap_interval`), and an empty one may
begin anywhere.  An integer in two intervals of a list is twice in their concatenation
(`not_nodup_flatMap`).
-/

namespace Interval

/-- The integers of `[start, start + count)`, none when `count` is negative. -/
def interval (start count : Int) : List Int :=
  (List.range count.toNat).map fun i : Nat => start + i

theorem length_interval (start count : Int) : (interval start count).length = count.toNat := by
  rw [interval, List.length_map, List.length_range]

theorem eq_of_interval_eq {start count count' : Int} (h : 0 ≤ count) (h' : 0 ≤ count')
    (heq : interval start count = interval start count') : count = count' := by
  have hlength := congrArg List.length heq
  rw [length_interval, length_interval] at hlength
  omega

theorem mem_interval {start count x : Int} :
    x ∈ interval start count ↔ start ≤ x ∧ x < start + count := by
  rw [interval, List.mem_map]
  constructor
  · rintro ⟨i, hi, rfl⟩
    rw [List.mem_range] at hi
    omega
  · rintro ⟨hle, hlt⟩
    refine ⟨(x - start).toNat, ?_, ?_⟩
    · rw [List.mem_range]
      omega
    · omega

theorem interval_of_nonpos {count : Int} (h : count ≤ 0) (start : Int) :
    interval start count = [] := by
  rw [interval, Int.toNat_of_nonpos h]
  rfl

theorem interval_append {start count count' : Int} (h : 0 ≤ count) (h' : 0 ≤ count') :
    interval start count ++ interval (start + count) count' = interval start (count + count') := by
  rw [interval, interval, interval, Int.toNat_add h h', List.range_add, List.map_append,
    List.map_map]
  congr 1
  refine List.map_congr_left fun i _ => ?_
  rw [Function.comp_apply]
  omega

theorem nodup_interval (start count : Int) : (interval start count).Nodup := by
  refine List.Nodup.map (fun i j h => ?_) List.nodup_range
  omega

/-- The intervals between the bounds `0`, `1`, ... are one interval.  Where two bounds are
the same the interval between them may be given with another start. -/
theorem flatMap_interval {bound start count : Nat → Int} {n : Nat}
    (h : ∀ i < n, count i = bound (i + 1) - bound i ∧ 0 ≤ count i ∧
      (count i = 0 ∨ start i = bound i)) :
    ((List.range n).flatMap fun i => interval (start i) (count i)) =
        interval (bound 0) (bound n - bound 0) ∧ bound 0 ≤ bound n := by
  induction n with
  | zero =>
      rw [Int.sub_self, interval_of_nonpos (Int.le_refl 0)]
      exact ⟨rfl, Int.le_refl _⟩
  | succ n ih =>
      obtain ⟨hbefore, hle⟩ := ih fun i hi => h i (Nat.lt_succ_of_lt hi)
      obtain ⟨hcount, hnonneg, hstart⟩ := h n (Nat.lt_succ_self n)
      have hlast : interval (start n) (count n) =
          interval (bound 0 + (bound n - bound 0)) (count n) := by
        rcases hstart with hzero | hstart
        · rw [hzero, interval_of_nonpos (Int.le_refl 0), interval_of_nonpos (Int.le_refl 0)]
        · rw [hstart]
          congr 1
          omega
      rw [List.range_succ, List.flatMap_append, List.flatMap_singleton, hbefore, hlast,
        interval_append (by omega) hnonneg]
      exact ⟨congrArg _ (by omega), by omega⟩

/-- Parts of at least one length. -/
theorem le_length_flatMap_range {β : Type} {n size : Nat} {f : Nat → List β}
    (h : ∀ i < n, size ≤ (f i).length) : n * size ≤ ((List.range n).flatMap f).length := by
  induction n with
  | zero => rw [Nat.zero_mul]; exact Nat.zero_le _
  | succ n ih =>
      have hbefore := ih fun i hi => h i (Nat.lt_succ_of_lt hi)
      have hlast := h n (Nat.lt_succ_self n)
      rw [List.range_succ, List.flatMap_append, List.flatMap_singleton, List.length_append,
        Nat.add_mul, Nat.one_mul]
      exact Nat.add_le_add hbefore hlast

/-- The first and the last of at least two parts. -/
theorem add_le_length_flatMap_range {β : Type} {n : Nat} (f : Nat → List β) :
    (f 0).length + (f (n + 1)).length ≤ ((List.range (n + 2)).flatMap f).length := by
  rw [List.range_succ, List.flatMap_append, List.flatMap_singleton, List.length_append,
    List.range_succ_eq_map, List.flatMap_cons, List.length_append]
  omega

/-- An element of two parts. -/
theorem not_nodup_flatMap {α β : Type} {xs : List α} {f : α → List β} {i j : Nat}
    {x x' : α} {y : β} (hij : i < j) (hx : xs[i]? = some x) (hx' : xs[j]? = some x')
    (hy : y ∈ f x) (hy' : y ∈ f x') : ¬ (xs.flatMap f).Nodup := by
  intro hnodup
  have hpairwise := (List.nodup_flatMap.mp hnodup).2
  obtain ⟨hi, rfl⟩ := List.getElem?_eq_some_iff.mp hx
  obtain ⟨hj, rfl⟩ := List.getElem?_eq_some_iff.mp hx'
  exact List.pairwise_iff_getElem.mp hpairwise i j hi hj hij hy hy'

end Interval
