import Mathlib.Algebra.BigOperators.Intervals
import Mathlib.Data.List.Nodup

/-!
# Tiles and grids

A range is cut into tiles of one size.  The last tile may go beyond the range, and what
is beyond it is masked.  A sum over the tiles is a sum over the range.

A grid is a list of programs that run in any order.  At a place that one program changes,
its owner, the order does not matter (`foldl_owner`).
-/

open Finset

namespace Tiles

/-! ## Tiles -/

/-- How many tiles cover `n` places. -/
def cdiv (n size : Nat) : Nat := (n + size - 1) / size

variable {n size i : Nat}

theorem le_cdiv_mul (hsize : 0 < size) (n : Nat) : n ≤ cdiv n size * size := by
  have hmod := Nat.div_add_mod (n + size - 1) size
  have hlt := Nat.mod_lt (n + size - 1) hsize
  rw [cdiv, Nat.mul_comm]
  omega

/-- The tile of a place. -/
theorem div_lt_cdiv (hsize : 0 < size) (h : i < n) : i / size < cdiv n size := by
  rw [Nat.div_lt_iff_lt_mul hsize]
  exact Nat.lt_of_lt_of_le h (le_cdiv_mul hsize n)

/-- A tile has a place in the range. -/
theorem mul_lt_of_lt_cdiv (hsize : 0 < size) (h : i < cdiv n size) : i * size < n := by
  rw [cdiv, Nat.lt_div_iff_mul_lt hsize] at h
  have hcomm : size * i = i * size := Nat.mul_comm size i
  omega

theorem cdiv_mul_of_dvd (hsize : 0 < size) (h : size ∣ n) : cdiv n size * size = n := by
  obtain ⟨count, rfl⟩ := h
  have hcdiv : cdiv (size * count) size = count := by
    rw [cdiv, Nat.add_sub_assoc hsize, Nat.mul_add_div hsize,
      Nat.div_eq_of_lt (Nat.sub_lt hsize Nat.one_pos), Nat.add_zero]
  rw [hcdiv, Nat.mul_comm]

variable {M : Type*} [AddCommMonoid M]

/-- A sum over all places of all tiles. -/
theorem sum_tiles (count size : Nat) (f : Nat → M) :
    ∑ n ∈ range count, ∑ j ∈ range size, f (n * size + j) = ∑ i ∈ range (count * size), f i := by
  induction count with
  | zero => rw [Nat.zero_mul, range_zero, sum_empty, sum_empty]
  | succ count ih => rw [sum_range_succ, ih, Nat.succ_mul, sum_range_add]

/-- The places beyond the range are masked. -/
theorem sum_tiles_masked (count size : Nat) (h : n ≤ count * size) (f : Nat → M) :
    ∑ k ∈ range count, ∑ j ∈ range size, (if k * size + j < n then f (k * size + j) else 0) =
      ∑ i ∈ range n, f i := by
  rw [sum_tiles count size fun i => if i < n then f i else 0, ← sum_filter]
  congr 1
  ext i
  rw [mem_filter, mem_range, mem_range]
  omega

/-- Tiles that begin at `start` and are masked from `stop` on. -/
theorem sum_tiles_Ico (start count size : Nat) {stop : Nat} (h : stop ≤ start + count * size)
    (f : Nat → M) :
    ∑ k ∈ range count, ∑ j ∈ range size,
        (if start + k * size + j < stop then f (start + k * size + j) else 0) =
      ∑ i ∈ Ico start stop, f i := by
  have hmasked := sum_tiles_masked count size (n := stop - start) (by omega) fun i => f (start + i)
  rw [sum_Ico_eq_sum_range, ← hmasked]
  refine sum_congr rfl fun k _ => sum_congr rfl fun j _ => ?_
  rw [Nat.add_assoc]
  exact if_congr (by omega) rfl rfl

/-- The parts of a range. -/
theorem sum_parts (hsize : 0 < size) (n : Nat) (f : Nat → M) :
    ∑ s ∈ range (cdiv n size), ∑ i ∈ Ico (s * size) (min ((s + 1) * size) n), f i =
      ∑ i ∈ range n, f i := by
  rw [← sum_tiles_masked _ _ (le_cdiv_mul hsize n)]
  refine sum_congr rfl fun s _ => ?_
  have hstop : min ((s + 1) * size) n ≤ s * size + 1 * size := by
    rw [Nat.succ_mul]
    omega
  have hpart := sum_tiles_Ico (s * size) 1 size hstop f
  rw [← hpart, sum_range_one]
  refine sum_congr rfl fun j hj => ?_
  have hj := mem_range.mp hj
  rw [Nat.zero_mul, Nat.add_zero, Nat.succ_mul]
  exact if_congr (by omega) rfl rfl

/-! ## Grids -/

variable {ι σ β : Type*} (step : σ → ι → σ) (read : σ → β)

/-- A place that no program changes. -/
theorem foldl_unowned {programs : List ι}
    (hother : ∀ s, ∀ p ∈ programs, read (step s p) = read s) (s : σ) :
    read (programs.foldl step s) = read s := by
  induction programs generalizing s with
  | nil => rfl
  | cons p programs ih =>
      rw [List.foldl_cons, ih fun s q hq => hother s q (List.mem_cons_of_mem p hq)]
      exact hother s p List.mem_cons_self

/-- A place that one program changes, which runs once. -/
theorem foldl_owner (owner : ι) (f : β → β) (howner : ∀ s, read (step s owner) = f (read s))
    {programs : List ι} (hnodup : programs.Nodup) (hmem : owner ∈ programs)
    (hother : ∀ s, ∀ p ∈ programs, p ≠ owner → read (step s p) = read s) (s : σ) :
    read (programs.foldl step s) = f (read s) := by
  obtain ⟨before, after, rfl⟩ := List.append_of_mem hmem
  obtain ⟨-, hafter, hdisjoint⟩ := List.nodup_append.mp hnodup
  rw [List.foldl_append, List.foldl_cons]
  refine (foldl_unowned step read (fun s p hp => ?_) _).trans
    ((howner _).trans (congrArg f (foldl_unowned step read (fun s p hp => ?_) s)))
  rotate_left
  · exact hother s p (List.mem_append_left _ hp) (hdisjoint p hp owner List.mem_cons_self)
  · refine hother s p (List.mem_append_right _ (List.mem_cons_of_mem owner hp)) ?_
    rintro rfl
    exact (List.nodup_cons.mp hafter).1 hp

/-- Every program writes the places of one tile. -/
theorem foldl_blocks {size n : Nat} (hsize : 0 < size) (value : Nat → β) {programs : List Nat}
    (hprograms : programs.Perm (List.range (cdiv n size))) {i : Nat} (h : i < n) (out : Nat → β) :
    programs.foldl (fun out pid i => if i / size = pid ∧ i < n then value i else out i) out i =
      value i := by
  refine foldl_owner _ (fun out => out i) (i / size) (fun _ => value i) (fun out => ?_)
    (hprograms.nodup_iff.mpr List.nodup_range)
    (hprograms.mem_iff.mpr (List.mem_range.mpr (div_lt_cdiv hsize h)))
    (fun out pid _ hne => ?_) out
  · exact if_pos ⟨rfl, h⟩
  · exact if_neg fun howner => hne howner.1.symm

/-- A place that two events write: the later one counts. -/
theorem foldl_last {first : ι} (last : ι) {value : β} (hlast : ∀ s, read (step s last) = value)
    {events : List ι} (hnodup : events.Nodup) (horder : List.Sublist [first, last] events)
    (hother : ∀ s, ∀ e ∈ events, e ≠ first → e ≠ last → read (step s e) = read s) (s : σ) :
    read (events.foldl step s) = value := by
  obtain ⟨before, after, rfl, hfirst, hmem⟩ := List.cons_sublist_iff.mp horder
  obtain ⟨-, hafter, hdisjoint⟩ := List.nodup_append.mp hnodup
  rw [List.foldl_append]
  refine foldl_owner step read last (fun _ => value) hlast hafter
    (List.singleton_sublist.mp hmem) (fun s e he hne => ?_) _
  have hfirst : e ≠ first := fun heq => hdisjoint first hfirst e he heq.symm
  exact hother s e (List.mem_append_right _ he) hfirst hne

/-- Atomic adds: their order does not matter. -/
theorem foldl_add [DecidableEq ι] (read : σ → M) (add : ι → M)
    (hstep : ∀ s e, read (step s e) = read s + add e) {events : List ι} (hnodup : events.Nodup)
    (s : σ) : read (events.foldl step s) = read s + ∑ e ∈ events.toFinset, add e := by
  rw [List.sum_toFinset add hnodup]
  clear hnodup
  induction events generalizing s with
  | nil => rw [List.foldl_nil, List.map_nil, List.sum_nil, add_zero]
  | cons e events ih => rw [List.foldl_cons, ih, hstep, List.map_cons, List.sum_cons, add_assoc]

/-- Of two events one comes first. -/
theorem pair_sublist {a b : ι} {events : List ι} (ha : a ∈ events) (hb : b ∈ events)
    (hne : a ≠ b) : List.Sublist [a, b] events ∨ List.Sublist [b, a] events := by
  obtain ⟨before, after, rfl⟩ := List.append_of_mem ha
  rcases List.mem_append.mp hb with hb | hb
  · exact .inr ((List.singleton_sublist.mpr hb).append
      (List.singleton_sublist.mpr List.mem_cons_self))
  · have hb := (List.mem_cons.mp hb).resolve_left (Ne.symm hne)
    exact .inl ((List.cons_sublist_cons.mpr (List.singleton_sublist.mpr hb)).trans
      (List.sublist_append_right _ _))

end Tiles
