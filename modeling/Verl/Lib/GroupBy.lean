import Mathlib.Data.List.Induction
import Verl.Lib.Dict

/-!
# Grouping

The loop that appends each value to the list of its key in a `defaultdict(list)`.
-/

namespace Py

variable {K V W : Type} [DecidableEq K]

/-- `for k, v in xs: d[k].append(v)`. -/
def groupBy (xs : List (K × V)) : Dict K (List V) :=
  xs.foldl (fun d x => d.set x.1 ((d.get? x.1).getD [] ++ [x.2])) Dict.empty

/-- The values of a key. -/
def valuesOf (k : K) (xs : List (K × V)) : List V := (xs.filter fun x => x.1 = k).map Prod.snd

theorem valuesOf_append (k : K) (xs ys : List (K × V)) :
    valuesOf k (xs ++ ys) = valuesOf k xs ++ valuesOf k ys := by
  rw [valuesOf, List.filter_append, List.map_append]
  rfl

theorem valuesOf_singleton (k : K) (x : K × V) :
    valuesOf k [x] = if x.1 = k then [x.2] else [] := by
  rw [valuesOf, List.filter_singleton]
  by_cases h : x.1 = k
  · rw [if_pos h, decide_eq_true h]
    rfl
  · rw [if_neg h, decide_eq_false h]
    rfl

theorem valuesOf_eq_nil {k : K} {xs : List (K × V)} (h : k ∉ xs.map Prod.fst) :
    valuesOf k xs = [] := by
  rw [valuesOf, List.map_eq_nil_iff, List.filter_eq_nil_iff]
  intro x hx hk
  rw [decide_eq_true_eq] at hk
  rw [← hk] at h
  exact h (List.mem_map_of_mem hx)

theorem valuesOf_eq_map {k : K} {xs : List (K × V)} (h : ∀ x ∈ xs, x.1 = k) :
    valuesOf k xs = xs.map Prod.snd := by
  rw [valuesOf, List.filter_eq_self.mpr fun x hx => decide_eq_true (h x hx)]

theorem mem_valuesOf {k : K} {v : V} {xs : List (K × V)} (h : (k, v) ∈ xs) : v ∈ valuesOf k xs :=
  List.mem_map.mpr ⟨(k, v), List.mem_filter.mpr ⟨h, decide_eq_true rfl⟩, rfl⟩

/-- The values of a key, where keys and values are functions of an element. -/
theorem valuesOf_map {ι : Type} (k : K) (f : ι → K) (g : ι → V) (xs : List ι) :
    valuesOf k (xs.map fun x => (f x, g x)) = (xs.filter fun x => f x = k).map g := by
  rw [valuesOf, List.filter_map, List.map_map]
  rfl

theorem groupBy_append (xs ys : List (K × V)) :
    groupBy (xs ++ ys) =
      ys.foldl (fun d x => d.set x.1 ((d.get? x.1).getD [] ++ [x.2])) (groupBy xs) :=
  List.foldl_append

theorem groupBy_concat (xs : List (K × V)) (x : K × V) :
    groupBy (xs ++ [x]) =
      (groupBy xs).set x.1 (((groupBy xs).get? x.1).getD [] ++ [x.2]) := groupBy_append xs [x]

/-- A key of the groups has its values in order. -/
theorem get?_groupBy (xs : List (K × V)) (k : K) :
    (groupBy xs).get? k = if k ∈ xs.map Prod.fst then some (valuesOf k xs) else none := by
  induction xs using List.reverseRecOn with
  | nil => rfl
  | append_singleton xs x ih =>
      rw [groupBy_concat, Dict.get?_set, valuesOf_append, valuesOf_singleton]
      simp only [List.map_append, List.mem_append, List.map_singleton, List.mem_singleton]
      by_cases hk : k = x.1
      · subst hk
        rw [if_pos rfl, if_pos rfl, if_pos (.inr rfl), ih]
        by_cases hold : x.1 ∈ xs.map Prod.fst
        · rw [if_pos hold, Option.getD_some]
        · rw [if_neg hold, Option.getD_none, valuesOf_eq_nil hold]
      · rw [if_neg hk, if_neg (Ne.symm hk), List.append_nil, ih]
        simp only [hk, or_false]

theorem getD_get?_groupBy (xs : List (K × V)) (k : K) :
    ((groupBy xs).get? k).getD [] = valuesOf k xs := by
  rw [get?_groupBy]
  split
  · rfl
  next h => rw [Option.getD_none, valuesOf_eq_nil h]

theorem setEntries_last {es : List (K × V)} {k : K} (h : k ∉ es.map Prod.fst) (v v' : V) :
    Dict.setEntries k v' (es ++ [(k, v)]) = es ++ [(k, v')] := by
  induction es with
  | nil => exact if_pos rfl
  | cons e es ih =>
      rw [List.map_cons, List.mem_cons, not_or] at h
      rw [List.cons_append, Dict.setEntries, if_neg (Ne.symm h.1), ih h.2, List.cons_append]

/-- Values of a new key are a last group. -/
theorem entries_groupBy_append {xs : List (K × V)} {k : K} {vs : List V}
    (hnew : k ∉ xs.map Prod.fst) (hne : vs ≠ []) :
    (groupBy (xs ++ vs.map fun v => (k, v))).entries = (groupBy xs).entries ++ [(k, vs)] := by
  have hkeys : k ∉ (groupBy xs).keys := by
    rw [← Dict.get?_eq_none_iff, get?_groupBy, if_neg hnew]
  induction vs using List.reverseRecOn with
  | nil => exact (hne rfl).elim
  | append_singleton vs v ih =>
      rw [List.map_append, List.map_singleton, ← List.append_assoc, groupBy_concat]
      cases vs with
      | nil =>
          rw [List.map_nil, List.append_nil, Dict.entries_set_of_not_mem hkeys,
            Dict.get?_eq_none_iff.mpr hkeys]
          rfl
      | cons v' vs =>
          have hprev := ih (List.cons_ne_nil v' vs)
          rw [getD_get?_groupBy, valuesOf_append, valuesOf_eq_nil hnew, List.nil_append,
            valuesOf_eq_map (by
              intro x hx
              obtain ⟨v, _, rfl⟩ := List.mem_map.mp hx
              rfl)]
          have hsnd : ((v' :: vs).map fun v : V => (k, v)).map Prod.snd = v' :: vs := by
            rw [List.map_map, Function.comp_def, List.map_id']
          rw [Dict.entries_set, hprev, setEntries_last hkeys, hsnd]

/-- Every group has a value. -/
theorem ne_nil_of_mem_groupBy {xs : List (K × V)} {k : K} {vs : List V}
    (h : (k, vs) ∈ (groupBy xs).entries) : vs ≠ [] := by
  have hget := Dict.mem_entries_iff.mp h
  rw [get?_groupBy] at hget
  split at hget
  next hmem =>
    obtain rfl := Option.some.inj hget
    obtain ⟨x, hx, rfl⟩ := List.mem_map.mp hmem
    exact List.ne_nil_of_mem (mem_valuesOf hx)
  · cases hget

/-- A loop over the groups whose body changes only what its group holds: what it does at
an element of one group is done by that group. -/
theorem foldl_groupBy {T : Type} {xs : List (K × V)} {step : (V → T) → List V → V → T}
    (hframe : ∀ b vs v, v ∉ vs → step b vs v = b v) {k : K} {v : V} (hmem : (k, v) ∈ xs)
    (honly : ∀ k', (k', v) ∈ xs → k' = k) (init : V → T) :
    ∃ b, b v = init v ∧
      (groupBy xs).entries.foldl (fun b e => step b e.2) init v = step b (valuesOf k xs) v := by
  have hvalues : ∀ e ∈ (groupBy xs).entries, e.2 = valuesOf e.1 xs := by
    intro e he
    have hget := Dict.mem_entries_iff.mp he
    rw [get?_groupBy] at hget
    split at hget
    · exact (Option.some.inj hget).symm
    · cases hget
  have hother : ∀ e ∈ (groupBy xs).entries, e.1 ≠ k → v ∉ e.2 := by
    intro e he hne hv
    rw [hvalues e he] at hv
    obtain ⟨x, hx, rfl⟩ := List.mem_map.mp hv
    obtain ⟨hx, hkey⟩ := List.mem_filter.mp hx
    exact hne (by rw [← of_decide_eq_true hkey]; exact honly x.1 hx)
  have hskip : ∀ (es : List (K × List V)) (b : V → T), (∀ e ∈ es, v ∉ e.2) →
      es.foldl (fun b e => step b e.2) b v = b v := by
    intro es
    induction es with
    | nil => exact fun _ _ => rfl
    | cons e es ih =>
        intro b hes
        rw [List.foldl_cons, ih _ fun e' he' => hes e' (List.mem_cons_of_mem e he'),
          hframe _ _ _ (hes e List.mem_cons_self)]
  have hentry : (k, valuesOf k xs) ∈ (groupBy xs).entries := by
    rw [Dict.mem_entries_iff, get?_groupBy, if_pos (List.mem_map_of_mem hmem)]
  have hnodup := (groupBy xs).nodup
  obtain ⟨before, after, hsplit⟩ := List.append_of_mem hentry
  rw [hsplit, List.map_append, List.map_cons, List.nodup_append, List.nodup_cons] at hnodup
  obtain ⟨-, ⟨hafter, -⟩, hbefore⟩ := hnodup
  refine ⟨before.foldl (fun b e => step b e.2) init, hskip before init fun e he => ?_, ?_⟩
  · refine hother e (hsplit ▸ List.mem_append_left _ he) ?_
    exact hbefore e.1 (List.mem_map_of_mem he) k List.mem_cons_self
  · rw [hsplit, List.foldl_append, List.foldl_cons, hskip after _ fun e he => ?_]
    refine hother e (hsplit ▸ List.mem_append_right _ (List.mem_cons_of_mem _ he)) ?_
    rintro rfl
    exact hafter (List.mem_map.mpr ⟨e, he, rfl⟩)

end Py
