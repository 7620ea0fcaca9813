import Mathlib.Data.Finset.Card
import Mathlib.Data.List.Flatten
import Verl.Lib.Python

/-!
# Groups by label

Groups of elements that have one label each, and no two groups the same.  Groups
may then be dealt out instead of elements (`deal`): no label comes to two hands,
and a hand gets as many labels as groups.
-/

namespace Labels

variable {α κ : Type*} {label : α → κ} {groups : List (List α)}

/-- One label to a group, and one group to a label. -/
structure Grouped (label : α → κ) (groups : List (List α)) : Prop where
  ne_nil : ∀ group ∈ groups, group ≠ []
  same : ∀ group ∈ groups, ∀ x ∈ group, ∀ y ∈ group, label x = label y
  apart : groups.Pairwise fun g h => ∀ x ∈ g, ∀ y ∈ h, label x ≠ label y

theorem grouped_nil : Grouped label [] :=
  ⟨(fun _ h => nomatch h), (fun _ h => nomatch h), List.Pairwise.nil⟩

/-- A last group of a new label. -/
theorem Grouped.concat (h : Grouped label groups) {group : List α} (hne : group ≠ [])
    (hsame : ∀ x ∈ group, ∀ y ∈ group, label x = label y)
    (hnew : ∀ x ∈ groups.flatten, ∀ y ∈ group, label x ≠ label y) :
    Grouped label (groups ++ [group]) := by
  refine ⟨fun g hg => ?_, fun g hg => ?_, ?_⟩
  · obtain hg | hg := List.mem_append.mp hg
    · exact h.ne_nil g hg
    · obtain rfl := List.mem_singleton.mp hg
      exact hne
  · obtain hg | hg := List.mem_append.mp hg
    · exact h.same g hg
    · obtain rfl := List.mem_singleton.mp hg
      exact hsame
  · refine List.pairwise_append.mpr ⟨h.apart, List.pairwise_singleton _ _, fun g hg g' hg' => ?_⟩
    obtain rfl := List.mem_singleton.mp hg'
    exact fun x hx => hnew x (List.mem_flatten.mpr ⟨g, hg, hx⟩)

theorem Grouped.of_concat {group : List α} (h : Grouped label (groups ++ [group])) :
    Grouped label groups :=
  ⟨fun g hg => h.ne_nil g (List.mem_append_left _ hg),
    fun g hg => h.same g (List.mem_append_left _ hg), (List.pairwise_append.mp h.apart).1⟩

/-- The group of a label. -/
theorem Grouped.index_eq (h : Grouped label groups) {a b : Nat} {g g' : List α}
    (ha : groups[a]? = some g) (hb : groups[b]? = some g') {x y : α} (hx : x ∈ g) (hy : y ∈ g')
    (hlabel : label x = label y) : a = b := by
  obtain ⟨halt, rfl⟩ := List.getElem?_eq_some_iff.mp ha
  obtain ⟨hblt, rfl⟩ := List.getElem?_eq_some_iff.mp hb
  have hpairs := List.pairwise_iff_getElem.mp h.apart
  obtain hlt | heq | hgt := Nat.lt_trichotomy a b
  · exact absurd hlabel (hpairs a b halt hblt hlt x hx y hy)
  · exact heq
  · exact absurd hlabel.symm (hpairs b a hblt halt hgt y hy x hx)

/-- There are as many labels as groups. -/
theorem Grouped.length_dedup [DecidableEq κ] (h : Grouped label groups) :
    (groups.flatten.map label).dedup.length = groups.length := by
  rw [← List.card_toFinset]
  induction groups with
  | nil => rfl
  | cons g gs ih =>
      obtain ⟨hfirst, hrest⟩ := List.pairwise_cons.mp h.apart
      have htail : Grouped label gs :=
        ⟨fun g' hg' => h.ne_nil g' (List.mem_cons_of_mem g hg'),
          fun g' hg' => h.same g' (List.mem_cons_of_mem g hg'), hrest⟩
      obtain ⟨x, hx⟩ := List.exists_mem_of_ne_nil g (h.ne_nil g List.mem_cons_self)
      have hone : (g.map label).toFinset = {label x} := by
        ext l
        rw [List.mem_toFinset, List.mem_map, Finset.mem_singleton]
        constructor
        · rintro ⟨y, hy, rfl⟩
          exact h.same g List.mem_cons_self y hy x hx
        · rintro rfl
          exact ⟨x, hx, rfl⟩
      have hnew : label x ∉ (gs.flatten.map label).toFinset := by
        rw [List.mem_toFinset, List.mem_map]
        rintro ⟨y, hy, hlabel⟩
        obtain ⟨g', hg', hy⟩ := List.mem_flatten.mp hy
        exact hfirst g' hg' x hx y hy hlabel.symm
      rw [List.flatten_cons, List.map_append, List.toFinset_append, hone,
        Finset.singleton_union, Finset.card_insert_of_notMem hnew, ih htail, List.length_cons]

/-! ## Dealing out groups -/

/-- The elements of the groups of a hand. -/
def deal (groups : List (List α)) (hand : List Nat) : List α :=
  hand.flatMap fun i => groups.getD i []

theorem mem_deal {hand : List Nat} {x : α} (h : x ∈ deal groups hand) :
    ∃ i ∈ hand, ∃ group, groups[i]? = some group ∧ x ∈ group := by
  obtain ⟨i, hi, hx⟩ := List.mem_flatMap.mp h
  rw [List.getD_eq_getElem?_getD] at hx
  cases hgroup : groups[i]? with
  | none =>
      rw [hgroup] at hx
      cases hx
  | some group =>
      rw [hgroup] at hx
      exact ⟨i, hi, group, hgroup, hx⟩

/-- If every group is dealt, so is every element. -/
theorem flatten_map_deal {hands : List (List Nat)}
    (h : hands.flatten.Perm (List.range groups.length)) :
    (hands.map (deal groups)).flatten.Perm groups.flatten := by
  have hall : (List.range groups.length).flatMap (fun i => groups.getD i []) = groups.flatten := by
    rw [List.flatMap_def, Py.map_getD_range]
  rw [← hall, ← List.flatMap_def]
  have hperm := h.flatMap_right fun i => groups.getD i []
  rwa [List.flatMap_def, List.map_flatten, List.flatten_flatten, List.map_map,
    ← List.flatMap_def] at hperm

/-- No label is dealt to two hands. -/
theorem Grouped.hand_eq (h : Grouped label groups) {hands : List (List Nat)}
    (hnodup : hands.flatten.Nodup) {a b : Nat} {p q : List Nat} (ha : hands[a]? = some p)
    (hb : hands[b]? = some q) {x y : α} (hx : x ∈ deal groups p) (hy : y ∈ deal groups q)
    (hlabel : label x = label y) : a = b := by
  obtain ⟨i, hi, g, hg, hxg⟩ := mem_deal hx
  obtain ⟨j, hj, g', hg', hyg⟩ := mem_deal hy
  obtain rfl := h.index_eq hg hg' hxg hyg hlabel
  obtain ⟨halt, rfl⟩ := List.getElem?_eq_some_iff.mp ha
  obtain ⟨hblt, rfl⟩ := List.getElem?_eq_some_iff.mp hb
  have hpairs := List.pairwise_iff_getElem.mp (List.nodup_flatten.mp hnodup).2
  obtain hlt | heq | hgt := Nat.lt_trichotomy a b
  · exact (hpairs a b halt hblt hlt hi hj).elim
  · exact heq
  · exact (hpairs b a hblt halt hgt hj hi).elim

/-- A hand gets as many labels as groups. -/
theorem Grouped.length_dedup_deal [DecidableEq κ] (h : Grouped label groups) {hand : List Nat}
    (hnodup : hand.Nodup) (hlt : ∀ i ∈ hand, i < groups.length) :
    ((deal groups hand).map label).dedup.length = hand.length := by
  have hget : ∀ i ∈ hand, groups[i]? = some (groups.getD i []) := by
    intro i hi
    rw [List.getD_eq_getElem?_getD, List.getElem?_eq_getElem (hlt i hi), Option.getD_some]
  have hpicked : Grouped label (hand.map fun i => groups.getD i []) := by
    refine ⟨fun g hg => ?_, fun g hg => ?_, ?_⟩
    · obtain ⟨i, hi, rfl⟩ := List.mem_map.mp hg
      exact h.ne_nil _ (List.mem_of_getElem? (hget i hi))
    · obtain ⟨i, hi, rfl⟩ := List.mem_map.mp hg
      exact h.same _ (List.mem_of_getElem? (hget i hi))
    · rw [List.pairwise_map]
      refine hnodup.imp_of_mem fun {i j} hi hj hne x hx y hy hlabel => ?_
      exact hne (h.index_eq (hget i hi) (hget j hj) hx hy hlabel)
  have hlength := hpicked.length_dedup
  rwa [List.length_map, ← List.flatMap_def] at hlength

end Labels
