import Mathlib.Data.List.Basic
import Mathlib.Data.List.Nodup

/-!
# Python dictionaries

A dictionary keeps its keys in the order of insertion.  Assigning to a key that
is there keeps its place, and a key that was removed and comes back goes to the
end.
-/

namespace Py

structure Dict (K V : Type) where
  entries : List (K × V)
  nodup : (entries.map Prod.fst).Nodup

namespace Dict

variable {K V W : Type}

theorem eq_of_entries {d d' : Dict K V} (h : d.entries = d'.entries) : d = d' := by
  obtain ⟨es, _⟩ := d
  obtain ⟨es', _⟩ := d'
  obtain rfl : es = es' := h
  rfl

/-- `{}`. -/
def empty : Dict K V := ⟨[], List.nodup_nil⟩

def keys (d : Dict K V) : List K := d.entries.map Prod.fst

/-- `{k: f(v) for k, v in d.items()}`. -/
def mapValues (d : Dict K V) (f : V → W) : Dict K W where
  entries := d.entries.map fun e => (e.1, f e.2)
  nodup := by
    rw [List.map_map]
    exact d.nodup

/-- `{k: f(k, v) for k, v in d.items()}`. -/
def mapEntries (d : Dict K V) (f : K → V → W) : Dict K W where
  entries := d.entries.map fun e => (e.1, f e.1 e.2)
  nodup := by
    rw [List.map_map]
    exact d.nodup

/-- `{k: f(k) for k in keys}` for different keys. -/
def ofKeys (keys : List K) (nodup : keys.Nodup) (f : K → V) : Dict K V where
  entries := keys.map fun k => (k, f k)
  nodup := by
    rw [List.map_map]
    exact (List.map_id keys).symm ▸ nodup

@[simp] theorem keys_ofKeys {keys : List K} (nodup : keys.Nodup) (f : K → V) :
    (ofKeys keys nodup f).keys = keys := by
  rw [Dict.keys, ofKeys, List.map_map]
  exact List.map_id keys

@[simp] theorem keys_mapValues (d : Dict K V) (f : V → W) : (d.mapValues f).keys = d.keys := by
  rw [keys, mapValues, List.map_map]
  rfl

theorem ofKeys_congr {keys : List K} (nodup : keys.Nodup) {f g : K → V}
    (h : ∀ k ∈ keys, f k = g k) :
    ofKeys keys nodup f = ofKeys keys nodup g := by
  rw [ofKeys, ofKeys, mk.injEq]
  exact List.map_congr_left fun k hk => by rw [h k hk]

theorem mapEntries_ofKeys {keys : List K} (nodup : keys.Nodup) (f : K → V) (g : K → V → W) :
    (ofKeys keys nodup f).mapEntries g = ofKeys keys nodup fun k => g k (f k) := by
  rw [mapEntries, ofKeys, ofKeys, mk.injEq, List.map_map]
  rfl

/-- Equal functions of the entries. -/
theorem mapEntries_congr {d : Dict K V} {f g : K → V → W}
    (h : ∀ k v, (k, v) ∈ d.entries → f k v = g k v) : d.mapEntries f = d.mapEntries g := by
  rw [mapEntries, mapEntries, mk.injEq]
  exact List.map_congr_left fun e he => by rw [h e.1 e.2 he]

theorem mapValues_congr {d : Dict K V} {f g : V → W} (h : ∀ e ∈ d.entries, f e.2 = g e.2) :
    d.mapValues f = d.mapValues g := by
  rw [mapValues, mapValues, mk.injEq]
  exact List.map_congr_left fun e he => by rw [h e he]

theorem mapValues_mapValues {X : Type} (d : Dict K V) (f : V → W) (g : W → X) :
    (d.mapValues f).mapValues g = d.mapValues fun v => g (f v) := by
  rw [mapValues, mapValues, mapValues, mk.injEq, List.map_map]
  rfl

theorem mapValues_eq_mapEntries (d : Dict K V) (f : V → W) :
    d.mapValues f = d.mapEntries fun _ v => f v := rfl

variable [DecidableEq K]

def get? (d : Dict K V) (k : K) : Option V := (d.entries.find? (·.1 = k)).map Prod.snd

/-- The entries after `d[k] = v`. -/
def setEntries (k : K) (v : V) : List (K × V) → List (K × V)
  | [] => [(k, v)]
  | e :: es => if e.1 = k then (k, v) :: es else e :: setEntries k v es

theorem map_fst_setEntries (k : K) (v : V) (es : List (K × V)) :
    (setEntries k v es).map Prod.fst =
      if k ∈ es.map Prod.fst then es.map Prod.fst else es.map Prod.fst ++ [k] := by
  induction es with
  | nil => rfl
  | cons e es ih =>
      rw [setEntries, List.map_cons]
      by_cases hk : e.1 = k
      · rw [if_pos hk, if_pos (hk ▸ List.mem_cons_self), List.map_cons, hk]
      · rw [if_neg hk, List.map_cons, ih]
        by_cases hmem : k ∈ es.map Prod.fst
        · rw [if_pos hmem, if_pos (List.mem_cons_of_mem _ hmem)]
        · rw [if_neg hmem, if_neg, List.cons_append]
          exact List.not_mem_cons_of_ne_of_not_mem (Ne.symm hk) hmem

/-- `d[k] = v`. -/
def set (d : Dict K V) (k : K) (v : V) : Dict K V where
  entries := setEntries k v d.entries
  nodup := by
    rw [map_fst_setEntries]
    split
    · exact d.nodup
    next hmem =>
      rw [← List.concat_eq_append]
      exact List.Nodup.concat hmem d.nodup

theorem entries_set (d : Dict K V) (k : K) (v : V) :
    (d.set k v).entries = setEntries k v d.entries := rfl

/-- `d.pop(k, None)`. -/
def pop (d : Dict K V) (k : K) : Dict K V where
  entries := d.entries.filter fun e => e.1 ≠ k
  nodup := d.nodup.sublist (List.Sublist.map _ List.filter_sublist)

/-! ## Keys -/

theorem keys_set (d : Dict K V) (k : K) (v : V) :
    (d.set k v).keys = if k ∈ d.keys then d.keys else d.keys ++ [k] :=
  map_fst_setEntries k v d.entries

theorem mem_keys_set {d : Dict K V} {k k' : K} {v : V} :
    k' ∈ (d.set k v).keys ↔ k' = k ∨ k' ∈ d.keys := by
  rw [keys_set]
  split
  next hmem =>
    constructor
    · exact Or.inr
    · rintro (rfl | h)
      · exact hmem
      · exact h
  · rw [List.mem_append, List.mem_singleton, or_comm]

theorem keys_pop (d : Dict K V) (k : K) : (d.pop k).keys = d.keys.filter (· ≠ k) := by
  rw [keys, keys, pop, List.filter_map]
  rfl

theorem mem_keys_pop {d : Dict K V} {k k' : K} : k' ∈ (d.pop k).keys ↔ k' ∈ d.keys ∧ k' ≠ k := by
  rw [keys_pop, List.mem_filter, decide_eq_true_eq]

theorem setEntries_of_not_mem {k : K} {es : List (K × V)} (h : k ∉ es.map Prod.fst) (v : V) :
    setEntries k v es = es ++ [(k, v)] := by
  induction es with
  | nil => rfl
  | cons e es ih =>
      rw [List.map_cons, List.mem_cons, not_or] at h
      rw [setEntries, if_neg (Ne.symm h.1), ih h.2, List.cons_append]

theorem mem_setEntries {k : K} {v : V} {es : List (K × V)} {e : K × V}
    (h : e ∈ setEntries k v es) : e = (k, v) ∨ e ∈ es := by
  induction es with
  | nil => exact .inl (List.mem_singleton.mp h)
  | cons e' es ih =>
      rw [setEntries] at h
      split at h
      · exact (List.mem_cons.mp h).imp id (List.mem_cons_of_mem e')
      · rcases List.mem_cons.mp h with rfl | h
        · exact .inr List.mem_cons_self
        · exact (ih h).imp id (List.mem_cons_of_mem e')

theorem mem_entries_set {d : Dict K V} {k : K} {v : V} {e : K × V}
    (h : e ∈ (d.set k v).entries) : e = (k, v) ∨ e ∈ d.entries := mem_setEntries h

/-- A new key goes to the end. -/
theorem entries_set_of_not_mem {d : Dict K V} {k : K} (h : k ∉ d.keys) (v : V) :
    (d.set k v).entries = d.entries ++ [(k, v)] := setEntries_of_not_mem h v

theorem mapValues_set (d : Dict K V) (k : K) (v : V) (f : V → W) :
    (d.set k v).mapValues f = (d.mapValues f).set k (f v) := by
  have hentries (es : List (K × V)) : (setEntries k v es).map (fun e => (e.1, f e.2)) =
      setEntries k (f v) (es.map fun e => (e.1, f e.2)) := by
    induction es with
    | nil => rfl
    | cons e es ih =>
        rw [setEntries, List.map_cons, setEntries]
        split
        · rfl
        · rw [List.map_cons, ih]
  rw [mapValues, set, mk.injEq]
  exact hentries d.entries

theorem mapValues_pop (d : Dict K V) (k : K) (f : V → W) :
    (d.pop k).mapValues f = (d.mapValues f).pop k := by
  rw [mapValues, mk.injEq]
  change _ = List.filter (fun e => e.1 ≠ k) (List.map (fun e => (e.1, f e.2)) d.entries)
  rw [List.filter_map]
  rfl

/-- The entry of a key is taken out. -/
theorem entries_pop_of_append {d : Dict K V} {e : K × V} {before after : List (K × V)}
    (h : d.entries = before ++ e :: after) : (d.pop e.1).entries = before ++ after := by
  have hnodup := d.nodup
  rw [h, List.map_append, List.map_cons] at hnodup
  obtain ⟨-, hafter, hdisjoint⟩ := List.nodup_append.mp hnodup
  have hbeforeKept : before.filter (fun e' => e'.1 ≠ e.1) = before :=
    List.filter_eq_self.mpr fun e' he' => decide_eq_true
      (hdisjoint _ (List.mem_map_of_mem he') _ List.mem_cons_self)
  have hafterKept : after.filter (fun e' => e'.1 ≠ e.1) = after :=
    List.filter_eq_self.mpr fun e' he' => decide_eq_true fun heq =>
      (List.nodup_cons.mp hafter).1 (heq ▸ List.mem_map_of_mem he')
  change d.entries.filter (fun e' => e'.1 ≠ e.1) = before ++ after
  rw [h, List.filter_append, hbeforeKept, List.filter_cons_of_neg, hafterKept]
  exact fun hne => of_decide_eq_true hne rfl

/-- `d.pop(k, None)` for every key of the list. -/
theorem entries_foldl_pop (d : Dict K V) (ks : List K) :
    (ks.foldl pop d).entries = d.entries.filter fun e => e.1 ∉ ks := by
  induction ks generalizing d with
  | nil => exact (List.filter_eq_self.mpr fun e _ => decide_eq_true List.not_mem_nil).symm
  | cons k ks ih =>
      rw [List.foldl_cons, ih, pop, List.filter_filter]
      refine List.filter_congr fun e _ => ?_
      rw [Bool.and_eq_decide, decide_eq_decide, decide_eq_true_eq, decide_eq_true_eq,
        List.mem_cons, not_or, and_comm]

/-! ## Lookups -/

theorem get?_eq_none_iff {d : Dict K V} {k : K} : d.get? k = none ↔ k ∉ d.keys := by
  rw [get?, Option.map_eq_none_iff, List.find?_eq_none, keys, List.mem_map]
  constructor
  · rintro h ⟨e, he, rfl⟩
    exact h e he (decide_eq_true rfl)
  · intro h e he hk
    exact h ⟨e, he, of_decide_eq_true hk⟩

theorem mem_keys_of_get?_eq_some {d : Dict K V} {k : K} {v : V} (h : d.get? k = some v) :
    k ∈ d.keys := by
  by_contra hmem
  rw [get?_eq_none_iff.mpr hmem] at h
  cases h

theorem exists_get?_of_mem_keys {d : Dict K V} {k : K} (h : k ∈ d.keys) :
    ∃ v, d.get? k = some v := by
  cases hget : d.get? k with
  | none => exact absurd h (get?_eq_none_iff.mp hget)
  | some v => exact ⟨v, rfl⟩

theorem find?_setEntries (k k' : K) (v : V) (es : List (K × V)) :
    (setEntries k v es).find? (·.1 = k') =
      if k' = k then some (k, v) else es.find? (·.1 = k') := by
  induction es with
  | nil =>
      rw [setEntries, List.find?_cons]
      by_cases hk : k = k'
      · rw [if_pos hk.symm, decide_eq_true hk]
      · rw [if_neg (Ne.symm hk), decide_eq_false hk]
  | cons e es ih =>
      rw [setEntries]
      by_cases he : e.1 = k
      · rw [if_pos he, List.find?_cons, List.find?_cons]
        by_cases hk : k = k'
        · rw [if_pos hk.symm, decide_eq_true hk]
        · rw [if_neg (Ne.symm hk), decide_eq_false hk, decide_eq_false (he ▸ hk)]
      · rw [if_neg he, List.find?_cons, List.find?_cons, ih]
        by_cases hk : e.1 = k'
        · simp only [decide_eq_true hk]
          exact (if_neg (hk ▸ he)).symm
        · simp only [decide_eq_false hk]

theorem get?_set (d : Dict K V) (k k' : K) (v : V) :
    (d.set k v).get? k' = if k' = k then some v else d.get? k' := by
  rw [get?, set, find?_setEntries]
  split
  · rfl
  · rfl

theorem get?_pop (d : Dict K V) (k k' : K) :
    (d.pop k).get? k' = if k' = k then none else d.get? k' := by
  split
  next hk =>
    rw [get?_eq_none_iff, mem_keys_pop]
    exact fun h => h.2 hk
  next hk =>
    rw [get?, get?, pop, List.find?_filter]
    congr 2
    funext e
    by_cases he : e.1 = k'
    · simp only [he, hk, ne_eq, not_false_eq_true, decide_true, and_self]
    · simp only [he, decide_false, Bool.false_eq_true, and_false]

theorem get?_mapValues (d : Dict K V) (f : V → W) (k : K) :
    (d.mapValues f).get? k = (d.get? k).map f := by
  rw [get?, get?, mapValues, List.find?_map, Option.map_map, Option.map_map]
  rfl

theorem get?_mapEntries (d : Dict K V) (f : K → V → W) (k : K) :
    (d.mapEntries f).get? k = (d.get? k).map (f k) := by
  rw [get?, get?, mapEntries, List.find?_map, Option.map_map, Option.map_map]
  cases hfind : d.entries.find? ((fun e => decide (e.1 = k)) ∘ fun e => (e.1, f e.1 e.2)) with
  | none =>
      have hnone : d.entries.find? (fun e => decide (e.1 = k)) = none := hfind
      rw [hnone]
      rfl
  | some e =>
      have hsome : d.entries.find? (fun e => decide (e.1 = k)) = some e := hfind
      have hk := List.find?_some hsome
      rw [decide_eq_true_eq] at hk
      rw [hsome, ← hk]
      rfl

/-- The entries are the keys with their values. -/
theorem mem_entries_iff {d : Dict K V} {k : K} {v : V} :
    (k, v) ∈ d.entries ↔ d.get? k = some v := by
  constructor
  · intro hmem
    obtain ⟨w, hw⟩ := exists_get?_of_mem_keys (d := d) (List.mem_map_of_mem (f := Prod.fst) hmem)
    obtain ⟨e, he, rfl⟩ := Option.map_eq_some_iff.mp hw
    have hfst := List.find?_some he
    rw [decide_eq_true_eq] at hfst
    have heq := List.inj_on_of_nodup_map d.nodup (List.mem_of_find?_eq_some he) hmem hfst
    rw [hw, heq]
  · intro h
    obtain ⟨e, he, rfl⟩ := Option.map_eq_some_iff.mp h
    have hfst := List.find?_some he
    rw [decide_eq_true_eq] at hfst
    rw [← hfst]
    exact List.mem_of_find?_eq_some he

theorem get?_ofKeys {keys : List K} (nodup : keys.Nodup) (f : K → V) {k : K} (h : k ∈ keys) :
    (ofKeys keys nodup f).get? k = some (f k) :=
  mem_entries_iff.mp (List.mem_map_of_mem (f := fun k => (k, f k)) h)

/-! ## Several entries -/

/-- `d.update(entries)`. -/
def update (d : Dict K V) (entries : List (K × V)) : Dict K V :=
  entries.foldl (fun d e => d.set e.1 e.2) d

theorem update_append (d : Dict K V) (entries entries' : List (K × V)) :
    d.update (entries ++ entries') = (d.update entries).update entries' := List.foldl_append

theorem mem_keys_update {d : Dict K V} {entries : List (K × V)} {k : K} :
    k ∈ (d.update entries).keys ↔ k ∈ d.keys ∨ k ∈ entries.map Prod.fst := by
  induction entries generalizing d with
  | nil => exact (or_iff_left List.not_mem_nil).symm
  | cons e entries ih =>
      refine (@ih (d.set e.1 e.2)).trans ?_
      rw [mem_keys_set, List.map_cons, List.mem_cons, @or_comm (k = e.1), or_assoc]

/-- New keys go to the end. -/
theorem entries_update_of_nodup {entries : List (K × V)} (d : Dict K V)
    (h : (d.keys ++ entries.map Prod.fst).Nodup) :
    (d.update entries).entries = d.entries ++ entries := by
  induction entries generalizing d with
  | nil => exact (List.append_nil d.entries).symm
  | cons e entries ih =>
      rw [List.map_cons] at h
      have hnew : e.1 ∉ d.keys := fun hmem =>
        (List.nodup_append.mp h).2.2 e.1 hmem e.1 List.mem_cons_self rfl
      have hkeys : (d.set e.1 e.2).keys = d.keys ++ [e.1] := by rw [keys_set, if_neg hnew]
      have hrest := ih (d.set e.1 e.2) (by
        rw [hkeys, List.append_assoc]
        exact h)
      rw [entries_set_of_not_mem hnew, List.append_assoc] at hrest
      exact hrest

theorem get?_update_of_not_mem {entries : List (K × V)} {k : K}
    (h : k ∉ entries.map Prod.fst) (d : Dict K V) : (d.update entries).get? k = d.get? k := by
  induction entries generalizing d with
  | nil => rfl
  | cons e entries ih =>
      rw [List.map_cons, List.mem_cons, not_or] at h
      have hrest := ih h.2 (d.set e.1 e.2)
      rw [get?_set, if_neg h.1] at hrest
      exact hrest

/-- An entry under a key of its own is read back. -/
theorem get?_update_map {ι : Type} {xs : List ι} {key : ι → K} {val : ι → V}
    (hinj : ∀ x ∈ xs, ∀ y ∈ xs, key x = key y → x = y) (d : Dict K V) {x : ι} (hx : x ∈ xs) :
    (d.update (xs.map fun x => (key x, val x))).get? (key x) = some (val x) := by
  induction xs generalizing d with
  | nil => cases hx
  | cons y xs ih =>
      have hrest : ∀ x ∈ xs, ∀ z ∈ xs, key x = key z → x = z := fun x hx z hz =>
        hinj x (List.mem_cons_of_mem y hx) z (List.mem_cons_of_mem y hz)
      by_cases hmem : x ∈ xs
      · exact ih hrest (d.set (key y) (val y)) hmem
      · obtain rfl := (List.mem_cons.mp hx).resolve_right hmem
        have hkey : key x ∉ (xs.map fun x => (key x, val x)).map Prod.fst := by
          rw [List.map_map]
          intro hkey
          obtain ⟨z, hz, hzkey⟩ := List.mem_map.mp hkey
          obtain rfl := hinj z (List.mem_cons_of_mem x hz) x hx hzkey
          exact hmem hz
        have hlast := get?_update_of_not_mem hkey (d.set (key x) (val x))
        rw [get?_set, if_pos rfl] at hlast
        exact hlast

/-- New keys with consecutive numbers. -/
theorem get?_update_zipIdx {ks : List K} {d : Dict K Nat} {start : Nat}
    (hnodup : ks.Nodup) (hnew : ∀ k ∈ ks, k ∉ d.keys) (k : K) (i : Nat) :
    (d.update (ks.zipIdx start)).get? k = some i ↔
      d.get? k = some i ∨ ∃ j, ks[j]? = some k ∧ i = start + j := by
  induction ks generalizing d start with
  | nil =>
      refine (or_iff_left ?_).symm
      rintro ⟨j, hj, -⟩
      cases hj
  | cons first ks ih =>
      obtain ⟨hfirst, hrest⟩ := List.nodup_cons.mp hnodup
      have hnone := get?_eq_none_iff.mpr (hnew first List.mem_cons_self)
      have hstep := @ih (d.set first start) (start + 1) hrest fun key hkey hmem => by
        rcases mem_keys_set.mp hmem with rfl | hmem
        · exact hfirst hkey
        · exact hnew key (List.mem_cons_of_mem first hkey) hmem
      refine hstep.trans ?_
      rw [get?_set]
      constructor
      · rintro (hget | ⟨j, hj, rfl⟩)
        · split at hget
          next hk =>
            obtain rfl := Option.some.inj hget
            exact .inr ⟨0, congrArg some hk.symm, rfl⟩
          next hk => exact .inl hget
        · exact .inr ⟨j + 1, hj, by omega⟩
      · rintro (hget | ⟨j, hj, rfl⟩)
        · refine .inl ?_
          split
          next hk =>
            rw [hk, hnone] at hget
            cases hget
          next hk => exact hget
        · cases j with
          | zero => exact .inl (if_pos (Option.some.inj hj).symm)
          | succ j => exact .inr ⟨j, hj, by omega⟩

end Dict

end Py
