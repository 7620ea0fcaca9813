import Verl.Lib.Dict
import Verl.Lib.Python

/-!
# Merging `meta_info`

`DataProto.concat` merges the `meta_info` of its arguments.  A key other than
`metrics` must have one value.  The metrics of all arguments are put into one list of
dictionaries, and the list is turned into a dictionary of lists; the keys of this
dictionary are those of the first one, and another key is an assertion error
(`listOfDictToDictOfList_spec`).
-/

namespace Verl

/-- The value of the key `metrics`, if it is there. -/
inductive Metrics (μ : Type) where
  | absent
  | none
  | dict (metrics : Py.Dict String μ)
  | list (metrics : List (Py.Dict String μ))

/-- `meta_info`.  Values of the other keys are of type `ι`. -/
structure MetaInfo (ι μ : Type) where
  others : Py.Dict String ι
  metrics : Metrics μ

/-- `merged_meta_info`. -/
structure MergedMetaInfo (ι μ : Type) where
  others : Py.Dict String ι
  metrics : Option (Py.Dict String (List μ))

variable {ι μ : Type}

/-! ## The source functions -/

/-- `output[key].append(item)`, if the key is there. -/
def appendItem (output : Py.Dict String (List μ)) (e : String × μ) :
    Except Py.Error (Py.Dict String (List μ)) :=
  match output.get? e.1 with
  | some items => .ok (output.set e.1 (items ++ [e.2]))
  | .none => .error (.assertion
      s!"Key '{e.1}' is not present in the keys of the first dictionary in the list.")

/-- The two loops of `list_of_dict_to_dict_of_list`, on the entries of all dictionaries. -/
def appendItems (output : Py.Dict String (List μ)) :
    List (String × μ) → Except Py.Error (Py.Dict String (List μ))
  | [] => .ok output
  | e :: es => do
      let output ← appendItem output e
      appendItems output es

/-- `list_of_dict_to_dict_of_list`. -/
def listOfDictToDictOfList :
    List (Py.Dict String μ) → Except Py.Error (Py.Dict String (List μ))
  | [] => .ok .empty
  | first :: rest =>
      appendItems (first.mapValues fun _ => []) ((first :: rest).flatMap Py.Dict.entries)

/-- What is appended to `all_metrics`. -/
def Metrics.dicts : Metrics μ → List (Py.Dict String μ)
  | absent => []
  | none => []
  | dict metrics => [metrics]
  | list metrics => metrics

/-- The entries of all keys but `metrics`, one after the other. -/
def mergeEntries [DecidableEq ι] (merged : Py.Dict String ι) :
    List (String × ι) → Except Py.Error (Py.Dict String ι)
  | [] => .ok merged
  | e :: es =>
      match merged.get? e.1 with
      | some v => do
          Py.check (v = e.2) s!"Conflicting values for meta_info key '{e.1}'"
          mergeEntries merged es
      | none => mergeEntries (merged.set e.1 e.2) es

/-- The `meta_info` of `DataProto.concat`. -/
def mergeMetaInfo [DecidableEq ι] (metas : List (MetaInfo ι μ)) :
    Except Py.Error (MergedMetaInfo ι μ) := do
  let others ← mergeEntries .empty (metas.flatMap fun info => info.others.entries)
  let allMetrics := metas.flatMap fun info => info.metrics.dicts
  if allMetrics ≠ [] then
    let metrics ← listOfDictToDictOfList allMetrics
    return ⟨others, some metrics⟩
  else return ⟨others, none⟩

/-! ## Keys with one value -/

/-- Entries that are there already. -/
theorem mergeEntries_of_mem [DecidableEq ι] {merged : Py.Dict String ι} {es : List (String × ι)}
    (h : ∀ e ∈ es, merged.get? e.1 = some e.2) : mergeEntries merged es = .ok merged := by
  induction es with
  | nil => rfl
  | cons e es ih =>
      rw [mergeEntries, h e List.mem_cons_self]
      simp only [Py.check_of_true, Py.ok_bind]
      exact ih fun e' he' => h e' (List.mem_cons_of_mem e he')

/-- Entries of new keys. -/
theorem mergeEntries_of_nodup [DecidableEq ι] {merged : Py.Dict String ι}
    {es : List (String × ι)} (h : (merged.keys ++ es.map Prod.fst).Nodup)
    (rest : List (String × ι)) :
    mergeEntries merged (es ++ rest) = mergeEntries (merged.update es) rest := by
  induction es generalizing merged with
  | nil => rfl
  | cons e es ih =>
      rw [List.map_cons] at h
      have hnew : e.1 ∉ merged.keys := fun hmem =>
        (List.nodup_append.mp h).2.2 e.1 hmem e.1 List.mem_cons_self rfl
      rw [List.cons_append, mergeEntries, Py.Dict.get?_eq_none_iff.mpr hnew]
      refine ih ?_
      rwa [Py.Dict.keys_set, if_neg hnew, List.append_assoc]

/-- The same entries from every argument. -/
theorem mergeEntries_replicate [DecidableEq ι] (others : Py.Dict String ι) {count : Nat}
    (hcount : 0 < count) :
    mergeEntries .empty ((List.replicate count others).flatMap Py.Dict.entries) = .ok others := by
  obtain ⟨more, rfl⟩ := Nat.exists_eq_succ_of_ne_zero hcount.ne'
  have hnodup : ((Py.Dict.empty : Py.Dict String ι).keys ++ others.entries.map Prod.fst).Nodup :=
    others.nodup
  have hfirst : (Py.Dict.empty : Py.Dict String ι).update others.entries = others :=
    Py.Dict.eq_of_entries (Py.Dict.entries_update_of_nodup .empty hnodup)
  rw [List.replicate_succ, List.flatMap_cons, mergeEntries_of_nodup hnodup, hfirst]
  refine mergeEntries_of_mem fun e he => ?_
  obtain ⟨other, hother, he⟩ := List.mem_flatMap.mp he
  rw [List.eq_of_mem_replicate hother] at he
  exact Py.Dict.mem_entries_iff.mp he

/-! ## Metrics -/

/-- The keys of all dictionaries are keys of the first one. -/
def KeysInFirst (dicts : List (Py.Dict String μ)) : Prop :=
  ∀ first ∈ dicts.head?, ∀ metrics ∈ dicts, ∀ k ∈ metrics.keys, k ∈ first.keys

/-- The items that entries have for a key. -/
def itemsOf (k : String) (es : List (String × μ)) : List μ :=
  (es.filter fun e => e.1 = k).map Prod.snd

theorem itemsOf_cons_self (e : String × μ) (es : List (String × μ)) :
    itemsOf e.1 (e :: es) = e.2 :: itemsOf e.1 es := by
  simp only [itemsOf, List.filter_cons, decide_true, if_true, List.map_cons]

theorem itemsOf_cons_of_ne {k : String} {e : String × μ} (h : e.1 ≠ k)
    (es : List (String × μ)) : itemsOf k (e :: es) = itemsOf k es := by
  simp only [itemsOf, List.filter_cons, h, decide_false, Bool.false_eq_true, if_false]

theorem itemsOf_entries (k : String) (metrics : Py.Dict String μ) :
    itemsOf k metrics.entries = (metrics.get? k).toList := by
  obtain ⟨es, hnodup⟩ := metrics
  change itemsOf k es = ((es.find? (·.1 = k)).map Prod.snd).toList
  induction es with
  | nil => rfl
  | cons e es ih =>
      rw [List.map_cons] at hnodup
      obtain ⟨hnew, hrest⟩ := List.nodup_cons.mp hnodup
      rw [List.find?_cons]
      by_cases hk : e.1 = k
      · have hnone : itemsOf k es = [] := by
          refine List.map_eq_nil_iff.mpr (List.filter_eq_nil_iff.mpr fun e' he' hk' => hnew ?_)
          rw [hk, ← of_decide_eq_true hk']
          exact List.mem_map_of_mem he'
        obtain rfl := hk
        rw [itemsOf_cons_self, hnone, decide_eq_true rfl]
        rfl
      · rw [itemsOf_cons_of_ne hk, decide_eq_false hk]
        exact ih hrest

/-- Entries whose keys are there are appended to the lists of their keys. -/
theorem appendItems_spec {output : Py.Dict String (List μ)} {es : List (String × μ)}
    (h : ∀ e ∈ es, e.1 ∈ output.keys) :
    ∃ output', appendItems output es = .ok output' ∧ output'.keys = output.keys ∧
      ∀ k ∈ output.keys, ∃ items, output.get? k = some items ∧
        output'.get? k = some (items ++ itemsOf k es) := by
  induction es generalizing output with
  | nil =>
      refine ⟨output, rfl, rfl, fun k hk => ?_⟩
      obtain ⟨items, hitems⟩ := Py.Dict.exists_get?_of_mem_keys hk
      exact ⟨items, hitems, hitems.trans (congrArg some (List.append_nil items).symm)⟩
  | cons e es ih =>
      have hmem := h e List.mem_cons_self
      obtain ⟨first, hfirst⟩ := Py.Dict.exists_get?_of_mem_keys hmem
      have hkeys : (output.set e.1 (first ++ [e.2])).keys = output.keys := by
        rw [Py.Dict.keys_set, if_pos hmem]
      obtain ⟨output', hrun, hkeys', hget⟩ :=
        @ih (output.set e.1 (first ++ [e.2])) fun e' he' => by
          rw [hkeys]
          exact h e' (List.mem_cons_of_mem e he')
      refine ⟨output', ?_, hkeys'.trans hkeys, fun k hk => ?_⟩
      · rw [appendItems, appendItem, hfirst]
        exact hrun
      · obtain ⟨items, hitems, hlast⟩ := hget k (hkeys.symm ▸ hk)
        rw [Py.Dict.get?_set] at hitems
        by_cases hkey : k = e.1
        · rw [if_pos hkey] at hitems
          obtain rfl := Option.some.inj hitems
          refine ⟨first, hkey ▸ hfirst, ?_⟩
          rw [hlast, hkey, itemsOf_cons_self, List.append_assoc]
          rfl
        · rw [if_neg hkey] at hitems
          exact ⟨items, hitems, by rw [hlast, itemsOf_cons_of_ne (Ne.symm hkey)]⟩

/-- For every key, the values of all dictionaries in their order. -/
theorem listOfDictToDictOfList_spec {dicts : List (Py.Dict String μ)} (h : KeysInFirst dicts) :
    ∃ merged, listOfDictToDictOfList dicts = .ok merged ∧
      ∀ k, (merged.get? k).getD [] = dicts.filterMap fun metrics => metrics.get? k := by
  cases dicts with
  | nil => exact ⟨.empty, rfl, fun _ => rfl⟩
  | cons first rest =>
      have hkeys : (first.mapValues fun _ => ([] : List μ)).keys = first.keys :=
        Py.Dict.keys_mapValues _ _
      have hfirst := h first rfl
      obtain ⟨merged, hrun, hmergedKeys, hget⟩ :=
        @appendItems_spec μ (first.mapValues fun _ => []) ((first :: rest).flatMap Py.Dict.entries)
          fun e he => by
            obtain ⟨metrics, hmetrics, he⟩ := List.mem_flatMap.mp he
            rw [hkeys]
            exact hfirst metrics hmetrics e.1 (List.mem_map_of_mem he)
      refine ⟨merged, hrun, fun k => ?_⟩
      by_cases hk : k ∈ first.keys
      · obtain ⟨items, hitems, hlast⟩ := hget k (hkeys.symm ▸ hk)
        obtain ⟨v, hv⟩ := Py.Dict.exists_get?_of_mem_keys hk
        rw [Py.Dict.get?_mapValues, hv] at hitems
        obtain rfl : [] = items := Option.some.inj hitems
        rw [hlast, Option.getD_some, List.nil_append, List.filterMap_eq_flatMap_toList]
        rw [itemsOf, List.filter_flatMap, List.map_flatMap]
        exact List.flatMap_congr fun metrics _ => itemsOf_entries k metrics
      · have hnone : merged.get? k = none := by
          rw [Py.Dict.get?_eq_none_iff, hmergedKeys, hkeys]
          exact hk
        rw [hnone, Option.getD_none]
        refine (List.filterMap_eq_nil_iff.mpr fun metrics hmetrics => ?_).symm
        exact Py.Dict.get?_eq_none_iff.mpr fun hmem => hk (hfirst metrics hmetrics k hmem)

/-- The values of a metric after a merge. -/
def MergedMetaInfo.metric (info : MergedMetaInfo ι μ) (k : String) : List μ :=
  ((info.metrics.bind fun metrics => metrics.get? k).getD [])

/-- Arguments that agree on the other keys. -/
theorem mergeMetaInfo_spec [DecidableEq ι] {metas : List (MetaInfo ι μ)}
    {others : Py.Dict String ι} (hne : metas ≠ []) (hothers : ∀ info ∈ metas, info.others = others)
    (hkeys : KeysInFirst (metas.flatMap fun info => info.metrics.dicts)) :
    ∃ merged, mergeMetaInfo metas = .ok merged ∧ merged.others = others ∧
      ∀ k, merged.metric k =
        (metas.flatMap fun info => info.metrics.dicts).filterMap fun metrics => metrics.get? k := by
  have hmerged : mergeEntries .empty (metas.flatMap fun info => info.others.entries) =
      .ok others := by
    have hreplicate : metas.map MetaInfo.others = List.replicate metas.length others := by
      rw [List.eq_replicate_iff]
      refine ⟨List.length_map _, fun other hother => ?_⟩
      obtain ⟨info, hinfo, rfl⟩ := List.mem_map.mp hother
      exact hothers info hinfo
    have hall := mergeEntries_replicate others (List.length_pos_iff.mpr hne)
    rw [← hreplicate, List.flatMap_map] at hall
    exact hall
  obtain ⟨metrics, hmetrics, hget⟩ := listOfDictToDictOfList_spec hkeys
  rw [mergeMetaInfo, hmerged, Py.ok_bind]
  by_cases hnil : (metas.flatMap fun info => info.metrics.dicts) = []
  · simp only [hnil, ne_eq, not_true_eq_false, if_false]
    exact ⟨⟨others, none⟩, rfl, rfl, fun _ => rfl⟩
  · simp only [ne_eq, hnil, not_false_eq_true, if_true, hmetrics, Py.ok_bind]
    exact ⟨⟨others, some metrics⟩, rfl, rfl, hget⟩

end Verl
