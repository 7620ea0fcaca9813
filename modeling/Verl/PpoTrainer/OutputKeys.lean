import Verl.Lib.Dict
import Verl.Lib.Strings

/-!
# Keys of the outputs of a session

An agent loop can have several outputs for one session of a prompt, and output `index` is
stored under `{uid}_{session_id}_{index}`.  Only the last output of a session, the one with
the highest index, stands for the session.  The trainer finds it by parsing the keys and
keeping the best row for every session in a dictionary (`keepMax`, `bestRows_spec`).
-/

namespace Verl

/-- What a key is made of. -/
structure OutputKey where
  uid : String
  sessionId : Nat
  index : Nat
deriving DecidableEq

namespace OutputKey

/-- `f"{uid}_{session_id}_{i}"`. -/
def key (row : OutputKey) : String := s!"{row.uid}_{row.sessionId}_{row.index}"

/-- `f"{uid}_{session_id}"`. -/
def sessionKey (row : OutputKey) : String := s!"{row.uid}_{row.sessionId}"

/-- No output of the session has a higher index. -/
def IsFinal (rows : List OutputKey) (row : OutputKey) : Prop :=
  row ∈ rows ∧ ∀ other ∈ rows, other.sessionKey = row.sessionKey → other.index ≤ row.index

theorem underscore_not_mem (n : Nat) : '_' ∉ Nat.toDigits 10 n := Nat.underscore_not_in_toDigits

theorem toList_key (row : OutputKey) : row.key.toList =
    (row.uid.toList ++ '_' :: Nat.toDigits 10 row.sessionId) ++
      '_' :: Nat.toDigits 10 row.index := by
  rw [key]
  simp only [String.toList_append, Nat.toString_eq_repr, Nat.toList_repr, List.append_assoc]
  rfl

theorem toList_sessionKey (row : OutputKey) : row.sessionKey.toList =
    row.uid.toList ++ '_' :: Nat.toDigits 10 row.sessionId := by
  rw [sessionKey]
  simp only [String.toList_append, Nat.toString_eq_repr, Nat.toList_repr, List.append_assoc]
  rfl

/-- The parts of a key. -/
theorem rsplit_key (row : OutputKey) :
    Py.rsplit '_' 2 row.key = [row.uid, toString row.sessionId, toString row.index] := by
  rw [Py.rsplit, toList_key, Py.rsplitChars_append (underscore_not_mem _),
    Py.rsplitChars_append (underscore_not_mem _)]
  simp [Py.rsplitChars, Nat.repr_eq_ofList_toDigits]

theorem sessionKey_inj {row other : OutputKey} (h : row.sessionKey = other.sessionKey) :
    row.uid = other.uid ∧ row.sessionId = other.sessionId := by
  have hlists := congrArg (fun s : String => Py.splitLast '_' s.toList) h
  simp only [toList_sessionKey, Py.splitLast_append (underscore_not_mem _), Option.some.injEq,
    Prod.mk.injEq] at hlists
  refine ⟨String.toList_inj.mp hlists.1, ?_⟩
  rw [← Nat.ofDigitChars_ten_toDigits (n := row.sessionId), hlists.2,
    Nat.ofDigitChars_ten_toDigits]

end OutputKey

/-! ## The best row of every session -/

/-- `if session_key not in best or index > best[session_key][0]: best[session_key] = (index, pos)`. -/
def keepMax (best : Py.Dict String (Int × Nat)) (sessionKey : String) (index : Int) (pos : Nat) :
    Py.Dict String (Int × Nat) :=
  match best.get? sessionKey with
  | none => best.set sessionKey (index, pos)
  | some (highest, _) =>
      if index > highest then best.set sessionKey (index, pos) else best

/-- The rows at the positions `start` and following. -/
def bestRows (best : Py.Dict String (Int × Nat)) (start : Nat) :
    List OutputKey → Py.Dict String (Int × Nat)
  | [] => best
  | row :: rows => bestRows (keepMax best row.sessionKey row.index start) (start + 1) rows

/-- The entry of a session is its highest row. -/
structure Best (rows : List OutputKey) (best : Py.Dict String (Int × Nat)) : Prop where
  mem_keys : ∀ row ∈ rows, row.sessionKey ∈ best.keys
  row : ∀ sessionKey index pos, best.get? sessionKey = some (index, pos) →
    ∃ row, rows[pos]? = some row ∧ row.sessionKey = sessionKey ∧ (row.index : Int) = index ∧
      row.IsFinal rows

theorem isFinal_append_of_lt {rows : List OutputKey} {row next : OutputKey}
    (h : row.IsFinal rows) (hnext : next.sessionKey = row.sessionKey → next.index ≤ row.index) :
    row.IsFinal (rows ++ [next]) := by
  refine ⟨List.mem_append_left _ h.1, fun other hother hsession => ?_⟩
  rcases List.mem_append.mp hother with hother | hother
  · exact h.2 other hother hsession
  · obtain rfl := List.mem_singleton.mp hother
    exact hnext hsession

theorem Best.keepMax {rows : List OutputKey} {best : Py.Dict String (Int × Nat)}
    (h : Best rows best) (next : OutputKey) :
    Best (rows ++ [next]) (keepMax best next.sessionKey next.index rows.length) := by
  have hlast : (rows ++ [next])[rows.length]? = some next := List.getElem?_concat_length
  have hold {sessionKey : String} {index : Int} {pos : Nat}
      (hget : best.get? sessionKey = some (index, pos))
      (hnext : next.sessionKey = sessionKey → (next.index : Int) ≤ index) :
      ∃ row, (rows ++ [next])[pos]? = some row ∧ row.sessionKey = sessionKey ∧
        (row.index : Int) = index ∧ row.IsFinal (rows ++ [next]) := by
    obtain ⟨row, hrow, hsession, hindex, hfinal⟩ := h.row sessionKey index pos hget
    have hlt := (List.getElem?_eq_some_iff.mp hrow).1
    refine ⟨row, by rw [List.getElem?_append_left hlt, hrow], hsession, hindex,
      isFinal_append_of_lt hfinal fun hsame => ?_⟩
    have hle := hnext (hsame.trans hsession)
    omega
  -- the new row is the best one of its session
  have hset (hmax : ∀ other ∈ rows, other.sessionKey = next.sessionKey → other.index ≤ next.index) :
      Best (rows ++ [next]) (best.set next.sessionKey (next.index, rows.length)) := by
    refine ⟨fun row hrow => ?_, fun sessionKey index pos hget => ?_⟩
    · rw [Py.Dict.mem_keys_set]
      rcases List.mem_append.mp hrow with hrow | hrow
      · exact .inr (h.mem_keys row hrow)
      · exact .inl (congrArg OutputKey.sessionKey (List.mem_singleton.mp hrow))
    · rw [Py.Dict.get?_set] at hget
      split at hget
      next hsession =>
        obtain ⟨rfl, rfl⟩ := Prod.mk.inj (Option.some.inj hget)
        refine ⟨next, hlast, hsession.symm, rfl, List.mem_append_right _ List.mem_cons_self,
          fun other hother hsame => ?_⟩
        rcases List.mem_append.mp hother with hother | hother
        · exact hmax other hother hsame
        · rw [List.mem_singleton.mp hother]
      next hsession => exact hold hget fun hsame => absurd hsame.symm hsession
  rw [Verl.keepMax]
  cases hget : best.get? next.sessionKey with
  | none =>
      refine hset fun other hother hsame => ?_
      have hmem := h.mem_keys other hother
      rw [hsame] at hmem
      exact absurd hmem (Py.Dict.get?_eq_none_iff.mp hget)
  | some found =>
      obtain ⟨highest, pos⟩ := found
      obtain ⟨row, hrow, hsession, hindex, hfinal⟩ := h.row _ _ _ hget
      simp only
      split
      next hgt =>
        refine hset fun other hother hsame => ?_
        have hle := hfinal.2 other hother (hsame.trans hsession.symm)
        omega
      next hgt =>
        refine ⟨fun other hother => ?_, fun sessionKey index pos' hget' => ?_⟩
        · rcases List.mem_append.mp hother with hother | hother
          · exact h.mem_keys other hother
          · rw [List.mem_singleton.mp hother]
            exact Py.Dict.mem_keys_of_get?_eq_some hget
        · refine hold hget' fun hsame => ?_
          rw [hsame, hget'] at hget
          obtain ⟨rfl, -⟩ := Prod.mk.inj (Option.some.inj hget)
          omega

theorem Best.bestRows {rows : List OutputKey} {best : Py.Dict String (Int × Nat)}
    (h : Best rows best) (more : List OutputKey) :
    Best (rows ++ more) (bestRows best rows.length more) := by
  induction more generalizing rows best with
  | nil => rwa [List.append_nil]
  | cons next more ih =>
      have hrest := ih (h.keepMax next)
      rw [List.append_assoc, List.length_append, List.length_singleton] at hrest
      exact hrest

/-- Every session of a batch, with its highest row. -/
theorem best_bestRows (rows : List OutputKey) : Best rows (bestRows .empty 0 rows) :=
  @Best.bestRows [] _ ⟨fun _ h => absurd h List.not_mem_nil, fun _ _ _ h => by cases h⟩ rows

/-! ## Final rows -/

/-- One highest row for every session. -/
structure FinalRows (rows finals : List OutputKey) : Prop where
  nodup : (finals.map OutputKey.sessionKey).Nodup
  mem : ∀ row ∈ rows, row.sessionKey ∈ finals.map OutputKey.sessionKey
  isFinal : ∀ row ∈ finals, row.IsFinal rows

/-- Two highest rows of a session are the same. -/
theorem OutputKey.IsFinal.unique {rows : List OutputKey} {row other : OutputKey}
    (h : row.IsFinal rows) (hother : other.IsFinal rows)
    (hsession : row.sessionKey = other.sessionKey) : row = other := by
  obtain ⟨huid, hid⟩ := OutputKey.sessionKey_inj hsession
  have hle := h.2 other hother.1 hsession.symm
  have hge := hother.2 row h.1 hsession
  obtain ⟨uid, sessionId, index⟩ := row
  obtain ⟨uid', sessionId', index'⟩ := other
  obtain rfl : uid = uid' := huid
  obtain rfl : sessionId = sessionId' := hid
  obtain rfl : index' = index := Nat.le_antisymm hle hge
  rfl

/-- The entries of the dictionary, in any order, and the elements of the batch at their
positions. -/
theorem exists_finals {τ : Type} {batch : List τ} {key : τ → OutputKey}
    {sessions : List (String × (Int × Nat))}
    (h : sessions.Perm (bestRows .empty 0 (batch.map key)).entries) :
    ∃ finals : List τ, FinalRows (batch.map key) (finals.map key) ∧ (∀ t ∈ finals, t ∈ batch) ∧
      sessions.map Prod.fst = finals.map (fun t => (key t).sessionKey) ∧
      ∀ {α : Type} (f : τ → α), (sessions.map fun x => x.2.2).mapM
        (Py.getItem (batch.map f)) = .ok (finals.map f) := by
  have hbest := best_bestRows (batch.map key)
  have helement : ∀ x ∈ sessions, ∃ t, batch[x.2.2]? = some t ∧ (key t).sessionKey = x.1 ∧
      (key t).IsFinal (batch.map key) := by
    intro x hx
    obtain ⟨row, hrow, hsession, -, hfinal⟩ := hbest.row x.1 x.2.1 x.2.2
      (Py.Dict.mem_entries_iff.mp (h.subset hx))
    rw [List.getElem?_map] at hrow
    obtain ⟨t, ht, rfl⟩ := Option.map_eq_some_iff.mp hrow
    exact ⟨t, ht, hsession, hfinal⟩
  obtain ⟨finals, hfinals⟩ : ∃ finals, List.Forall₂ (fun (x : String × (Int × Nat)) t =>
      batch[x.2.2]? = some t ∧ (key t).sessionKey = x.1 ∧ (key t).IsFinal (batch.map key))
        sessions finals := by
    clear h
    induction sessions with
    | nil => exact ⟨[], .nil⟩
    | cons x sessions ih =>
        obtain ⟨t, ht⟩ := helement x List.mem_cons_self
        obtain ⟨finals, hrest⟩ := ih fun y hy => helement y (List.mem_cons_of_mem x hy)
        exact ⟨t :: finals, .cons ht hrest⟩
  have hsessions : sessions.map Prod.fst = finals.map fun t => (key t).sessionKey := by
    clear h helement
    induction hfinals with
    | nil => rfl
    | cons hx _ ih => rw [List.map_cons, List.map_cons, ih, hx.2.1]
  have hmem : ∀ t ∈ finals, t ∈ batch ∧ (key t).IsFinal (batch.map key) := by
    clear h helement hsessions
    induction hfinals with
    | nil => exact fun t ht => (List.not_mem_nil ht).elim
    | cons hx _ ih =>
        intro t ht
        rcases List.mem_cons.mp ht with rfl | ht
        · exact ⟨List.mem_of_getElem? hx.1, hx.2.2⟩
        · exact ih t ht
  have hkeys : (finals.map key).map OutputKey.sessionKey = sessions.map Prod.fst := by
    rw [hsessions, List.map_map]
    rfl
  refine ⟨finals, ⟨?_, fun row hrow => ?_, fun row hrow => ?_⟩, fun t ht => (hmem t ht).1,
    hsessions,
    fun f => ?_⟩
  · rw [hkeys]
    exact (h.map Prod.fst).nodup_iff.mpr (bestRows .empty 0 (batch.map key)).nodup
  · rw [hkeys]
    exact (h.map Prod.fst).mem_iff.mpr (hbest.mem_keys row hrow)
  · obtain ⟨t, ht, rfl⟩ := List.mem_map.mp hrow
    exact (hmem t ht).2
  · clear hsessions hkeys h helement hmem
    induction hfinals with
    | nil => rfl
    | cons hx _ ih =>
        have hitem : Py.getItem (batch.map f) _ = .ok (f _) :=
          Py.getItem_of_some (by rw [List.getElem?_map, hx.1]; rfl)
        rw [List.map_cons, List.mapM_cons, hitem, ih]
        rfl

end Verl
