import Mathlib.Tactic.Linarith
import Mathlib.Tactic.NormNum
import Verl.Ppo.GroupIndex

/-!
# When the ids are the groups

Two samples are to be in the same group exactly when their labels are equal, and the ids are
to be the first natural numbers.  `as_torch_index` converts to integers whatever it can, so
that this holds of some labels only (`Fits`).
-/

namespace Verl.Groupwise

open Numbering

variable {Obj : Type}

/-! ## Groups -/

/-- A number within `1e-6` of an integer. -/
def Value.IsNearInteger : Value Obj → Prop
  | .number (.fin q) => |q - rint q| ≤ 1 / 10 ^ 6
  | _ => False

instance (v : Value Obj) : Decidable v.IsNearInteger := by
  unfold Value.IsNearInteger
  split <;> infer_instance

/-- Labels that are all numbers within `1e-6` of an integer are rounded. -/
def Rounds (labels : List (Label Obj)) : Prop := ∀ l ∈ labels, l.value.IsNearInteger

instance (labels : List (Label Obj)) : Decidable (Rounds labels) :=
  inferInstanceAs (Decidable (∀ l ∈ labels, _))

def Value.round : Value Obj → Value Obj
  | .number x => .number (rintFloat x)
  | v => v

/-- What tells the group of a label. -/
def groupKey (labels : List (Label Obj)) (l : Label Obj) : Value Obj :=
  if Rounds labels then l.value.round else l.value

/-- Two labels are equal.  NaN is not equal to itself. -/
def SameGroup (labels : List (Label Obj)) (l l' : Label Obj) : Prop :=
  groupKey labels l = groupKey labels l' ∧ l.value ≠ .number .nan

/-- The ids of the labels are their groups, from 0 on. -/
structure GroupsKept [DecidableEq Obj] (labels : List (Label Obj)) (ids : List Int) : Prop where
  tellsApart : TellsApart (SameGroup labels) labels ids
  contiguous : InitialSegment Int.ofNat (labels.map (groupKey labels)).dedup.length ids

theorem not_nan_of_tellsApart {β : Type} {labels : List (Label Obj)} {forms : List β}
    (h : TellsApart (SameGroup labels) labels forms) : ∀ l ∈ labels, l.value ≠ .number .nan := by
  intro l hl
  obtain ⟨i, hi⟩ := List.mem_iff_getElem?.mp hl
  obtain ⟨y, hy⟩ := getElem?_of_length_eq h.length_eq.symm hi
  exact ((h.eq_iff hi hi hy hy).mp rfl).2

/-- How many groups there are follows from the ids. -/
theorem groupsKept_iff [DecidableEq Obj] {labels : List (Label Obj)} {ids : List Int} :
    GroupsKept labels ids ↔ TellsApart (SameGroup labels) labels ids ∧
      ∃ count, InitialSegment Int.ofNat count ids := by
  constructor
  · exact fun h => ⟨h.tellsApart, _, h.contiguous⟩
  · rintro ⟨htell, count, hinitial⟩
    refine ⟨htell, ?_⟩
    have hnan := not_nan_of_tellsApart htell
    have hsame : (labels.map (groupKey labels)).dedup.length = ids.dedup.length := by
      refine length_dedup_eq (by rw [List.length_map, htell.length_eq]) ?_
      intro i j k k' n n' hk hk' hn hn'
      rw [List.getElem?_map, Option.map_eq_some_iff] at hk hk'
      obtain ⟨l, hl, rfl⟩ := hk
      obtain ⟨l', hl', rfl⟩ := hk'
      rw [htell.eq_iff hl hl' hn hn', SameGroup, and_iff_left (hnan l (List.mem_of_getElem? hl))]
    rwa [hsame, ← hinitial.eq_length_dedup fun i j h => Int.ofNat.inj h]

/-! ## Integers and floats -/

theorem rint_intCast (n : Int) : rint n = n := by
  rw [rint, Int.floor_intCast, sub_self, if_pos (by norm_num)]

theorem trunc_intCast (n : Int) : trunc n = n := by
  rw [trunc, Int.floor_intCast, Int.ceil_intCast, ite_self]

theorem truncFloat_rintFloat (x : XRat) : truncFloat (rintFloat x) = rintFloat x := by
  cases x with
  | fin q => rw [rintFloat, truncFloat, trunc_intCast]
  | inf _ => rfl
  | nan => rfl

theorem wrapInt64_eq_iff (n : NumpyInt) {k : Nat} (hk : k < 2 ^ 63) :
    wrapInt64 n = k ↔ n.val = k := by
  have hlower := n.lower
  have hupper := n.upper
  rw [wrapInt64, Int.bmod_def]
  omega

/-- What numpy documents.  A float that is no `int64` is converted to an end of the range, and
`np.unique` gives an index into its distinct values that reconstructs the array. -/
structure Documented (numpy : Numpy Obj) : Prop where
  invalidCast : ∀ x, x ≠ .nan → numpy.invalidCast x = -2 ^ 63 ∨ numpy.invalidCast x = 2 ^ 63 - 1
  unique : ∀ xs distinct inverse, numpy.unique xs = .ok (distinct, inverse) →
    (∀ x ∈ xs, x.value ≠ .number .nan) →
    (distinct.map Label.value).Nodup ∧ inverse.length = xs.length ∧
      (∀ (i : Nat) x k, xs[i]? = some x → inverse[i]? = some k →
        ∃ u, distinct[k]? = some u ∧ u.value = x.value) ∧
      ∀ u ∈ distinct, u.value ∈ xs.map Label.value
  unique_strs : ∀ ss : List String, ∃ result, numpy.unique (ss.map .str) = .ok result

variable {numpy : Numpy Obj}

theorem castInt64_eq_iff (h : Documented numpy) {x : XRat} (hx : x ≠ .nan) {k : Nat}
    (hk : k < 2 ^ 63 - 1) : castInt64 numpy x = k ↔ truncFloat x = .fin k := by
  have hinvalid : ∀ y, y ≠ .nan → numpy.invalidCast y ≠ k := by
    intro y hy heq
    have hend := h.invalidCast y hy
    omega
  cases x with
  | fin q =>
      rw [castInt64, truncFloat, XRat.fin.injEq]
      split
      next hin =>
        constructor
        · intro heq
          rw [heq]
          rfl
        · exact fun heq => by exact_mod_cast heq
      next hout =>
        refine iff_of_false (hinvalid _ hx) fun heq => hout ?_
        have heq : trunc q = k := by exact_mod_cast heq
        rw [heq, InInt64]
        omega
  | inf s => exact iff_of_false (hinvalid _ hx) nofun
  | nan => exact absurd rfl hx

/-! ## The entries of an array -/

theorem NumpyInt.val_ofInt {n : Int} (h : -2 ^ 63 ≤ n ∧ n < 2 ^ 64) : (ofInt n).val = n := by
  rw [ofInt, dif_pos h]

theorem Label.toNumpyInt_of {l : Label Obj} (h : l.IsInt64 ∨ l.IsUint64) :
    Label.int l.toNumpyInt.val = l := by
  cases l with
  | int n =>
      have hrange : -2 ^ 63 ≤ n ∧ n < 2 ^ 64 := by
        rcases h with h | h
        · exact ⟨h.1, by have := h.2; omega⟩
        · exact ⟨by have := h.1; omega, h.2⟩
      rw [Label.toNumpyInt, NumpyInt.val_ofInt hrange]
  | float _ => exact h.elim False.elim False.elim
  | str _ => exact h.elim False.elim False.elim
  | obj _ => exact h.elim False.elim False.elim

theorem labels_of_ints {index : Index Obj} {xs : List NumpyInt}
    (h : to1dNumpyObjectArray numpy index = .ints xs) :
    index.labels = xs.map fun n => .int n.val := by
  cases index with
  | array arr =>
      obtain rfl : arr = .ints xs := h
      rfl
  | list labels =>
      change asarray numpy labels = _ at h
      rw [asarray] at h
      split at h
      next hints =>
        obtain rfl := NdArray.ints.inj h
        rw [List.map_map]
        change labels = _
        conv_lhs => rw [← List.map_id labels]
        refine List.map_congr_left fun l hl => (Label.toNumpyInt_of ?_).symm
        exact hints.2.imp (fun hall => hall l hl) fun hall => hall l hl
      next =>
        split at h
        · cases h
        · split at h <;> cases h

theorem floats_eq {index : Index Obj} {xs : List XRat}
    (h : to1dNumpyObjectArray numpy index = .floats xs) :
    xs = index.labels.map (toFloat numpy) ∧ ∀ l ∈ index.labels, l.IsNumber := by
  cases index with
  | array arr =>
      obtain rfl : arr = .floats xs := h
      change xs = (xs.map Label.float).map _ ∧ ∀ l ∈ xs.map Label.float, _
      rw [List.map_map]
      refine ⟨(List.map_id xs).symm, fun l hl => ?_⟩
      obtain ⟨x, -, rfl⟩ := List.mem_map.mp hl
      trivial
  | list labels =>
      change asarray numpy labels = _ at h
      rw [asarray] at h
      split at h
      · cases h
      · split at h
        next hnumbers =>
          obtain rfl := NdArray.floats.inj h
          exact ⟨rfl, hnumbers⟩
        next => split at h <;> cases h

theorem labels_of_objects {index : Index Obj} {xs : List (Label Obj)}
    (h : to1dNumpyObjectArray numpy index = .objects xs) : index.labels = xs := by
  cases index with
  | array arr =>
      obtain rfl : arr = .objects xs := h
      rfl
  | list labels =>
      change asarray numpy labels = _ at h
      rw [asarray] at h
      split at h
      · cases h
      · split at h
        · cases h
        · split at h
          · cases h
          · exact NdArray.objects.inj h

theorem floats_not_nan {index : Index Obj} {xs : List XRat}
    (h : to1dNumpyObjectArray numpy index = .floats xs)
    (hnan : ∀ l ∈ index.labels, l.value ≠ .number .nan) : ∀ x ∈ xs, x ≠ .nan := by
  obtain ⟨rfl, hnumbers⟩ := floats_eq h
  intro x hx
  obtain ⟨l, hl, rfl⟩ := List.mem_map.mp hx
  cases l with
  | int n => exact nofun
  | float x => exact fun heq => hnan _ hl (congrArg Value.number heq)
  | str _ => exact (hnumbers _ hl).elim
  | obj _ => exact (hnumbers _ hl).elim

/-! ## The branches -/

theorem sameGroup_int (labels : List (Label Obj)) (n n' : Int) :
    SameGroup labels (.int n) (.int n') ↔ n = n' := by
  have hkey : ∀ m : Int, groupKey labels (.int m) = .number (.fin m) := by
    intro m
    rw [groupKey]
    split
    · change Value.number (.fin (rint m)) = _
      rw [rint_intCast]
    · rfl
  rw [SameGroup, hkey, hkey, Value.number.injEq, XRat.fin.injEq, Int.cast_inj]
  exact and_iff_left nofun

theorem ints_iff {labels : List (Label Obj)} {xs : List NumpyInt} (hlength : xs.length < 2 ^ 63)
    (hlabels : labels = xs.map fun n => .int n.val) :
    (TellsApart (SameGroup labels) labels (xs.map wrapInt64) ∧
      ∃ count, InitialSegment Int.ofNat count (xs.map wrapInt64)) ↔
        ∃ count, InitialSegment Int.ofNat count (xs.map NumpyInt.val) := by
  rw [numbering_congr (fun _ _ h => Int.ofNat.inj h) (fun _ _ h => Int.ofNat.inj h)
    fun n _ k hk => wrapInt64_eq_iff n (Nat.lt_trans hk hlength)]
  refine and_iff_right ⟨by rw [hlabels, List.length_map, List.length_map], ?_⟩
  intro i j l l' n n' hl hl' hn hn'
  rw [List.getElem?_map, Option.map_eq_some_iff] at hn hn'
  obtain ⟨m, hm, rfl⟩ := hn
  obtain ⟨m', hm', rfl⟩ := hn'
  rw [hlabels, List.getElem?_map, hm] at hl
  rw [hlabels, List.getElem?_map, hm'] at hl'
  rw [← Option.some.inj hl, ← Option.some.inj hl', sameGroup_int]

theorem floats_iff (h : Documented numpy) {labels : List (Label Obj)} {xs : List XRat}
    (hlength : xs.length < 2 ^ 63) (hnan : ∀ x ∈ xs, x ≠ .nan) (round : XRat → XRat)
    (hround : ∀ x, x ≠ .nan → round x ≠ .nan) :
    (TellsApart (SameGroup labels) labels (xs.map fun x => castInt64 numpy (round x)) ∧
      ∃ count, InitialSegment Int.ofNat count (xs.map fun x => castInt64 numpy (round x))) ↔
    TellsApart (SameGroup labels) labels (xs.map fun x => truncFloat (round x)) ∧
      ∃ count, InitialSegment (fun k => XRat.fin k) count
        (xs.map fun x => truncFloat (round x)) := by
  refine numbering_congr (fun _ _ h => Int.ofNat.inj h) (fun i j h => ?_) fun x hx k hk => ?_
  · exact_mod_cast XRat.fin.inj h
  · exact castInt64_eq_iff h (hround x (hnan x hx)) (by omega)

/-- `np.unique` numbers the values of the labels. -/
theorem unique_iff (h : Documented numpy) {labels xs distinct : List (Label Obj)}
    {inverse : List Nat} (hunique : numpy.unique xs = .ok (distinct, inverse))
    (hnan : ∀ x ∈ xs, x.value ≠ .number .nan) :
    (TellsApart (SameGroup labels) labels (inverse.map Int.ofNat) ∧
      ∃ count, InitialSegment Int.ofNat count (inverse.map Int.ofNat)) ↔
        TellsApart (SameGroup labels) labels (xs.map Label.value) := by
  obtain ⟨hnodup, hlength, hindex, hmem⟩ := h.unique xs distinct inverse hunique hnan
  have hlength : inverse.length = (xs.map Label.value).length := by rw [hlength, List.length_map]
  have hindex : ∀ {i : Nat} {v : Value Obj} {k : Nat}, (xs.map Label.value)[i]? = some v →
      inverse[i]? = some k → (distinct.map Label.value)[k]? = some v := by
    intro i v k hv hk
    rw [List.getElem?_map, Option.map_eq_some_iff] at hv
    obtain ⟨x, hx, rfl⟩ := hv
    obtain ⟨u, hu, heq⟩ := hindex i x k hx hk
    rw [List.getElem?_map, hu, Option.map_some, heq]
  have hmem : ∀ v ∈ distinct.map Label.value, v ∈ xs.map Label.value := by
    intro v hv
    obtain ⟨u, hu, rfl⟩ := List.mem_map.mp hv
    exact hmem u hu
  rw [tellsApart_congr (tellsApart_of_index hnodup hlength hindex fun _ _ h => Int.ofNat.inj h)]
  exact and_iff_left ⟨_, initialSegment_of_index hnodup hlength hindex Int.ofNat hmem⟩

theorem strs_iff (h : Documented numpy) {labels distinct : List (Label Obj)} {ss : List String}
    {inverse : List Nat} (hunique : numpy.unique (ss.map .str) = .ok (distinct, inverse)) :
    (TellsApart (SameGroup labels) labels (inverse.map Int.ofNat) ∧
      ∃ count, InitialSegment Int.ofNat count (inverse.map Int.ofNat)) ↔
        TellsApart (SameGroup labels) labels ss := by
  rw [unique_iff h hunique, List.map_map]
  · have hvalues : TellsApart Eq ss (ss.map (Label.value ∘ (Label.str : String → Label Obj))) := by
      have hmap := @tellsApart_map_map _ _ _ ss (Label.value ∘ (Label.str : String → Label Obj)) id
        fun s _ s' _ => ⟨congrArg _, fun heq => Value.str.inj heq⟩
      rwa [List.map_id] at hmap
    exact tellsApart_congr hvalues
  · intro x hx
    obtain ⟨s, -, rfl⟩ := List.mem_map.mp hx
    exact nofun

theorem rintFloat_ne_nan {x : XRat} (hx : x ≠ .nan) : rintFloat x ≠ .nan := by
  cases x with
  | fin q => exact nofun
  | inf s => exact nofun
  | nan => exact absurd rfl hx

/-! ## The labels that keep their groups -/

/-- The labels whose groups `as_torch_index` keeps: what they are converted to tells them
apart, and is `0`, ..., `G - 1` when it is a number. -/
def Fits (numpy : Numpy Obj) (index : Index Obj) : Prop :=
  match to1dNumpyObjectArray numpy index with
  | .ints xs => ∃ G, InitialSegment Int.ofNat G (xs.map NumpyInt.val)
  | .floats xs =>
      let ys := xs.map fun x =>
        if ∀ x ∈ xs, isclose x (rintFloat x) then rintFloat x else truncFloat x
      TellsApart (SameGroup index.labels) index.labels ys ∧
        ∃ G, InitialSegment (fun k => XRat.fin k) G ys
  | .strs xs =>
      match xs.mapM (strInt64 numpy) with
      | .ok ns => TellsApart (SameGroup index.labels) index.labels ns ∧
          ∃ G, InitialSegment Int.ofNat G ns
      | .error _ => TellsApart (SameGroup index.labels) index.labels xs
  | .objects xs =>
      match xs.mapM (objectInt64 numpy) with
      | .ok ns => TellsApart (SameGroup index.labels) index.labels ns ∧
          ∃ G, InitialSegment Int.ofNat G ns
      | .error _ =>
          match numpy.unique xs with
          | .ok _ => TellsApart (SameGroup index.labels) index.labels (xs.map Label.value)
          | .error _ => TellsApart (SameGroup index.labels) index.labels (xs.map numpy.str)

/-- Strings are told apart as they are. -/
theorem tellsApart_strs (ss : List String) :
    TellsApart (SameGroup (ss.map (.str : String → Label Obj))) (ss.map .str) ss := by
  have hkey : ∀ labels : List (Label Obj), ∀ s, groupKey labels (.str s) = .str s := by
    intro labels s
    rw [groupKey]
    split <;> rfl
  refine ⟨(List.length_map _).symm, fun hl hl' hs hs' => ?_⟩
  rw [List.getElem?_map, hs] at hl
  rw [List.getElem?_map, hs'] at hl'
  rw [← Option.some.inj hl, ← Option.some.inj hl', SameGroup, hkey, hkey, Value.str.injEq]
  exact (and_iff_left nofun).symm

/-- The order of strings. -/
def strLe : Label Unit → Label Unit → Bool
  | .str s, .str s' => decide (s ≤ s')
  | _, _ => true

/-- `np.unique` of strings.  Other labels are not compared here. -/
def uniqueStrs (xs : List (Label Unit)) : Except Py.Error (List (Label Unit) × List Nat) :=
  if ∀ x ∈ xs, x.IsStr then
    let distinct := xs.dedup.mergeSort strLe
    .ok (distinct, xs.map distinct.idxOf)
  else .error (.type "'<' not supported")

/-- numpy for labels that are natural numbers, strings or `None`. -/
def plainNumpy : Numpy Unit where
  toDouble n := n
  parseInt s :=
    if s.toList ≠ [] ∧ s.toList.all Char.isDigit then
      .ok (s.toList.foldl (fun n c => 10 * n + (c.toNat - 48)) 0)
    else .error (.value "invalid literal for int() with base 10")
  intOf _ := .error (.type "int() argument must be a string or a real number, not 'NoneType'")
  str
    | .int n => toString n
    | .float _ => "float"
    | .str s => s
    | .obj _ => "None"
  unique := uniqueStrs
  invalidCast _ := -2 ^ 63

theorem documented_plainNumpy : Documented plainNumpy where
  invalidCast _ _ := .inl rfl
  unique xs distinct inverse hunique _ := by
    change uniqueStrs xs = _ at hunique
    rw [uniqueStrs] at hunique
    split at hunique
    next hstrs =>
      obtain ⟨rfl, rfl⟩ := Prod.ext_iff.mp (Except.ok.inj hunique)
      have hperm := List.mergeSort_perm xs.dedup strLe
      have hmem : ∀ x, x ∈ xs.dedup.mergeSort strLe ↔ x ∈ xs := by
        intro x
        rw [hperm.mem_iff, List.mem_dedup]
      refine ⟨?_, List.length_map _, fun i x k hx hk => ⟨x, ?_, rfl⟩, fun u hu =>
        List.mem_map_of_mem ((hmem u).mp hu)⟩
      · refine (hperm.nodup_iff.mpr xs.nodup_dedup).map_on fun x hx y hy heq => ?_
        have hx := hstrs x ((hmem x).mp hx)
        have hy := hstrs y ((hmem y).mp hy)
        cases x with
        | str s =>
            cases y with
            | str s' => exact congrArg Label.str (Value.str.inj heq)
            | int _ => exact hy.elim
            | float _ => exact hy.elim
            | obj _ => exact hy.elim
        | int _ => exact hx.elim
        | float _ => exact hx.elim
        | obj _ => exact hx.elim
      · rw [List.getElem?_map, hx] at hk
        rw [← Option.some.inj hk]
        exact List.getElem?_idxOf ((hmem x).mpr (List.mem_of_getElem? hx))
    next => cases hunique
  unique_strs ss := by
    refine ⟨_, if_pos fun x hx => ?_⟩
    obtain ⟨s, -, rfl⟩ := List.mem_map.mp hx
    trivial

theorem fits_names : Fits plainNumpy (.list [.str "b", .str "a", .str "b"]) := by
  have harr : to1dNumpyObjectArray plainNumpy (.list [.str "b", .str "a", .str "b"]) =
      .strs ["b", "a", "b"] := rfl
  have hcoerced : ["b", "a", "b"].mapM (strInt64 plainNumpy) =
      .error (.value "invalid literal for int() with base 10") := rfl
  simp only [Fits, harr, hcoerced]
  exact tellsApart_strs ["b", "a", "b"]

end Verl.Groupwise
