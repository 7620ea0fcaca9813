import Mathlib.Data.List.Basic
import Mathlib.Data.Nat.ModEq

/-!
# Python values

The exceptions that a modelled function can raise, and the list operations that
Lean's library does not have under the same meaning.  A function that can raise
returns `Except Py.Error`.
-/

namespace Py

universe u

/-! ## Exceptions -/

/-- The exceptions of the modelled functions. -/
inductive Error where
  | assertion (message : String)
  | index
  | key
  | notImplemented
  | runtime (message : String)
  | type (message : String)
  | value (message : String)
  | zeroDivision
deriving DecidableEq

/-- `assert condition, message`. -/
def check (condition : Prop) [Decidable condition] (message : String) : Except Error Unit :=
  if condition then .ok () else .error (.assertion message)

theorem check_of_true {condition : Prop} [Decidable condition] {message : String}
    (h : condition) : check condition message = .ok () := if_pos h

theorem check_of_false {condition : Prop} [Decidable condition] {message : String}
    (h : ¬ condition) : check condition message = .error (.assertion message) := if_neg h

theorem of_check_eq_ok {condition : Prop} [Decidable condition] {message : String} {u : Unit}
    (h : check condition message = .ok u) : condition := by
  by_contra hfalse
  rw [check_of_false hfalse] at h
  cases h

@[simp] theorem ok_bind {α β : Type u} (a : α) (f : α → Except Error β) :
    ((Except.ok a : Except Error α) >>= f) = f a := rfl

@[simp] theorem pure_eq_ok {α : Type u} (a : α) : (pure a : Except Error α) = .ok a := rfl

@[simp] theorem error_bind {α β : Type u} (e : Error) (f : α → Except Error β) :
    ((Except.error e : Except Error α) >>= f) = .error e := rfl

theorem bind_eq_ok {α β : Type u} {x : Except Error α} {f : α → Except Error β} {b : β} :
    x >>= f = .ok b ↔ ∃ a, x = .ok a ∧ f a = .ok b := by
  cases x with
  | error e => simp
  | ok a => simp

/-- A loop of assertions that all hold. -/
theorem forM_check {α : Type*} {xs : List α} {condition : α → Prop}
    [∀ x, Decidable (condition x)] {message : α → String} (h : ∀ x ∈ xs, condition x) :
    (xs.forM fun x => check (condition x) (message x)) = .ok () := by
  induction xs with
  | nil => rfl
  | cons x xs ih =>
      rw [List.forM_eq_forM, List.forM_cons, check_of_true (h x List.mem_cons_self), ok_bind]
      exact ih fun y hy => h y (List.mem_cons_of_mem x hy)

/-- `xs[i]`. -/
def getItem {α : Type*} (xs : List α) (i : Nat) : Except Error α :=
  match xs[i]? with
  | some x => .ok x
  | none => .error .index

theorem getItem_of_some {α : Type*} {xs : List α} {i : Nat} {x : α} (h : xs[i]? = some x) :
    getItem xs i = .ok x := by
  rw [getItem, h]

/-- `xs[i] = x`. -/
def setItem {α : Type*} (xs : List α) (i : Nat) (x : α) : Except Error (List α) :=
  if i < xs.length then .ok (xs.set i x) else .error .index

theorem getItem_of_lt {α : Type*} {xs : List α} {i : Nat} (h : i < xs.length) (default : α) :
    getItem xs i = .ok (xs.getD i default) := by
  apply getItem_of_some
  rw [List.getD_eq_getElem?_getD, List.getElem?_eq_getElem h, Option.getD_some]

theorem setItem_of_lt {α : Type*} {xs : List α} {i : Nat} {x : α} (h : i < xs.length) :
    setItem xs i x = .ok (xs.set i x) := if_pos h

/-- `xs[i] = x` for an integer `i`, which counts from the end if it is negative. -/
def setItemInt {α : Type*} (xs : List α) (i : Int) (x : α) : Except Error (List α) :=
  if 0 ≤ i then setItem xs i.toNat x
  else if i.natAbs ≤ xs.length then .ok (xs.set (xs.length - i.natAbs) x)
  else .error .index

/-- The elements of a list by their indices. -/
theorem map_getD_range {ρ : Type*} (rows : List ρ) (default : ρ) :
    (List.range rows.length).map (fun idx => rows.getD idx default) = rows := by
  refine List.ext_getElem (by rw [List.length_map, List.length_range]) fun idx _ hidx => ?_
  rw [List.getElem_map, List.getElem_range, List.getD_eq_getElem?_getD,
    List.getElem?_eq_getElem hidx, Option.getD_some]

/-- A comprehension whose elements do not raise. -/
theorem mapM_eq_ok {α β : Type*} {f : α → Except Error β} {g : α → β} {xs : List α}
    (h : ∀ x ∈ xs, f x = .ok (g x)) : xs.mapM f = .ok (xs.map g) := by
  induction xs with
  | nil => rfl
  | cons x xs ih =>
      rw [List.mapM_cons, h x List.mem_cons_self, ih fun y hy => h y (List.mem_cons_of_mem x hy)]
      rfl

theorem mapM_map_eq_ok {α β γ : Type*} {f : β → Except Error γ} {g : α → β} {h : α → γ}
    {xs : List α} (hok : ∀ x ∈ xs, f (g x) = .ok (h x)) : (xs.map g).mapM f = .ok (xs.map h) := by
  rw [List.mapM_map]
  exact mapM_eq_ok hok

/-- In a comprehension that does not raise, no element does. -/
theorem getElem?_of_mapM_eq_ok {α β : Type*} {f : α → Except Error β} {xs : List α} {ys : List β}
    (h : xs.mapM f = .ok ys) {i : Nat} {x : α} (hx : xs[i]? = some x) :
    ∃ y, f x = .ok y ∧ ys[i]? = some y := by
  induction xs generalizing ys i with
  | nil => cases hx
  | cons z xs ih =>
      rw [List.mapM_cons, bind_eq_ok] at h
      obtain ⟨y, hy, h⟩ := h
      rw [bind_eq_ok] at h
      obtain ⟨rest, hrest, h⟩ := h
      obtain rfl := Except.ok.inj h
      cases i with
      | zero =>
          obtain rfl := Option.some.inj hx
          exact ⟨y, hy, rfl⟩
      | succ i =>
          rw [List.getElem?_cons_succ] at hx ⊢
          exact ih hrest hx

/-- `a // b` for integers that are not negative. -/
def floorDiv (a b : Nat) : Except Error Nat :=
  if b = 0 then .error .zeroDivision else .ok (a / b)

/-- `a % b` for integers that are not negative. -/
def floorMod (a b : Nat) : Except Error Nat :=
  if b = 0 then .error .zeroDivision else .ok (a % b)

/-- `a % b`. -/
def intMod (a b : Int) : Except Error Int :=
  if b = 0 then .error .zeroDivision else .ok (a.fmod b)

/-- `a // b`. -/
def intDiv (a b : Int) : Except Error Int :=
  if b = 0 then .error .zeroDivision else .ok (a.fdiv b)

theorem intDiv_of_pos (a : Int) {b : Int} (h : 0 < b) : intDiv a b = .ok (a / b) := by
  rw [intDiv, if_neg (Int.ne_of_gt h), Int.fdiv_eq_ediv_of_nonneg a (Int.le_of_lt h)]

theorem intMod_of_pos (a : Int) {b : Int} (h : 0 < b) : intMod a b = .ok (a % b) := by
  rw [intMod, if_neg (Int.ne_of_gt h), Int.fmod_eq_emod_of_nonneg a (Int.le_of_lt h)]

theorem floorMod_of_pos {a b : Nat} (h : 0 < b) : floorMod a b = .ok (a % b) :=
  if_neg (Nat.pos_iff_ne_zero.mp h)

theorem floorDiv_of_pos {a b : Nat} (h : 0 < b) : floorDiv a b = .ok (a / b) :=
  if_neg (Nat.pos_iff_ne_zero.mp h)

theorem pos_of_floorDiv_eq_ok {a b q : Nat} (h : floorDiv a b = .ok q) : 0 < b ∧ q = a / b := by
  rw [floorDiv] at h
  split at h
  · cases h
  next hne =>
    rw [Except.ok.injEq] at h
    exact ⟨Nat.pos_of_ne_zero hne, h.symm⟩

/-! ## Strings -/

theorem toString_nat_inj {i j : Nat} (h : (toString i).toList = (toString j).toList) : i = j := by
  rw [Nat.toString_eq_repr, Nat.toString_eq_repr, Nat.toList_repr, Nat.toList_repr] at h
  rw [← @Nat.ofDigitChars_ten_toDigits i, h, Nat.ofDigitChars_ten_toDigits]

/-! ## Slices -/

/-- `xs[:-k]`.  As in Python, `xs[:-0]` is `xs[:0]`. -/
def dropEnd {α : Type*} (xs : List α) (k : Nat) : List α :=
  if k = 0 then [] else xs.take (xs.length - k)

/-- `xs[-k:]`.  As in Python, `xs[-0:]` is `xs[0:]`. -/
def takeEnd {α : Type*} (xs : List α) (k : Nat) : List α :=
  if k = 0 then xs else xs.drop (xs.length - k)

/-- `xs[:n]` for an integer `n`. -/
def upTo {α : Type*} (xs : List α) (n : Int) : List α :=
  if 0 ≤ n then xs.take n.toNat else dropEnd xs n.natAbs

theorem upTo_ofNat {α : Type*} (xs : List α) (n : Nat) : upTo xs n = xs.take n := by
  rw [upTo, if_pos (Int.natCast_nonneg n), Int.toNat_natCast]

/-- Code that leaves out the slice when there is nothing to drop. -/
theorem dropEnd_unless_zero {α : Type*} (xs : List α) (k : Nat) :
    (if k = 0 then xs else dropEnd xs k) = xs.take (xs.length - k) := by
  split
  next hk => rw [hk, Nat.sub_zero, List.take_length]
  next hk => rw [dropEnd, if_neg hk]

theorem takeEnd_append {α : Type*} (xs ys : List α) (h : ys ≠ []) :
    takeEnd (xs ++ ys) ys.length = ys := by
  rw [takeEnd, if_neg (List.length_pos_iff.mpr h).ne', List.length_append, Nat.add_sub_cancel,
    List.drop_left]

/-- `xs[start::step]` for `start < step`. -/
def everyNth {α : Type*} (start step : Nat) (xs : List α) : List α :=
  (xs.zipIdx.filter fun x => x.2 % step = start).map Prod.fst

theorem mem_of_mem_everyNth {α : Type*} {start step : Nat} {xs : List α} {x : α}
    (h : x ∈ everyNth start step xs) : x ∈ xs := by
  obtain ⟨y, hy, rfl⟩ := List.mem_map.mp h
  exact List.fst_mem_of_mem_zipIdx (List.mem_of_mem_filter hy)

/-- The even and the odd positions are all positions. -/
theorem everyNth_two_perm {α : Type*} (xs : List α) :
    (everyNth 0 2 xs ++ everyNth 1 2 xs).Perm xs := by
  have hodd : (xs.zipIdx.filter fun x => x.2 % 2 = 1) =
      xs.zipIdx.filter fun x => !decide (x.2 % 2 = 0) := by
    refine List.filter_congr fun x _ => ?_
    rw [Bool.eq_iff_iff, decide_eq_true_eq, Bool.not_eq_true', decide_eq_false_iff_not]
    omega
  rw [everyNth, everyNth, hodd, ← List.map_append]
  have hperm := (List.filter_append_perm (fun x : α × Nat => decide (x.2 % 2 = 0)) xs.zipIdx).map
    Prod.fst
  rwa [List.zipIdx_map_fst] at hperm

/-! ## Strings -/

/-- A string or `None` under `if x`. -/
def truthy (x : Option String) : Option String := x.filter (· ≠ "")

/-- `repr` of a string without quotes or escapes in it. -/
def reprStr (s : String) : String := s!"'{s}'"

/-- `repr` of a string or `None`. -/
def reprOption : Option String → String
  | none => "None"
  | some s => reprStr s

/-- `repr` of a list of items whose `repr` is known. -/
def reprList (items : List String) : String := "[" ++ ", ".intercalate items ++ "]"

/-- `sorted(s)` of a set of strings. -/
def sorted (s : List String) : List String := s.dedup.mergeSort fun a b => decide (a ≤ b)

end Py
