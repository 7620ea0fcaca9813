import Mathlib.Algebra.Order.Floor.Ring
import Mathlib.Data.Rat.Floor
import Verl.Lib.ExtendedRat
import Verl.Lib.Numbering
import Verl.Lib.Python

/-!
# Group labels as integers

`as_torch_index` of `verl/utils/groupwise.py` turns group labels into the integers by which
the advantages are grouped.  Labels come as a list or as an array of numpy.  What numpy and
Python do with strings and with other objects is a parameter (`Numpy`).

Labels that are scalars are modelled: numbers, strings and objects that equal no number and
no string, such as `None` or a UUID.
-/

namespace Verl.Groupwise

variable {Obj : Type}

/-! ## Labels -/

inductive Label (Obj : Type) where
  | int (n : Int)
  | float (x : XRat)
  | str (s : String)
  | obj (o : Obj)
deriving DecidableEq

/-- What a label is equal to: numbers are equal by value. -/
inductive Value (Obj : Type) where
  | number (x : XRat)
  | str (s : String)
  | obj (o : Obj)
deriving DecidableEq

namespace Label

def value : Label Obj → Value Obj
  | int n => .number (.fin n)
  | float x => .number x
  | str s => .str s
  | obj o => .obj o

/-- An `int` that numpy keeps in an array of `int64`. -/
def IsInt64 : Label Obj → Prop
  | int n => -2 ^ 63 ≤ n ∧ n < 2 ^ 63
  | _ => False

/-- An `int` that numpy keeps in an array of `uint64` only. -/
def IsUint64 : Label Obj → Prop
  | int n => 2 ^ 63 ≤ n ∧ n < 2 ^ 64
  | _ => False

/-- A number, of at most 64 bits when it is an `int`. -/
def IsNumber : Label Obj → Prop
  | int n => -2 ^ 63 ≤ n ∧ n < 2 ^ 64
  | float _ => True
  | _ => False

def IsStr : Label Obj → Prop
  | str _ => True
  | _ => False

instance (l : Label Obj) : Decidable l.IsInt64 := by cases l <;> unfold IsInt64 <;> infer_instance

instance (l : Label Obj) : Decidable l.IsUint64 := by
  cases l <;> unfold IsUint64 <;> infer_instance

instance (l : Label Obj) : Decidable l.IsNumber := by
  cases l <;> unfold IsNumber <;> infer_instance

instance (l : Label Obj) : Decidable l.IsStr := by cases l <;> unfold IsStr <;> infer_instance

end Label

/-! ## numpy -/

/-- An integer of one of numpy's integer types. -/
structure NumpyInt where
  val : Int
  lower : -2 ^ 63 ≤ val
  upper : val < 2 ^ 64
deriving DecidableEq

/-- An array with one axis, by the kind of its type. -/
inductive NdArray (Obj : Type) where
  | ints (xs : List NumpyInt)
  | floats (xs : List XRat)
  | strs (xs : List String)
  | objects (xs : List (Label Obj))

/-- What numpy and Python do with strings and objects, and where a conversion has no
documented result. -/
structure Numpy (Obj : Type) where
  toDouble : Int → ℚ
  parseInt : String → Except Py.Error Int
  intOf : Obj → Except Py.Error Int
  str : Label Obj → String
  unique : List (Label Obj) → Except Py.Error (List (Label Obj) × List Nat)
  invalidCast : XRat → Int

variable (numpy : Numpy Obj)

/-- An integer as an entry of an integer array. -/
def NumpyInt.ofInt (n : Int) : NumpyInt :=
  if h : -2 ^ 63 ≤ n ∧ n < 2 ^ 64 then ⟨n, h.1, h.2⟩ else ⟨0, by decide, by decide⟩

/-- An `int` as an entry of an integer array. -/
def Label.toNumpyInt : Label Obj → NumpyInt
  | .int n => .ofInt n
  | _ => .ofInt 0

/-- A number as an entry of a float array. -/
def toFloat : Label Obj → XRat
  | .int n => .fin (numpy.toDouble n)
  | .float x => x
  | _ => .nan

/-- An array of strings does not keep the zero characters at an end. -/
def withoutTrailingNul (s : String) : String :=
  String.ofList (s.toList.reverse.dropWhile (· = Char.ofNat 0)).reverse

/-- A label as an entry of a string array. -/
def toText : Label Obj → String
  | .str s => withoutTrailingNul s
  | label => numpy.str label

/-- `np.asarray` of a list of labels. -/
def asarray (labels : List (Label Obj)) : NdArray Obj :=
  if labels ≠ [] ∧ ((∀ l ∈ labels, l.IsInt64) ∨ ∀ l ∈ labels, l.IsUint64) then
    .ints (labels.map Label.toNumpyInt)
  else if ∀ l ∈ labels, l.IsNumber then .floats (labels.map (toFloat numpy))
  else if ∀ l ∈ labels, l.IsNumber ∨ l.IsStr then .strs (labels.map (toText numpy))
  else .objects labels

/-- Labels as a list or as an array. -/
inductive Index (Obj : Type) where
  | list (labels : List (Label Obj))
  | array (arr : NdArray Obj)

/-- `_to_1d_numpy_object_array` -/
def to1dNumpyObjectArray : Index Obj → NdArray Obj
  | .list labels => asarray numpy labels
  | .array arr => arr

/-- The nearest integer, the even one of two. -/
def rint (q : ℚ) : Int :=
  if q - ⌊q⌋ < 1 / 2 then ⌊q⌋
  else if q - ⌊q⌋ > 1 / 2 then ⌊q⌋ + 1
  else if ⌊q⌋ % 2 = 0 then ⌊q⌋ else ⌊q⌋ + 1

/-- The integer part. -/
def trunc (q : ℚ) : Int := if 0 ≤ q then ⌊q⌋ else ⌈q⌉

/-- `np.rint` -/
def rintFloat : XRat → XRat
  | .fin q => .fin (rint q)
  | x => x

/-- The integer part of a float, as a float. -/
def truncFloat : XRat → XRat
  | .fin q => .fin (trunc q)
  | x => x

/-- `abs(x - y) <= 1e-6`, or both are the same infinity. -/
def isclose : XRat → XRat → Prop
  | .fin p, .fin q => |p - q| ≤ 1 / 10 ^ 6
  | .inf s, .inf s' => s = s'
  | _, _ => False

instance (x y : XRat) : Decidable (isclose x y) := by
  cases x <;> cases y <;> unfold isclose <;> infer_instance

/-- The integers of `int64`. -/
def InInt64 (n : Int) : Prop := -2 ^ 63 ≤ n ∧ n < 2 ^ 63

instance (n : Int) : Decidable (InInt64 n) := inferInstanceAs (Decidable (_ ∧ _))

/-- `astype(np.int64)` of an integer. -/
def wrapInt64 (n : NumpyInt) : Int := n.val.bmod (2 ^ 64)

/-- `astype(np.int64)` of a float. -/
def castInt64 : XRat → Int
  | .fin q => if InInt64 (trunc q) then trunc q else numpy.invalidCast (.fin q)
  | x => numpy.invalidCast x

/-- An `int` as an `int64`. -/
def checkInt64 (n : Int) : Except Py.Error Int :=
  if InInt64 n then .ok n else .error (.value "Python int too large to convert to C long")

/-- `astype(np.int64)` of a string. -/
def strInt64 (s : String) : Except Py.Error Int := numpy.parseInt s >>= checkInt64

/-- `astype(np.int64)` of an object. -/
def objectInt64 : Label Obj → Except Py.Error Int
  | .int n => checkInt64 n
  | .float (.fin q) => checkInt64 (trunc q)
  | .float _ => .error (.value "cannot convert float to integer")
  | .str s => strInt64 numpy s
  | .obj o => numpy.intOf o >>= checkInt64

namespace NdArray

/-- The entries as objects. -/
def labels : NdArray Obj → List (Label Obj)
  | ints xs => xs.map fun n => .int n.val
  | floats xs => xs.map .float
  | strs xs => xs.map .str
  | objects xs => xs

/-- `arr.astype(np.int64)` -/
def astypeInt64 : NdArray Obj → Except Py.Error (List Int)
  | ints xs => .ok (xs.map wrapInt64)
  | floats xs => .ok (xs.map (castInt64 numpy))
  | strs xs => xs.mapM (strInt64 numpy)
  | objects xs => xs.mapM (objectInt64 numpy)

end NdArray

/-- The labels that are given. -/
def Index.labels : Index Obj → List (Label Obj)
  | .list labels => labels
  | .array arr => arr.labels

/-! ## The source function -/

/-- Integers are returned as they are, and floats near integers are rounded. -/
def numericIds : NdArray Obj → Option (List Int)
  | .ints xs => some (xs.map wrapInt64)
  | .floats xs =>
      if ∀ x ∈ xs, isclose x (rintFloat x) then
        some (xs.map fun x => castInt64 numpy (rintFloat x))
      else none
  | _ => none

/-- Factorization. -/
def factorize (xs : List (Label Obj)) : Except Py.Error (List Int) :=
  match numpy.unique xs with
  | .ok (_, inverse) => .ok (inverse.map Int.ofNat)
  | .error _ => do
      let (_, inverse) ← numpy.unique (xs.map fun x => .str (numpy.str x))
      return inverse.map Int.ofNat

/-- `as_torch_index`, for labels that are not a tensor. -/
def asTorchIndex (index : Index Obj) : Except Py.Error (List Int) :=
  let arr := to1dNumpyObjectArray numpy index
  match numericIds numpy arr with
  | some ids => .ok ids
  | none =>
      match arr.astypeInt64 numpy with
      | .ok coerced => .ok coerced
      | .error _ => factorize numpy arr.labels

end Verl.Groupwise
