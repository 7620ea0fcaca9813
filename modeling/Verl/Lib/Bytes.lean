import Mathlib.Algebra.Ring.Int.Defs
import Verl.Lib.Slices

/-!
# Fixed-width encodings

A `Codec` turns a value into `width` bytes and back.  A list is packed without
framing, so a slice of the packed bytes at a multiple of the width packs a slice
of the list.

*Integers.*  `int32` is the little-endian two's complement encoding.  It is
exact on the 32-bit integers.
-/

namespace Bytes

open Slices (slice)

variable {α : Type}

/-! ## Packed lists -/

structure Codec (α : Type) where
  width : Nat
  encode : α → List UInt8
  decode : List UInt8 → α

namespace Codec

/-- What is encoded takes `width` bytes, and what satisfies `P` reads back. -/
structure Exact (c : Codec α) (P : α → Prop) : Prop where
  length_encode : ∀ a, (c.encode a).length = c.width
  decode_encode : ∀ a, P a → c.decode (c.encode a) = a

variable (c : Codec α)

def pack (xs : List α) : List UInt8 := xs.flatMap c.encode

/-- Reads `n` values. -/
def unpackN : Nat → List UInt8 → List α
  | 0, _ => []
  | n + 1, bytes => c.decode (bytes.take c.width) :: unpackN n (bytes.drop c.width)

def unpack (bytes : List UInt8) : List α := c.unpackN (bytes.length / c.width) bytes

variable {c} {P : α → Prop}

theorem length_pack (h : c.Exact P) (xs : List α) :
    (c.pack xs).length = xs.length * c.width := by
  induction xs with
  | nil => rw [pack, List.flatMap_nil, List.length_nil, List.length_nil, Nat.zero_mul]
  | cons x xs ih =>
      rw [pack, List.flatMap_cons, List.length_append, h.length_encode, List.length_cons,
        Nat.add_mul, Nat.one_mul, Nat.add_comm]
      exact congrArg (· + c.width) ih

theorem unpackN_pack (h : c.Exact P) {xs : List α} (hxs : ∀ x ∈ xs, P x) :
    c.unpackN xs.length (c.pack xs) = xs := by
  induction xs with
  | nil => rfl
  | cons x xs ih =>
      have hlength := h.length_encode x
      rw [List.length_cons, unpackN, pack, List.flatMap_cons, List.take_left' hlength,
        List.drop_left' hlength, h.decode_encode x (hxs x List.mem_cons_self)]
      exact congrArg (x :: ·) (ih fun y hy => hxs y (List.mem_cons_of_mem x hy))

/-- What was packed is unpacked. -/
theorem unpack_pack (h : c.Exact P) (hwidth : 0 < c.width) {xs : List α}
    (hxs : ∀ x ∈ xs, P x) : c.unpack (c.pack xs) = xs := by
  rw [unpack, length_pack h, Nat.mul_div_cancel _ hwidth]
  exact unpackN_pack h hxs

theorem drop_pack (h : c.Exact P) (xs : List α) (start : Nat) :
    (c.pack xs).drop (start * c.width) = c.pack (xs.drop start) := by
  induction start generalizing xs with
  | zero => rw [Nat.zero_mul, List.drop_zero, List.drop_zero]
  | succ start ih =>
      cases xs with
      | nil => rw [List.drop_nil, pack, List.flatMap_nil, List.drop_nil]
      | cons x xs =>
          rw [List.drop_succ_cons, ← ih xs, pack, List.flatMap_cons, Nat.add_mul, Nat.one_mul,
            Nat.add_comm, ← List.drop_drop, List.drop_left' (h.length_encode x)]
          rfl

theorem take_pack (h : c.Exact P) (xs : List α) (size : Nat) :
    (c.pack xs).take (size * c.width) = c.pack (xs.take size) := by
  induction size generalizing xs with
  | zero => rw [Nat.zero_mul, List.take_zero, List.take_zero, pack, List.flatMap_nil]
  | succ size ih =>
      cases xs with
      | nil => rw [List.take_nil, pack, List.flatMap_nil, List.take_nil]
      | cons x xs =>
          have hlength := h.length_encode x
          rw [List.take_succ_cons, pack, pack, List.flatMap_cons, List.flatMap_cons, Nat.add_mul,
            Nat.one_mul, Nat.add_comm, ← hlength, List.take_length_add_append, hlength]
          exact congrArg (c.encode x ++ ·) (ih xs)

/-- A slice of the packed bytes. -/
theorem slice_pack (h : c.Exact P) (xs : List α) (start size : Nat) :
    slice (c.pack xs) (start * c.width) (size * c.width) = c.pack (slice xs start size) := by
  rw [slice, drop_pack h, take_pack h, slice]

end Codec

/-! ## Integers -/

/-- The `w` little-endian bytes of `n`. -/
def toLE : Nat → Nat → List UInt8
  | 0, _ => []
  | w + 1, n => UInt8.ofNat (n % 256) :: toLE w (n / 256)

def ofLE : List UInt8 → Nat
  | [] => 0
  | b :: bs => b.toNat + 256 * ofLE bs

theorem length_toLE (w n : Nat) : (toLE w n).length = w := by
  induction w generalizing n with
  | zero => rfl
  | succ w ih => rw [toLE, List.length_cons, ih]

theorem ofLE_toLE {w n : Nat} (h : n < 256 ^ w) : ofLE (toLE w n) = n := by
  induction w generalizing n with
  | zero =>
      rw [Nat.pow_zero, Nat.lt_one_iff] at h
      exact h.symm
  | succ w ih =>
      have hlow : n % 256 % 2 ^ 8 = n % 256 := Nat.mod_eq_of_lt (Nat.mod_lt n (by decide))
      rw [Nat.pow_succ, Nat.mul_comm] at h
      rw [toLE, ofLE, ih (Nat.div_lt_of_lt_mul h), UInt8.toNat_ofNat', hlow]
      exact Nat.mod_add_div n 256

/-- The wrap of a 32-bit signed integer. -/
def wrap32 (i : Int) : Int := i.bmod (2 ^ 32)

theorem wrap32_eq {i : Int} (hlow : -2 ^ 31 ≤ i) (hhigh : i < 2 ^ 31) : wrap32 i = i := by
  rw [wrap32, Int.bmod_def]
  omega

theorem wrap32_natCast {n : Nat} (h : n < 2 ^ 31) : wrap32 n = n :=
  wrap32_eq (by omega) (by omega)

theorem wrap32_emod (i : Int) : wrap32 (i % 2 ^ 32) = wrap32 i := Int.emod_bmod ..

/-- 32-bit signed integers. -/
def int32 : Codec Int where
  width := 4
  encode i := toLE 4 (i % 2 ^ 32).toNat
  decode bytes := wrap32 (ofLE bytes)

theorem int32_exact : int32.Exact fun i => -2 ^ 31 ≤ i ∧ i < 2 ^ 31 where
  length_encode i := length_toLE 4 _
  decode_encode i hi := by
    simp only [int32]
    have hbyte : (i % 2 ^ 32).toNat < 256 ^ 4 := by omega
    have hnonneg : 0 ≤ i % 2 ^ 32 := by omega
    rw [ofLE_toLE hbyte, Int.toNat_of_nonneg hnonneg, wrap32_emod, wrap32_eq hi.1 hi.2]

end Bytes
