import Mathlib.Data.List.Basic

/-!
# Decoding with a fixed next-token function

`next` gives the token that follows a context, with an annotation (its
log-probability), or `none` at the end of the text.  `Continues next ctx out`
says that `out` is an initial part of what follows `ctx`.  Two initial parts
are comparable, so a limit leaves only one that is complete.
-/

namespace Decoding

variable {T A : Type*} {next : List T → Option (T × A)}

/-- `out` is what `next` gives after `ctx`, or an initial part of it. -/
def Continues (next : List T → Option (T × A)) : List T → List (T × A) → Prop
  | _, [] => True
  | ctx, x :: xs => next ctx = some x ∧ Continues next (ctx ++ [x.1]) xs

/-- Nothing can be added to `out` within the limit. -/
def Complete (next : List T → Option (T × A)) (limit : Option Int) (ctx : List T)
    (out : List (T × A)) : Prop :=
  next (ctx ++ out.map Prod.fst) = none ∨ limit = some (out.length : Int)

variable {ctx : List T} {xs ys : List (T × A)}

/-- A continuation is continued from where it stopped. -/
theorem continues_append :
    Continues next ctx (xs ++ ys) ↔
      Continues next ctx xs ∧ Continues next (ctx ++ xs.map Prod.fst) ys := by
  induction xs generalizing ctx with
  | nil =>
      rw [List.nil_append, List.map_nil, List.append_nil, Continues, true_and]
  | cons x xs ih =>
      rw [List.cons_append, Continues, Continues, ih, List.map_cons, and_assoc, List.append_assoc,
        List.singleton_append]

theorem Continues.prefix_or_prefix (hx : Continues next ctx xs) (hy : Continues next ctx ys) :
    xs <+: ys ∨ ys <+: xs := by
  induction xs generalizing ctx ys with
  | nil => exact .inl (List.nil_prefix)
  | cons x xs ih =>
      cases ys with
      | nil => exact .inr (List.nil_prefix)
      | cons y ys =>
          obtain rfl : x = y := Option.some.inj (hx.1.symm.trans hy.1)
          rcases ih hx.2 hy.2 with h | h
          · exact .inl (List.cons_prefix_cons.mpr ⟨rfl, h⟩)
          · exact .inr (List.cons_prefix_cons.mpr ⟨rfl, h⟩)

/-- What is complete is not a proper part of what is within the limit. -/
theorem Complete.eq_of_prefix {limit : Option Int} (hx : Complete next limit ctx xs)
    (hy : Continues next ctx ys) (hlimit : ∀ n, limit = some n → (ys.length : Int) ≤ n)
    (h : xs <+: ys) : xs = ys := by
  obtain ⟨zs, rfl⟩ := h
  cases zs with
  | nil => rw [List.append_nil]
  | cons z zs =>
      rcases hx with hend | hfull
      · have hz := (continues_append.mp hy).2.1
        rw [hend] at hz
        cases hz
      · have := hlimit _ hfull
        rw [List.length_append, List.length_cons] at this
        omega

/-- There is one complete continuation within the limit. -/
theorem Continues.eq_of_complete {limit : Option Int} (hx : Continues next ctx xs)
    (hy : Continues next ctx ys) (hxc : Complete next limit ctx xs)
    (hyc : Complete next limit ctx ys) (hxl : ∀ n, limit = some n → (xs.length : Int) ≤ n)
    (hyl : ∀ n, limit = some n → (ys.length : Int) ≤ n) : xs = ys := by
  rcases hx.prefix_or_prefix hy with h | h
  · exact hxc.eq_of_prefix hy hyl h
  · exact (hyc.eq_of_prefix hx hxl h).symm

end Decoding
