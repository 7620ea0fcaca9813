import Mathlib.Data.List.Infix
import Mathlib.Logic.Function.Basic
import Verl.Lib.Run

/-!
# Relays

A chain of parties.  Party `0` makes items.  Every other party gets the items of
the party before it, one at a time and in order.  `got k` is the list of the
items that party `k` has had.

This says what a chain of transfers is for, and nothing about how a party comes
by an item.  A protocol is a relay if each of its steps is one of these steps or
none (`Run.exec_simulates`).  Then every party has had a part of what the first
one made (`Ordered.prefix_zero`).
-/

namespace Relay

variable {α : Type*}

inductive Act (α : Type*) where
  | produce (x : α)
  /-- Party `k + 1` gets its next item. -/
  | forward (k : Nat)

def next (got : Nat → List α) : Act α → Option (Nat → List α)
  | .produce x => some (Function.update got 0 (got 0 ++ [x]))
  | .forward k =>
      (got k)[(got (k + 1)).length]?.map fun x =>
        Function.update got (k + 1) (got (k + 1) ++ [x])

def init : Nat → List α := fun _ => []

variable {got got' : Nat → List α}

/-- An item is forwarded when the party before has it and this one has not. -/
theorem next_forward {k : Nat} {x : α} {rest : List α}
    (h : got k = got (k + 1) ++ x :: rest) :
    next got (.forward k) = some (Function.update got (k + 1) (got (k + 1) ++ [x])) := by
  rw [next, h, List.getElem?_append_right (Nat.le_refl _), Nat.sub_self]
  rfl

/-- No party is ahead of the one before it. -/
def Ordered (got : Nat → List α) : Prop := ∀ k, got (k + 1) <+: got k

theorem next_ordered (hgot : Ordered got) {a : Act α} (h : next got a = some got') :
    Ordered got' := by
  cases a with
  | produce x =>
      cases h
      intro k
      cases k with
      | zero =>
          rw [Function.update_of_ne (Nat.succ_ne_zero 0), Function.update_self]
          exact (hgot 0).trans (List.prefix_append _ _)
      | succ k =>
          rw [Function.update_of_ne (Nat.succ_ne_zero _), Function.update_of_ne (Nat.succ_ne_zero _)]
          exact hgot (k + 1)
  | forward i =>
      obtain ⟨x, hx, rfl⟩ := Option.map_eq_some_iff.mp h
      intro k
      by_cases hk : k = i
      · subst hk
        rw [Function.update_self, Function.update_of_ne (Nat.ne_of_lt (Nat.lt_succ_self k))]
        obtain ⟨rest, hrest⟩ := hgot k
        rw [← hrest, List.getElem?_append_right (Nat.le_refl _), Nat.sub_self] at hx
        cases rest with
        | nil => cases hx
        | cons y rest =>
            cases hx
            rw [← hrest]
            exact ⟨rest, by rw [List.append_assoc]; rfl⟩
      · rw [Function.update_of_ne (fun h => hk (Nat.succ.inj h))]
        by_cases hk' : k = i + 1
        · subst hk'
          rw [Function.update_self]
          exact (hgot (i + 1)).trans (List.prefix_append _ _)
        · rw [Function.update_of_ne hk']
          exact hgot k

theorem init_ordered : Ordered (init : Nat → List α) := fun _ => List.prefix_refl []

/-- In every run no party gets ahead of the one before it. -/
theorem Ordered.exec (hgot : Ordered got) {as : List (Act α)}
    (h : Run.exec next got as = some got') : Ordered got' :=
  Run.exec_invariant (fun _ _ _ hgot hstep => next_ordered hgot hstep) hgot h

/-- Every party has had a part of what the first one made. -/
theorem Ordered.prefix_zero (hgot : Ordered got) (k : Nat) : got k <+: got 0 := by
  induction k with
  | zero => exact List.prefix_refl _
  | succ k ih => exact (hgot k).trans ih

end Relay
