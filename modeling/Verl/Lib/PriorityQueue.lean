import Mathlib.Data.List.Basic

/-!
# A priority queue on a list

The queue is the list of its elements.  `push` is `cons`.  `pop` takes out an
element that no other is less than.  Where the elements differ pairwise in the
order, this is the element that a binary heap takes out.
-/

namespace PriorityQueue

variable {α : Type*} (lt : α → α → Bool)

/-- The least element and the others, `none` on the empty queue. -/
def pop : List α → Option (α × List α)
  | [] => none
  | a :: l =>
      match pop l with
      | none => some (a, [])
      | some (m, rest) => if lt m a then some (m, a :: rest) else some (a, l)

variable {lt}

theorem pop_eq_none {l : List α} (h : pop lt l = none) : l = [] := by
  cases l with
  | nil => rfl
  | cons a l =>
      rw [pop] at h
      split at h
      · cases h
      · split at h <;> cases h

/-- `pop` takes one element out and keeps the others. -/
theorem pop_perm {l rest : List α} {m : α} (h : pop lt l = some (m, rest)) :
    l.Perm (m :: rest) := by
  induction l generalizing m rest with
  | nil => cases h
  | cons a l ih =>
      rw [pop] at h
      split at h
      next hnone =>
        rw [pop_eq_none hnone]
        rw [Option.some.injEq, Prod.mk.injEq] at h
        rw [h.1, h.2]
      next m' rest' hsome =>
        split at h
        · rw [Option.some.injEq, Prod.mk.injEq] at h
          obtain ⟨rfl, rfl⟩ := h
          exact ((ih hsome).cons a).trans (List.Perm.swap m' a rest')
        · rw [Option.some.injEq, Prod.mk.injEq] at h
          rw [h.1, h.2]

end PriorityQueue
