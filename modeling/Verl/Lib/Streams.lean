import Mathlib.Logic.Function.Basic

/-!
# Streams of a device

Work is issued to streams and runs later.  The work of one stream runs in order.
Nothing orders the work of two streams, unless one of them waits for the other:
then what is issued to it from now on runs after all that the other one had.

`seen a e` says that what is issued to the stream `a` next runs after the operation
`e`.  An operation that is issued again is a new one, and the other streams have not
seen it.  Work that uses the result of `e` may be issued to `a` only if `seen a e`.
-/

namespace Streams

variable {σ ε : Type*} [DecidableEq σ]

/-- Which operations each stream runs after. -/
abbrev Seen (σ ε : Type*) := σ → ε → Bool

namespace Seen

/-- The operation `e` is issued to the stream `a`. -/
def issue [DecidableEq ε] (seen : Seen σ ε) (a : σ) (e : ε) : Seen σ ε :=
  fun b e' => if e' = e then b = a else seen b e'

/-- `a.wait_stream(b)`. -/
def wait (seen : Seen σ ε) (a b : σ) : Seen σ ε :=
  fun c e => seen c e || (c = a && seen b e)

variable {seen : Seen σ ε} {a b c : σ} {e e' : ε}

@[simp] theorem issue_self [DecidableEq ε] : seen.issue a e a e = true := by
  simp [issue]

theorem issue_of_ne [DecidableEq ε] (h : e' ≠ e) : seen.issue a e b e' = seen b e' := if_neg h

/-- What a stream has seen it still has seen after a wait. -/
theorem wait_of_seen (h : seen c e = true) : seen.wait a b c e = true := by
  rw [wait, h, Bool.true_or]

/-- The stream that waits sees what the other one has seen. -/
theorem wait_self (h : seen b e = true) : seen.wait a b a e = true := by
  simp [wait, h]

end Seen

end Streams
