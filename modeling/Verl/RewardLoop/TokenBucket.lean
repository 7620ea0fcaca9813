import Mathlib.Algebra.Order.Field.Rat
import Mathlib.Algebra.Order.BigOperators.Group.List
import Mathlib.Tactic.Linarith
import Mathlib.Tactic.FieldSimp
import Verl.Lib.Run

/-!
# The token bucket

`AsyncTokenBucket` limits the rate of the requests to a reward server.  Any number of
coroutines are inside `acquire`.  A critical section under the lock is one step, at the
time that it reads, and between two steps of one coroutine the others may do any number
of theirs.  Time is rational and exact.

A request of at most `max_tokens` takes its tokens when it returns.  A larger one takes
them at once, the balance becomes negative, and it returns after its sleep.
-/

namespace Verl.RewardLoop

/-! ## The bucket -/

structure AsyncTokenBucket where
  rateLimit : ℚ
  maxTokens : ℚ
  tokens : ℚ
  lastUpdate : Option ℚ

namespace AsyncTokenBucket

/-- `__init__`, where `max_tokens or rate_limit` is `rate_limit` also for `0`. -/
def init (rateLimit : ℚ) (maxTokens : Option ℚ) : AsyncTokenBucket :=
  let maxTokens := match maxTokens with
    | some m => if m = 0 then rateLimit else m
    | none => rateLimit
  ⟨rateLimit, maxTokens, maxTokens, none⟩

/-- `self.tokens = min(self.max_tokens, self.tokens + new_tokens)` and
`self.last_update = now`. -/
def refill (b : AsyncTokenBucket) (now : ℚ) : AsyncTokenBucket :=
  let elapsed := now - b.lastUpdate.getD now
  let newTokens := elapsed * b.rateLimit
  { b with tokens := min b.maxTokens (b.tokens + newTokens), lastUpdate := some now }

/-- `self.tokens -= num_tokens`. -/
def consume (b : AsyncTokenBucket) (numTokens : ℚ) : AsyncTokenBucket :=
  { b with tokens := b.tokens - numTokens }

end AsyncTokenBucket

/-- Where a coroutine is in `acquire`. -/
inductive AcquirePhase where
  /-- Before a critical section. -/
  | waitsForLock
  /-- `asyncio.sleep` may end at this time or later. -/
  | sleeps (wakeTime : ℚ)
  | returned (time : ℚ)

/-- A sleep that ends now is at most `delay` longer than asked. -/
def AcquirePhase.WakesWithin (delay now : ℚ) : AcquirePhase → Prop
  | .sleeps wakeTime => now ≤ wakeTime + delay
  | _ => True

instance (delay now : ℚ) : (phase : AcquirePhase) → Decidable (phase.WakesWithin delay now)
  | .sleeps wakeTime => inferInstanceAs (Decidable (now ≤ wakeTime + delay))
  | .waitsForLock => .isTrue trivial
  | .returned _ => .isTrue trivial

/-- `if wait_time > 0: await asyncio.sleep(wait_time)`, and what follows without it. -/
def sleepFor (now waitTime : ℚ) (otherwise : AcquirePhase) : AcquirePhase :=
  if waitTime > 0 then .sleeps (now + waitTime) else otherwise

namespace AsyncTokenBucket

/-- The critical section of a request of more than `max_tokens`. -/
def acquireOversized (b : AsyncTokenBucket) (now numTokens : ℚ) :
    AsyncTokenBucket × AcquirePhase :=
  let b := b.refill now
  let tokensNeeded := numTokens - b.tokens
  let waitTime := if tokensNeeded > 0 then tokensNeeded / b.rateLimit else 0
  (b.consume numTokens, sleepFor now waitTime (.returned now))

/-- The critical section of any other request. -/
def acquireStandard (b : AsyncTokenBucket) (now numTokens : ℚ) :
    AsyncTokenBucket × AcquirePhase :=
  let b := b.refill now
  if b.tokens ≥ numTokens then (b.consume numTokens, .returned now)
  else
    let tokensNeeded := numTokens - b.tokens
    let waitTime := tokensNeeded / b.rateLimit
    (b, sleepFor now waitTime .waitsForLock)

/-- The critical section of `acquire`. -/
def acquire (b : AsyncTokenBucket) (now numTokens : ℚ) : AsyncTokenBucket × AcquirePhase :=
  if numTokens > b.maxTokens then b.acquireOversized now numTokens
  else b.acquireStandard now numTokens

/-- The end of a sleep: a large request returns, another one tries again. -/
def afterSleep (b : AsyncTokenBucket) (now numTokens : ℚ) : AcquirePhase :=
  if numTokens > b.maxTokens then .returned now else .waitsForLock

end AsyncTokenBucket

/-! ## The coroutines -/

structure AcquireCall where
  numTokens : ℚ
  calledAt : ℚ
  phase : AcquirePhase

/-- The bucket and all calls so far, at a time. -/
structure Limiter where
  bucket : AsyncTokenBucket
  now : ℚ
  calls : List AcquireCall

inductive Event where
  | call (numTokens : ℚ)
  /-- The critical section of a call. -/
  | lock (i : Nat)
  /-- The end of the sleep of a call. -/
  | wake (i : Nat)

namespace Limiter

/-- The bucket at its creation. -/
def start (rateLimit : ℚ) (maxTokens : Option ℚ) (now : ℚ) : Limiter :=
  ⟨.init rateLimit maxTokens, now, []⟩

/-- An event at a time. -/
def next (s : Limiter) : ℚ × Event → Option Limiter
  | (now, event) =>
      if s.now ≤ now then
        match event with
        | .call numTokens =>
            if 0 < numTokens then
              some { s with now := now, calls := s.calls ++ [⟨numTokens, now, .waitsForLock⟩] }
            else none
        | .lock i =>
            match s.calls[i]? with
            | some ⟨numTokens, calledAt, .waitsForLock⟩ =>
                let (bucket, phase) := s.bucket.acquire now numTokens
                some ⟨bucket, now, s.calls.set i ⟨numTokens, calledAt, phase⟩⟩
            | _ => none
        | .wake i =>
            match s.calls[i]? with
            | some ⟨numTokens, calledAt, .sleeps wakeTime⟩ =>
                if wakeTime ≤ now then
                  some { s with
                    now := now
                    calls := s.calls.set i
                      ⟨numTokens, calledAt, s.bucket.afterSleep now numTokens⟩ }
                else none
            | _ => none
      else none

/-- The total of the calls that returned from time `a` to time `b`. -/
def returnedWithin (s : Limiter) (a b : ℚ) : ℚ :=
  (s.calls.map fun c =>
    match c.phase with
    | .returned time => if a ≤ time ∧ time ≤ b then c.numTokens else 0
    | _ => 0).sum

/-- The total of the calls that returned up to time `b`. -/
def returnedUntil (s : Limiter) (b : ℚ) : ℚ :=
  (s.calls.map fun c =>
    match c.phase with
    | .returned time => if time ≤ b then c.numTokens else 0
    | _ => 0).sum

/-- No large request sleeps more than `delay` longer than it asked. -/
def WakesWithin (delay : ℚ) (s : Limiter) : ℚ × Event → Prop
  | (now, .wake i) => ∀ c ∈ s.calls[i]?, c.numTokens > s.bucket.maxTokens →
      c.phase.WakesWithin delay now
  | _ => True

instance (delay : ℚ) (s : Limiter) : (a : ℚ × Event) → Decidable (s.WakesWithin delay a)
  | (_, .wake i) => inferInstanceAs (Decidable (∀ c ∈ s.calls[i]?, _ → _))
  | (_, .call _) => .isTrue trivial
  | (_, .lock _) => .isTrue trivial

end Limiter

end Verl.RewardLoop
