import Mathlib.Tactic.Ring
import Verl.RewardLoop.TokenBucket

/-!
# The rate of the token bucket

A large request is due when its sleep asks to end, any other one when it takes its
tokens.  What is due from one request on, with the balance, never exceeds the refill
since then by more than a credit (`Account`).  A window of requests that are due holds at
most the credit and the refill of the window.

The requests return late by what their sleeps are longer than asked, so the window of
the returns has that much more refill (`tokenBucket_rate`).
-/

namespace Verl.RewardLoop

/-! ## One step -/

section Bucket

variable {b : AsyncTokenBucket} {now numTokens : ℚ}

theorem tokens_refill_le (b : AsyncTokenBucket) (now : ℚ) :
    (b.refill now).tokens ≤ b.maxTokens := min_le_left _ _

/-- A refill adds no more than the rate allows. -/
theorem tokens_refill_le_add {u : ℚ} (h : b.lastUpdate = some u) (now : ℚ) :
    (b.refill now).tokens ≤ b.tokens + (now - u) * b.rateLimit := by
  refine (min_le_right _ _).trans_eq ?_
  rw [h, Option.getD_some]

/-- A request takes its tokens and is due at a time. -/
structure Takes (b : AsyncTokenBucket) (now numTokens due : ℚ) (b' : AsyncTokenBucket)
    (phase : AcquirePhase) : Prop where
  bucket : b' = (b.refill now).consume numTokens
  cases : numTokens ≤ b.maxTokens ∧ 0 ≤ b'.tokens ∧ due = now ∧ phase = .returned now ∨
    b.maxTokens < numTokens ∧ b'.tokens = (now - due) * b.rateLimit ∧ phase = .sleeps due

/-- A critical section takes the tokens, or only refills the bucket. -/
theorem acquire_cases (hrate : 0 < b.rateLimit) (now numTokens : ℚ) :
    (∃ due, Takes b now numTokens due (b.acquire now numTokens).1 (b.acquire now numTokens).2) ∨
    numTokens ≤ b.maxTokens ∧ (b.acquire now numTokens).1 = b.refill now ∧
      ((b.acquire now numTokens).2 = .waitsForLock ∨
        ∃ wakeTime, (b.acquire now numTokens).2 = .sleeps wakeTime) := by
  unfold AsyncTokenBucket.acquire
  split
  next hlarge =>
    have hneeded : numTokens - (b.refill now).tokens > 0 := by
      have hle := tokens_refill_le b now
      linarith
    have hwait : (numTokens - (b.refill now).tokens) / b.rateLimit > 0 := div_pos hneeded hrate
    have hphase : (b.refill now).rateLimit = b.rateLimit := rfl
    have hmul := div_mul_cancel₀ (numTokens - (b.refill now).tokens) hrate.ne'
    refine .inl ⟨now + (numTokens - (b.refill now).tokens) / b.rateLimit, rfl,
      .inr ⟨hlarge, ?_, ?_⟩⟩
    · change (b.refill now).tokens - numTokens = _
      linarith
    · rw [AsyncTokenBucket.acquireOversized]
      simp only [if_pos hneeded, hphase, sleepFor, if_pos hwait]
  next hsmall =>
    have hsmall := not_lt.mp hsmall
    unfold AsyncTokenBucket.acquireStandard
    simp only
    split
    next henough => exact .inl ⟨now, rfl, .inl ⟨hsmall, sub_nonneg.mpr henough, rfl, rfl⟩⟩
    next =>
      refine .inr ⟨hsmall, rfl, ?_⟩
      rw [sleepFor]
      split
      · exact .inr ⟨_, rfl⟩
      · exact .inl rfl

variable {due : ℚ} {b' : AsyncTokenBucket} {phase : AcquirePhase}

/-- When a request is due, its tokens are there. -/
theorem Takes.balance (h : Takes b now numTokens due b' phase) :
    (now - due) * b.rateLimit ≤ b'.tokens := by
  obtain ⟨-, hnonneg, rfl, -⟩ | ⟨-, htokens, -⟩ := h.cases
  · rw [sub_self, zero_mul]
    exact hnonneg
  · exact htokens.ge

theorem Takes.start (h : Takes b now numTokens due b' phase) :
    numTokens + b'.tokens ≤ max b.maxTokens numTokens + (now - due) * b.rateLimit := by
  obtain ⟨-, -, rfl, -⟩ | ⟨-, htokens, -⟩ := h.cases
  · have htokens : b'.tokens = (b.refill due).tokens - numTokens := by rw [h.bucket]; rfl
    have hle := tokens_refill_le b due
    have hmax := le_max_left b.maxTokens numTokens
    rw [sub_self, zero_mul]
    linarith
  · have hmax := le_max_right b.maxTokens numTokens
    linarith

end Bucket

/-! ## Metering -/

/-- The amount of a call that counts: it returned at a time that counts, or it has taken
its tokens and is due at one. -/
def AcquireCall.metered (c : AcquireCall) (maxTokens : ℚ) (counts isDue : ℚ → Prop)
    [DecidablePred counts] [DecidablePred isDue] : ℚ :=
  match c.phase with
  | .waitsForLock => 0
  | .sleeps wakeTime => if maxTokens < c.numTokens ∧ isDue wakeTime then c.numTokens else 0
  | .returned time => if counts time then c.numTokens else 0

namespace Limiter

variable {s s' : Limiter}

def metered (s : Limiter) (counts isDue : ℚ → Prop) [DecidablePred counts]
    [DecidablePred isDue] : ℚ :=
  (s.calls.map fun c => c.metered s.bucket.maxTokens counts isDue).sum

theorem sum_map_set {α : Type} (f : α → ℚ) {xs : List α} {i : Nat} {x : α}
    (h : xs[i]? = some x) (y : α) : ((xs.set i y).map f).sum = (xs.map f).sum + (f y - f x) := by
  induction xs generalizing i with
  | nil => cases h
  | cons x' xs ih =>
      cases i with
      | zero =>
          obtain rfl := Option.some.inj h
          rw [List.set_cons_zero, List.map_cons, List.map_cons, List.sum_cons, List.sum_cons]
          ring
      | succ i =>
          rw [List.getElem?_cons_succ] at h
          rw [List.set_cons_succ, List.map_cons, List.map_cons, List.sum_cons, List.sum_cons, ih h]
          ring

end Limiter

/-! ## Accounts -/

/-- The tokens taken since a time are at least `amount`, and with the balance they are at
most the credit and the refill since then. -/
def Account (b : AsyncTokenBucket) (amount credit start : ℚ) : Prop :=
  ∃ u total, b.lastUpdate = some u ∧ amount ≤ total ∧
    total + b.tokens ≤ credit + (u - start) * b.rateLimit

section Account

variable {b : AsyncTokenBucket} {amount credit start : ℚ}

theorem Account.mono (h : Account b amount credit start) {amount' : ℚ} (hle : amount' ≤ amount) :
    Account b amount' credit start := by
  obtain ⟨u, total, hu, htotal, hbalance⟩ := h
  exact ⟨u, total, hu, hle.trans htotal, hbalance⟩

theorem Account.refill (h : Account b amount credit start) (now : ℚ) :
    Account (b.refill now) amount credit start := by
  obtain ⟨u, total, hu, htotal, hbalance⟩ := h
  refine ⟨now, total, rfl, htotal, ?_⟩
  have hle := tokens_refill_le_add hu now
  change total + (b.refill now).tokens ≤ credit + (now - start) * b.rateLimit
  linarith

theorem Account.consume (h : Account b amount credit start) (numTokens : ℚ) :
    Account (b.consume numTokens) (amount + numTokens) credit start := by
  obtain ⟨u, total, hu, htotal, hbalance⟩ := h
  refine ⟨u, total + numTokens, hu, by linarith, ?_⟩
  change total + numTokens + (b.tokens - numTokens) ≤ credit + (u - start) * b.rateLimit
  linarith

/-- An account gives a bound up to the time at which the balance is there. -/
theorem Account.amount_le (h : Account b amount credit start) {u due : ℚ}
    (hu : b.lastUpdate = some u) (hbalance : (u - due) * b.rateLimit ≤ b.tokens) :
    amount ≤ credit + (due - start) * b.rateLimit := by
  obtain ⟨u', total, hu', htotal, hle⟩ := h
  obtain rfl := Option.some.inj (hu.symm.trans hu')
  linarith

end Account

/-! ## One event -/

namespace Limiter

variable {s s' : Limiter} {rateLimit maxTokens now : ℚ} {event : Event}

/-- What holds in every state. -/
structure Sound (rateLimit maxTokens : ℚ) (s : Limiter) : Prop where
  rate : s.bucket.rateLimit = rateLimit
  capacity : s.bucket.maxTokens = maxTokens
  tokens : s.bucket.tokens ≤ maxTokens
  updated : ∀ u ∈ s.bucket.lastUpdate, u ≤ s.now
  positive : ∀ c ∈ s.calls, 0 < c.numTokens

/-- What an event does to the bucket, and to the amount that is metered. -/
inductive Effect (s : Limiter) (now amount : ℚ) (isDue : ℚ → Prop) (s' : Limiter)
    (amount' : ℚ) : Prop where
  | keeps (bucket : s'.bucket = s.bucket) (le : amount' ≤ amount)
  | refills (bucket : s'.bucket = s.bucket.refill now) (le : amount' ≤ amount)
  | takes (c : AcquireCall) (mem : c ∈ s.calls) (due : ℚ)
      (bucket : s'.bucket = (s.bucket.refill now).consume c.numTokens)
      (balance : (now - due) * s.bucket.rateLimit ≤ s'.bucket.tokens)
      (start : c.numTokens + s'.bucket.tokens ≤
        max s.bucket.maxTokens c.numTokens + (now - due) * s.bucket.rateLimit)
      (le : amount' ≤ amount ∨ isDue due ∧ amount' ≤ amount + c.numTokens)

/-- The three kinds of events. -/
theorem next_eq_some (h : s.next (now, event) = some s') :
    s.now ≤ now ∧
    ((∃ numTokens, event = .call numTokens ∧ 0 < numTokens ∧
        s' = ⟨s.bucket, now, s.calls ++ [⟨numTokens, now, .waitsForLock⟩]⟩) ∨
      (∃ i c, event = .lock i ∧ s.calls[i]? = some c ∧ c.phase = .waitsForLock ∧
        s' = ⟨(s.bucket.acquire now c.numTokens).1, now,
          s.calls.set i { c with phase := (s.bucket.acquire now c.numTokens).2 }⟩) ∨
      ∃ i c wakeTime, event = .wake i ∧ s.calls[i]? = some c ∧ c.phase = .sleeps wakeTime ∧
        wakeTime ≤ now ∧ s' = ⟨s.bucket, now,
          s.calls.set i { c with phase := s.bucket.afterSleep now c.numTokens }⟩) := by
  unfold next at h
  simp only at h
  split at h
  next htime =>
    refine ⟨htime, ?_⟩
    cases event with
    | call numTokens =>
        simp only at h
        split at h
        next hpos => exact .inl ⟨numTokens, rfl, hpos, (Option.some.inj h).symm⟩
        next => cases h
    | lock i =>
        refine .inr (.inl ?_)
        cases hget : s.calls[i]? with
        | none =>
            simp only [hget] at h
            cases h
        | some c =>
            obtain ⟨numTokens, calledAt, phase⟩ := c
            cases phase with
            | waitsForLock =>
                simp only [hget] at h
                exact ⟨i, _, rfl, hget, rfl, (Option.some.inj h).symm⟩
            | sleeps wakeTime =>
                simp only [hget] at h
                cases h
            | returned time =>
                simp only [hget] at h
                cases h
    | wake i =>
        refine .inr (.inr ?_)
        cases hget : s.calls[i]? with
        | none =>
            simp only [hget] at h
            cases h
        | some c =>
            obtain ⟨numTokens, calledAt, phase⟩ := c
            cases phase with
            | waitsForLock =>
                simp only [hget] at h
                cases h
            | sleeps wakeTime =>
                simp only [hget] at h
                split at h
                next hwoken =>
                  exact ⟨i, _, wakeTime, rfl, hget, rfl, hwoken, (Option.some.inj h).symm⟩
                next => cases h
            | returned time =>
                simp only [hget] at h
                cases h
  next => cases h

section Metered

variable {counts isDue : ℚ → Prop} [DecidablePred counts] [DecidablePred isDue]

theorem metered_set {i : Nat} {c c' : AcquireCall} (hget : s.calls[i]? = some c)
    (hcalls : s'.calls = s.calls.set i c') (hcapacity : s'.bucket.maxTokens = s.bucket.maxTokens) :
    s'.metered counts isDue = s.metered counts isDue +
      (c'.metered s.bucket.maxTokens counts isDue - c.metered s.bucket.maxTokens counts isDue) := by
  rw [metered, metered, hcalls, hcapacity]
  exact sum_map_set _ hget c'

theorem next_effect (hs : s.Sound rateLimit maxTokens) (hrate : 0 < rateLimit)
    (h : s.next (now, event) = some s') (hnow : counts now → isDue now)
    (hwake : ∀ i, event = .wake i → ∀ c ∈ s.calls[i]?, ∀ wakeTime, c.phase = .sleeps wakeTime →
      maxTokens < c.numTokens → wakeTime ≤ now → counts now → isDue wakeTime) :
    s'.Sound rateLimit maxTokens ∧
      Effect s now (s.metered counts isDue) isDue s' (s'.metered counts isDue) := by
  obtain ⟨htime, ⟨numTokens, -, hpos, rfl⟩ | ⟨i, c, -, hget, hphase, rfl⟩ |
    ⟨i, c, wakeTime, hevent, hget, hphase, hwoken, rfl⟩⟩ := next_eq_some h
  · refine ⟨⟨hs.rate, hs.capacity, hs.tokens, fun u hu => (hs.updated u hu).trans htime,
      fun c hc => ?_⟩, .keeps rfl ?_⟩
    · rcases List.mem_append.mp hc with hc | hc
      · exact hs.positive c hc
      · rw [List.mem_singleton.mp hc]
        exact hpos
    · rw [metered, metered, List.map_append, List.sum_append, List.map_singleton,
        List.sum_singleton]
      exact (add_zero _).le
  · have hmem := List.mem_of_getElem? hget
    have hzero : c.metered s.bucket.maxTokens counts isDue = 0 := by
      rw [AcquireCall.metered, hphase]
    have hpositive (phase : AcquirePhase) :
        ∀ c' ∈ s.calls.set i { c with phase := phase }, 0 < c'.numTokens := by
      intro c' hc'
      rcases List.mem_or_eq_of_mem_set hc' with hc' | rfl
      · exact hs.positive c' hc'
      · exact hs.positive c hmem
    have hrefilled := tokens_refill_le s.bucket now
    rw [hs.capacity] at hrefilled
    obtain ⟨due, htakes⟩ | ⟨hsmall, hbucket, hretry⟩ :=
      acquire_cases (hs.rate ▸ hrate) now c.numTokens
    · have hbucket := htakes.bucket
      refine ⟨⟨?_, ?_, ?_, fun u hu => ?_, hpositive _⟩,
        .takes c hmem due hbucket htakes.balance htakes.start ?_⟩
      · rw [hbucket]
        exact hs.rate
      · rw [hbucket]
        exact hs.capacity
      · have hpos := hs.positive c hmem
        rw [hbucket]
        change (s.bucket.refill now).tokens - c.numTokens ≤ maxTokens
        linarith
      · rw [hbucket] at hu
        exact (Option.some.inj hu).ge
      · rw [metered_set hget rfl (by rw [hbucket]; rfl), hzero, sub_zero, AcquireCall.metered]
        obtain ⟨-, -, rfl, hphase⟩ | ⟨-, -, hphase⟩ := htakes.cases
        · simp only [hphase]
          split
          next hcounts => exact .inr ⟨hnow hcounts, le_rfl⟩
          next => exact .inl (add_zero _).le
        · simp only [hphase]
          split
          next hcounts => exact .inr ⟨hcounts.2, le_rfl⟩
          next => exact .inl (add_zero _).le
    · refine ⟨⟨?_, ?_, ?_, fun u hu => ?_, hpositive _⟩, .refills hbucket ?_⟩
      · rw [hbucket]
        exact hs.rate
      · rw [hbucket]
        exact hs.capacity
      · rw [hbucket]
        exact hrefilled
      · rw [hbucket] at hu
        exact (Option.some.inj hu).ge
      · rw [metered_set hget rfl (by rw [hbucket]; rfl), hzero, sub_zero, AcquireCall.metered]
        obtain hphase | ⟨wakeTime, hphase⟩ := hretry
        · simp only [hphase]
          exact (add_zero _).le
        · simp only [hphase]
          rw [if_neg fun h => absurd h.1 (not_lt.mpr hsmall)]
          exact (add_zero _).le
  · have hmem := List.mem_of_getElem? hget
    refine ⟨⟨hs.rate, hs.capacity, hs.tokens, fun u hu => (hs.updated u hu).trans htime,
      fun c' hc' => ?_⟩, .keeps rfl ?_⟩
    · rcases List.mem_or_eq_of_mem_set hc' with hc' | rfl
      · exact hs.positive c' hc'
      · exact hs.positive c hmem
    · have hpos := hs.positive c hmem
      rw [@metered_set s ⟨s.bucket, now, _⟩ counts isDue _ _ i c _ hget rfl rfl,
        AcquireCall.metered, AcquireCall.metered, hphase]
      simp only [AsyncTokenBucket.afterSleep]
      by_cases hlarge : s.bucket.maxTokens < c.numTokens
      · -- what counts when it returns was due at a time that counts
        have hdue : counts now → isDue wakeTime :=
          hwake i hevent c hget wakeTime hphase (hs.capacity ▸ hlarge) hwoken
        simp only [if_pos hlarge]
        by_cases hcounts : counts now
        · rw [if_pos hcounts, if_pos ⟨hlarge, hdue hcounts⟩, sub_self, add_zero]
        · rw [if_neg hcounts]
          split
          · linarith
          · linarith
      · simp only [if_neg hlarge]
        rw [if_neg fun h => hlarge h.1, sub_self, add_zero]

end Metered

/-! ## Windows -/

/-- The amount is within the credit and the refill of a window, and once it is positive,
it has an account that starts in the window. -/
structure WindowBound (s : Limiter) (amount credit x y : ℚ) : Prop where
  le : amount ≤ credit + (y - x) * s.bucket.rateLimit
  account : amount ≤ 0 ∨ ∃ start, x ≤ start ∧ Account s.bucket amount credit start

/-- An event keeps the bound of a window, if the credit covers all requests. -/
theorem Effect.windowBound {amount amount' credit x y : ℚ} {isDue : ℚ → Prop}
    (heffect : Effect s now amount isDue s' amount') (hrate : 0 < s.bucket.rateLimit)
    (h : WindowBound s amount credit x y) (hpositive : ∀ c ∈ s.calls, 0 < c.numTokens)
    (hdue : ∀ due, isDue due → x ≤ due ∧ due ≤ y)
    (hcredit : ∀ c ∈ s.calls, max s.bucket.maxTokens c.numTokens ≤ credit) :
    WindowBound s' amount' credit x y := by
  cases heffect with
  | keeps bucket le =>
      refine ⟨?_, ?_⟩
      · rw [bucket]
        exact le.trans h.le
      · rw [bucket]
        exact h.account.imp le.trans fun ⟨start, hstart, haccount⟩ =>
          ⟨start, hstart, haccount.mono le⟩
  | refills bucket le =>
      refine ⟨?_, ?_⟩
      · rw [bucket]
        exact le.trans h.le
      · rw [bucket]
        exact h.account.imp le.trans fun ⟨start, hstart, haccount⟩ =>
          ⟨start, hstart, (haccount.refill now).mono le⟩
  | takes c mem due bucket balance start le =>
      have hpos := hpositive c mem
      have hrate' : s'.bucket.rateLimit = s.bucket.rateLimit := by
        rw [bucket]
        rfl
      have hupdate : s'.bucket.lastUpdate = some now := by
        rw [bucket]
        rfl
      have hle : amount' ≤ amount + c.numTokens := le.elim (fun hle => by linarith) And.right
      have hold {since : ℚ} (haccount : Account s.bucket amount credit since) :
          Account s'.bucket amount' credit since := by
        rw [bucket]
        exact ((haccount.refill now).consume c.numTokens).mono hle
      rcases le with hle | ⟨hisDue, -⟩
      · refine ⟨?_, ?_⟩
        · rw [hrate']
          exact hle.trans h.le
        · exact h.account.imp hle.trans fun ⟨since, hsince, haccount⟩ =>
            ⟨since, hsince, hold haccount⟩
      · obtain ⟨since, hsince, haccount⟩ :
            ∃ since, x ≤ since ∧ Account s'.bucket amount' credit since := by
          obtain hzero | ⟨since, hsince, haccount⟩ := h.account
          · -- the first request that is due in the window
            refine ⟨due, (hdue due hisDue).1, now, c.numTokens, hupdate, by linarith, ?_⟩
            have hcovered := hcredit c mem
            rw [hrate']
            linarith
          · exact ⟨since, hsince, hold haccount⟩
        refine ⟨?_, .inr ⟨since, hsince, haccount⟩⟩
        have hamount := haccount.amount_le hupdate (hrate' ▸ balance)
        have hwindow := mul_le_mul_of_nonneg_right
          (sub_le_sub (hdue due hisDue).2 hsince) hrate.le
        rw [hrate'] at hamount ⊢
        linarith

/-- The same for the time since the first call, with a full bucket as the credit. -/
structure StartBound (s : Limiter) (amount first y : ℚ) : Prop where
  le : amount ≤ s.bucket.maxTokens + (y - first) * s.bucket.rateLimit
  now : first ≤ s.now
  account : amount ≤ 0 ∧ s.bucket.lastUpdate = none ∨
    Account s.bucket amount s.bucket.maxTokens first

theorem Effect.startBound {amount amount' first y : ℚ} {isDue : ℚ → Prop}
    (heffect : Effect s now amount isDue s' amount') (hrate : 0 < s.bucket.rateLimit)
    (h : StartBound s amount first y) (hnow : s.now ≤ now) (hnow' : s'.now = now)
    (hpositive : ∀ c ∈ s.calls, 0 < c.numTokens) (hdue : ∀ due, isDue due → due ≤ y) :
    StartBound s' amount' first y := by
  have hfirst : first ≤ now := h.now.trans hnow
  -- the first critical section finds a full bucket
  have hrefilled : Account (s.bucket.refill now) amount s.bucket.maxTokens first := by
    obtain ⟨hzero, hnone⟩ | haccount := h.account
    · refine ⟨now, 0, rfl, hzero, ?_⟩
      have hle := tokens_refill_le s.bucket now
      have hmul := mul_nonneg (sub_nonneg.mpr hfirst) hrate.le
      change 0 + (s.bucket.refill now).tokens ≤
        s.bucket.maxTokens + (now - first) * s.bucket.rateLimit
      linarith
    · exact haccount.refill now
  cases heffect with
  | keeps bucket le =>
      refine ⟨?_, hnow' ▸ hfirst, ?_⟩
      · rw [bucket]
        exact le.trans h.le
      · rw [bucket]
        exact h.account.imp (fun ⟨hzero, hnone⟩ => ⟨le.trans hzero, hnone⟩)
          fun haccount => haccount.mono le
  | refills bucket le =>
      refine ⟨?_, hnow' ▸ hfirst, .inr ?_⟩
      · rw [bucket]
        exact le.trans h.le
      · rw [bucket]
        exact hrefilled.mono le
  | takes c mem due bucket balance start le =>
      have hpos := hpositive c mem
      have hrate' : s'.bucket.rateLimit = s.bucket.rateLimit := by
        rw [bucket]
        rfl
      have hcapacity : s'.bucket.maxTokens = s.bucket.maxTokens := by
        rw [bucket]
        rfl
      have hupdate : s'.bucket.lastUpdate = some now := by
        rw [bucket]
        rfl
      have hle : amount' ≤ amount + c.numTokens := le.elim (fun hle => by linarith) And.right
      have haccount : Account s'.bucket amount' s.bucket.maxTokens first := by
        rw [bucket]
        exact (hrefilled.consume c.numTokens).mono hle
      refine ⟨?_, hnow' ▸ hfirst, .inr (hcapacity ▸ haccount)⟩
      rw [hcapacity, hrate']
      rcases le with hle | ⟨hisDue, -⟩
      · exact hle.trans h.le
      · have hamount := haccount.amount_le hupdate (hrate' ▸ balance)
        have hwindow := mul_le_mul_of_nonneg_right
          (sub_le_sub_right (hdue due hisDue) first) hrate.le
        rw [hrate'] at hamount
        linarith

/-! ## Runs -/

section Runs

variable {rateLimit maxTokens created : ℚ} {run : List (ℚ × Event)}

theorem sound_start {capacity : Option ℚ} (hcapacity : ∀ m ∈ capacity, 0 < m) (created : ℚ) :
    (start rateLimit capacity created).Sound rateLimit (capacity.getD rateLimit) := by
  have hmax : (AsyncTokenBucket.init rateLimit capacity).maxTokens =
      capacity.getD rateLimit := by
    cases capacity with
    | none => rfl
    | some m => exact if_neg (hcapacity m rfl).ne'
  refine ⟨rfl, hmax, hmax.le, fun u hu => ?_, fun c hc => ?_⟩
  · cases hu
  · cases hc

/-- All states of a run are sound. -/
theorem sound_run (hrate : 0 < rateLimit) (hs : s.Sound rateLimit maxTokens)
    (h : Run.exec next s run = some s') : s'.Sound rateLimit maxTokens := by
  refine Run.exec_invariant (fun s a t hs ht => ?_) hs h
  obtain ⟨now, event⟩ := a
  exact (@next_effect s t rateLimit maxTokens now event (fun _ => False) (fun _ => False) _ _ hs
    hrate ht id fun _ _ _ _ _ _ _ _ => id).1

/-- No request asks for more. -/
def AtMost (largest : ℚ) (run : List (ℚ × Event)) : Prop :=
  ∀ a ∈ run, ∀ numTokens, a.2 = .call numTokens → numTokens ≤ largest

theorem calls_le {largest : ℚ} {a : ℚ × Event} (hcalls : ∀ c ∈ s.calls, c.numTokens ≤ largest)
    (ha : ∀ numTokens, a.2 = .call numTokens → numTokens ≤ largest) (h : s.next a = some s') :
    ∀ c ∈ s'.calls, c.numTokens ≤ largest := by
  obtain ⟨-, ⟨numTokens, hcall, -, rfl⟩ | ⟨i, c, -, hget, -, rfl⟩ |
    ⟨i, c, wakeTime, -, hget, -, -, rfl⟩⟩ := next_eq_some h
  · intro c hc
    rcases List.mem_append.mp hc with hc | hc
    · exact hcalls c hc
    · rw [List.mem_singleton.mp hc]
      exact ha numTokens hcall
  · intro c' hc'
    rcases List.mem_or_eq_of_mem_set hc' with hc' | rfl
    · exact hcalls c' hc'
    · exact hcalls c (List.mem_of_getElem? hget)
  · intro c' hc'
    rcases List.mem_or_eq_of_mem_set hc' with hc' | rfl
    · exact hcalls c' hc'
    · exact hcalls c (List.mem_of_getElem? hget)

theorem windowBound_run {delay largest a b : ℚ} (hrate : 0 < rateLimit) (hdelay : 0 ≤ delay)
    (hs : s.Sound rateLimit maxTokens) (hcalls : ∀ c ∈ s.calls, c.numTokens ≤ largest)
    (hbound : WindowBound s (s.metered (fun t => a ≤ t ∧ t ≤ b) fun t => a - delay ≤ t ∧ t ≤ b)
      (max maxTokens largest) (a - delay) b)
    (hwakes : Run.Meets next (WakesWithin delay) s run) (hlargest : AtMost largest run)
    (h : Run.exec next s run = some s') :
    WindowBound s' (s'.metered (fun t => a ≤ t ∧ t ≤ b) fun t => a - delay ≤ t ∧ t ≤ b)
      (max maxTokens largest) (a - delay) b := by
  induction run generalizing s with
  | nil =>
      obtain rfl := Option.some.inj h
      exact hbound
  | cons event run ih =>
      obtain ⟨u, hu, hrest⟩ := Run.exec_cons_eq_some.mp h
      obtain ⟨hwoken, hlater⟩ := hwakes
      obtain ⟨now, event⟩ := event
      obtain ⟨hsound, heffect⟩ := @next_effect s u rateLimit maxTokens now event
        (fun t => a ≤ t ∧ t ≤ b) (fun t => a - delay ≤ t ∧ t ≤ b) _ _ hs hrate hu
        (fun ⟨hlow, hhigh⟩ => ⟨by linarith, hhigh⟩) (by
          rintro i rfl c hc wakeTime hphase hlarge hle ⟨hlow, hhigh⟩
          have hlate := hwoken c hc (hs.capacity ▸ hlarge)
          rw [hphase] at hlate
          have hlate : now ≤ wakeTime + delay := hlate
          exact ⟨by linarith, by linarith⟩)
      refine ih hsound (calls_le hcalls (hlargest _ List.mem_cons_self) hu) ?_ (hlater u hu)
        (fun e he => hlargest e (List.mem_cons_of_mem _ he)) hrest
      refine heffect.windowBound (hs.rate ▸ hrate) hbound hs.positive (fun due hdue => hdue) ?_
      intro c hc
      rw [hs.capacity]
      exact max_le_max_left _ (hcalls c hc)

theorem startBound_run {first y : ℚ} (hrate : 0 < rateLimit) (hs : s.Sound rateLimit maxTokens)
    (hbound : StartBound s (s.metered (· ≤ y) (· ≤ y)) first y)
    (h : Run.exec next s run = some s') :
    StartBound s' (s'.metered (· ≤ y) (· ≤ y)) first y := by
  have hboth := @Run.exec_invariant Limiter (ℚ × Event) next s s'
    (fun s => s.Sound rateLimit maxTokens ∧ StartBound s (s.metered (· ≤ y) (· ≤ y)) first y)
    (by
      rintro s ⟨now, event⟩ t ⟨hs, hbound⟩ ht
      obtain ⟨hsound, heffect⟩ := @next_effect s t rateLimit maxTokens now event (· ≤ y) (· ≤ y)
        _ _ hs hrate ht id fun _ _ _ _ _ _ _ hle hcounts => hle.trans hcounts
      refine ⟨hsound, heffect.startBound (hs.rate ▸ hrate) hbound (next_eq_some ht).1 ?_
        hs.positive fun _ => id⟩
      obtain ⟨-, ⟨_, -, -, rfl⟩ | ⟨_, _, -, -, -, rfl⟩ | ⟨_, _, _, -, -, -, -, rfl⟩⟩ :=
        next_eq_some ht
      · rfl
      · rfl
      · rfl)
    run ⟨hs, hbound⟩ h
  exact hboth.2

/-- A request that returned counts as metered. -/
theorem sum_returned_le_metered (hs : s.Sound rateLimit maxTokens) (counts isDue : ℚ → Prop)
    [DecidablePred counts] [DecidablePred isDue] :
    (s.calls.map fun c =>
      match c.phase with
      | .returned time => if counts time then c.numTokens else 0
      | _ => 0).sum ≤ s.metered counts isDue := by
  refine List.sum_le_sum fun c hc => ?_
  have hpos := hs.positive c hc
  rw [AcquireCall.metered]
  cases c.phase with
  | waitsForLock => exact le_rfl
  | sleeps wakeTime =>
      simp only
      split
      · exact hpos.le
      · exact le_rfl
  | returned time => exact le_rfl

/-- A request of at most `max_tokens` lowers the balance only to a balance that is not
negative. -/
theorem lock_balance (hs : s.Sound rateLimit maxTokens) (hrate : 0 < rateLimit) {i : Nat}
    (h : s.next (now, .lock i) = some s') {c : AcquireCall} (hc : c ∈ s.calls[i]?)
    (hsmall : c.numTokens ≤ maxTokens) :
    s.bucket.tokens ≤ s'.bucket.tokens ∨ 0 ≤ s'.bucket.tokens := by
  obtain ⟨htime, ⟨_, hevent, -⟩ | ⟨i', c', hevent, hget, -, rfl⟩ | ⟨_, _, _, hevent, -⟩⟩ :=
    next_eq_some h
  · cases hevent
  · obtain rfl := Event.lock.inj hevent
    obtain rfl := Option.some.inj (hget.symm.trans hc)
    obtain ⟨due, htakes⟩ | ⟨-, hbucket, -⟩ := acquire_cases (hs.rate ▸ hrate) now c'.numTokens
    · obtain ⟨-, hnonneg, -⟩ | ⟨hlarge, -⟩ := htakes.cases
      · exact .inr hnonneg
      · rw [hs.capacity] at hlarge
        exact absurd hsmall (not_le.mpr hlarge)
    · refine .inl ?_
      rw [hbucket]
      refine le_min (hs.capacity ▸ hs.tokens) (le_add_of_nonneg_right ?_)
      refine mul_nonneg ?_ (hs.rate ▸ hrate.le)
      cases hupdate : s.bucket.lastUpdate with
      | none => exact (sub_self now).ge
      | some u => exact sub_nonneg.mpr ((hs.updated u hupdate).trans htime)
  · cases hevent

/-- The first call stays the first. -/
theorem calledAt_head {a : ℚ × Event} {first : ℚ}
    (hs : s.calls.head?.map AcquireCall.calledAt = some first) (h : s.next a = some s') :
    s'.calls.head?.map AcquireCall.calledAt = some first := by
  have hset {i : Nat} {c : AcquireCall} {phase : AcquirePhase} (hget : s.calls[i]? = some c) :
      (s.calls.set i { c with phase := phase }).head?.map AcquireCall.calledAt = some first := by
    cases hcalls : s.calls with
    | nil =>
        rw [hcalls] at hget
        cases hget
    | cons c₀ calls =>
        rw [hcalls] at hs hget
        cases i with
        | zero =>
            obtain rfl := Option.some.inj hget
            exact hs
        | succ i => exact hs
  obtain ⟨-, ⟨_, -, -, rfl⟩ | ⟨_, _, -, hget, -, rfl⟩ | ⟨_, _, _, -, hget, -, -, rfl⟩⟩ :=
    next_eq_some h
  · cases hcalls : s.calls with
    | nil =>
        rw [hcalls] at hs
        cases hs
    | cons c₀ calls =>
        rw [hcalls] at hs
        exact hs
  · exact hset hget
  · exact hset hget

/-- For every run: the calls that return in a window of length `length`, when the sleeps of
large requests are at most `delay` longer than asked; the calls that returned up to a time
after the first call; and the balance. -/
theorem tokenBucket_rate {capacity : Option ℚ} (hrate : 0 < rateLimit)
    (hcapacity : ∀ m ∈ capacity, 0 < m)
    (h : Run.exec next (start rateLimit capacity created) run = some s) :
    (∀ delay, 0 ≤ delay → Run.Meets next (WakesWithin delay) (start rateLimit capacity created)
    run →
      ∀ largest, AtMost largest run → ∀ a length, 0 ≤ length →
        s.returnedWithin a (a + length) ≤
          max (capacity.getD rateLimit) largest + rateLimit * (length + delay)) ∧
    (∀ c ∈ s.calls.head?, ∀ t, 0 ≤ t →
      s.returnedUntil (c.calledAt + t) ≤ capacity.getD rateLimit + rateLimit * t) ∧
    s.bucket.tokens ≤ capacity.getD rateLimit ∧
    ∀ now i s', s.next (now, .lock i) = some s' → ∀ c ∈ s.calls[i]?,
      c.numTokens ≤ capacity.getD rateLimit →
        s.bucket.tokens ≤ s'.bucket.tokens ∨ 0 ≤ s'.bucket.tokens := by
  have hstart := @sound_start rateLimit capacity hcapacity created
  have hs := sound_run hrate hstart h
  have hpos : 0 < capacity.getD rateLimit := by
    cases capacity with
    | none => exact hrate
    | some m => exact hcapacity m rfl
  refine ⟨?_, ?_, hs.tokens, fun now i s' h' c hc hsmall => lock_balance hs hrate h' hc hsmall⟩
  · intro delay hdelay hwakes largest hlargest a length hlength
    have hcredit := hpos.le.trans (le_max_left (capacity.getD rateLimit) largest)
    have hnone : WindowBound (start rateLimit capacity created)
        ((start rateLimit capacity created).metered (fun t => a ≤ t ∧ t ≤ a + length)
          fun t => a - delay ≤ t ∧ t ≤ a + length)
        (max (capacity.getD rateLimit) largest) (a - delay) (a + length) := by
      have hwindow := mul_nonneg (show 0 ≤ a + length - (a - delay) by linarith) hrate.le
      exact ⟨add_nonneg hcredit hwindow, .inl le_rfl⟩
    have hbound := windowBound_run hrate hdelay hstart
      (fun c hc => absurd hc List.not_mem_nil) hnone hwakes hlargest h
    have hle := hbound.le
    rw [hs.rate] at hle
    have hreturned := sum_returned_le_metered hs (fun t => a ≤ t ∧ t ≤ a + length)
      fun t => a - delay ≤ t ∧ t ≤ a + length
    refine hreturned.trans (hle.trans_eq ?_)
    ring
  · intro c hc t ht
    cases run with
    | nil =>
        obtain rfl := Option.some.inj h
        cases hc
    | cons event run =>
        obtain ⟨u, hu, hrest⟩ := Run.exec_cons_eq_some.mp h
        obtain ⟨now, event⟩ := event
        have hsound := (@next_effect _ u rateLimit _ now event (fun _ => False) (fun _ => False)
          _ _ hstart hrate hu id fun _ _ _ _ _ _ _ _ => id).1
        obtain ⟨-, ⟨numTokens, -, -, rfl⟩ | ⟨_, _, -, hget, -⟩ | ⟨_, _, _, -, hget, -⟩⟩ :=
          next_eq_some hu
        · have hfirst := @Run.exec_invariant Limiter (ℚ × Event) next _ s
            (fun s => s.calls.head?.map AcquireCall.calledAt = some now)
            (fun _ _ _ hs ht => calledAt_head hs ht) run rfl hrest
          rw [Option.mem_def.mp hc, Option.map_some, Option.some.injEq] at hfirst
          obtain ⟨u, hcalled⟩ : ∃ u, u = (⟨(start rateLimit capacity created).bucket, now,
            [⟨numTokens, now, .waitsForLock⟩]⟩ : Limiter) := ⟨_, rfl⟩
          have hnone : StartBound u (u.metered (· ≤ now + t) (· ≤ now + t)) now (now + t) := by
            have hwindow := mul_nonneg (show 0 ≤ now + t - now by linarith) hrate.le
            have hzero : u.metered (· ≤ now + t) (· ≤ now + t) = 0 := by
              rw [hcalled]
              exact add_zero (0 : ℚ)
            have hcapacity' : u.bucket.maxTokens = capacity.getD rateLimit := by
              rw [hcalled]
              exact hsound.capacity
            refine ⟨?_, by rw [hcalled], .inl ⟨hzero.le, by rw [hcalled]; rfl⟩⟩
            rw [hzero, hcapacity']
            refine add_nonneg hpos.le ?_
            rw [hcalled]
            exact hwindow
          have hbound := startBound_run hrate (hcalled ▸ hsound) hnone (hcalled ▸ hrest)
          have hle := hbound.le
          rw [hs.rate, hs.capacity] at hle
          have hreturned := sum_returned_le_metered hs (· ≤ now + t) (· ≤ now + t)
          rw [hfirst]
          refine hreturned.trans (hle.trans_eq ?_)
          ring
        · cases hget
        · cases hget

/-- A large request that wakes half a second late. -/
theorem tokenBucket_rate_two :
    ∃ s, Run.exec next (start 1 (some 1) 0)
        [(0, .call 2), (0, .lock 0), (3 / 2, .wake 0)] = some s ∧
      s.returnedWithin 1 (1 + 1) ≤ max 1 2 + 1 * (1 + 1 / 2) := by
  obtain ⟨s, hs⟩ := Option.isSome_iff_exists.mp (show (Run.exec next (start 1 (some 1) 0)
    [(0, .call 2), (0, .lock 0), (3 / 2, .wake 0)]).isSome = true by decide +kernel)
  refine ⟨s, hs, ?_⟩
  have hcapacity : ∀ m ∈ (some 1 : Option ℚ), 0 < m := by
    rintro m ⟨⟩
    exact zero_lt_one
  refine (tokenBucket_rate zero_lt_one hcapacity hs).1 (1 / 2) (by norm_num) (by decide +kernel) 2
    ?_ 1 1 zero_le_one
  intro a ha numTokens hcall
  simp only [List.mem_cons, List.not_mem_nil, or_false] at ha
  rcases ha with rfl | rfl | rfl
  · exact (Event.call.inj hcall).ge
  · cases hcall
  · cases hcall

/-- Two large requests that are due at different times and wake at the same time. -/
theorem not_tokenBucket_rate :
    ∃ s, Run.exec next (start 1 (some 1) 0)
        [(0, .call 2), (0, .call 2), (0, .lock 0), (0, .lock 1), (3, .wake 0), (3, .wake 1)] =
          some s ∧
      max 1 2 + 1 * 0 < s.returnedWithin 3 (3 + 0) := by
  obtain ⟨s, hs, htotal⟩ := Option.map_eq_some_iff.mp (show (Run.exec next (start 1 (some 1) 0)
    [(0, .call 2), (0, .call 2), (0, .lock 0), (0, .lock 1), (3, .wake 0), (3, .wake 1)]).map
      (fun s => s.returnedWithin 3 (3 + 0)) = some 4 by decide +kernel)
  refine ⟨s, hs, ?_⟩
  rw [htotal]
  norm_num

end Runs

end Limiter

end Verl.RewardLoop
