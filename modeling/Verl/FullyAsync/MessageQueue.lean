import Mathlib.Data.List.Basic
import Verl.Lib.Run

/-!
# The message queue between the rollouter and the trainer

`MessageQueue` is a bounded queue guarded by one lock.  Consumers that find it
empty park on a condition variable of that lock.  Every method body is one
critical section, except `get_sample`, which gives the lock up while it waits
and takes it again when it is notified.

The first half translates the critical sections.  The second half is the
system: any number of producers and consumers, each action one critical
section.  A consumer is identified by its call of `get_sample`.  A state also
records what has happened so far: the samples put, in put order, the samples
that have left the queue, in the order they left and with the reason, and the
calls that returned `None`.

The invariant is that the samples put are the samples gone followed by the
samples still queued.  One equation of lists then gives conservation, order and
the oldest-first eviction at once.
-/

namespace Verl

variable {α : Type*}

/-! ## The queue -/

/-- The state of a `MessageQueue`.  The queue is listed from the oldest sample
to the newest.  The capacity is positive. -/
structure MessageQueue (α : Type*) where
  maxQueueSize : Nat
  queue : List α
  running : Bool
  totalProduced : Nat
  totalConsumed : Nat
  droppedSamples : Nat
  maxQueueSize_pos : 0 < maxQueueSize
deriving DecidableEq

/-- `deque.append` on a deque with a `maxlen`.  A full deque loses elements at
its left end. -/
def dequeAppend (maxlen : Nat) (queue : List α) (sample : α) : List α :=
  (queue ++ [sample]).drop (queue.length + 1 - maxlen)

theorem dequeAppend_of_lt {maxlen : Nat} {queue : List α} (h : queue.length < maxlen)
    (sample : α) : dequeAppend maxlen queue sample = queue ++ [sample] := by
  rw [dequeAppend, Nat.sub_eq_zero_of_le (by omega), List.drop_zero]

/-- What one pass of `get_sample` through its critical section does. -/
inductive GetResult (α : Type*) where
  /-- The queue is empty and open: park on the condition. -/
  | wait : GetResult α
  /-- The queue is empty and shut down: return `None`. -/
  | closed : GetResult α
  /-- Return the sample and the number of samples left. -/
  | sample : α → Nat → GetResult α

namespace MessageQueue

/-- `MessageQueue.__init__`. -/
def new (maxQueueSize : Nat) (h : 0 < maxQueueSize) : MessageQueue α where
  maxQueueSize := maxQueueSize
  queue := []
  running := true
  totalProduced := 0
  totalConsumed := 0
  droppedSamples := 0
  maxQueueSize_pos := h

/-- `put_sample`: `False` when the oldest sample had to go. -/
def putSample (q : MessageQueue α) (sample : α) : MessageQueue α × Bool :=
  let isDrop := decide (q.maxQueueSize ≤ q.queue.length)
  let q' := if isDrop then
      { q with queue := q.queue.tail, droppedSamples := q.droppedSamples + 1 }
    else q
  ({ q' with
      queue := dequeAppend q'.maxQueueSize q'.queue sample
      totalProduced := q'.totalProduced + 1 }, !isDrop)

/-- The critical section of `get_sample`. -/
def getSample (q : MessageQueue α) : GetResult α × MessageQueue α :=
  match q.queue with
  | [] => if q.running then (.wait, q) else (.closed, q)
  | data :: rest =>
      (.sample data rest.length, { q with queue := rest, totalConsumed := q.totalConsumed + 1 })

/-- `get_queue_size`. -/
def getQueueSize (q : MessageQueue α) : Nat := q.queue.length

/-- `clear_queue`. -/
def clearQueue (q : MessageQueue α) : MessageQueue α := { q with queue := [] }

/-- `shutdown`. -/
def shutdown (q : MessageQueue α) : MessageQueue α := { q with running := false }

/-! ### What each critical section does to the queue -/

theorem putSample_of_lt {q : MessageQueue α} (h : q.queue.length < q.maxQueueSize) (x : α) :
    q.putSample x =
      ({ q with queue := q.queue ++ [x], totalProduced := q.totalProduced + 1 }, true) := by
  have hle : ¬ q.maxQueueSize ≤ q.queue.length := by omega
  simp [putSample, hle, dequeAppend_of_lt h]

/-- A full queue loses its oldest sample.  Its own `maxlen` never evicts, since
the explicit `popleft` comes first. -/
theorem putSample_of_full {q : MessageQueue α} (h : q.queue.length = q.maxQueueSize) (x : α) :
    q.putSample x =
      ({ q with
          queue := q.queue.tail ++ [x]
          totalProduced := q.totalProduced + 1
          droppedSamples := q.droppedSamples + 1 }, false) := by
  have hle : q.maxQueueSize ≤ q.queue.length := by omega
  have hlt : q.queue.tail.length < q.maxQueueSize := by
    have := q.maxQueueSize_pos
    rw [List.length_tail]
    omega
  simp [putSample, hle, dequeAppend_of_lt hlt]

theorem getSample_cons {q : MessageQueue α} {x : α} {rest : List α} (h : q.queue = x :: rest) :
    q.getSample =
      (.sample x rest.length,
        { q with queue := rest, totalConsumed := q.totalConsumed + 1 }) := by
  simp [getSample, h]

theorem getSample_nil_open {q : MessageQueue α} (h : q.queue = []) (hr : q.running = true) :
    q.getSample = (.wait, q) := by
  simp [getSample, h, hr]

theorem getSample_nil_closed {q : MessageQueue α} (h : q.queue = []) (hr : q.running = false) :
    q.getSample = (.closed, q) := by
  simp [getSample, h, hr]

end MessageQueue

/-! ## Producers and consumers -/

/-- Why a sample left the queue. -/
inductive Fate where
  /-- The call of `get_sample` with this identifier returned it. -/
  | consumed : Nat → Fate
  /-- `put_sample` discarded it. -/
  | dropped : Fate
  /-- `clear_queue` removed it. -/
  | cleared : Fate
deriving DecidableEq

def Fate.isConsumed : Fate → Bool
  | .consumed _ => true
  | _ => false

def Fate.isDropped : Fate → Bool
  | .dropped => true
  | _ => false

def Fate.isCleared : Fate → Bool
  | .cleared => true
  | _ => false

/-- The queue with its consumers, and what has happened so far. -/
structure QueueSys (α : Type*) where
  mq : MessageQueue α
  /-- Calls parked on the condition. -/
  waiting : List Nat
  /-- Calls that were notified and have not taken the lock again. -/
  notified : List Nat
  /-- Samples put, in put order. -/
  produced : List α
  /-- Samples that left the queue, in the order they left. -/
  gone : List (Fate × α)
  /-- Calls that returned `None`. -/
  nones : List Nat
deriving DecidableEq

/-- One critical section of one party. -/
inductive QueueAct (α : Type*) where
  | put : α → QueueAct α
  /-- A new call of `get_sample` takes the lock for the first time. -/
  | get : Nat → QueueAct α
  /-- A notified call takes the lock again. -/
  | wake : Nat → QueueAct α
  | clear : QueueAct α
  | shutdown : QueueAct α

namespace QueueSys

/-- A fresh queue without consumers. -/
def init (maxQueueSize : Nat) (h : 0 < maxQueueSize) : QueueSys α where
  mq := .new maxQueueSize h
  waiting := []
  notified := []
  produced := []
  gone := []
  nones := []

/-- The calls that returned a sample. -/
def consumers (s : QueueSys α) : List Nat :=
  s.gone.filterMap fun p => match p.1 with
    | .consumed c => some c
    | _ => none

/-- The samples returned by `get_sample`, in the order of the returns. -/
def consumedSamples (s : QueueSys α) : List α :=
  (s.gone.filter fun p => p.1.isConsumed).map Prod.snd

/-- Every call of `get_sample` made so far. -/
def calls (s : QueueSys α) : List Nat :=
  s.waiting ++ s.notified ++ s.consumers ++ s.nones

/-- The number of samples removed by `clear_queue`. -/
def numCleared (s : QueueSys α) : Nat := s.gone.countP fun p => p.1.isCleared

/-- `notify_all`. -/
def notifyAll (s : QueueSys α) : QueueSys α :=
  { s with waiting := [], notified := s.notified ++ s.waiting }

/-- A call of `get_sample` holds the lock. -/
def enter (s : QueueSys α) (call : Nat) : QueueSys α :=
  match s.mq.getSample with
  | (.wait, mq) => { s with mq := mq, waiting := s.waiting ++ [call] }
  | (.closed, mq) => { s with mq := mq, nones := s.nones ++ [call] }
  | (.sample x _, mq) => { s with mq := mq, gone := s.gone ++ [(.consumed call, x)] }

/-- The samples that leave at the left end when `queue` with one sample put
becomes `queue'`. -/
def evicted (queue queue' : List α) : List α := queue.take (queue.length + 1 - queue'.length)

/-- The system. -/
def next (s : QueueSys α) : QueueAct α → Option (QueueSys α)
  | .put x =>
      let mq := (s.mq.putSample x).1
      let lost := evicted s.mq.queue mq.queue
      some { s.notifyAll with
        mq := mq
        produced := s.produced ++ [x]
        gone := s.gone ++ lost.map (Fate.dropped, ·) }
  | .get c => if c ∈ s.calls then none else some (s.enter c)
  | .wake c =>
      if c ∈ s.notified then some ({ s with notified := s.notified.erase c }.enter c) else none
  | .clear =>
      some { s with
        mq := s.mq.clearQueue
        gone := s.gone ++ s.mq.queue.map (Fate.cleared, ·) }
  | .shutdown => some { s.notifyAll with mq := s.mq.shutdown }

/-! ## The invariant -/

/-- Where every sample is, and what the counters count. -/
structure Ok (s : QueueSys α) : Prop where
  /-- The samples put are the samples gone and then the samples queued. -/
  order : s.produced = s.gone.map Prod.snd ++ s.mq.queue
  totalProduced : s.mq.totalProduced = s.produced.length
  totalConsumed : s.mq.totalConsumed = s.gone.countP fun p => p.1.isConsumed
  droppedSamples : s.mq.droppedSamples = s.gone.countP fun p => p.1.isDropped
  bounded : s.mq.queue.length ≤ s.mq.maxQueueSize
  /-- No call is in two places and none returns twice. -/
  nodup : s.calls.Nodup
  /-- Nobody sleeps while there is a sample or after the shutdown. -/
  parked : s.waiting ≠ [] → s.mq.queue = [] ∧ s.mq.running = true

/-! ## What one step does -/

/-- A call that holds the lock parks, returns `None` or returns the oldest
sample. -/
theorem enter_cases (s : QueueSys α) (c : Nat) :
    (s.mq.queue = [] ∧ s.mq.running = true ∧
      s.enter c = { s with waiting := s.waiting ++ [c] }) ∨
    (s.mq.queue = [] ∧ s.mq.running = false ∧
      s.enter c = { s with nones := s.nones ++ [c] }) ∨
    (∃ x rest, s.mq.queue = x :: rest ∧
      s.enter c = { s with
        mq := { s.mq with queue := rest, totalConsumed := s.mq.totalConsumed + 1 }
        gone := s.gone ++ [(.consumed c, x)] }) := by
  cases hq : s.mq.queue with
  | nil =>
      cases hr : s.mq.running with
      | true =>
          refine Or.inl ⟨rfl, rfl, ?_⟩
          rw [enter, MessageQueue.getSample_nil_open hq hr]
      | false =>
          refine Or.inr (Or.inl ⟨rfl, rfl, ?_⟩)
          rw [enter, MessageQueue.getSample_nil_closed hq hr]
  | cons x rest =>
      refine Or.inr (Or.inr ⟨x, rest, rfl, ?_⟩)
      rw [enter, MessageQueue.getSample_cons hq]

/-- A put into a queue with room appends.  A put into a full queue also
discards the oldest sample. -/
theorem next_put_cases {s t : QueueSys α} (hb : s.mq.queue.length ≤ s.mq.maxQueueSize) {x : α}
    (h : s.next (.put x) = some t) :
    (s.mq.queue.length < s.mq.maxQueueSize ∧
      t = { s.notifyAll with
        mq := { s.mq with
          queue := s.mq.queue ++ [x]
          totalProduced := s.mq.totalProduced + 1 }
        produced := s.produced ++ [x] }) ∨
    (∃ y rest, s.mq.queue = y :: rest ∧ s.mq.queue.length = s.mq.maxQueueSize ∧
      t = { s.notifyAll with
        mq := { s.mq with
          queue := rest ++ [x]
          totalProduced := s.mq.totalProduced + 1
          droppedSamples := s.mq.droppedSamples + 1 }
        produced := s.produced ++ [x]
        gone := s.gone ++ [(.dropped, y)] }) := by
  rw [next, Option.some.injEq] at h
  subst h
  rcases Nat.lt_or_ge s.mq.queue.length s.mq.maxQueueSize with hlt | hge
  · refine Or.inl ⟨hlt, ?_⟩
    simp [MessageQueue.putSample_of_lt hlt, evicted, notifyAll]
  · have hfull : s.mq.queue.length = s.mq.maxQueueSize := by omega
    cases hq : s.mq.queue with
    | nil =>
        have := s.mq.maxQueueSize_pos
        rw [hq, List.length_nil] at hfull
        omega
    | cons y rest =>
        refine Or.inr ⟨y, rest, rfl, hq ▸ hfull, ?_⟩
        simp [MessageQueue.putSample_of_full hfull, evicted, notifyAll, hq]

theorem consumers_append_dropped (s : QueueSys α) (xs : List (Fate × α))
    (h : ∀ p ∈ xs, p.1.isConsumed = false) :
    ({ s with gone := s.gone ++ xs } : QueueSys α).consumers = s.consumers := by
  have hnil : (xs.filterMap fun p => match p.1 with
      | .consumed c => some c
      | _ => none) = [] := by
    rw [List.filterMap_eq_nil_iff]
    rintro ⟨f, x⟩ hp
    cases f with
    | consumed c => exact absurd (h _ hp) (by simp [Fate.isConsumed])
    | dropped => rfl
    | cleared => rfl
  rw [consumers, consumers, List.filterMap_append, hnil, List.append_nil]

/-- Notifying moves calls from one place to another. -/
theorem notifyAll_calls (s : QueueSys α) : s.notifyAll.calls.Perm s.calls := by
  simp only [calls, notifyAll, consumers, List.nil_append]
  exact ((List.perm_append_comm).append_right _).append_right _

/-- The invariant after a call took the lock. -/
theorem Ok.enter {s : QueueSys α} (hs : s.Ok) {c : Nat} (hc : c ∉ s.calls) : (s.enter c).Ok := by
  have hcons : (c :: s.calls).Nodup := List.nodup_cons.mpr ⟨hc, hs.nodup⟩
  rcases s.enter_cases c with ⟨hq, hr, he⟩ | ⟨hq, hr, he⟩ | ⟨x, rest, hq, he⟩
  · rw [he]
    refine ⟨hs.order, hs.totalProduced, hs.totalConsumed, hs.droppedSamples, hs.bounded, ?_,
      fun _ => ⟨hq, hr⟩⟩
    refine (List.Perm.nodup_iff ?_).mp hcons
    simp only [calls, consumers, List.append_assoc]
    exact (List.perm_middle).symm
  · rw [he]
    refine ⟨hs.order, hs.totalProduced, hs.totalConsumed, hs.droppedSamples, hs.bounded, ?_,
      hs.parked⟩
    refine (List.Perm.nodup_iff ?_).mp hcons
    simp only [calls, consumers, ← List.append_assoc]
    exact (List.perm_append_singleton c _).symm
  · rw [he]
    refine ⟨?_, hs.totalProduced, ?_, ?_, ?_, ?_, ?_⟩
    · simp [hs.order, hq]
    · simp [hs.totalConsumed, Fate.isConsumed]
    · simp [hs.droppedSamples, Fate.isDropped]
    · have := hs.bounded
      rw [hq, List.length_cons] at this
      exact Nat.le_of_succ_le this
    · refine (List.Perm.nodup_iff ?_).mp hcons
      simp only [calls, consumers, List.filterMap_append, List.filterMap_cons, List.filterMap_nil]
      rw [← List.append_assoc, List.append_assoc _ [c], List.singleton_append]
      exact (List.perm_middle).symm
    · intro hw
      exact absurd (hs.parked hw).1 (by simp [hq])

/-- The invariant after a put. -/
theorem Ok.put {s t : QueueSys α} (hs : s.Ok) {x : α} (h : s.next (.put x) = some t) : t.Ok := by
  have hcalls : s.notifyAll.calls.Nodup := (s.notifyAll_calls).nodup_iff.mpr hs.nodup
  rcases next_put_cases hs.bounded h with ⟨hlt, rfl⟩ | ⟨y, rest, hq, hfull, rfl⟩
  · refine ⟨?_, ?_, hs.totalConsumed, hs.droppedSamples, ?_, hcalls, fun hw => absurd rfl hw⟩
    · simp [hs.order, notifyAll]
    · simp [hs.totalProduced]
    · simp only [List.length_append, List.length_singleton]
      omega
  · refine ⟨?_, ?_, ?_, ?_, ?_, ?_, fun hw => absurd rfl hw⟩
    · simp [hs.order, hq]
    · simp [hs.totalProduced]
    · simp [hs.totalConsumed, Fate.isConsumed]
    · simp [hs.droppedSamples, Fate.isDropped]
    · rw [hq, List.length_cons] at hfull
      simp only [List.length_append, List.length_singleton]
      omega
    · have hgone := s.notifyAll.consumers_append_dropped [(.dropped, y)] (by simp [Fate.isConsumed])
      rw [calls] at hcalls ⊢
      rw [← hgone] at hcalls
      exact hcalls

/-- The invariant after `clear_queue`. -/
theorem Ok.clear {s t : QueueSys α} (hs : s.Ok) (h : s.next .clear = some t) : t.Ok := by
  rw [next, Option.some.injEq] at h
  subst h
  refine ⟨?_, hs.totalProduced, ?_, ?_, Nat.zero_le _, ?_, fun hw => ⟨rfl, (hs.parked hw).2⟩⟩
  · simp [hs.order, MessageQueue.clearQueue, Function.comp_def]
  · simp [hs.totalConsumed, MessageQueue.clearQueue, Fate.isConsumed, List.countP_map,
      Function.comp_def]
  · simp [hs.droppedSamples, MessageQueue.clearQueue, Fate.isDropped, List.countP_map,
      Function.comp_def]
  · have hgone := s.consumers_append_dropped (s.mq.queue.map (Fate.cleared, ·)) (by
      simp [Fate.isConsumed])
    have hcalls := hs.nodup
    rw [calls] at hcalls ⊢
    rw [← hgone] at hcalls
    exact hcalls

/-- Every step keeps the invariant. -/
theorem Ok.next {s t : QueueSys α} (hs : s.Ok) {a : QueueAct α} (h : s.next a = some t) :
    t.Ok := by
  cases a with
  | put x => exact hs.put h
  | get c =>
      rw [QueueSys.next] at h
      split at h
      · cases h
      next hc =>
        rw [Option.some.injEq] at h
        exact h ▸ hs.enter hc
  | wake c =>
      rw [QueueSys.next] at h
      split at h
      next hc =>
        rw [Option.some.injEq] at h
        subst h
        have hperm : (c :: ({ s with notified := s.notified.erase c } : QueueSys α).calls).Perm
            s.calls := by
          simp only [calls, consumers, List.append_assoc]
          refine (List.perm_middle.symm).trans (List.Perm.append_left _ ?_)
          rw [← List.cons_append]
          exact ((List.perm_cons_erase hc).symm).append_right _
        have hnodup := hperm.nodup_iff.mpr hs.nodup
        have herase : ({ s with notified := s.notified.erase c } : QueueSys α).Ok :=
          ⟨hs.order, hs.totalProduced, hs.totalConsumed, hs.droppedSamples, hs.bounded,
            (List.nodup_cons.mp hnodup).2, hs.parked⟩
        exact herase.enter (List.nodup_cons.mp hnodup).1
      · cases h
  | clear => exact hs.clear h
  | shutdown =>
      rw [QueueSys.next, Option.some.injEq] at h
      subst h
      exact ⟨hs.order, hs.totalProduced, hs.totalConsumed, hs.droppedSamples, hs.bounded,
        (s.notifyAll_calls).nodup_iff.mpr hs.nodup, fun hw => absurd rfl hw⟩

theorem init_ok (maxQueueSize : Nat) (h : 0 < maxQueueSize) :
    (init maxQueueSize h : QueueSys α).Ok :=
  ⟨rfl, rfl, rfl, rfl, Nat.zero_le _, List.nodup_nil, fun hw => absurd rfl hw⟩

/-- The invariant holds after every run. -/
theorem exec_ok {maxQueueSize : Nat} {hpos : 0 < maxQueueSize} {as : List (QueueAct α)}
    {s : QueueSys α} (h : Run.exec next (init maxQueueSize hpos) as = some s) : s.Ok :=
  Run.exec_invariant (fun _ _ _ hs hstep => hs.next hstep) (init_ok maxQueueSize hpos) h

/-! ## What holds after every run -/

/-- The capacity never changes. -/
theorem next_maxQueueSize {s t : QueueSys α} {a : QueueAct α} (h : s.next a = some t) :
    t.mq.maxQueueSize = s.mq.maxQueueSize := by
  have henter : ∀ (r : QueueSys α) (c : Nat), (r.enter c).mq.maxQueueSize = r.mq.maxQueueSize := by
    intro r c
    rcases r.enter_cases c with ⟨_, _, he⟩ | ⟨_, _, he⟩ | ⟨x, rest, _, he⟩ <;> rw [he]
  cases a with
  | put x =>
      rw [next, Option.some.injEq] at h
      subst h
      simp only [MessageQueue.putSample]
      split <;> rfl
  | get c =>
      rw [next] at h
      split at h
      · cases h
      · rw [Option.some.injEq] at h
        rw [← h, henter]
  | wake c =>
      rw [next] at h
      split at h
      · rw [Option.some.injEq] at h
        rw [← h, henter]
      · cases h
  | clear =>
      rw [next, Option.some.injEq] at h
      subst h
      rfl
  | shutdown =>
      rw [next, Option.some.injEq] at h
      subst h
      rfl

theorem exec_maxQueueSize {maxQueueSize : Nat} {hpos : 0 < maxQueueSize}
    {as : List (QueueAct α)} {s : QueueSys α}
    (h : Run.exec next (init maxQueueSize hpos) as = some s) :
    s.mq.maxQueueSize = maxQueueSize :=
  Run.exec_invariant (P := fun s => s.mq.maxQueueSize = maxQueueSize)
    (fun _ _ _ hs hstep => (next_maxQueueSize hstep).trans hs) rfl h

/-- Only `shutdown` closes the queue. -/
theorem next_running {s t : QueueSys α} {a : QueueAct α} (h : s.next a = some t)
    (hr : s.mq.running = true) : a = .shutdown ∨ t.mq.running = true := by
  have henter : ∀ (r : QueueSys α) (c : Nat), (r.enter c).mq.running = r.mq.running := by
    intro r c
    rcases r.enter_cases c with ⟨_, _, he⟩ | ⟨_, _, he⟩ | ⟨x, rest, _, he⟩ <;> rw [he]
  cases a with
  | put x =>
      rw [next, Option.some.injEq] at h
      subst h
      refine Or.inr ?_
      simp only [MessageQueue.putSample]
      split <;> exact hr
  | get c =>
      rw [next] at h
      split at h
      · cases h
      · rw [Option.some.injEq] at h
        rw [← h, henter]
        exact Or.inr hr
  | wake c =>
      rw [next] at h
      split at h
      · rw [Option.some.injEq] at h
        rw [← h, henter]
        exact Or.inr hr
      · cases h
  | clear =>
      rw [next, Option.some.injEq] at h
      subst h
      exact Or.inr hr
  | shutdown => exact Or.inl rfl

theorem exec_running {as : List (QueueAct α)} {s t : QueueSys α} (hr : s.mq.running = true)
    (h : Run.exec next s as = some t) : .shutdown ∈ as ∨ t.mq.running = true := by
  induction as generalizing s with
  | nil =>
      rw [Run.exec_nil, Option.some.injEq] at h
      exact Or.inr (h ▸ hr)
  | cons a as ih =>
      obtain ⟨u, hu, hrest⟩ := Run.exec_cons_eq_some.mp h
      rcases next_running hu hr with rfl | hur
      · exact Or.inl (List.mem_cons_self ..)
      · exact (ih hur hrest).imp_left (List.mem_cons_of_mem _)

/-- A call returns `None` only on an empty queue that is shut down. -/
theorem next_nones {s t : QueueSys α} {a : QueueAct α} (h : s.next a = some t) {c : Nat}
    (hc : c ∈ t.nones) (hnew : c ∉ s.nones) : s.mq.running = false ∧ s.mq.queue = [] := by
  have henter : ∀ (r : QueueSys α) (d : Nat), r.mq = s.mq → r.nones = s.nones →
      c ∈ (r.enter d).nones → s.mq.running = false ∧ s.mq.queue = [] := by
    intro r d hmq hn hmem
    rcases r.enter_cases d with ⟨_, _, he⟩ | ⟨hq, hr, he⟩ | ⟨x, rest, _, he⟩
    · rw [he] at hmem
      exact absurd (hn ▸ hmem) hnew
    · exact ⟨hmq ▸ hr, hmq ▸ hq⟩
    · rw [he] at hmem
      exact absurd (hn ▸ hmem) hnew
  cases a with
  | put x =>
      rw [next, Option.some.injEq] at h
      subst h
      exact absurd hc hnew
  | get d =>
      rw [next] at h
      split at h
      · cases h
      · rw [Option.some.injEq] at h
        exact henter s d rfl rfl (h ▸ hc)
  | wake d =>
      rw [next] at h
      split at h
      · rw [Option.some.injEq] at h
        exact henter { s with notified := s.notified.erase d } d rfl rfl (h ▸ hc)
      · cases h
  | clear =>
      rw [next, Option.some.injEq] at h
      subst h
      exact absurd hc hnew
  | shutdown =>
      rw [next, Option.some.injEq] at h
      subst h
      exact absurd hc hnew

/-- A call that takes the lock while a sample is queued returns the oldest one,
also after the shutdown. -/
theorem next_delivers {s t : QueueSys α} {a : QueueAct α} {c : Nat}
    (ha : a = .get c ∨ a = .wake c) (h : s.next a = some t) {x : α} {rest : List α}
    (hq : s.mq.queue = x :: rest) : t.gone = s.gone ++ [(.consumed c, x)] := by
  have henter : ∀ r : QueueSys α, r.mq = s.mq → r.gone = s.gone →
      (r.enter c).gone = s.gone ++ [(.consumed c, x)] := by
    intro r hmq hg
    rcases r.enter_cases c with ⟨hq', _, _⟩ | ⟨hq', _, _⟩ | ⟨y, rest', hq', he⟩
    · rw [hmq, hq] at hq'
      cases hq'
    · rw [hmq, hq] at hq'
      cases hq'
    · rw [hmq, hq] at hq'
      cases hq'
      rw [he, hg]
  rcases ha with rfl | rfl
  · rw [next] at h
    split at h
    · cases h
    · rw [Option.some.injEq] at h
      rw [← h, henter s rfl rfl]
  · rw [next] at h
    split at h
    · rw [Option.some.injEq] at h
      rw [← h]
      exact henter { s with notified := s.notified.erase c } rfl rfl
    · cases h

/-- A put discards at most one sample, the oldest, and only when the queue is
full. -/
theorem Ok.put_discards {s t : QueueSys α} (hs : s.Ok) {x : α} (h : s.next (.put x) = some t) :
    t.gone = s.gone ∨
      ∃ y rest, s.mq.queue = y :: rest ∧ s.mq.queue.length = s.mq.maxQueueSize ∧
        t.gone = s.gone ++ [(.dropped, y)] := by
  rcases next_put_cases hs.bounded h with ⟨_, rfl⟩ | ⟨y, rest, hq, hfull, rfl⟩
  · exact Or.inl rfl
  · exact Or.inr ⟨y, rest, hq, hfull, rfl⟩

/-- Every sample that left has exactly one reason. -/
theorem length_gone (l : List (Fate × α)) :
    l.length = (l.countP fun p => p.1.isConsumed) + (l.countP fun p => p.1.isDropped) +
      l.countP fun p => p.1.isCleared := by
  induction l with
  | nil => rfl
  | cons p l ih =>
      obtain ⟨f, x⟩ := p
      rw [List.length_cons, ih]
      cases f <;>
        simp only [List.countP_cons, Fate.isConsumed, Fate.isDropped, Fate.isCleared] <;>
        simp only [if_true, if_false, Bool.false_eq_true] <;> omega

theorem Ok.balance {s : QueueSys α} (hs : s.Ok) :
    s.mq.totalProduced =
      s.mq.totalConsumed + s.mq.droppedSamples + s.numCleared + s.mq.queue.length := by
  have hlen := congrArg List.length hs.order
  rw [List.length_append, List.length_map, length_gone] at hlen
  rw [hs.totalProduced, hs.totalConsumed, hs.droppedSamples, numCleared]
  omega

/-- What `get_sample` returned so far is in put order. -/
theorem Ok.consumed_sublist {s : QueueSys α} (hs : s.Ok) :
    s.consumedSamples.Sublist s.produced := by
  rw [hs.order, consumedSamples]
  exact ((List.filter_sublist).map Prod.snd).trans (List.sublist_append_left _ _)

/-- The message queue loses nothing and keeps the order, under every schedule.

After any run the samples put are the samples gone followed by the samples
queued, so the `i`-th sample put has one place and, if it left, one reason.  A
call of `get_sample` returns once.  The counters balance, the capacity holds,
samples are returned in put order, and a put discards only the oldest sample of
a full queue.  `None` comes only after the shutdown and from an empty queue, a
call that takes the lock while a sample is queued gets the oldest one, and no
call stays parked while there is a sample. -/
theorem messageQueue_conservation (maxQueueSize : Nat) (hpos : 0 < maxQueueSize)
    (as : List (QueueAct α)) (s : QueueSys α)
    (h : Run.exec next (init maxQueueSize hpos) as = some s) :
    s.produced = s.gone.map Prod.snd ++ s.mq.queue ∧
    s.calls.Nodup ∧
    s.mq.totalProduced = s.produced.length ∧
    s.mq.totalConsumed = s.consumedSamples.length ∧
    s.mq.totalProduced =
      s.mq.totalConsumed + s.mq.droppedSamples + s.numCleared + s.mq.queue.length ∧
    s.mq.queue.length ≤ maxQueueSize ∧
    s.consumedSamples.Sublist s.produced ∧
    (∀ x t, s.next (.put x) = some t → t.gone = s.gone ∨
      ∃ y rest, s.mq.queue = y :: rest ∧ s.mq.queue.length = maxQueueSize ∧
        t.gone = s.gone ++ [(.dropped, y)]) ∧
    (s.mq.running = false → .shutdown ∈ as) ∧
    (∀ a t c, s.next a = some t → c ∈ t.nones → c ∉ s.nones →
      s.mq.running = false ∧ s.mq.queue = []) ∧
    (∀ a t c x rest, a = .get c ∨ a = .wake c → s.next a = some t → s.mq.queue = x :: rest →
      t.gone = s.gone ++ [(.consumed c, x)]) ∧
    (s.waiting ≠ [] → s.mq.queue = [] ∧ s.mq.running = true) := by
  have hs := exec_ok h
  have hcap := exec_maxQueueSize h
  refine ⟨hs.order, hs.nodup, hs.totalProduced, ?_, hs.balance, hcap ▸ hs.bounded,
    hs.consumed_sublist, ?_, ?_, ?_, ?_, hs.parked⟩
  · rw [hs.totalConsumed, consumedSamples, List.length_map, List.countP_eq_length_filter]
  · intro x t ht
    exact hcap ▸ hs.put_discards ht
  · intro hr
    rcases exec_running rfl h with hmem | hrun
    · exact hmem
    · rw [hr] at hrun
      cases hrun
  · intro a t c ht hc hnew
    exact next_nones ht hc hnew
  · intro a t c x rest ha ht hq
    exact next_delivers ha ht hq

/-- A consumer parks, two puts overflow a queue of one sample, the consumer wakes
up and a later call finds the queue shut down. -/
theorem messageQueue_conservation_run :
    let s : QueueSys Nat :=
      { mq := ⟨1, [], false, 2, 1, 1, Nat.one_pos⟩
        waiting := []
        notified := []
        produced := [5, 6]
        gone := [(.dropped, 5), (.consumed 0, 6)]
        nones := [1] }
    s.mq.totalProduced =
      s.mq.totalConsumed + s.mq.droppedSamples + s.numCleared + s.mq.queue.length :=
  (messageQueue_conservation 1 Nat.one_pos
    [.get 0, .put 5, .put 6, .wake 0, .shutdown, .get 1] _ (by decide)).2.2.2.2.1

end QueueSys

end Verl
