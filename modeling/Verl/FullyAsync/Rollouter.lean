import Verl.FullyAsync.MessageQueue

/-!
# The fully asynchronous rollouter

The processor coroutine takes samples from the pending queue, waits for a free
slot and turns each sample into a generation task.  A task puts its result into
the message queue, from which the trainer takes it.  The processor stops at a
gate when `staleness_samples` reaches `max_required_samples`.  After a weight
update `reset_staleness` recomputes that counter from the active tasks and the
queue.

Everything runs on one event loop, so a party is interrupted only at an
`await`.  The model has one program counter for each coroutine and one action
for each piece between two awaits.  `self.lock` is held across awaits by the
slot wait and by `reset_staleness`, and is modelled by its holder.

`Load` counts what was taken and not consumed: the sample in hand, the tasks
that generate, the queue, and the end signal once it was taken.  The gate keeps
the load within the bound as long as `staleness_samples` is at least the load.
That is `Ok`.  The recomputation misses the sample in hand.  `Quiet` is the
condition that no recomputed value is written while there is one.
-/

namespace Verl

/-! ## State -/

/-- A generation task in `active_tasks`.  A task that is done stays in the set
until the processor has waited for it. -/
inductive TaskStatus where
  | generating
  /-- `put_sample` returned the flag. -/
  | put (success : Bool)
  | done
deriving DecidableEq

/-- The program counter of `_processor_worker`. -/
inductive ProcessorPc where
  /-- The top of the loop. -/
  | gate
  /-- `_should_pause_generation` waits for the statistics. -/
  | gateStats
  /-- The statistics reported this queue size. -/
  | gateDecide (queueSize : Nat)
  /-- About to take the lock and set `paused`. -/
  | pausing
  /-- The head of the drain loop. -/
  | draining
  /-- Waits for a task that is done or for the resume signal. -/
  | drainWait
  /-- Waits for the lock to discard the tasks that were done. -/
  | drainLock (tasks : List Nat) (resumed : Bool)
  /-- Waits for the resume signal after the drain. -/
  | blocked
  /-- Waits in `pending_queue.get`. -/
  | getting
  /-- Holds a sample and looks for a free slot. -/
  | holding (sample : Nat)
  /-- Holds a sample and the lock while it waits for a task. -/
  | slotWait (sample : Nat)
  /-- Holds a sample and has a slot. -/
  | slotFree (sample : Nat)
  /-- Holds a sample while `paused` is set. -/
  | heldPaused (sample : Nat)
  /-- Holds a sample and waits for the lock to create the task. -/
  | creating (sample : Nat)
  /-- Took the end signal and waits for the remaining tasks. -/
  | ending
  | endWait
  | ended
deriving DecidableEq

/-- The program counter of `reset_staleness`. -/
inductive ResetPc where
  | idle
  /-- Holds the lock and has read `len(active_tasks)`. -/
  | counting (active : Nat)
  /-- Holds the lock and has also read the queue size. -/
  | writing (active queueSize : Nat)
deriving DecidableEq

/-- The program counter of `_async_monitor_loop`. -/
inductive MonitorPc where
  | idle
  | stats
  | decide (queueSize : Nat)
  | resuming
deriving DecidableEq

inductive LockHolder where
  | processor
  | reset
deriving DecidableEq

structure RollouterState where
  maxRequiredSamples : Nat
  maxConcurrentSamples : Nat
  stalenessSamples : Nat
  paused : Bool
  resumeEvent : Bool
  /-- Whether the `resume_future` of the current pause is done. -/
  resumeFuture : Bool
  lock : Option LockHolder
  /-- `None` is the end signal. -/
  pendingQueue : List (Option Nat)
  nextSample : Nat
  /-- Whether the feeder put the end signal. -/
  feedDone : Bool
  activeTasks : List (Nat × TaskStatus)
  totalGeneratedSamples : Nat
  droppedStaleSamples : Nat
  processor : ProcessorPc
  reset : ResetPc
  monitor : MonitorPc
  /-- Whether the finish signal was put. -/
  finished : Bool
  mq : MessageQueue (Option Nat)
  /-- Samples taken from the pending queue so far. -/
  taken : Nat
  /-- Samples the trainer got so far. -/
  consumed : Nat
deriving DecidableEq

inductive RollouterAct where
  /-- `_feed_samples` puts a sample, or the end signal. -/
  | feed
  | feedEnd
  | gate
  | gateStats
  | gateDecide
  | pause
  | drain
  | drainWait
  | drainLock
  | unblock
  /-- `pending_queue.get` returns. -/
  | take
  | slot
  | slotDone
  | checkPaused
  | unpause
  | create
  | endCheck
  | endDone
  /-- The task at this place puts its sample. -/
  | put (task : Nat)
  /-- The task at this place returns. -/
  | complete (task : Nat)
  | resetStart
  | resetSize
  | resetWrite
  | monitorCheck
  | monitorStats
  | monitorDecide
  | monitorResume
  | trainerGet
  /-- The finish signal at the end of the stream. -/
  | finish
deriving DecidableEq

namespace RollouterState

/-- The state after `set_max_required_samples` and the start of `fit`.  The
queue has the capacity `max_queue_size = max_required_samples`. -/
def init (maxRequiredSamples maxConcurrentSamples : Nat) (h : 0 < maxRequiredSamples) :
    RollouterState where
  maxRequiredSamples := maxRequiredSamples
  maxConcurrentSamples := maxConcurrentSamples
  stalenessSamples := 0
  paused := false
  resumeEvent := true
  resumeFuture := false
  lock := none
  pendingQueue := []
  nextSample := 0
  feedDone := false
  activeTasks := []
  totalGeneratedSamples := 0
  droppedStaleSamples := 0
  processor := .gate
  reset := .idle
  monitor := .idle
  finished := false
  mq := .new maxRequiredSamples h
  taken := 0
  consumed := 0

/-- `_should_pause_generation` once the statistics are there. -/
def shouldPauseGeneration (s : RollouterState) (queueSize : Nat) : Bool :=
  decide (s.maxRequiredSamples ≤ queueSize) || decide (s.maxRequiredSamples ≤ s.stalenessSamples)

/-- `paused = False` and `_resume_event.set()`.  A pending `resume_future`
is done from now on. -/
def resume (s : RollouterState) : RollouterState :=
  { s with paused := false, resumeEvent := true, resumeFuture := true }

/-- The tasks that are not done: what `asyncio.wait` returns as pending. -/
def pendingTasks (s : RollouterState) : List (Nat × TaskStatus) :=
  s.activeTasks.filter fun t => t.2 ≠ .done

/-- The tasks that are done. -/
def doneTasks (s : RollouterState) : List Nat :=
  (s.activeTasks.filter fun t => t.2 = .done).map Prod.fst

/-- Whether `asyncio.wait(active_tasks, FIRST_COMPLETED)` can return. -/
def someDone (s : RollouterState) : Bool := s.activeTasks.any fun t => t.2 = .done

/-! ## Steps -/

/-- One step of `_processor_worker`. -/
def processorNext (s : RollouterState) : RollouterAct → Option RollouterState
  | .gate =>
      if s.processor = .gate then
        some { s with processor := if s.paused then .pausing else .gateStats }
      else none
  | .gateStats =>
      if s.processor = .gateStats then
        some { s with processor := .gateDecide s.mq.getQueueSize }
      else none
  | .gateDecide =>
      match s.processor with
      | .gateDecide queueSize =>
          some { s with
            processor := if s.shouldPauseGeneration queueSize then .pausing else .getting }
      | _ => none
  | .pause =>
      if s.processor = .pausing ∧ s.lock = none then
        some { s with
          paused := true, resumeEvent := false, resumeFuture := false, processor := .draining }
      else none
  | .drain =>
      if s.processor = .draining then
        some { s with
          processor :=
            if s.activeTasks = [] ∨ s.resumeFuture then
              if s.resumeFuture then .gate else .blocked
            else .drainWait }
      else none
  | .drainWait =>
      if s.processor = .drainWait ∧ (s.someDone ∨ s.resumeFuture) then
        some { s with
          processor := if s.someDone then .drainLock s.doneTasks s.resumeFuture else .gate }
      else none
  | .drainLock =>
      match s.processor with
      | .drainLock tasks resumed =>
          if s.lock = none then
            some { s with
              activeTasks := s.activeTasks.filter fun t => !(t.2 = .done && t.1 ∈ tasks)
              processor := if resumed then .gate else .draining }
          else none
      | _ => none
  | .unblock =>
      if s.processor = .blocked ∧ s.resumeFuture then some { s with processor := .gate } else none
  | .take =>
      match s.processor, s.pendingQueue with
      | .getting, some sample :: rest =>
          some { s with
            pendingQueue := rest
            stalenessSamples := s.stalenessSamples + 1
            processor := .holding sample
            taken := s.taken + 1 }
      | .getting, none :: rest =>
          some { s with
            pendingQueue := rest
            stalenessSamples := s.stalenessSamples + 1
            processor := .ending }
      | _, _ => none
  | .slot =>
      match s.processor with
      | .holding sample =>
          if s.activeTasks.length < s.maxConcurrentSamples then
            some { s with processor := .slotFree sample }
          else if s.lock = none ∧ s.activeTasks ≠ [] then
            some { s with lock := some .processor, processor := .slotWait sample }
          else none
      | _ => none
  | .slotDone =>
      match s.processor with
      | .slotWait sample =>
          if s.someDone then
            some { s with
              activeTasks := s.pendingTasks, lock := none, processor := .holding sample }
          else none
      | _ => none
  | .checkPaused =>
      match s.processor with
      | .slotFree sample =>
          some { s with processor := if s.paused then .heldPaused sample else .creating sample }
      | _ => none
  | .unpause =>
      match s.processor with
      | .heldPaused sample =>
          if s.resumeEvent then some { s with processor := .creating sample } else none
      | _ => none
  | .create =>
      match s.processor with
      | .creating sample =>
          if s.lock = none then
            some { s with
              activeTasks := s.activeTasks ++ [(sample, .generating)], processor := .gate }
          else none
      | _ => none
  | .endCheck =>
      if s.processor = .ending then
        if s.activeTasks = [] then some { s with processor := .ended }
        else if s.lock = none then some { s with lock := some .processor, processor := .endWait }
        else none
      else none
  | .endDone =>
      if s.processor = .endWait ∧ s.someDone then
        some { s with activeTasks := s.pendingTasks, lock := none, processor := .ending }
      else none
  | _ => none

/-- One step of `_process_single_sample_streaming`. -/
def taskNext (s : RollouterState) : RollouterAct → Option RollouterState
  | .put i =>
      match s.activeTasks[i]? with
      | some (sample, .generating) =>
          let (mq, success) := s.mq.putSample (some sample)
          some { s with mq := mq, activeTasks := s.activeTasks.set i (sample, .put success) }
      | _ => none
  | .complete i =>
      match s.activeTasks[i]? with
      | some (sample, .put success) =>
          some { s with
            activeTasks := s.activeTasks.set i (sample, .done)
            totalGeneratedSamples := s.totalGeneratedSamples + if success then 1 else 0
            droppedStaleSamples := s.droppedStaleSamples + if success then 0 else 1 }
      | _ => none
  | _ => none

/-- One step of `reset_staleness`. -/
def resetNext (s : RollouterState) : RollouterAct → Option RollouterState
  | .resetStart =>
      if s.reset = .idle ∧ s.lock = none then
        some { s.resume with lock := some .reset, reset := .counting s.activeTasks.length }
      else none
  | .resetSize =>
      match s.reset with
      | .counting active => some { s with reset := .writing active s.mq.getQueueSize }
      | _ => none
  | .resetWrite =>
      match s.reset with
      | .writing active queueSize =>
          some { s with stalenessSamples := active + queueSize, lock := none, reset := .idle }
      | _ => none
  | _ => none

/-- One step of `_async_monitor_loop`. -/
def monitorNext (s : RollouterState) : RollouterAct → Option RollouterState
  | .monitorCheck =>
      if s.monitor = .idle ∧ s.paused then some { s with monitor := .stats } else none
  | .monitorStats =>
      if s.monitor = .stats then some { s with monitor := .decide s.mq.getQueueSize } else none
  | .monitorDecide =>
      match s.monitor with
      | .decide queueSize =>
          some { s with
            monitor := if s.shouldPauseGeneration queueSize then .idle else .resuming }
      | _ => none
  | .monitorResume =>
      if s.monitor = .resuming ∧ s.lock = none then some { s.resume with monitor := .idle }
      else none
  | _ => none

/-- One step of the feeder, of the trainer, or the finish signal. -/
def outerNext (s : RollouterState) : RollouterAct → Option RollouterState
  | .feed =>
      if s.pendingQueue.length < 128 ∧ s.feedDone = false then
        some { s with
          pendingQueue := s.pendingQueue ++ [some s.nextSample], nextSample := s.nextSample + 1 }
      else none
  | .feedEnd =>
      if s.pendingQueue.length < 128 ∧ s.feedDone = false then
        some { s with pendingQueue := s.pendingQueue ++ [none], feedDone := true }
      else none
  | .trainerGet =>
      match s.mq.getSample with
      | (.sample sample _, mq) =>
          some { s with mq := mq, consumed := s.consumed + if sample.isSome then 1 else 0 }
      | _ => none
  | .finish =>
      if s.processor = .ended ∧ s.finished = false then
        some { s with mq := (s.mq.putSample none).1, finished := true }
      else none
  | _ => none

/-- One step of any party. -/
def next (s : RollouterState) (a : RollouterAct) : Option RollouterState :=
  match a with
  | .put _ | .complete _ => s.taskNext a
  | .resetStart | .resetSize | .resetWrite => s.resetNext a
  | .monitorCheck | .monitorStats | .monitorDecide | .monitorResume => s.monitorNext a
  | .feed | .feedEnd | .trainerGet | .finish => s.outerNext a
  | _ => s.processorNext a

end RollouterState

/-! ## The load -/

/-- Whether the processor holds a sample that is not a task yet. -/
def ProcessorPc.hand : ProcessorPc → Nat
  | .holding _ | .slotWait _ | .slotFree _ | .heldPaused _ | .creating _ => 1
  | _ => 0

/-- Whether the processor took the end signal. -/
def ProcessorPc.atEnd : ProcessorPc → Bool
  | .ending | .endWait | .ended => true
  | _ => false

/-- Whether the processor waits with the lock in its hand. -/
def ProcessorPc.holdsLock : ProcessorPc → Bool
  | .slotWait _ | .endWait => true
  | _ => false

namespace RollouterState

/-- The number of tasks that have not put their sample. -/
def numGenerating (s : RollouterState) : Nat :=
  s.activeTasks.countP fun t => t.2 = .generating

/-- The end signal counts from its take to the finish signal. -/
def endSignal (s : RollouterState) : Nat :=
  if s.processor.atEnd && !s.finished then 1 else 0

/-- The number of samples in the message queue, without the finish signal. -/
def numQueued (s : RollouterState) : Nat := s.mq.queue.countP fun sample => sample.isSome

/-- What was taken from the pending queue and not consumed. -/
def load (s : RollouterState) : Nat :=
  s.processor.hand + s.numGenerating + s.mq.queue.length + s.endSignal

theorem numQueued_le (s : RollouterState) : s.numQueued ≤ s.mq.queue.length :=
  List.countP_le_length

theorem numGenerating_le (s : RollouterState) : s.numGenerating ≤ s.activeTasks.length :=
  List.countP_le_length

/-- Dropping tasks that are done drops no task that generates. -/
theorem countP_generating_filter (p : Nat × TaskStatus → Bool)
    (hp : ∀ t, t.2 = .generating → p t = true) (l : List (Nat × TaskStatus)) :
    (l.filter p).countP (fun t => t.2 = .generating) =
      l.countP fun t => t.2 = .generating := by
  rw [List.countP_filter]
  refine List.countP_congr fun t _ => ?_
  by_cases h : t.2 = .generating
  · simp [h, hp t h]
  · simp [h]

/-- A task that changes its status changes the count by its own share. -/
theorem countP_generating_set {l : List (Nat × TaskStatus)} {i : Nat} {t r : Nat × TaskStatus}
    (h : l[i]? = some t) :
    (l.set i r).countP (fun t => t.2 = .generating) + (if t.2 = .generating then 1 else 0) =
      l.countP (fun t => t.2 = .generating) + if r.2 = .generating then 1 else 0 := by
  induction l generalizing i with
  | nil => simp at h
  | cons u l ih =>
      cases i with
      | zero =>
          rw [List.getElem?_cons_zero, Option.some.injEq] at h
          subst h
          simp only [List.set_cons_zero, List.countP_cons, decide_eq_true_eq]
          omega
      | succ i =>
          rw [List.getElem?_cons_succ] at h
          have := ih h
          simp only [List.set_cons_succ, List.countP_cons]
          omega

/-! ## The invariant -/

/-- The counter covers the load, and the gate keeps the load within the bound. -/
structure Ok (s : RollouterState) : Prop where
  capacity : s.mq.maxQueueSize = s.maxRequiredSamples
  noDrop : s.mq.droppedSamples = 0
  /-- A sample that was taken is in hand, generating, queued or consumed. -/
  taken_eq : s.taken = s.consumed + s.processor.hand + s.numGenerating + s.numQueued
  load_le : s.load ≤ s.maxRequiredSamples
  /-- The gate was passed, so there is room for one more. -/
  room : s.processor = .getting → s.load < s.maxRequiredSamples
  /-- Until the end signal the counter is at least the load. -/
  counter : s.processor.atEnd = false → s.load ≤ s.stalenessSamples
  counting : ∀ n, s.reset = .counting n → s.numGenerating ≤ n
  /-- What is about to be written covers everything but the sample in hand. -/
  writing : s.processor.atEnd = false → ∀ n q, s.reset = .writing n q →
    s.numGenerating + s.mq.queue.length ≤ n + q
  resetLock : s.reset ≠ .idle → s.lock = some .reset
  processorLock : s.processor.holdsLock = true → s.lock = some .processor

/-- The recomputation is written only while the processor holds no sample. -/
def Quiet (s : RollouterState) (a : RollouterAct) : Prop :=
  a = .resetWrite → s.processor.hand = 0

instance (s : RollouterState) (a : RollouterAct) : Decidable (s.Quiet a) :=
  inferInstanceAs (Decidable (a = .resetWrite → s.processor.hand = 0))

theorem init_ok (maxRequiredSamples maxConcurrentSamples : Nat) (h : 0 < maxRequiredSamples) :
    (init maxRequiredSamples maxConcurrentSamples h).Ok where
  capacity := rfl
  noDrop := rfl
  taken_eq := rfl
  load_le := Nat.zero_le _
  room := fun hp => by cases hp
  counter := fun _ => Nat.le_refl 0
  counting := fun n hr => by cases hr
  writing := fun _ n q hr => by cases hr
  resetLock := fun hr => absurd rfl hr
  processorLock := fun hp => by cases hp

/-- Nothing that the load, the counter or the queue depend on changes.  The
program counter of the processor moves within its class. -/
structure Moves (s t : RollouterState) : Prop where
  maxRequiredSamples : t.maxRequiredSamples = s.maxRequiredSamples
  stalenessSamples : t.stalenessSamples = s.stalenessSamples
  mq : t.mq = s.mq
  taken : t.taken = s.taken
  consumed : t.consumed = s.consumed
  finished : t.finished = s.finished
  reset : t.reset = s.reset
  numGenerating : t.numGenerating = s.numGenerating
  hand : t.processor.hand = s.processor.hand
  atEnd : t.processor.atEnd = s.processor.atEnd

theorem Moves.load {s t : RollouterState} (h : Moves s t) : t.load = s.load := by
  rw [RollouterState.load, RollouterState.load, endSignal, endSignal, h.hand, h.numGenerating,
    h.mq, h.atEnd, h.finished]

/-- A move keeps the invariant if it respects the gate and the lock. -/
theorem Ok.move {s t : RollouterState} (hs : s.Ok) (h : Moves s t)
    (hroom : t.processor = .getting → t.load < t.maxRequiredSamples)
    (hreset : t.reset ≠ .idle → t.lock = some .reset)
    (hlock : t.processor.holdsLock = true → t.lock = some .processor) : t.Ok where
  capacity := by rw [h.mq, h.maxRequiredSamples, hs.capacity]
  noDrop := by rw [h.mq, hs.noDrop]
  taken_eq := by
    rw [h.taken, h.consumed, h.hand, h.numGenerating, numQueued, h.mq]
    exact hs.taken_eq
  load_le := by rw [h.load, h.maxRequiredSamples]; exact hs.load_le
  room := hroom
  counter := by rw [h.atEnd, h.load, h.stalenessSamples]; exact hs.counter
  counting := by rw [h.reset, h.numGenerating]; exact hs.counting
  writing := by rw [h.atEnd, h.reset, h.numGenerating, h.mq]; exact hs.writing
  resetLock := hreset
  processorLock := hlock

/-- A free lock means that no recomputation is under way. -/
theorem Ok.reset_idle {s : RollouterState} (hs : s.Ok) (h : s.lock = none) : s.reset = .idle := by
  by_contra hne
  rw [hs.resetLock hne] at h
  cases h

/-- Neither is one while the processor waits with the lock. -/
theorem Ok.reset_idle_of_holdsLock {s : RollouterState} (hs : s.Ok)
    (h : s.processor.holdsLock = true) : s.reset = .idle := by
  by_contra hne
  have hlock := hs.processorLock h
  rw [hs.resetLock hne] at hlock
  cases hlock

/-- Only the program counter of the processor moves, within its class. -/
theorem Ok.movePc {s : RollouterState} (hs : s.Ok) {pc : ProcessorPc}
    (hhand : pc.hand = s.processor.hand) (hend : pc.atEnd = s.processor.atEnd)
    (hroom : pc = .getting → s.load < s.maxRequiredSamples) (hlock : pc.holdsLock = false) :
    ({ s with processor := pc } : RollouterState).Ok := by
  have hmoves : Moves s { s with processor := pc } :=
    ⟨rfl, rfl, rfl, rfl, rfl, rfl, rfl, rfl, hhand, hend⟩
  refine hs.move hmoves ?_ hs.resetLock ?_
  · intro hp
    rw [hmoves.load]
    exact hroom hp
  · intro hp
    rw [hlock] at hp
    cases hp

theorem numGenerating_pendingTasks (s : RollouterState) :
    s.pendingTasks.countP (fun t => t.2 = .generating) = s.numGenerating :=
  countP_generating_filter _ (fun t ht => by simp [ht]) _

/-- Discarding tasks that are done, with a move of the program counter and of
the lock. -/
theorem Ok.discard {s : RollouterState} (hs : s.Ok) {tasks : List (Nat × TaskStatus)}
    {pc : ProcessorPc} {lock : Option LockHolder}
    (htasks : tasks.countP (fun t => t.2 = .generating) = s.numGenerating)
    (hhand : pc.hand = s.processor.hand) (hend : pc.atEnd = s.processor.atEnd)
    (hroom : pc ≠ .getting) (hlock : pc.holdsLock = false) (hreset : s.reset = .idle) :
    ({ s with activeTasks := tasks, lock := lock, processor := pc } : RollouterState).Ok := by
  refine hs.move ⟨rfl, rfl, rfl, rfl, rfl, rfl, rfl, htasks, hhand, hend⟩ ?_ ?_ ?_
  · exact fun hp => absurd hp hroom
  · exact fun hne => absurd hreset hne
  · intro hp
    rw [hlock] at hp
    cases hp

/-- The processor takes the lock to wait for a task. -/
theorem Ok.lockPc {s : RollouterState} (hs : s.Ok) {pc : ProcessorPc}
    (hhand : pc.hand = s.processor.hand) (hend : pc.atEnd = s.processor.atEnd)
    (hroom : pc ≠ .getting) (hfree : s.lock = none) :
    ({ s with lock := some .processor, processor := pc } : RollouterState).Ok := by
  refine hs.move ⟨rfl, rfl, rfl, rfl, rfl, rfl, rfl, rfl, hhand, hend⟩ ?_ ?_ ?_
  · exact fun hp => absurd hp hroom
  · exact fun hne => absurd (hs.reset_idle hfree) hne
  · exact fun _ => rfl

/-! ## Every step keeps the invariant -/

/-- The gate lets the processor through only below the bound. -/
theorem Ok.gateDecide {s t : RollouterState} (hs : s.Ok)
    (h : s.processorNext .gateDecide = some t) : t.Ok := by
  unfold processorNext at h
  dsimp only at h
  split at h
  next queueSize hp =>
    rw [Option.some.injEq] at h
    subst h
    cases hpause : s.shouldPauseGeneration queueSize with
    | true => exact hs.movePc (by rw [hp]; rfl) (by rw [hp]; rfl) (by simp) rfl
    | false =>
        refine hs.movePc (by rw [hp]; rfl) (by rw [hp]; rfl) (fun _ => ?_) rfl
        have hcounter := hs.counter (by rw [hp]; rfl)
        simp only [shouldPauseGeneration, Bool.or_eq_false_iff, decide_eq_false_iff_not] at hpause
        omega
  · cases h

/-- Taking a sample or the end signal raises the load and the counter by one. -/
theorem Ok.take {s t : RollouterState} (hs : s.Ok) (h : s.processorNext .take = some t) :
    t.Ok := by
  unfold processorNext at h
  dsimp only at h
  split at h
  next sample rest hp hq =>
    rw [Option.some.injEq] at h
    subst h
    have hroom := hs.room hp
    have hcounter := hs.counter (by rw [hp]; rfl)
    have htaken := hs.taken_eq
    simp only [load, endSignal, hp, ProcessorPc.hand, ProcessorPc.atEnd, Bool.false_and,
      Bool.false_eq_true, if_false] at hroom hcounter htaken
    constructor
    · exact hs.capacity
    · exact hs.noDrop
    · simp only [ProcessorPc.hand, numGenerating, numQueued]
      simp only [numGenerating, numQueued] at htaken
      omega
    · simp only [load, endSignal, ProcessorPc.hand, ProcessorPc.atEnd, numGenerating,
        Bool.false_and, Bool.false_eq_true, if_false]
      simp only [numGenerating] at hroom
      omega
    · exact fun hp' => by cases hp'
    · intro _
      simp only [load, endSignal, ProcessorPc.hand, ProcessorPc.atEnd, numGenerating,
        Bool.false_and, Bool.false_eq_true, if_false]
      simp only [numGenerating] at hcounter
      omega
    · exact hs.counting
    · exact fun _ => hs.writing (by rw [hp]; rfl)
    · exact hs.resetLock
    · exact fun hl => by cases hl
  next rest hp hq =>
    rw [Option.some.injEq] at h
    subst h
    have hroom := hs.room hp
    have htaken := hs.taken_eq
    simp only [load, endSignal, hp, ProcessorPc.hand, ProcessorPc.atEnd, Bool.false_and,
      Bool.false_eq_true, if_false] at hroom htaken
    have hend : ({ s with processor := .ending } : RollouterState).endSignal ≤ 1 := by
      rw [endSignal]
      split <;> omega
    constructor
    · exact hs.capacity
    · exact hs.noDrop
    · exact htaken
    · simp only [endSignal] at hend
      simp only [load, endSignal, ProcessorPc.hand, numGenerating]
      simp only [numGenerating] at hroom
      omega
    · exact fun hp' => by cases hp'
    · exact fun he => by cases he
    · exact hs.counting
    · exact fun he => by cases he
    · exact hs.resetLock
    · exact fun hl => by cases hl
  · cases h

/-- The sample in hand becomes a task that generates. -/
theorem Ok.create {s t : RollouterState} (hs : s.Ok) (h : s.processorNext .create = some t) :
    t.Ok := by
  unfold processorNext at h
  dsimp only at h
  split at h
  next sample hp =>
    split at h
    next hfree =>
      rw [Option.some.injEq] at h
      subst h
      have hidle := hs.reset_idle hfree
      have hload : ({ s with
          activeTasks := s.activeTasks ++ [(sample, .generating)]
          processor := .gate } : RollouterState).load = s.load := by
        simp only [load, endSignal, numGenerating, hp, ProcessorPc.hand, ProcessorPc.atEnd,
          List.countP_append, List.countP_singleton, decide_true, if_true, Bool.false_and]
        omega
      constructor
      · exact hs.capacity
      · exact hs.noDrop
      · have htaken := hs.taken_eq
        simp only [hp, ProcessorPc.hand, numGenerating, numQueued, List.countP_append,
          List.countP_singleton, decide_true, if_true] at htaken ⊢
        omega
      · rw [hload]
        exact hs.load_le
      · exact fun hp' => by cases hp'
      · intro _
        rw [hload]
        exact hs.counter (by rw [hp]; rfl)
      · intro n hr
        rw [hidle] at hr
        cases hr
      · intro _ n q hr
        rw [hidle] at hr
        cases hr
      · exact hs.resetLock
      · exact fun hl => by cases hl
    · cases h
  · cases h

/-- One step of the processor keeps the invariant. -/
theorem Ok.processorNext {s t : RollouterState} (hs : s.Ok) {a : RollouterAct}
    (h : s.processorNext a = some t) : t.Ok := by
  cases a with
  | gateDecide => exact hs.gateDecide h
  | take => exact hs.take h
  | create => exact hs.create h
  | gate =>
      simp only [RollouterState.processorNext] at h
      split at h
      next hp =>
        rw [Option.some.injEq] at h
        subst h
        split <;> exact hs.movePc (by rw [hp]; rfl) (by rw [hp]; rfl) (by simp) rfl
      · cases h
  | gateStats =>
      simp only [RollouterState.processorNext] at h
      split at h
      next hp =>
        rw [Option.some.injEq] at h
        subst h
        exact hs.movePc (by rw [hp]; rfl) (by rw [hp]; rfl) (by simp) rfl
      · cases h
  | pause =>
      simp only [RollouterState.processorNext] at h
      split at h
      next hp =>
        rw [Option.some.injEq] at h
        subst h
        refine hs.move ⟨rfl, rfl, rfl, rfl, rfl, rfl, rfl, rfl, ?_, ?_⟩ ?_ hs.resetLock ?_
        · rw [hp.1]
          rfl
        · rw [hp.1]
          rfl
        · exact fun hp' => by cases hp'
        · exact fun hl => by cases hl
      · cases h
  | drain =>
      simp only [RollouterState.processorNext] at h
      split at h
      next hp =>
        rw [Option.some.injEq] at h
        subst h
        split
        · split <;> exact hs.movePc (by rw [hp]; rfl) (by rw [hp]; rfl) (by simp) rfl
        · exact hs.movePc (by rw [hp]; rfl) (by rw [hp]; rfl) (by simp) rfl
      · cases h
  | drainWait =>
      simp only [RollouterState.processorNext] at h
      split at h
      next hp =>
        rw [Option.some.injEq] at h
        subst h
        split <;> exact hs.movePc (by rw [hp.1]; rfl) (by rw [hp.1]; rfl) (by simp) rfl
      · cases h
  | drainLock =>
      simp only [RollouterState.processorNext] at h
      split at h
      next tasks resumed hp =>
        split at h
        next hfree =>
          rw [Option.some.injEq] at h
          subst h
          have htasks : (s.activeTasks.filter fun t => !(t.2 = .done && t.1 ∈ tasks)).countP
              (fun t => t.2 = .generating) = s.numGenerating :=
            countP_generating_filter _ (fun t ht => by simp [ht]) _
          cases resumed <;>
            exact hs.discard htasks (by rw [hp]; rfl) (by rw [hp]; rfl) (by simp) rfl
              (hs.reset_idle hfree)
        · cases h
      · cases h
  | unblock =>
      simp only [RollouterState.processorNext] at h
      split at h
      next hp =>
        rw [Option.some.injEq] at h
        subst h
        exact hs.movePc (by rw [hp.1]; rfl) (by rw [hp.1]; rfl) (by simp) rfl
      · cases h
  | slot =>
      simp only [RollouterState.processorNext] at h
      split at h
      next sample hp =>
        split at h
        · rw [Option.some.injEq] at h
          subst h
          exact hs.movePc (by rw [hp]; rfl) (by rw [hp]; rfl) (by simp) rfl
        · split at h
          next hfree =>
            rw [Option.some.injEq] at h
            subst h
            exact hs.lockPc (by rw [hp]; rfl) (by rw [hp]; rfl) (by simp) hfree.1
          · cases h
      · cases h
  | slotDone =>
      simp only [RollouterState.processorNext] at h
      split at h
      next sample hp =>
        split at h
        · rw [Option.some.injEq] at h
          subst h
          exact hs.discard s.numGenerating_pendingTasks (by rw [hp]; rfl) (by rw [hp]; rfl)
            (by simp) rfl (hs.reset_idle_of_holdsLock (by rw [hp]; rfl))
        · cases h
      · cases h
  | checkPaused =>
      simp only [RollouterState.processorNext] at h
      split at h
      next sample hp =>
        rw [Option.some.injEq] at h
        subst h
        split <;> exact hs.movePc (by rw [hp]; rfl) (by rw [hp]; rfl) (by simp) rfl
      · cases h
  | unpause =>
      simp only [RollouterState.processorNext] at h
      split at h
      next sample hp =>
        split at h
        · rw [Option.some.injEq] at h
          subst h
          exact hs.movePc (by rw [hp]; rfl) (by rw [hp]; rfl) (by simp) rfl
        · cases h
      · cases h
  | endCheck =>
      simp only [RollouterState.processorNext] at h
      split at h
      next hp =>
        split at h
        · rw [Option.some.injEq] at h
          subst h
          exact hs.movePc (by rw [hp]; rfl) (by rw [hp]; rfl) (by simp) rfl
        · split at h
          next hfree =>
            rw [Option.some.injEq] at h
            subst h
            exact hs.lockPc (by rw [hp]; rfl) (by rw [hp]; rfl) (by simp) hfree
          · cases h
      · cases h
  | endDone =>
      simp only [RollouterState.processorNext] at h
      split at h
      next hp =>
        rw [Option.some.injEq] at h
        subst h
        exact hs.discard s.numGenerating_pendingTasks (by rw [hp.1]; rfl) (by rw [hp.1]; rfl)
          (by simp) rfl (hs.reset_idle_of_holdsLock (by rw [hp.1]; rfl))
      · cases h
  | _ => cases h

/-- A put finds room in the queue, since the task that puts is part of the
load. -/
theorem Ok.taskNext {s t : RollouterState} (hs : s.Ok) {a : RollouterAct}
    (h : s.taskNext a = some t) : t.Ok := by
  cases a with
  | put i =>
      simp only [RollouterState.taskNext] at h
      split at h
      next sample hi =>
        have hset := countP_generating_set (r := (sample, .put true)) hi
        simp only [if_true, reduceCtorEq, if_false, Nat.add_zero] at hset
        have hload := hs.load_le
        rw [load] at hload
        have hgen : 0 < s.numGenerating := by
          rw [numGenerating]
          omega
        have hlt : s.mq.queue.length < s.mq.maxQueueSize := by
          rw [hs.capacity]
          omega
        rw [MessageQueue.putSample_of_lt hlt, Option.some.injEq] at h
        subst h
        have hgen' : (s.activeTasks.set i (sample, .put true)).countP
            (fun t => t.2 = .generating) + 1 = s.numGenerating := hset
        have hload' : ({ s with
            mq := { s.mq with
              queue := s.mq.queue ++ [some sample]
              totalProduced := s.mq.totalProduced + 1 }
            activeTasks := s.activeTasks.set i (sample, .put true) } : RollouterState).load =
            s.load := by
          simp only [load, endSignal, List.length_append, List.length_singleton]
          simp only [numGenerating] at hgen' ⊢
          omega
        constructor
        · exact hs.capacity
        · exact hs.noDrop
        · have htaken := hs.taken_eq
          simp only [numGenerating, numQueued, List.countP_append, List.countP_singleton,
            Option.isSome_some, if_true] at hgen' htaken ⊢
          omega
        · rw [hload']
          exact hs.load_le
        · intro hp
          rw [hload']
          exact hs.room hp
        · intro he
          rw [hload']
          exact hs.counter he
        · intro n hr
          have := hs.counting n hr
          simp only [numGenerating] at hgen' this ⊢
          omega
        · intro he n q hr
          have := hs.writing he n q hr
          simp only [numGenerating, List.length_append, List.length_singleton] at hgen' this ⊢
          omega
        · exact hs.resetLock
        · exact hs.processorLock
      · cases h
  | complete i =>
      simp only [RollouterState.taskNext] at h
      split at h
      next sample success hi =>
        rw [Option.some.injEq] at h
        subst h
        have hset := countP_generating_set (r := (sample, .done)) hi
        simp only [reduceCtorEq, if_false, Nat.add_zero] at hset
        exact hs.move ⟨rfl, rfl, rfl, rfl, rfl, rfl, rfl, hset, rfl, rfl⟩
          (fun hp => by
            have := hs.room hp
            simp only [load, endSignal, numGenerating] at this hset ⊢
            omega) hs.resetLock hs.processorLock
      · cases h
  | _ => cases h

/-- The value that `reset_staleness` writes covers the load, if the processor
holds no sample. -/
theorem Ok.resetNext {s t : RollouterState} (hs : s.Ok) {a : RollouterAct} (hq : s.Quiet a)
    (h : s.resetNext a = some t) : t.Ok := by
  cases a with
  | resetStart =>
      simp only [RollouterState.resetNext] at h
      split at h
      next hfree =>
        rw [Option.some.injEq] at h
        subst h
        refine ⟨hs.capacity, hs.noDrop, hs.taken_eq, hs.load_le, hs.room, hs.counter, ?_, ?_, ?_,
          ?_⟩
        · intro n hr
          cases hr
          exact s.numGenerating_le
        · exact fun _ n q hr => by cases hr
        · exact fun _ => rfl
        · intro hp
          have hlock := hs.processorLock hp
          rw [hfree.2] at hlock
          cases hlock
      · cases h
  | resetSize =>
      simp only [RollouterState.resetNext] at h
      split at h
      next n hr =>
        rw [Option.some.injEq] at h
        subst h
        refine ⟨hs.capacity, hs.noDrop, hs.taken_eq, hs.load_le, hs.room, hs.counter, ?_, ?_, ?_,
          hs.processorLock⟩
        · exact fun n hr' => by cases hr'
        · intro _ m q hr'
          cases hr'
          exact Nat.add_le_add_right (hs.counting n hr) _
        · exact fun _ => hs.resetLock (by rw [hr]; simp)
      · cases h
  | resetWrite =>
      simp only [RollouterState.resetNext] at h
      split at h
      next n q hr =>
        rw [Option.some.injEq] at h
        subst h
        refine ⟨hs.capacity, hs.noDrop, hs.taken_eq, hs.load_le, hs.room, ?_, ?_, ?_, ?_, ?_⟩
        · intro he
          have hhand : s.processor.hand = 0 := hq rfl
          have hend : s.processor.atEnd = false := he
          have hwriting := hs.writing hend n q hr
          simp only [load, endSignal, hend, hhand, numGenerating, Bool.false_and,
            Bool.false_eq_true, if_false] at hwriting ⊢
          omega
        · exact fun n hr' => by cases hr'
        · exact fun _ n q hr' => by cases hr'
        · exact fun hne => absurd rfl hne
        · intro hp
          have hlock := hs.processorLock hp
          rw [hs.resetLock (by rw [hr]; simp)] at hlock
          cases hlock
      · cases h
  | _ => cases h

theorem Ok.monitorNext {s t : RollouterState} (hs : s.Ok) {a : RollouterAct}
    (h : s.monitorNext a = some t) : t.Ok := by
  cases a with
  | monitorCheck =>
      simp only [RollouterState.monitorNext] at h
      split at h
      · rw [Option.some.injEq] at h
        subst h
        exact hs.move ⟨rfl, rfl, rfl, rfl, rfl, rfl, rfl, rfl, rfl, rfl⟩ hs.room hs.resetLock
          hs.processorLock
      · cases h
  | monitorStats =>
      simp only [RollouterState.monitorNext] at h
      split at h
      · rw [Option.some.injEq] at h
        subst h
        exact hs.move ⟨rfl, rfl, rfl, rfl, rfl, rfl, rfl, rfl, rfl, rfl⟩ hs.room hs.resetLock
          hs.processorLock
      · cases h
  | monitorDecide =>
      simp only [RollouterState.monitorNext] at h
      split at h
      · rw [Option.some.injEq] at h
        subst h
        exact hs.move ⟨rfl, rfl, rfl, rfl, rfl, rfl, rfl, rfl, rfl, rfl⟩ hs.room hs.resetLock
          hs.processorLock
      · cases h
  | monitorResume =>
      simp only [RollouterState.monitorNext] at h
      split at h
      · rw [Option.some.injEq] at h
        subst h
        exact hs.move ⟨rfl, rfl, rfl, rfl, rfl, rfl, rfl, rfl, rfl, rfl⟩ hs.room hs.resetLock
          hs.processorLock
      · cases h
  | _ => cases h

/-- The trainer lowers the load.  The finish signal is part of it until it is
put, so it finds room as well. -/
theorem Ok.outerNext {s t : RollouterState} (hs : s.Ok) {a : RollouterAct}
    (h : s.outerNext a = some t) : t.Ok := by
  cases a with
  | feed =>
      simp only [RollouterState.outerNext] at h
      split at h
      · rw [Option.some.injEq] at h
        subst h
        exact hs.move ⟨rfl, rfl, rfl, rfl, rfl, rfl, rfl, rfl, rfl, rfl⟩ hs.room hs.resetLock
          hs.processorLock
      · cases h
  | feedEnd =>
      simp only [RollouterState.outerNext] at h
      split at h
      · rw [Option.some.injEq] at h
        subst h
        exact hs.move ⟨rfl, rfl, rfl, rfl, rfl, rfl, rfl, rfl, rfl, rfl⟩ hs.room hs.resetLock
          hs.processorLock
      · cases h
  | trainerGet =>
      simp only [RollouterState.outerNext] at h
      cases hqueue : s.mq.queue with
      | nil =>
          cases hrun : s.mq.running with
          | true =>
              rw [MessageQueue.getSample_nil_open hqueue hrun] at h
              cases h
          | false =>
              rw [MessageQueue.getSample_nil_closed hqueue hrun] at h
              cases h
      | cons sample rest =>
          rw [MessageQueue.getSample_cons hqueue, Option.some.injEq] at h
          subst h
          have hload := hs.load_le
          simp only [load, hqueue, List.length_cons] at hload
          constructor
          · exact hs.capacity
          · exact hs.noDrop
          · have htaken := hs.taken_eq
            simp only [numGenerating, numQueued, hqueue, List.countP_cons] at htaken ⊢
            omega
          · simp only [load, endSignal, numGenerating] at hload ⊢
            omega
          · intro hp
            have := hs.room hp
            simp only [load, endSignal, numGenerating, hqueue, List.length_cons] at this ⊢
            omega
          · intro he
            have := hs.counter he
            simp only [load, endSignal, numGenerating, hqueue, List.length_cons] at this ⊢
            omega
          · exact hs.counting
          · intro he n q hr
            have := hs.writing he n q hr
            simp only [numGenerating, hqueue, List.length_cons] at this ⊢
            omega
          · exact hs.resetLock
          · exact hs.processorLock
  | finish =>
      simp only [RollouterState.outerNext] at h
      split at h
      next hfin =>
        have hload := hs.load_le
        simp only [load, endSignal, hfin.1, hfin.2, ProcessorPc.hand, ProcessorPc.atEnd,
          Bool.not_false, Bool.and_self, if_true] at hload
        have hlt : s.mq.queue.length < s.mq.maxQueueSize := by
          rw [hs.capacity]
          omega
        rw [MessageQueue.putSample_of_lt hlt, Option.some.injEq] at h
        subst h
        constructor
        · exact hs.capacity
        · exact hs.noDrop
        · have htaken := hs.taken_eq
          simp only [numGenerating, numQueued, List.countP_append, List.countP_singleton,
            Option.isSome_none, Bool.false_eq_true, if_false, Nat.add_zero] at htaken ⊢
          exact htaken
        · simp only [load, endSignal, numGenerating, hfin.1, ProcessorPc.hand, ProcessorPc.atEnd,
            Bool.not_true, Bool.and_false, Bool.false_eq_true, if_false, List.length_append,
            List.length_singleton] at hload ⊢
          omega
        · intro hp
          rw [hfin.1] at hp
          cases hp
        · intro he
          rw [hfin.1] at he
          cases he
        · exact hs.counting
        · intro he
          rw [hfin.1] at he
          cases he
        · exact hs.resetLock
        · exact hs.processorLock
      · cases h
  | _ => cases h

/-- A step is a step of one party. -/
theorem next_cases (s : RollouterState) (a : RollouterAct) :
    s.next a = s.processorNext a ∨ s.next a = s.taskNext a ∨ s.next a = s.resetNext a ∨
      s.next a = s.monitorNext a ∨ s.next a = s.outerNext a := by
  cases a <;> simp [next]

/-- Every quiet step keeps the invariant. -/
theorem Ok.next {s t : RollouterState} (hs : s.Ok) {a : RollouterAct} (hq : s.Quiet a)
    (h : s.next a = some t) : t.Ok := by
  obtain heq | heq | heq | heq | heq := s.next_cases a
  · exact hs.processorNext (heq ▸ h)
  · exact hs.taskNext (heq ▸ h)
  · exact hs.resetNext hq (heq ▸ h)
  · exact hs.monitorNext (heq ▸ h)
  · exact hs.outerNext (heq ▸ h)

/-! ## The bound over a whole run -/

/-- No step changes the bound itself. -/
theorem next_maxRequiredSamples {s t : RollouterState} {a : RollouterAct}
    (h : s.next a = some t) : t.maxRequiredSamples = s.maxRequiredSamples := by
  cases a <;>
    simp only [next, processorNext, taskNext, resetNext, monitorNext, outerNext] at h <;>
    split at h <;> grind [resume]

/-- What the trainer has not consumed is part of the load. -/
theorem Ok.taken_le {s : RollouterState} (hs : s.Ok) :
    s.taken ≤ s.consumed + s.maxRequiredSamples := by
  have htaken := hs.taken_eq
  have hload := hs.load_le
  have hqueued := s.numQueued_le
  rw [load] at hload
  omega

/-- In a run in which no recomputed counter is written while the processor
holds a sample, what was taken and not consumed stays within the bound and no
queued sample is dropped. -/
theorem bounded_of_quiet (maxRequiredSamples maxConcurrentSamples : Nat)
    (hmax : 0 < maxRequiredSamples) (acts : List RollouterAct) (s : RollouterState)
    (hrun : Run.exec next (init maxRequiredSamples maxConcurrentSamples hmax) acts = some s)
    (hquiet : Run.Meets next Quiet (init maxRequiredSamples maxConcurrentSamples hmax) acts) :
    s.taken ≤ s.consumed + maxRequiredSamples ∧ s.mq.droppedSamples = 0 := by
  have hok : s.Ok :=
    Run.exec_invariant_of_meets (fun _ _ _ hs hq hstep => hs.next hq hstep)
      (init_ok maxRequiredSamples maxConcurrentSamples hmax) hquiet hrun
  let P : RollouterState → Prop := fun s => s.maxRequiredSamples = maxRequiredSamples
  have hkeep : ∀ s a t, P s → next s a = some t → P t :=
    fun _ _ _ hs hstep => (next_maxRequiredSamples hstep).trans hs
  have hbound : P s := Run.exec_invariant hkeep rfl hrun
  have htaken := hok.taken_le
  rw [hbound] at htaken
  exact ⟨htaken, hok.noDrop⟩

/-- A run with a recomputation while a task generates. -/
theorem bounded_of_quiet_run :
    let s : RollouterState :=
      { init 1 1 Nat.one_pos with
        stalenessSamples := 1
        resumeFuture := true
        nextSample := 1
        activeTasks := [(0, .put true)]
        mq := ⟨1, [some 0], true, 1, 0, 0, Nat.one_pos⟩
        taken := 1 }
    s.taken ≤ s.consumed + 1 ∧ s.mq.droppedSamples = 0 :=
  bounded_of_quiet 1 1 Nat.one_pos
    [.feed, .gate, .gateStats, .gateDecide, .take, .slot, .checkPaused, .create, .resetStart,
      .resetSize, .resetWrite, .put 0] _ (by decide) (by decide)

/-- With a bound of one, a recomputation while the processor holds a sample lets
it take a second one, whose result drops the first from the queue. -/
theorem not_bounded :
    ¬ ∀ (maxRequiredSamples maxConcurrentSamples : Nat) (hmax : 0 < maxRequiredSamples),
        0 < maxConcurrentSamples → ∀ (acts : List RollouterAct) (s : RollouterState),
          Run.exec next (init maxRequiredSamples maxConcurrentSamples hmax) acts = some s →
            s.taken ≤ s.consumed + maxRequiredSamples ∧ s.mq.droppedSamples = 0 := by
  intro hall
  have hrun :
      (Run.exec next (init 1 1 Nat.one_pos)
        [.feed, .feed, .gate, .gateStats, .resetStart, .gateDecide, .take, .slot, .checkPaused,
          .resetSize, .resetWrite, .create, .gate, .gateStats, .gateDecide, .take, .slot, .put 0,
          .complete 0, .slotDone, .slot, .checkPaused, .create, .put 0]).map
        (fun s => (s.taken, s.consumed, s.mq.droppedSamples)) = some (2, 0, 1) := by
    decide
  obtain ⟨s, hs, hvalues⟩ := Option.map_eq_some_iff.mp hrun
  obtain ⟨htaken, -⟩ := hall 1 1 Nat.one_pos Nat.one_pos _ s hs
  rw [Prod.mk.injEq, Prod.mk.injEq] at hvalues
  omega

end RollouterState

end Verl
