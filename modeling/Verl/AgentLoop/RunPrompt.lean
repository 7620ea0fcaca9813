import Verl.Lib.Run
import Verl.ReplayBuffer.TransferQueue

/-!
# Running the sessions of a prompt

`_run_prompt` starts one agent loop for each session of a prompt and waits for
them with `asyncio.gather`.  A session puts its trajectories into the transfer
queue when its agent loop ends.  The prompt's status tag becomes `finished`
when `gather` returns, and `failure` when it raises.  The replay buffer takes
a prompt with either tag, together with all trajectory keys of its uid.

`gather` raises with the first exception and lets the other sessions run.  So
the tag `failure` can come before the sessions are over, and the replay buffer
then misses what they put later.  `GatherSettled` is the condition that this
does not happen: when `gather` raises, no session is left running.
-/

namespace Verl

/-! ## State -/

/-- A session, a task of `_run_agent_loop`. -/
inductive Session where
  /-- The agent loop runs. -/
  | running
  /-- The agent loop ended and its outputs are scored and put. -/
  | putting (outputs : Nat)
  | done (outputs : Nat)
  | raised
deriving DecidableEq

/-- Whether the task is over. -/
def Session.over : Session → Bool
  | done _ | raised => true
  | running | putting _ => false

/-- The program counter of `_run_prompt`. -/
inductive PromptPc where
  | starting
  | spawning
  | gathering
  /-- About to put the tag `finished`. -/
  | finishing
  /-- In the `except` branch. -/
  | failing
  | over
deriving DecidableEq

structure PromptState where
  pc : PromptPc
  /-- The tag in the transfer queue, `none` once the prompt key is cleared. -/
  status : Option PromptStatus
  sessions : List Session
  /-- The trajectory keys in the transfer queue, each a session with an index. -/
  keys : List (Nat × Nat)
  /-- The keys that a sample of the replay buffer returned. -/
  sampled : Option (List (Nat × Nat))
deriving DecidableEq

inductive PromptAct where
  | putRunning
  /-- Starts this many sessions. -/
  | spawn (n : Nat)
  /-- Starting the first session raises. -/
  | spawnError
  /-- The agent loop of the session ends with this many outputs. -/
  | loopEnd (session outputs : Nat)
  | put (session : Nat)
  | raise (session : Nat)
  | gatherReturn
  | gatherRaise
  | putFinished
  | putFailure
  /-- The replay buffer consumes the prompt. -/
  | sample
deriving DecidableEq

namespace PromptState

/-- The trainer has put the prompt with the tag `pending`. -/
def init : PromptState where
  pc := .starting
  status := some .pending
  sessions := []
  keys := []
  sampled := none

/-! ## Steps -/

/-- One step of `_run_prompt`, of a session or of the replay buffer. -/
def next (s : PromptState) : PromptAct → Option PromptState
  | .putRunning =>
      if s.pc = .starting then some { s with status := some .running, pc := .spawning } else none
  | .spawn n =>
      if s.pc = .spawning then
        some { s with sessions := List.replicate n .running, pc := .gathering }
      else none
  | .spawnError => if s.pc = .spawning then some { s with pc := .failing } else none
  | .loopEnd i outputs =>
      match s.sessions[i]? with
      | some .running =>
          -- An empty output list is only logged.
          some { s with
            sessions := s.sessions.set i (if outputs = 0 then .done 0 else .putting outputs) }
      | _ => none
  | .put i =>
      match s.sessions[i]? with
      | some (.putting outputs) =>
          some { s with
            keys := s.keys ++ (List.range outputs).map fun index => (i, index)
            sessions := s.sessions.set i (.done outputs) }
      | _ => none
  | .raise i =>
      match s.sessions[i]? with
      | some .running | some (.putting _) =>
          some { s with sessions := s.sessions.set i .raised }
      | _ => none
  | .gatherReturn =>
      if s.pc = .gathering ∧ ∀ session ∈ s.sessions, session.over ∧ session ≠ .raised then
        some { s with pc := .finishing }
      else none
  | .gatherRaise =>
      if s.pc = .gathering ∧ .raised ∈ s.sessions then some { s with pc := .failing } else none
  | .putFinished =>
      if s.pc = .finishing then some { s with status := some .finished, pc := .over } else none
  | .putFailure =>
      if s.pc = .failing then some { s with status := some .failure, pc := .over } else none
  | .sample =>
      if s.status = some .finished ∨ s.status = some .failure then
        some { s with sampled := some s.keys, status := none }
      else none

/-! ## The invariant -/

/-- The status tag has become `finished` or `failure`. -/
def Terminal (s : PromptState) : Prop :=
  s.status = some .finished ∨ s.status = some .failure ∨ s.sampled ≠ none

/-- When `gather` raises, every session is over. -/
def GatherSettled (s : PromptState) (a : PromptAct) : Prop :=
  a = .gatherRaise → ∀ session ∈ s.sessions, session.over

instance (s : PromptState) (a : PromptAct) : Decidable (s.GatherSettled a) :=
  inferInstanceAs (Decidable (a = .gatherRaise → ∀ session ∈ s.sessions, session.over))

/-- `_run_prompt` is done with its sessions. -/
def PastGather (s : PromptState) : Prop := s.pc = .finishing ∨ s.pc = .failing ∨ s.pc = .over

/-- No session is left when `_run_prompt` has got past `gather`. -/
structure Ok (s : PromptState) : Prop where
  terminal : s.Terminal → s.pc = .over
  unstarted : s.pc = .starting ∨ s.pc = .spawning → s.sessions = []
  settled : s.PastGather → ∀ session ∈ s.sessions, session.over
  /-- A session that ended without error has put all its keys. -/
  stored : ∀ i outputs, s.sessions[i]? = some (.done outputs) →
    ∀ index < outputs, (i, index) ∈ s.keys
  sampled : ∀ keys, s.sampled = some keys → keys = s.keys

theorem init_ok : init.Ok where
  terminal := by
    intro h
    obtain h | h | h := h
    · cases h
    · cases h
    · exact absurd rfl h
  unstarted := fun _ => rfl
  settled := fun _ session hsession => absurd hsession List.not_mem_nil
  stored := fun i outputs h => by cases h
  sampled := fun keys h => by cases h

/-- A session that is not over keeps `_run_prompt` before the end of
`gather`. -/
theorem Ok.not_pastGather {s : PromptState} (hs : s.Ok) {i : Nat} {session : Session}
    (hi : s.sessions[i]? = some session) (hover : session.over = false) : ¬ s.PastGather := by
  intro hpast
  have := hs.settled hpast session (List.mem_of_getElem? hi)
  rw [hover] at this
  cases this

theorem Ok.not_sampled {s : PromptState} (hs : s.Ok) (h : ¬ s.PastGather) : s.sampled = none := by
  by_contra hne
  exact h (Or.inr (Or.inr (hs.terminal (Or.inr (Or.inr hne)))))

/-- A step of a session that is not over.  It may add keys, and if it ends
without error its keys are all there. -/
theorem Ok.setSession {s : PromptState} (hs : s.Ok) {i : Nat} {session session' : Session}
    (hi : s.sessions[i]? = some session) (hover : session.over = false) {keys : List (Nat × Nat)}
    (hkeys : ∀ key ∈ s.keys, key ∈ keys)
    (hdone : ∀ outputs, session' = .done outputs → ∀ index < outputs, (i, index) ∈ keys) :
    ({ s with sessions := s.sessions.set i session', keys := keys } : PromptState).Ok where
  terminal := hs.terminal
  unstarted := by
    intro hpc
    rw [hs.unstarted hpc] at hi
    cases hi
  settled := fun hpast => absurd hpast (hs.not_pastGather hi hover)
  stored := by
    intro j outputs hj index hindex
    by_cases hij : i = j
    · subst hij
      have hlt : i < s.sessions.length := (List.getElem?_eq_some_iff.mp hi).1
      rw [List.getElem?_set_self hlt, Option.some.injEq] at hj
      exact hdone outputs hj index hindex
    · rw [List.getElem?_set_ne hij] at hj
      exact hkeys _ (hs.stored j outputs hj index hindex)
  sampled := by
    intro sampled hsampled
    have hnone := hs.not_sampled (hs.not_pastGather hi hover)
    have hsome : s.sampled = some sampled := hsampled
    rw [hnone] at hsome
    cases hsome

/-- A step of `_run_prompt` before its last one. -/
theorem Ok.movePc {s : PromptState} (hs : s.Ok) {pc : PromptPc} (hbefore : s.pc ≠ .over)
    (hpc : pc ≠ .starting ∧ pc ≠ .spawning)
    (hsettled : pc ≠ .gathering → ∀ session ∈ s.sessions, session.over) :
    ({ s with pc := pc } : PromptState).Ok where
  terminal := fun hterm => absurd (hs.terminal hterm) hbefore
  unstarted := by
    intro hunstarted
    obtain h | h := hunstarted
    · exact absurd h hpc.1
    · exact absurd h hpc.2
  settled := by
    intro hpast
    refine hsettled fun hgathering => ?_
    obtain h | h | h := hpast <;> rw [show pc = _ from h] at hgathering <;> cases hgathering
  stored := hs.stored
  sampled := hs.sampled

/-- Putting the terminal tag. -/
theorem Ok.putStatus {s : PromptState} (hs : s.Ok) (status : PromptStatus)
    (hpast : s.PastGather) :
    ({ s with status := some status, pc := .over } : PromptState).Ok where
  terminal := fun _ => rfl
  unstarted := by
    intro hunstarted
    obtain h | h := hunstarted <;> cases h
  settled := fun _ => hs.settled hpast
  stored := hs.stored
  sampled := hs.sampled

/-- Every step keeps the invariant if `gather` raises only when every session
is over. -/
theorem Ok.next {s t : PromptState} (hs : s.Ok) {a : PromptAct} (hsettled : s.GatherSettled a)
    (h : s.next a = some t) : t.Ok := by
  cases a with
  | putRunning =>
      simp only [PromptState.next] at h
      split at h
      next hpc =>
        rw [Option.some.injEq] at h
        subst h
        constructor
        · intro hterm
          obtain hterm | hterm | hterm := hterm
          · cases hterm
          · cases hterm
          · have hover := hs.terminal (Or.inr (Or.inr hterm))
            rw [hpc] at hover
            cases hover
        · exact fun _ => hs.unstarted (Or.inl hpc)
        · intro hpast
          obtain hpast | hpast | hpast := hpast <;> cases hpast
        · exact hs.stored
        · exact hs.sampled
      · cases h
  | spawn n =>
      simp only [PromptState.next] at h
      split at h
      next hpc =>
        rw [Option.some.injEq] at h
        subst h
        have hbefore : s.pc ≠ .over := by rw [hpc]; decide
        constructor
        · exact fun hterm => absurd (hs.terminal hterm) hbefore
        · intro hunstarted
          obtain hunstarted | hunstarted := hunstarted <;> cases hunstarted
        · intro hpast
          obtain hpast | hpast | hpast := hpast <;> cases hpast
        · intro i outputs hi
          cases List.eq_of_mem_replicate (List.mem_of_getElem? hi)
        · exact hs.sampled
      · cases h
  | spawnError =>
      simp only [PromptState.next] at h
      split at h
      next hpc =>
        rw [Option.some.injEq] at h
        subst h
        refine hs.movePc (by rw [hpc]; decide) (by decide) fun _ session hsession => ?_
        rw [hs.unstarted (Or.inr hpc)] at hsession
        exact absurd hsession List.not_mem_nil
      · cases h
  | loopEnd i outputs =>
      simp only [PromptState.next] at h
      split at h
      next hi =>
        rw [Option.some.injEq] at h
        subst h
        refine hs.setSession hi rfl (fun key hkey => hkey) fun outputs' hdone index hindex => ?_
        split at hdone
        · rw [Session.done.injEq] at hdone
          subst hdone
          exact absurd hindex (Nat.not_lt_zero index)
        · cases hdone
      · cases h
  | put i =>
      simp only [PromptState.next] at h
      split at h
      next outputs hi =>
        rw [Option.some.injEq] at h
        subst h
        refine hs.setSession hi rfl (fun key hkey => List.mem_append_left _ hkey)
          fun outputs' hdone index hindex => ?_
        rw [Session.done.injEq] at hdone
        subst hdone
        refine List.mem_append_right _ (List.mem_map.mpr ⟨index, ?_, rfl⟩)
        exact List.mem_range.mpr hindex
      · cases h
  | raise i =>
      simp only [PromptState.next] at h
      split at h
      next hi =>
        rw [Option.some.injEq] at h
        subst h
        exact hs.setSession hi rfl (fun key hkey => hkey) fun outputs hdone => by cases hdone
      next outputs hi =>
        rw [Option.some.injEq] at h
        subst h
        exact hs.setSession hi rfl (fun key hkey => hkey) fun outputs hdone => by cases hdone
      · cases h
  | gatherReturn =>
      simp only [PromptState.next] at h
      split at h
      next hpc =>
        rw [Option.some.injEq] at h
        subst h
        obtain ⟨hpc, hall⟩ := hpc
        exact hs.movePc (by rw [hpc]; decide) (by decide)
          fun _ session hsession => (hall session hsession).1
      · cases h
  | gatherRaise =>
      simp only [PromptState.next] at h
      split at h
      next hpc =>
        rw [Option.some.injEq] at h
        subst h
        exact hs.movePc (by rw [hpc.1]; decide) (by decide) fun _ => hsettled rfl
      · cases h
  | putFinished =>
      simp only [PromptState.next] at h
      split at h
      next hpc =>
        rw [Option.some.injEq] at h
        subst h
        exact hs.putStatus .finished (Or.inl hpc)
      · cases h
  | putFailure =>
      simp only [PromptState.next] at h
      split at h
      next hpc =>
        rw [Option.some.injEq] at h
        subst h
        exact hs.putStatus .failure (Or.inr (Or.inl hpc))
      · cases h
  | sample =>
      simp only [PromptState.next] at h
      split at h
      next hstatus =>
        rw [Option.some.injEq] at h
        subst h
        have hover : s.pc = .over := by
          obtain hstatus | hstatus := hstatus
          · exact hs.terminal (Or.inl hstatus)
          · exact hs.terminal (Or.inr (Or.inl hstatus))
        refine ⟨fun _ => hover, hs.unstarted, hs.settled, hs.stored, fun keys hkeys => ?_⟩
        exact (Option.some.inj hkeys).symm
      · cases h

/-! ## The terminal tag -/

/-- In a run in which `gather` raises only when every session is over, a
terminal prompt has no session left, all keys of the sessions that ended
without error are in the transfer queue, and a sample that took the prompt
took all keys it ever gets. -/
theorem terminal_complete (acts : List PromptAct) (s : PromptState)
    (hrun : Run.exec next init acts = some s) (hsettled : Run.Meets next GatherSettled init acts)
    (hterm : s.Terminal) :
    (∀ session ∈ s.sessions, session.over) ∧
      (∀ i outputs, s.sessions[i]? = some (.done outputs) →
        ∀ index < outputs, (i, index) ∈ s.keys) ∧
      ∀ keys, s.sampled = some keys → keys = s.keys := by
  have hok : s.Ok :=
    Run.exec_invariant_of_meets (fun _ _ _ hs hg hstep => hs.next hg hstep) init_ok hsettled hrun
  exact ⟨hok.settled (Or.inr (Or.inr (hok.terminal hterm))), hok.stored, hok.sampled⟩

/-- One session puts two trajectories, then the other raises and the prompt is
sampled. -/
theorem terminal_complete_two :
    let s : PromptState :=
      ⟨.over, none, [.done 2, .raised], [(0, 0), (0, 1)], some [(0, 0), (0, 1)]⟩
    ∀ session ∈ s.sessions, session.over :=
  (terminal_complete
    [.putRunning, .spawn 2, .loopEnd 0 2, .put 0, .raise 1, .gatherRaise, .putFailure, .sample] _
    (by decide) (by decide) (Or.inr (Or.inr (by decide)))).1

/-- A session raises while the other runs.  The prompt is sampled before the
other session puts its trajectory, which is left behind. -/
theorem not_terminal_complete :
    ¬ ∀ (acts : List PromptAct) (s : PromptState), Run.exec next init acts = some s →
        s.Terminal →
          (∀ session ∈ s.sessions, session.over) ∧
            (∀ i outputs, s.sessions[i]? = some (.done outputs) →
              ∀ index < outputs, (i, index) ∈ s.keys) ∧
            ∀ keys, s.sampled = some keys → keys = s.keys := by
  intro hall
  let s : PromptState := ⟨.over, none, [.raised, .done 1], [(1, 0)], some []⟩
  have hrun : Run.exec next init
      [.putRunning, .spawn 2, .raise 0, .gatherRaise, .putFailure, .sample, .loopEnd 1 1, .put 1] =
        some s := by
    decide
  have hsampled := (hall _ s hrun (Or.inr (Or.inr (by decide)))).2.2 [] rfl
  cases hsampled

end PromptState

end Verl
