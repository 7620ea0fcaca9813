import Verl.PpoTrainer.FitInvariant

/-!
# Resuming from a checkpoint

After a crash the job loads the last checkpoint and reissues the prompts in
flight.  Every prompt of the stream is accounted for, unless it was dropped as
stale.  What is left over are trajectories: the save comes before the batch of
the step is cleared, and nothing clears it after a resume.
-/

namespace Verl

variable {T : Type} {cfg : FitConfig} {s : FitState T} {c : Checkpoint T} {uid : String}

/-- The prompt is registered with a status. -/
def Registered (store : TransferQueue T) (uid : String) : Prop :=
  ∃ status g, store.get? "train" uid = some (.prompt status g)

/-- One update of the saved weights consumed the prompt, and nothing is left of it. -/
def Consumed (c : Checkpoint T) (s : FitState T) (uid : String) : Prop :=
  c.weights.count uid = 1 ∧ ¬ Registered s.store uid ∧ uid ∉ s.dispatched

/-- The prompt is over as it was saved, with all its trajectories. -/
def Restored (c : Checkpoint T) (s : FitState T) (uid : String) : Prop :=
  uid ∉ c.weights ∧ uid ∉ s.dispatched ∧
    (∃ status g, status.IsTerminal ∧ c.store.get? "train" uid = some (.prompt status g) ∧
      s.store.get? "train" uid = some (.prompt status g)) ∧
    ∀ key tag, (key, tag) ∈ c.history.written → uidOfKey key = uid →
      s.store.get? "train" key = some (.trajectory tag)

/-- The prompt starts anew: it is pending, is dispatched once and has no trajectory. -/
def Reissued (c : Checkpoint T) (s : FitState T) (uid : String) : Prop :=
  uid ∉ c.weights ∧ s.dispatched.count uid = 1 ∧
    s.store.get? "train" uid = some (.prompt .pending s.globalSteps) ∧
    ∀ key tag, s.store.get? "train" key = some (.trajectory tag) → uidOfKey key ≠ uid

/-- No prompt is lost or repeated, and no trajectory is left over.  The prompts are
those that the saved dataloader has handed out. -/
structure ResumeOk (c : Checkpoint T) (s : FitState T) : Prop where
  stream : c.history.handedOut.length = c.dataloader
  accounted : ∀ uid ∈ c.history.handedOut, Consumed c s uid ∨ Restored c s uid ∨ Reissued c s uid
  registered : ∀ key tag, s.store.get? "train" key = some (.trajectory tag) →
    Registered s.store (uidOfKey key)

/-- The state after the reissue. -/
def resumed (cfg : FitConfig) (c : Checkpoint T) : FitState T :=
  (FitState.load (some c)).reissue cfg

/-- The prompts in flight are dispatched. -/
theorem dispatched_resumed : (resumed cfg c).dispatched = inflightUids (c.store.kvList "train") := by
  rw [resumed, FitState.reissue_eq]
  rfl

theorem store_resumed : (resumed cfg c).store = (c.store.kvClear "train"
    (oldTrajectoryKeys (c.store.kvList "train") (inflightUids (c.store.kvList "train")))).putPrompts
      (inflightUids (c.store.kvList "train")) (.prompt .pending (resumed cfg c).globalSteps) := by
  rw [resumed, FitState.reissue_eq]
  rfl

theorem mem_written_resumed {entry : String × T} :
    entry ∈ (resumed cfg c).history.written ↔
      entry ∈ c.history.written ∧ uidOfKey entry.1 ∉ inflightUids (c.store.kvList "train") := by
  rw [resumed, FitState.reissue_eq]
  exact List.mem_filter.trans (and_congr_right fun _ => decide_eq_true_iff)

theorem leftover_resumed : (resumed cfg c).held ++ (resumed cfg c).history.stray =
    c.history.stray ++ c.held := by
  rw [resumed, FitState.reissue_eq]
  rfl

section Resume

variable (hc : (FitState.load (some c)).Consistent)
include hc

theorem ok_load_checkpoint (cfg : FitConfig) : (FitState.load (some c)).Ok cfg :=
    ⟨hc, ⟨rfl, rfl⟩, hc⟩

theorem ok_resumed (cfg : FitConfig) : (resumed cfg c).Ok cfg :=
  FitState.Ok.reissue (ok_load_checkpoint hc cfg) rfl

theorem registered_resumed_iff : Registered (resumed cfg c).store uid ↔
    uid ∈ c.history.handedOut ∧ uid ∉ c.weights ∧ uid ∉ c.history.dropped := by
  have htaken : (resumed cfg c).taken = c.weights ++ c.history.dropped :=
    FitState.taken_of_inUpdate rfl
  have hprompts := (ok_resumed hc cfg).consistent.queue.prompts uid
  rw [htaken, List.mem_append, not_or] at hprompts
  exact hprompts

theorem nodup_weights : (c.weights ++ c.history.dropped).Nodup := by
  have hnodup := hc.taken_nodup
  rwa [FitState.taken_of_inUpdate (rfl : (FitState.load (some c)).pc.inUpdate = [])] at hnodup

/-- A prompt that an update consumed is not reissued. -/
theorem consumed_resumed (huid : uid ∈ c.weights) : Consumed c (resumed cfg c) uid := by
  have hnot : ¬ Registered (resumed cfg c).store uid := by
    rw [registered_resumed_iff hc]
    exact fun h => h.2.1 huid
  refine ⟨?_, hnot, fun hin => ?_⟩
  · exact List.count_eq_one_of_mem (nodup_weights hc).of_append_left huid
  · rw [dispatched_resumed] at hin
    obtain ⟨hout, htaken⟩ := (ok_load_checkpoint hc cfg).live_of_inflight hin
    exact htaken (List.mem_append_left _ (List.mem_append_left _ huid))

/-- A prompt that was over is as it was saved. -/
theorem restored_resumed {status : PromptStatus} {g : Int} (huid : uid ∉ c.weights)
    (hget : c.store.get? "train" uid = some (.prompt status g)) (hterminal : status.IsTerminal) :
    Restored c (resumed cfg c) uid := by
  have hinflight : uid ∉ inflightUids (c.store.kvList "train") := by
    intro hin
    obtain ⟨status', g', hget', hopen⟩ := mem_inflightUids.mp hin
    rw [hget, Option.some.injEq, Tag.prompt.injEq] at hget'
    exact hopen (hget'.1 ▸ hterminal)
  have hold : uid ∉ oldTrajectoryKeys (c.store.kvList "train")
      (inflightUids (c.store.kvList "train")) := by
    intro hin
    obtain ⟨_, tag, hget'⟩ := mem_oldTrajectoryKeys.mp hin
    rw [hget] at hget'
    cases hget'
  have hstored : (resumed cfg c).store.get? "train" uid = some (.prompt status g) := by
    rw [store_resumed, TransferQueue.get?_putPrompts, if_neg hinflight,
      TransferQueue.get?_kvClear_train, if_neg hold, hget]
  refine ⟨huid, ?_, ⟨status, g, hterminal, hget, hstored⟩, ?_⟩
  · rwa [dispatched_resumed]
  · intro key tag hwritten hkey
    refine (ok_resumed hc cfg).consistent.queue.complete key tag ?_ ?_
    · rw [mem_written_resumed, hkey]
      exact ⟨hwritten, hinflight⟩
    · rw [hkey]
      exact ((ok_resumed hc cfg).consistent.queue.prompts uid).mp ⟨status, g, hstored⟩

/-- A trajectory that is left over has no prompt. -/
theorem not_registered_leftover {key : String} (hkey : key ∈ c.history.stray ++ c.held) :
    (∃ tag, (resumed cfg c).store.get? "train" key = some (.trajectory tag)) ∧
      ¬ Registered (resumed cfg c).store (uidOfKey key) := by
  have hcons : (resumed cfg c).Consistent := (ok_resumed hc cfg).consistent
  rw [← @leftover_resumed T cfg] at hkey
  refine ⟨hcons.queue.leftover key hkey, fun hregistered => ?_⟩
  obtain ⟨hout, hnot⟩ := (hcons.queue.prompts _).mp hregistered
  rcases List.mem_append.mp hkey with hheld | hstray
  · rcases (hcons.held_key key hheld).2 with hpad | ⟨hgone, _⟩
    · exact hpad (hcons.uuids _ hout)
    · exact hnot hgone
  · rcases hcons.stray_key key hstray with hpad | hgone
    · exact hpad (hcons.uuids _ hout)
    · exact hnot ((List.mem_append.mp hgone).resolve_right List.not_mem_nil)

/-- A prompt in flight starts anew. -/
theorem reissued_resumed (huid : uid ∉ c.weights)
    (hinflight : uid ∈ inflightUids (c.store.kvList "train")) : Reissued c (resumed cfg c) uid := by
  have hstored : (resumed cfg c).store.get? "train" uid =
      some (.prompt .pending (resumed cfg c).globalSteps) := by
    rw [store_resumed, TransferQueue.get?_putPrompts, if_pos hinflight]
  refine ⟨huid, ?_, hstored, ?_⟩
  · rw [dispatched_resumed]
    exact List.count_eq_one_of_mem (nodup_inflightUids c.store) hinflight
  · rintro key tag hget rfl
    rcases (ok_resumed hc cfg).consistent.queue.trajectories key tag hget with
      hin | ⟨hwritten, _⟩
    · rw [leftover_resumed] at hin
      exact (@not_registered_leftover T cfg c hc key hin).2 ⟨_, _, hstored⟩
    · exact (mem_written_resumed.mp hwritten).2 hinflight

/-- A prompt that was dropped is not accounted for. -/
theorem not_accounted_dropped (huid : uid ∈ c.history.dropped) :
    uid ∈ c.history.handedOut ∧ ¬ Consumed c (resumed cfg c) uid ∧
      ¬ Restored c (resumed cfg c) uid ∧ ¬ Reissued c (resumed cfg c) uid := by
  have hnot : ¬ Registered (resumed cfg c).store uid := by
    rw [registered_resumed_iff hc]
    exact fun h => h.2.2 huid
  refine ⟨?_, ?_, ?_, ?_⟩
  · exact hc.taken_mem uid (List.mem_append_right _ huid)
  · rintro ⟨hcount, _⟩
    have hmem : uid ∈ c.weights := List.count_pos_iff.mp (by omega)
    exact (List.disjoint_of_nodup_append (nodup_weights hc)) hmem huid
  · rintro ⟨_, _, ⟨status, g, _, _, hget⟩, _⟩
    exact hnot ⟨status, g, hget⟩
  · rintro ⟨_, _, hget, _⟩
    exact hnot ⟨_, _, hget⟩

/-- Every other prompt of the stream is accounted for. -/
theorem accounted_resumed (hmem : uid ∈ c.history.handedOut)
    (hdropped : uid ∉ c.history.dropped) :
    Consumed c (resumed cfg c) uid ∨ Restored c (resumed cfg c) uid ∨
      Reissued c (resumed cfg c) uid := by
  by_cases huid : uid ∈ c.weights
  · exact .inl (consumed_resumed hc huid)
  · have htaken : uid ∉ (FitState.load (some c)).taken := by
      rw [FitState.taken_of_inUpdate (rfl : (FitState.load (some c)).pc.inUpdate = []),
        List.mem_append]
      exact not_or.mpr ⟨huid, hdropped⟩
    obtain ⟨status, g, hget⟩ := (hc.queue.prompts uid).mpr ⟨hmem, htaken⟩
    by_cases hterminal : status.IsTerminal
    · exact .inr (.inl (restored_resumed hc huid hget hterminal))
    · refine .inr (.inr (reissued_resumed hc huid ?_))
      exact mem_inflightUids.mpr ⟨status, g, hget, hterminal⟩

theorem resumeOk_resumed_iff : ResumeOk c (resumed cfg c) ↔
    c.history.dropped = [] ∧ c.held = [] ∧ c.history.stray = [] := by
  constructor
  · intro h
    have hleft : c.history.stray ++ c.held = [] := by
      refine List.eq_nil_iff_forall_not_mem.mpr fun key hkey => ?_
      obtain ⟨⟨tag, hget⟩, hnot⟩ := @not_registered_leftover T cfg c hc key hkey
      exact hnot (h.registered key tag hget)
    obtain ⟨hstray, hheld⟩ := List.append_eq_nil_iff.mp hleft
    refine ⟨List.eq_nil_iff_forall_not_mem.mpr fun uid huid => ?_, hheld, hstray⟩
    obtain ⟨hmem, hconsumed, hrestored, hreissued⟩ := @not_accounted_dropped T cfg c uid hc huid
    rcases h.accounted uid hmem with h | h | h
    · exact hconsumed h
    · exact hrestored h
    · exact hreissued h
  · rintro ⟨hdropped, hheld, hstray⟩
    have hleft : c.history.stray ++ c.held = [] := by rw [hheld, hstray, List.append_nil]
    refine ⟨hc.length, fun uid hmem => ?_, fun key tag hget => ?_⟩
    · refine accounted_resumed hc hmem ?_
      rw [hdropped]
      exact List.not_mem_nil
    · have hcons : (resumed cfg c).Consistent := (ok_resumed hc cfg).consistent
      rcases hcons.queue.trajectories key tag hget with hin | ⟨_, hlive⟩
      · rw [leftover_resumed, hleft] at hin
        cases hin
      · exact (hcons.queue.prompts _).mpr hlive

end Resume

/-- In every run, a resume from the last checkpoint accounts for every prompt that
was not dropped.  It is as it should be if and only if no prompt had been dropped,
the trainer held no trajectory at the save, and none was stray. -/
theorem resumeOk_iff {acts : List (FitAct T)}
    (hrun : Run.exec (FitState.next cfg) FitState.init acts = some s) (hsaved : s.latest = some c) :
    (∀ uid ∈ c.history.handedOut, uid ∉ c.history.dropped →
      Consumed c (resumed cfg c) uid ∨ Restored c (resumed cfg c) uid ∨
        Reissued c (resumed cfg c) uid) ∧
      (ResumeOk c (resumed cfg c) ↔
        c.history.dropped = [] ∧ c.held = [] ∧ c.history.stray = []) := by
  have hlatest := (FitState.ok_of_exec hrun).latest
  rw [hsaved] at hlatest
  exact ⟨fun uid hmem hdropped => accounted_resumed hlatest hmem hdropped,
    resumeOk_resumed_iff hlatest⟩

/-- One prompt a step, and a save after every step. -/
def oneConfig : FitConfig where
  trainBatchSize := 1
  parameterSyncStep := 1
  numWarmupBatches := 1
  saveFreq := 1
  totalTrainingSteps := 10
  replay := ⟨4, .wait, by decide⟩

/-- The first prompt fails without a trajectory, and the second is running at the save. -/
def failingRun : List (FitAct Unit) :=
  [.reissue, .submit ["a"], .submit ["b"], .start "a", .terminate "a" .failure, .start "b",
    .poll ["a"], .clearSelected, .train "0" [], .save, .save, .save, .save]

theorem resumeOk_failingRun : ∃ s c,
    Run.exec (FitState.next oneConfig) FitState.init failingRun = some s ∧ s.latest = some c ∧
      ResumeOk c (resumed oneConfig c) :=
  ⟨_, _, rfl, rfl, (@resumeOk_iff Unit oneConfig _ _ failingRun rfl rfl).2.mpr ⟨rfl, rfl, rfl⟩⟩

/-- The same run with a trajectory of the first prompt, which the save still finds. -/
def finishingRun : List (FitAct Unit) :=
  [.reissue, .submit ["a"], .submit ["b"], .start "a", .write "a" 0 [()],
    .terminate "a" .finished, .start "b", .poll ["a"], .clearSelected, .train "0" [], .save, .save,
    .save, .save, .clear, .crash]

/-- The trajectory of a consumed prompt comes back. -/
theorem not_resumeOk : ∃ s c,
    Run.exec (FitState.next oneConfig) FitState.init finishingRun = some s ∧ s.latest = some c ∧
      ¬ ResumeOk c (resumed oneConfig c) := by
  refine ⟨_, _, rfl, rfl, fun h => ?_⟩
  obtain ⟨status, g, hget⟩ := h.registered "a_0_0" () rfl
  exact nomatch (show (none : Option (Tag Unit)) = some (.prompt status g) from hget)

end Verl
