import Verl.FullyAsync.Trainer

/-!
# What a version of the weights is

`weightsAfter k` are the actor weights after `k` steps, computed from the
batches alone.  `Inv` says what every field of the trainer is after `k` steps in
terms of `k` and `weightsAfter`.  Each part of the step has one lemma that gives
the state it leaves, and `Inv.fitStep` puts them together.

*Checkpoints.*  `Saves` describes the steps after which the loop saved: at most
one for each version, and the first one that was due.
-/

namespace Verl.FullyAsyncTrainer

variable {β : Type}

/-! ## The weights after a number of steps -/

section Weights

variable (cfg : Config) (resume : Option Nat) (xs : List (Input β))

/-- The version that the run starts with. -/
def startVersion : Nat := resume.getD 0

/-- `global_steps` in the first step. -/
def firstGlobalStep : Nat :=
  match resume with
  | none => 1
  | some version => version * cfg.triggerParameterSyncStep + 2

/-- The step `k`, counted from 0, updates the actor. -/
def UpdatesActor (k : Nat) : Prop :=
  cfg.criticWarmup ≤ ((firstGlobalStep cfg resume + k : Nat) : Int)

instance (k : Nat) : Decidable (UpdatesActor cfg resume k) :=
  inferInstanceAs (Decidable (_ ≤ _))

/-- The actor weights after `k` steps. -/
def weightsAfter (k : Nat) : Weights β :=
  ((xs.take k).zipIdx.filter fun x => UpdatesActor cfg resume x.2).map fun x => x.1.batch

/-- What `should_save_ckpt_esi` returned when `k` steps were done. -/
def esiAt (k : Nat) : Bool := (xs[k - 1]?).elim false Input.esiCloseToExpiration

/-- A save is due when `k` steps are done. -/
def Due (k : Nat) : Prop :=
  Trainer.saveDue cfg (startVersion resume + k / cfg.triggerParameterSyncStep) (esiAt xs k) = true

end Weights

variable {cfg : Config} {resume : Option Nat} {xs : List (Input β)} {k : Nat} {x : Input β}

theorem weightsAfter_zero : weightsAfter cfg resume xs 0 = [] := by
  rw [weightsAfter, List.take_zero]
  rfl

theorem weightsAfter_succ (hx : xs[k]? = some x) :
    weightsAfter cfg resume xs (k + 1) =
      weightsAfter cfg resume xs k ++ if UpdatesActor cfg resume k then [x.batch] else [] := by
  have hlt : k < xs.length := (List.getElem?_eq_some_iff.mp hx).1
  have hlength : (xs.take k).length = k := List.length_take_of_le hlt.le
  rw [weightsAfter, List.take_add_one, hx, Option.toList_some, List.zipIdx_append, hlength,
    Nat.zero_add, List.filter_append, List.map_append, ← weightsAfter]
  congr 1
  by_cases hupdate : UpdatesActor cfg resume k
  · rw [if_pos hupdate, List.zipIdx_singleton, List.filter_cons_of_pos (by simpa using hupdate)]
    rfl
  · rw [if_neg hupdate, List.zipIdx_singleton, List.filter_cons_of_neg (by simpa using hupdate)]
    rfl

/-- Without a critic warmup every step updates the actor. -/
theorem weightsAfter_of_warm (hwarm : UpdatesActor cfg resume 0) (k : Nat) :
    weightsAfter cfg resume xs k = (xs.take k).map Input.batch := by
  have hall : ∀ y ∈ (xs.take k).zipIdx, decide (UpdatesActor cfg resume y.2) = true := by
    intro y _
    rw [decide_eq_true_eq]
    rw [UpdatesActor] at hwarm ⊢
    omega
  rw [weightsAfter, List.filter_eq_self.mpr hall]
  have hmap := congrArg (List.map Input.batch) (List.zipIdx_map_fst 0 (xs.take k))
  rw [List.map_map] at hmap
  exact hmap

/-! ## Cycles -/

theorem div_mod_succ_of_lt {T : Nat} (h : k % T + 1 < T) :
    (k + 1) / T = k / T ∧ (k + 1) % T = k % T + 1 := by
  refine (Nat.div_mod_unique (by omega)).mpr ⟨?_, h⟩
  have := Nat.mod_add_div k T
  omega

theorem div_mod_succ_of_eq {T : Nat} (hT : 0 < T) (h : T ≤ k % T + 1) :
    (k + 1) / T = k / T + 1 ∧ (k + 1) % T = 0 := by
  refine (Nat.div_mod_unique hT).mpr ⟨?_, hT⟩
  have hlt := Nat.mod_lt k hT
  have := Nat.mod_add_div k T
  rw [Nat.mul_add, Nat.mul_one]
  omega

/-! ## The saved steps -/

/-- The steps after which the loop saved a checkpoint, `k` steps being done. -/
structure Saves (cfg : Config) (resume : Option Nat) (xs : List (Input β)) (k : Nat)
    (ks : List Nat) : Prop where
  sorted : ks.Pairwise fun i j =>
    i / cfg.triggerParameterSyncStep < j / cfg.triggerParameterSyncStep
  due : ∀ i ∈ ks, 0 < i / cfg.triggerParameterSyncStep ∧ i ≤ k ∧ Due cfg resume xs i
  /-- A version that was due is saved, and not later. -/
  complete : ∀ i ≤ k, 0 < i / cfg.triggerParameterSyncStep → Due cfg resume xs i →
    ∃ j ∈ ks, j ≤ i ∧ j / cfg.triggerParameterSyncStep = i / cfg.triggerParameterSyncStep

/-- The cycle of the last save, 0 if there is none. -/
def lastSave (cfg : Config) (ks : List Nat) : Nat :=
  ks.getLast?.elim 0 (· / cfg.triggerParameterSyncStep)

namespace Saves

variable {ks : List Nat}

theorem nil : Saves cfg resume xs 0 [] where
  sorted := .nil
  due i hi := (List.not_mem_nil hi).elim
  complete i hi hpos _ := by
    rw [Nat.le_zero.mp hi, Nat.zero_div] at hpos
    exact (Nat.lt_irrefl 0 hpos).elim

theorem le_lastSave (h : Saves cfg resume xs k ks) {i : Nat} (hi : i ∈ ks) :
    i / cfg.triggerParameterSyncStep ≤ lastSave cfg ks := by
  obtain ⟨ks', j, rfl⟩ := List.eq_nil_or_concat' ks |>.resolve_left (List.ne_nil_of_mem hi)
  rw [lastSave, List.getLast?_concat, Option.elim_some]
  rcases List.mem_append.mp hi with hi | hi
  · exact ((List.pairwise_append.mp h.sorted).2.2 i hi j (List.mem_singleton_self j)).le
  · rw [List.mem_singleton.mp hi]

theorem lastSave_le (h : Saves cfg resume xs k ks) :
    lastSave cfg ks ≤ k / cfg.triggerParameterSyncStep := by
  rw [lastSave]
  cases hlast : ks.getLast? with
  | none => exact Nat.zero_le _
  | some j => exact Nat.div_le_div_right (h.due j (List.mem_of_getLast? hlast)).2.1

/-- The last save, if it is of cycle `c`. -/
theorem exists_of_lastSave (h : lastSave cfg ks ≠ 0) :
    ∃ j ∈ ks, j / cfg.triggerParameterSyncStep = lastSave cfg ks ∧ ks.getLast? = some j := by
  rw [lastSave] at h ⊢
  cases hlast : ks.getLast? with
  | none =>
      rw [hlast] at h
      exact (h rfl).elim
  | some j => exact ⟨j, List.mem_of_getLast? hlast, rfl, rfl⟩

/-- A step after which nothing is saved, since its version is saved or not due. -/
theorem skip (h : Saves cfg resume xs k ks)
    (hskip : lastSave cfg ks = (k + 1) / cfg.triggerParameterSyncStep ∨
      ¬ Due cfg resume xs (k + 1)) : Saves cfg resume xs (k + 1) ks where
  sorted := h.sorted
  due i hi := ⟨(h.due i hi).1, Nat.le_succ_of_le (h.due i hi).2.1, (h.due i hi).2.2⟩
  complete i hi hpos hdue := by
    rcases Nat.le_add_one_iff.mp hi with hi | rfl
    · exact h.complete i hi hpos hdue
    · rcases hskip with hlast | hnot
      · have hzero : lastSave cfg ks ≠ 0 := by omega
        obtain ⟨j, hj, hcycle, _⟩ := exists_of_lastSave hzero
        exact ⟨j, hj, Nat.le_succ_of_le (h.due j hj).2.1, hcycle.trans hlast⟩
      · exact (hnot hdue).elim

/-- A step after which the loop saves. -/
theorem concat (h : Saves cfg resume xs k ks)
    (hnew : lastSave cfg ks ≠ (k + 1) / cfg.triggerParameterSyncStep)
    (hdue : Due cfg resume xs (k + 1)) : Saves cfg resume xs (k + 1) (ks ++ [k + 1]) where
  sorted := by
    have hle := h.lastSave_le
    have hmono : k / cfg.triggerParameterSyncStep ≤ (k + 1) / cfg.triggerParameterSyncStep :=
      Nat.div_le_div_right (Nat.le_succ k)
    refine List.pairwise_append.mpr ⟨h.sorted, List.pairwise_singleton _ _, fun i hi j hj => ?_⟩
    rw [List.mem_singleton.mp hj]
    have := h.le_lastSave hi
    omega
  due i hi := by
    rcases List.mem_append.mp hi with hi | hi
    · exact ⟨(h.due i hi).1, Nat.le_succ_of_le (h.due i hi).2.1, (h.due i hi).2.2⟩
    · rw [List.mem_singleton.mp hi]
      refine ⟨?_, Nat.le_refl _, hdue⟩
      have hle := h.lastSave_le
      have hmono : k / cfg.triggerParameterSyncStep ≤ (k + 1) / cfg.triggerParameterSyncStep :=
        Nat.div_le_div_right (Nat.le_succ k)
      omega
  complete i hi hpos hi' := by
    rcases Nat.le_add_one_iff.mp hi with hi | rfl
    · obtain ⟨j, hj, hle, hcycle⟩ := h.complete i hi hpos hi'
      exact ⟨j, List.mem_append_left _ hj, hle, hcycle⟩
    · exact ⟨k + 1, List.mem_append_right _ (List.mem_singleton_self _), Nat.le_refl _, rfl⟩

theorem lastSave_concat : lastSave cfg (ks ++ [k]) = k / cfg.triggerParameterSyncStep := by
  rw [lastSave, List.getLast?_concat, Option.elim_some]

end Saves

/-! ## The parts of a step -/

namespace Trainer

variable {t : Trainer β}

/-- Recomputing old log-probs uses the weights in slot 1, or the current ones in
the first step of a cycle, and leaves the actor as it was. -/
theorem computeOldLogProb_eq (t : Trainer β) (batch : β) :
    ∃ slots : Nat → Option (Weights β),
      t.computeOldLogProb batch =
          { t with
            cpuSavedModels := slots
            oldLogProbs := t.oldLogProbs ++
              [(batch, if t.localTriggerStep = 1 then t.actor
                else (t.cpuSavedModels 1).getD t.actor)] } ∧
        slots 1 = if t.localTriggerStep = 1 then some t.actor else t.cpuSavedModels 1 := by
  rw [computeOldLogProb]
  split
  next hlocal =>
    refine ⟨Function.update t.cpuSavedModels 1 (some t.actor), ?_, ?_⟩
    · rfl
    · rw [Function.update_self]
  next hlocal =>
    have hslot : Function.update t.cpuSavedModels t.localTriggerStep (some t.actor) 1 =
        t.cpuSavedModels 1 := Function.update_of_ne (Ne.symm hlocal) _ _
    refine ⟨Function.update (Function.update t.cpuSavedModels t.localTriggerStep (some t.actor))
      t.localTriggerStep none, ?_, ?_⟩
    · simp only [saveModelToCpu, restoreModelFromCpu, evaluate, clearCpuModel, hslot,
        Function.update_self, Option.getD_some]
    · rw [Function.update_of_ne (Ne.symm hlocal), hslot]

theorem fitUpdateActor_eq (hactor : t.actor = weightsAfter cfg resume xs k)
    (hglobal : t.globalSteps = firstGlobalStep cfg resume + k) (hx : xs[k]? = some x) :
    t.fitUpdateActor cfg x.batch = { t with actor := weightsAfter cfg resume xs (k + 1) } := by
  have hiff : cfg.criticWarmup ≤ (t.globalSteps : Int) ↔ UpdatesActor cfg resume k := by
    rw [hglobal]
    rfl
  rw [fitUpdateActor, weightsAfter_succ hx, ← hactor]
  by_cases hupdate : UpdatesActor cfg resume k
  · rw [if_pos hupdate, if_pos (hiff.mpr hupdate)]
  · rw [if_neg hupdate, if_neg (mt hiff.mp hupdate), List.append_nil]

theorem fitUpdateLocalStep_eq (hT : 0 < cfg.triggerParameterSyncStep) {v : Nat}
    (hlocal : t.localTriggerStep = k % cfg.triggerParameterSyncStep + 1)
    (hversion : t.currentParamVersion = v + k / cfg.triggerParameterSyncStep) :
    t.fitUpdateLocalStep cfg =
      { t with
        localTriggerStep := (k + 1) % cfg.triggerParameterSyncStep + 1
        currentParamVersion := v + (k + 1) / cfg.triggerParameterSyncStep } := by
  rw [fitUpdateLocalStep, hlocal, hversion]
  split
  next hlt =>
    obtain ⟨hdiv, hmod⟩ := div_mod_succ_of_lt hlt
    rw [hdiv, hmod, ← hversion]
  next hle =>
    obtain ⟨hdiv, hmod⟩ := div_mod_succ_of_eq hT (Nat.le_of_not_lt hle)
    rw [hdiv, hmod, Nat.add_assoc]

/-- The syncs that are made while `c` versions are completed. -/
def syncs (cfg : Config) (resume : Option Nat) (xs : List (Input β)) (c : Nat) :
    List (Nat × Weights β) :=
  (List.range (c + 1)).map fun i =>
    (startVersion resume + i, weightsAfter cfg resume xs (i * cfg.triggerParameterSyncStep))

theorem syncs_zero : syncs cfg resume xs 0 = [(startVersion resume, [])] := by
  rw [syncs, Nat.zero_add, List.range_one, List.map_singleton, Nat.zero_mul, weightsAfter_zero,
    Nat.add_zero]

theorem syncs_succ (c : Nat) : syncs cfg resume xs (c + 1) = syncs cfg resume xs c ++
    [(startVersion resume + (c + 1),
      weightsAfter cfg resume xs ((c + 1) * cfg.triggerParameterSyncStep))] := by
  rw [syncs, List.range_succ, List.map_append, List.map_singleton, ← syncs]

theorem fitUpdateWeights_eq (hT : 0 < cfg.triggerParameterSyncStep)
    (hlocal : t.localTriggerStep = (k + 1) % cfg.triggerParameterSyncStep + 1)
    (hversion :
      t.currentParamVersion = startVersion resume + (k + 1) / cfg.triggerParameterSyncStep)
    (hactor : t.actor = weightsAfter cfg resume xs (k + 1))
    (hsynced : t.synced = syncs cfg resume xs (k / cfg.triggerParameterSyncStep)) :
    t.fitUpdateWeights =
      { t with synced := syncs cfg resume xs ((k + 1) / cfg.triggerParameterSyncStep) } := by
  rw [fitUpdateWeights]
  by_cases hlt : k % cfg.triggerParameterSyncStep + 1 < cfg.triggerParameterSyncStep
  · obtain ⟨hdiv, hmod⟩ := div_mod_succ_of_lt hlt
    rw [if_pos (by omega), hdiv, ← hsynced]
  · obtain ⟨hdiv, hmod⟩ := div_mod_succ_of_eq hT (Nat.le_of_not_lt hlt)
    have hsteps := Nat.mod_add_div (k + 1) cfg.triggerParameterSyncStep
    rw [hmod, Nat.zero_add, Nat.mul_comm] at hsteps
    rw [if_neg (by omega), hdiv, syncs_succ, ← hsynced, ← hdiv, hsteps, ← hversion, ← hactor]

/-- The checkpoints that the steps `ks` leave on disk. -/
def checkpoints (cfg : Config) (resume : Option Nat) (xs : List (Input β)) (ks : List Nat) :
    List (Nat × Weights β) :=
  resume.toList.map (fun version => (version, [])) ++ ks.map fun i =>
    (startVersion resume + i / cfg.triggerParameterSyncStep, weightsAfter cfg resume xs i)

theorem fitSaveCheckpoint_eq (hsave : 0 < cfg.saveFreq) {ks : List Nat}
    (hsaves : Saves cfg resume xs k ks) (hx : xs[k]? = some x)
    (hversion :
      t.currentParamVersion = startVersion resume + (k + 1) / cfg.triggerParameterSyncStep)
    (hactor : t.actor = weightsAfter cfg resume xs (k + 1))
    (hdisk : t.disk = checkpoints cfg resume xs ks)
    (hlast : t.lastCkptVersion = startVersion resume + lastSave cfg ks) :
    ∃ ks', Saves cfg resume xs (k + 1) ks' ∧
      t.fitSaveCheckpoint cfg false x.esiCloseToExpiration =
        { t with
          disk := checkpoints cfg resume xs ks'
          lastCkptVersion := startVersion resume + lastSave cfg ks' } := by
  have hesi : esiAt xs (k + 1) = x.esiCloseToExpiration := by
    rw [esiAt, Nat.add_sub_cancel, hx, Option.elim_some]
  have hdue : Due cfg resume xs (k + 1) ↔
      saveDue cfg t.currentParamVersion x.esiCloseToExpiration = true := by
    rw [Due, hesi, hversion]
  rw [fitSaveCheckpoint]
  split
  next heq =>
    refine ⟨ks, hsaves.skip (.inl (by omega)), ?_⟩
    rw [← hdisk, ← hlast]
  next hne =>
    split
    next hcond =>
      rw [Bool.false_or, Bool.and_eq_true] at hcond
      refine ⟨ks ++ [k + 1], hsaves.concat (by omega) (hdue.mpr hcond.2), ?_⟩
      rw [Saves.lastSave_concat, ← hversion, checkpoints, List.map_append, List.map_singleton,
        ← List.append_assoc, ← checkpoints, ← hdisk, ← hversion, ← hactor]
    next hcond =>
      refine ⟨ks, hsaves.skip (.inr fun h => hcond ?_), ?_⟩
      · rw [Bool.false_or, Bool.and_eq_true, decide_eq_true_eq]
        exact ⟨hsave, hdue.mp h⟩
      · rw [← hdisk, ← hlast]

/-! ## The invariant -/

/-- The trainer after `k` steps. -/
structure Inv (cfg : Config) (resume : Option Nat) (xs : List (Input β)) (k : Nat)
    (t : Trainer β) : Prop where
  globalSteps : t.globalSteps = firstGlobalStep cfg resume + k
  localStep : t.localTriggerStep = k % cfg.triggerParameterSyncStep + 1
  version : t.currentParamVersion = startVersion resume + k / cfg.triggerParameterSyncStep
  actor : t.actor = weightsAfter cfg resume xs k
  /-- Slot 1 has the weights that the cycle started with. -/
  slot : cfg.bypassMode = false → k % cfg.triggerParameterSyncStep ≠ 0 →
    t.cpuSavedModels 1 = some (weightsAfter cfg resume xs
      (k / cfg.triggerParameterSyncStep * cfg.triggerParameterSyncStep))
  synced : t.synced = syncs cfg resume xs (k / cfg.triggerParameterSyncStep)
  oldLogProbs : cfg.bypassMode = false →
    t.oldLogProbs = (xs.take k).zipIdx.map fun y =>
      (y.1.batch, weightsAfter cfg resume xs
        (y.2 / cfg.triggerParameterSyncStep * cfg.triggerParameterSyncStep))
  saves : ∃ ks, Saves cfg resume xs k ks ∧ t.disk = checkpoints cfg resume xs ks ∧
    t.lastCkptVersion = startVersion resume + lastSave cfg ks

/-- The state before the first step. -/
theorem Inv.start (cfg : Config) (resume : Option Nat) (xs : List (Input β)) :
    Inv cfg resume xs 0 { Trainer.start cfg resume with
      globalSteps := (Trainer.start (β := β) cfg resume).globalSteps + 1 } := by
  cases resume with
  | none =>
      refine ⟨rfl, by rw [Nat.zero_mod]; rfl, by rw [Nat.zero_div]; rfl, rfl, ?_, ?_, ?_,
        [], Saves.nil, rfl, rfl⟩
      · intro _ hne
        exact (hne (Nat.zero_mod _)).elim
      · rw [Nat.zero_div, syncs_zero]
        rfl
      · intro _
        rfl
  | some version =>
      refine ⟨rfl, by rw [Nat.zero_mod]; rfl, by rw [Nat.zero_div]; rfl, rfl, ?_, ?_, ?_,
        [], Saves.nil, rfl, rfl⟩
      · intro _ hne
        exact (hne (Nat.zero_mod _)).elim
      · rw [Nat.zero_div, syncs_zero]
        rfl
      · intro _
        rfl

/-- Recomputing keeps the invariant of the slot and the log, and the actor. -/
theorem Inv.fitComputeLogProb (h : Inv cfg resume xs k t) (hx : xs[k]? = some x) :
    ∃ slots log, t.fitComputeLogProb cfg x.batch =
        { t with cpuSavedModels := slots, oldLogProbs := log } ∧
      (cfg.bypassMode = false → slots 1 = some (weightsAfter cfg resume xs
        (k / cfg.triggerParameterSyncStep * cfg.triggerParameterSyncStep))) ∧
      (cfg.bypassMode = false → log = (xs.take (k + 1)).zipIdx.map fun y =>
        (y.1.batch, weightsAfter cfg resume xs
          (y.2 / cfg.triggerParameterSyncStep * cfg.triggerParameterSyncStep))) := by
  rw [Trainer.fitComputeLogProb]
  split
  next hbypass =>
    refine ⟨t.cpuSavedModels, t.oldLogProbs, rfl, fun hfalse => ?_, fun hfalse => ?_⟩
    · exact absurd hfalse (by rw [hbypass]; decide)
    · exact absurd hfalse (by rw [hbypass]; decide)
  next hbypass =>
    rw [Bool.not_eq_true] at hbypass
    -- the weights that are used are those the cycle started with
    have hbase : (if t.localTriggerStep = 1 then t.actor
        else (t.cpuSavedModels 1).getD t.actor) = weightsAfter cfg resume xs
          (k / cfg.triggerParameterSyncStep * cfg.triggerParameterSyncStep) ∧
        (if t.localTriggerStep = 1 then some t.actor else t.cpuSavedModels 1) =
          some (weightsAfter cfg resume xs
            (k / cfg.triggerParameterSyncStep * cfg.triggerParameterSyncStep)) := by
      by_cases hmod : k % cfg.triggerParameterSyncStep = 0
      · have hlocal : t.localTriggerStep = 1 := by rw [h.localStep, hmod]
        have hk := Nat.div_mul_cancel (Nat.dvd_of_mod_eq_zero hmod)
        rw [if_pos hlocal, if_pos hlocal, h.actor, hk]
        exact ⟨rfl, rfl⟩
      · have hlocal : t.localTriggerStep ≠ 1 := by
          rw [h.localStep]
          omega
        rw [if_neg hlocal, if_neg hlocal, h.slot hbypass hmod, Option.getD_some]
        exact ⟨rfl, rfl⟩
    obtain ⟨slots, heq, hslot⟩ := computeOldLogProb_eq t x.batch
    refine ⟨slots, _, heq, fun _ => hslot.trans hbase.2, fun _ => ?_⟩
    have hlt : k < xs.length := (List.getElem?_eq_some_iff.mp hx).1
    rw [h.oldLogProbs hbypass, hbase.1, List.take_add_one, hx, Option.toList_some,
      List.zipIdx_append, List.length_take_of_le hlt.le, Nat.zero_add, List.map_append,
      List.zipIdx_singleton, List.map_singleton]

/-- What one step of the loop preserves. -/
theorem Inv.fitStep (hT : 0 < cfg.triggerParameterSyncStep) (hsave : 0 < cfg.saveFreq)
    (h : Inv cfg resume xs k t) (hx : xs[k]? = some x) :
    Inv cfg resume xs (k + 1) (t.fitStep cfg x) := by
  obtain ⟨ks, hsaves, hdisk, hlast⟩ := h.saves
  obtain ⟨slots, log, hcompute, hslot, hlog⟩ := h.fitComputeLogProb hx
  obtain ⟨ks', hsaves', hcheckpoint⟩ := fitSaveCheckpoint_eq (t :=
    { t with
      cpuSavedModels := slots
      oldLogProbs := log
      actor := weightsAfter cfg resume xs (k + 1)
      localTriggerStep := (k + 1) % cfg.triggerParameterSyncStep + 1
      currentParamVersion := startVersion resume + (k + 1) / cfg.triggerParameterSyncStep
      synced := syncs cfg resume xs ((k + 1) / cfg.triggerParameterSyncStep) })
    hsave hsaves hx rfl rfl hdisk hlast
  have hactor := fitUpdateActor_eq (t := { t with cpuSavedModels := slots, oldLogProbs := log })
    h.actor h.globalSteps hx
  have hlocal := fitUpdateLocalStep_eq (t :=
    { t with
      cpuSavedModels := slots
      oldLogProbs := log
      actor := weightsAfter cfg resume xs (k + 1) }) hT h.localStep h.version
  have hweights := fitUpdateWeights_eq (t :=
    { t with
      cpuSavedModels := slots
      oldLogProbs := log
      actor := weightsAfter cfg resume xs (k + 1)
      localTriggerStep := (k + 1) % cfg.triggerParameterSyncStep + 1
      currentParamVersion := startVersion resume + (k + 1) / cfg.triggerParameterSyncStep })
    hT rfl rfl rfl h.synced
  rw [Trainer.fitStep, hcompute, hactor, hlocal, hweights, hcheckpoint]
  exact
    { globalSteps := by
        show t.globalSteps + 1 = _
        rw [h.globalSteps, Nat.add_assoc]
      localStep := rfl
      version := rfl
      actor := rfl
      slot := fun hbypass hmod => by
        -- the step does not complete the cycle, so the cycle is the same one
        have hlt : k % cfg.triggerParameterSyncStep + 1 < cfg.triggerParameterSyncStep := by
          by_contra hle
          exact hmod (div_mod_succ_of_eq hT (Nat.le_of_not_lt hle)).2
        rw [(div_mod_succ_of_lt hlt).1]
        exact hslot hbypass
      synced := rfl
      oldLogProbs := hlog
      saves := ⟨ks', hsaves', rfl, rfl⟩ }

variable (resume xs) in
/-- The trainer after the loop. -/
theorem Inv.loop (hT : 0 < cfg.triggerParameterSyncStep) (hsave : 0 < cfg.saveFreq) :
    Inv cfg resume xs xs.length ((Trainer.start cfg resume).loop cfg xs) := by
  have hsteps : ∀ k ≤ xs.length, Inv cfg resume xs k
      ((Trainer.start cfg resume).loop cfg (xs.take k)) := by
    intro k hk
    induction k with
    | zero => exact Inv.start cfg resume xs
    | succ k ih =>
        have hx : xs[k]? = some xs[k] := List.getElem?_eq_getElem hk
        have hk' := ih (Nat.le_of_succ_le hk)
        rw [List.take_add_one, hx, Option.toList_some, Trainer.loop, List.foldl_concat]
        exact hk'.fitStep hT hsave hx
  have hall := hsteps xs.length (Nat.le_refl _)
  rwa [List.take_length] at hall

end Trainer

/-! ## Versions, syncs and checkpoints -/

namespace Saves

variable {ks : List Nat}

theorem eq_of_cycle_eq (h : Saves cfg resume xs k ks) {i j : Nat} (hi : i ∈ ks) (hj : j ∈ ks)
    (hcycle : i / cfg.triggerParameterSyncStep = j / cfg.triggerParameterSyncStep) : i = j := by
  refine List.Pairwise.forall_of_forall_of_flip
    (R := fun i j => i / cfg.triggerParameterSyncStep = j / cfg.triggerParameterSyncStep → i = j)
    (fun _ _ _ => rfl) (h.sorted.imp fun hlt heq => ?_) (h.sorted.imp fun hlt heq => ?_) hi hj
    hcycle
  · exact absurd heq hlt.ne
  · exact absurd heq hlt.ne'

/-- A version that the loop saved for its number was saved when it was completed. -/
theorem eq_cycle_start (h : Saves cfg resume xs k ks) {i : Nat} (hi : i ∈ ks)
    (hesi : esiAt xs i = false) :
    i = i / cfg.triggerParameterSyncStep * cfg.triggerParameterSyncStep := by
  obtain ⟨hpos, hle, hdue⟩ := h.due i hi
  have hT : 0 < cfg.triggerParameterSyncStep := by
    by_contra hzero
    rw [Nat.le_zero.mp (Nat.le_of_not_lt hzero), Nat.div_zero] at hpos
    exact Nat.lt_irrefl 0 hpos
  have hstart := Nat.div_mul_le_self i cfg.triggerParameterSyncStep
  have hcycle : i / cfg.triggerParameterSyncStep * cfg.triggerParameterSyncStep /
      cfg.triggerParameterSyncStep = i / cfg.triggerParameterSyncStep := Nat.mul_div_cancel _ hT
  have hdue' : Due cfg resume xs
      (i / cfg.triggerParameterSyncStep * cfg.triggerParameterSyncStep) := by
    rw [Due, Trainer.saveDue, hesi, Bool.or_false] at hdue
    rw [Due, Trainer.saveDue, hcycle, hdue, Bool.true_or]
  obtain ⟨j, hj, hjle, hjcycle⟩ := h.complete _ (hstart.trans hle) (by rwa [hcycle]) hdue'
  rw [h.eq_of_cycle_eq hj hi (hjcycle.trans hcycle)] at hjle
  exact Nat.le_antisymm hjle hstart

end Saves

/-- What holds of the trainer `t` when the loop has taken the steps `xs`. -/
structure Consistent (cfg : Config) (resume : Option Nat) (xs : List (Input β))
    (t : Trainer β) : Prop where
  version : t.currentParamVersion =
    startVersion resume + xs.length / cfg.triggerParameterSyncStep
  localStep : t.localTriggerStep = xs.length % cfg.triggerParameterSyncStep + 1
  /-- The sync before the loop, and one for each version that was completed. -/
  synced : t.synced = (List.range (xs.length / cfg.triggerParameterSyncStep + 1)).map fun i =>
    (startVersion resume + i, weightsAfter cfg resume xs (i * cfg.triggerParameterSyncStep))
  /-- After the critic warmup every step is one update. -/
  updates : UpdatesActor cfg resume 0 → ∀ k ≤ xs.length,
    weightsAfter cfg resume xs k = (xs.take k).map Input.batch
  /-- No version is saved twice. -/
  labels : (t.disk.map Prod.fst).Pairwise (· < ·)
  /-- The weights of a checkpoint are those that its version was synced with, unless
  it was saved because the instance expires. -/
  saved : ∀ c ∈ t.disk, c ∈ t.synced ∨
    ∃ k ≤ xs.length, esiAt xs k = true ∧
      c = (startVersion resume + k / cfg.triggerParameterSyncStep, weightsAfter cfg resume xs k)
  /-- Old log-probs are recomputed with the weights that the cycle started with. -/
  oldLogProbs : cfg.bypassMode = false → t.oldLogProbs = xs.zipIdx.map fun y =>
    (y.1.batch, weightsAfter cfg resume xs
      (y.2 / cfg.triggerParameterSyncStep * cfg.triggerParameterSyncStep))
  restored : ∀ batch, (t.fitComputeLogProb cfg batch).actor = t.actor

theorem fitComputeLogProb_actor (t : Trainer β) (batch : β) :
    (t.fitComputeLogProb cfg batch).actor = t.actor := by
  rw [Trainer.fitComputeLogProb]
  split
  · rfl
  · obtain ⟨slots, heq, _⟩ := t.computeOldLogProb_eq batch
    rw [heq]

theorem weight_versions_consistent (hT : 0 < cfg.triggerParameterSyncStep)
    (hsave : 0 < cfg.saveFreq) (resume : Option Nat) (xs : List (Input β)) :
    Consistent cfg resume xs ((Trainer.start cfg resume).loop cfg xs) := by
  have h := Trainer.Inv.loop resume xs hT hsave
  obtain ⟨ks, hsaves, hdisk, _⟩ := h.saves
  refine ⟨h.version, h.localStep, h.synced, fun hwarm k _ => weightsAfter_of_warm hwarm k, ?_, ?_,
    ?_, fitComputeLogProb_actor _⟩
  · rw [hdisk, Trainer.checkpoints, List.map_append, List.map_map, List.map_map]
    have hlabels : (ks.map fun i =>
        startVersion resume + i / cfg.triggerParameterSyncStep).Pairwise (· < ·) := by
      refine List.pairwise_map.mpr (hsaves.sorted.imp fun hlt => ?_)
      omega
    cases resume with
    | none => exact hlabels
    | some version =>
        refine List.pairwise_cons.mpr ⟨fun label hlabel => ?_, hlabels⟩
        obtain ⟨i, hi, rfl⟩ := List.mem_map.mp hlabel
        exact Nat.lt_add_of_pos_right (hsaves.due i hi).1
  · intro c hc
    rw [hdisk, Trainer.checkpoints] at hc
    rcases List.mem_append.mp hc with hc | hc
    · -- the checkpoint that was loaded is the version that is synced before the loop
      refine .inl ?_
      obtain ⟨version, hversion, rfl⟩ := List.mem_map.mp hc
      rw [h.synced]
      refine List.mem_map.mpr ⟨0, List.mem_range.mpr (Nat.succ_pos _), ?_⟩
      rw [Nat.zero_mul, weightsAfter_zero, startVersion, Option.mem_toList.mp hversion]
      rfl
    · obtain ⟨i, hi, rfl⟩ := List.mem_map.mp hc
      obtain ⟨_, hle, _⟩ := hsaves.due i hi
      cases hesi : esiAt xs i with
      | true => exact .inr ⟨i, hle, hesi, rfl⟩
      | false =>
          refine .inl ?_
          rw [h.synced]
          refine List.mem_map.mpr ⟨i / cfg.triggerParameterSyncStep, ?_, ?_⟩
          · exact List.mem_range.mpr (Nat.lt_succ_of_le (Nat.div_le_div_right hle))
          · rw [← hsaves.eq_cycle_start hi hesi]
  · intro hbypass
    rw [h.oldLogProbs hbypass, List.take_length]

/-- Five steps in cycles of two, saving every version. -/
theorem weight_versions_consistent_five :
    Consistent ⟨2, 1, -1, 0, false⟩ none ((List.range 5).map fun i => ⟨i, false⟩)
      ((Trainer.start ⟨2, 1, -1, 0, false⟩ none).loop ⟨2, 1, -1, 0, false⟩
        ((List.range 5).map fun i => ⟨i, false⟩)) :=
  weight_versions_consistent (by decide) (by decide) none _

/-- A checkpoint that is saved in the middle of a cycle, when the instance expires,
has a label whose synced weights lack an update.  During the critic warmup a
version is completed without any update. -/
theorem weight_versions_inconsistent :
    (∃ c ∈ ((Trainer.start ⟨2, 10, -1, 0, false⟩ none).loop ⟨2, 10, -1, 0, false⟩
        [⟨0, false⟩, ⟨1, false⟩, ⟨2, true⟩]).disk,
      c ∉ ((Trainer.start ⟨2, 10, -1, 0, false⟩ none).loop ⟨2, 10, -1, 0, false⟩
        [⟨0, false⟩, ⟨1, false⟩, ⟨2, true⟩]).synced) ∧
    ((Trainer.start ⟨1, 10, -1, 2, false⟩ none).loop ⟨1, 10, -1, 2, false⟩
      [⟨0, false⟩]).synced = [(0, []), (1, ([] : Weights Nat))] := by
  decide

/-! ## The end of training -/

/-- The newest checkpoint has the weights after all updates, if there were any. -/
def NoUpdateLost (t : Trainer β) : Prop :=
  t.actor = [] ∨ ∃ version, t.disk.getLast? = some (version, t.actor)

instance [DecidableEq β] (t : Trainer β) : Decidable (NoUpdateLost t) :=
  decidable_of_iff (t.actor = [] ∨ t.disk.getLast?.map Prod.snd = some t.actor) <| by
    refine or_congr_right ?_
    cases t.disk.getLast? with
    | none => exact iff_of_false (fun h => nomatch h) fun ⟨_, h⟩ => nomatch h
    | some c =>
        rw [Option.map_some, Option.some.injEq]
        exact ⟨fun h => ⟨c.1, by rw [← h]⟩, fun ⟨_, h⟩ => by rw [Option.some.inj h]⟩

/-- No step updates the actor, or a version was completed and from its completion
on no save was due before the last step. -/
def LastStepSaved (cfg : Config) (resume : Option Nat) (xs : List (Input β)) : Prop :=
  (∀ k < xs.length, ¬ UpdatesActor cfg resume k) ∨
    cfg.triggerParameterSyncStep ≤ xs.length ∧
      ∀ k, xs.length / cfg.triggerParameterSyncStep * cfg.triggerParameterSyncStep ≤ k →
        k < xs.length → ¬ Due cfg resume xs k

theorem weightsAfter_eq_nil_iff (hk : k ≤ xs.length) :
    weightsAfter cfg resume xs k = [] ↔ ∀ i < k, ¬ UpdatesActor cfg resume i := by
  induction k with
  | zero => exact iff_of_true weightsAfter_zero fun i hi => (Nat.not_lt_zero i hi).elim
  | succ k ih =>
      rw [weightsAfter_succ (List.getElem?_eq_getElem hk), List.append_eq_nil_iff,
        ih (Nat.le_of_succ_le hk), Nat.forall_lt_succ_right]
      refine and_congr_right fun _ => ?_
      split
      next hupdate => exact iff_of_false (List.cons_ne_nil _ _) (not_not_intro hupdate)
      next hupdate => exact iff_of_true rfl hupdate

/-- The number of updates grows with the steps. -/
theorem length_weightsAfter_le {i : Nat} (hik : i ≤ k) (hk : k ≤ xs.length) :
    (weightsAfter cfg resume xs i).length ≤ (weightsAfter cfg resume xs k).length := by
  induction k, hik using Nat.le_induction with
  | base => exact Nat.le_refl _
  | succ k _ ih =>
      rw [weightsAfter_succ (List.getElem?_eq_getElem hk), List.length_append]
      exact (ih (Nat.le_of_succ_le hk)).trans (Nat.le_add_right _ _)

/-- If the weights after `k` steps are those after `i` steps, there were no updates. -/
theorem no_updates_of_weightsAfter_eq {i : Nat} (hik : i < k) (hk : k ≤ xs.length)
    (h : weightsAfter cfg resume xs i = weightsAfter cfg resume xs k) :
    ∀ j < k, ¬ UpdatesActor cfg resume j := by
  obtain ⟨l, rfl⟩ := Nat.exists_eq_succ_of_ne_zero (Nat.ne_zero_of_lt hik)
  -- the last step made no update, and the steps before it are further in the warmup
  have hlast : ¬ UpdatesActor cfg resume l := by
    intro hupdate
    have hlength := congrArg List.length h
    rw [weightsAfter_succ (List.getElem?_eq_getElem hk), if_pos hupdate, List.length_append,
      List.length_singleton] at hlength
    have hle : (weightsAfter cfg resume xs i).length ≤ (weightsAfter cfg resume xs l).length :=
      length_weightsAfter_le (Nat.le_of_lt_succ hik) (Nat.le_of_succ_le hk)
    omega
  intro j hj hupdate
  rw [UpdatesActor] at hlast hupdate
  omega

/-- What `fit` leaves on disk and in the actor. -/
theorem fit_eq_ok {t u : Trainer β} {esi : Bool} (h : t.fit cfg xs esi = .ok u) :
    u.actor = (t.loop cfg xs).actor ∧
      u.disk = ((t.loop cfg xs).fitSaveCheckpoint cfg true esi).disk := by
  obtain ⟨r, _, hr⟩ := Py.bind_eq_ok.mp h
  rw [Except.ok.injEq] at hr
  subst hr
  have hweights : ∀ u : Trainer β, ∃ synced, u.fitUpdateWeights = { u with synced := synced } := by
    intro u
    rw [Trainer.fitUpdateWeights]
    split
    · exact ⟨u.synced, rfl⟩
    · exact ⟨_, rfl⟩
  have hsave (u : Trainer β) (synced : List (Nat × Weights β)) :
      (({ u with synced := synced } : Trainer β).fitSaveCheckpoint cfg true esi).actor = u.actor ∧
        (({ u with synced := synced } : Trainer β).fitSaveCheckpoint cfg true esi).disk =
          (u.fitSaveCheckpoint cfg true esi).disk := by
    simp only [Trainer.fitSaveCheckpoint]
    split
    · exact ⟨rfl, rfl⟩
    · split <;> exact ⟨rfl, rfl⟩
  split
  · obtain ⟨synced, heq⟩ := hweights (t.loop cfg xs)
    rw [heq]
    exact hsave (t.loop cfg xs) synced
  · exact hsave (t.loop cfg xs) (t.loop cfg xs).synced

/-- The save at the end of `fit` is skipped if and only if the version of the
last checkpoint is the current one. -/
theorem newest_checkpoint {t : Trainer β} (hsave : 0 < cfg.saveFreq) (esi : Bool) :
    (t.fitSaveCheckpoint cfg true esi).disk.getLast? =
      if t.currentParamVersion = t.lastCkptVersion then t.disk.getLast?
      else some (t.currentParamVersion, t.actor) := by
  rw [Trainer.fitSaveCheckpoint]
  split
  · rfl
  · rw [if_pos (by rw [Bool.true_or, Bool.and_true, decide_eq_true_eq]; exact hsave)]
    exact List.getLast?_concat

/-- A step in the last cycle after which a save was due. -/
theorem Saves.exists_le_of_due {ks : List Nat} (h : Saves cfg resume xs xs.length ks)
    (hT : cfg.triggerParameterSyncStep ≤ xs.length) (hpos : 0 < cfg.triggerParameterSyncStep)
    (hk : xs.length / cfg.triggerParameterSyncStep * cfg.triggerParameterSyncStep ≤ k)
    (hlt : k < xs.length) (hdue : Due cfg resume xs k) :
    ∃ j ∈ ks, j ≤ k ∧
      j / cfg.triggerParameterSyncStep = xs.length / cfg.triggerParameterSyncStep := by
  have hcycle : k / cfg.triggerParameterSyncStep = xs.length / cfg.triggerParameterSyncStep :=
    Nat.le_antisymm (Nat.div_le_div_right hlt.le) ((Nat.le_div_iff_mul_le hpos).mpr hk)
  have hcompleted := Nat.div_pos hT hpos
  obtain ⟨j, hj, hjk, hjcycle⟩ := h.complete k hlt.le (by omega) hdue
  exact ⟨j, hj, hjk, hjcycle.trans hcycle⟩

theorem fit_no_update_lost_iff (hT : 0 < cfg.triggerParameterSyncStep) (hsave : 0 < cfg.saveFreq)
    {u : Trainer β} {esi : Bool} (h : (Trainer.start cfg resume).fit cfg xs esi = .ok u) :
    NoUpdateLost u ↔ LastStepSaved cfg resume xs := by
  have hinv := Trainer.Inv.loop resume xs hT hsave
  obtain ⟨ks, hsaves, hdisk, hlast⟩ := hinv.saves
  obtain ⟨hactor, hu⟩ := fit_eq_ok h
  rw [hinv.actor] at hactor
  rw [NoUpdateLost, hactor, hu, newest_checkpoint hsave, hinv.version, hlast, hdisk, hinv.actor,
    LastStepSaved, weightsAfter_eq_nil_iff (Nat.le_refl _)]
  refine or_congr_right' fun hsome => ?_
  have hle := hsaves.lastSave_le
  by_cases hskip : xs.length / cfg.triggerParameterSyncStep = lastSave cfg ks
  · rw [if_pos (by rw [hskip])]
    by_cases hzero : lastSave cfg ks = 0
    · -- no version was completed, so nothing was saved
      refine iff_of_false (fun ⟨version, hversion⟩ => ?_) fun ⟨hcompleted, _⟩ => ?_
      · have hks : ks = [] := by
          refine List.eq_nil_iff_forall_not_mem.mpr fun i hi => ?_
          have := (hsaves.due i hi).1
          have := hsaves.le_lastSave hi
          omega
        rw [Trainer.checkpoints, hks, List.map_nil, List.append_nil] at hversion
        obtain ⟨_, _, heq⟩ := List.mem_map.mp (List.mem_of_getLast? hversion)
        exact hsome ((weightsAfter_eq_nil_iff (Nat.le_refl _)).mp (Prod.mk.inj heq).2.symm)
      · have := Nat.div_pos hcompleted hT
        omega
    · obtain ⟨j, hj, hjcycle, hgetLast⟩ := Saves.exists_of_lastSave hzero
      have hjle := (hsaves.due j hj).2.1
      have hnewest : (Trainer.checkpoints cfg resume xs ks).getLast? =
          some (startVersion resume + j / cfg.triggerParameterSyncStep,
            weightsAfter cfg resume xs j) := by
        rw [Trainer.checkpoints, List.getLast?_append, List.getLast?_map, hgetLast]
        rfl
      rw [hnewest]
      rcases Nat.lt_or_eq_of_le hjle with hjlt | rfl
      · -- the version was saved before the last step
        refine iff_of_false (fun ⟨version, hversion⟩ => ?_) fun ⟨_, hnot⟩ => ?_
        · rw [Option.some.injEq] at hversion
          exact hsome (no_updates_of_weightsAfter_eq hjlt (Nat.le_refl _)
            (Prod.mk.inj hversion).2)
        · refine hnot j ?_ hjlt (hsaves.due j hj).2.2
          rw [hskip, ← hjcycle]
          exact Nat.div_mul_le_self j _
      · refine iff_of_true ⟨_, rfl⟩ ⟨?_, fun k hk hlt hdue => ?_⟩
        · by_contra hsmall
          exact hzero (hskip ▸ Nat.div_eq_of_lt (Nat.lt_of_not_le hsmall))
        · have hcompleted : cfg.triggerParameterSyncStep ≤ xs.length := by
            by_contra hsmall
            exact hzero (hskip ▸ Nat.div_eq_of_lt (Nat.lt_of_not_le hsmall))
          obtain ⟨i, hi, hik, hicycle⟩ := hsaves.exists_le_of_due hcompleted hT hk hlt hdue
          rw [hsaves.eq_of_cycle_eq hi hj hicycle] at hik
          exact Nat.not_lt_of_le hik hlt
  · -- the save at the end is made
    rw [if_neg (by omega)]
    have hcompleted : cfg.triggerParameterSyncStep ≤ xs.length := by
      by_contra hsmall
      rw [Nat.div_eq_of_lt (Nat.lt_of_not_le hsmall)] at hskip hle
      omega
    refine iff_of_true ⟨_, rfl⟩ ⟨hcompleted, fun k hk hlt hdue => ?_⟩
    obtain ⟨i, hi, _, hicycle⟩ := hsaves.exists_le_of_due hcompleted hT hk hlt hdue
    have := hsaves.le_lastSave hi
    omega

/-- Three steps in cycles of two, saving every version: the third update is lost. -/
theorem update_lost : ∃ u,
    (Trainer.start ⟨2, 1, -1, 0, false⟩ none).fit ⟨2, 1, -1, 0, false⟩
      [⟨0, false⟩, ⟨1, false⟩, ⟨2, false⟩] false = .ok u ∧ ¬ NoUpdateLost (β := Nat) u := by
  exact ⟨_, rfl, by decide⟩

/-- The same three steps, saving every second version. -/
theorem fit_no_update_lost_iff_three : ∃ u,
    (Trainer.start ⟨2, 2, -1, 0, false⟩ none).fit ⟨2, 2, -1, 0, false⟩
      [⟨0, false⟩, ⟨1, false⟩, ⟨2, false⟩] false = .ok u ∧
    (NoUpdateLost (β := Nat) u ↔ LastStepSaved ⟨2, 2, -1, 0, false⟩ none
      [⟨0, false⟩, ⟨1, false⟩, ⟨2, false⟩]) :=
  ⟨_, rfl, fit_no_update_lost_iff (by decide) (by decide) rfl⟩

end Verl.FullyAsyncTrainer
