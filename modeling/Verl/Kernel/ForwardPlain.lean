import Verl.Kernel.ForwardLoops

/-!
# The fused forward is the plain forward

Over the reals, for all sizes of tiles and splits, and for every order in which the
programs run.

There is one exception.  Without a reduction the first program sets the log-prob of the
first token to zero when it is launched.  If the program that has the label of the first
token has stored its logit by then, the logit is lost (`ResetLate`).
-/

namespace Verl.Kernel

open Finset
open Tiles (cdiv)
open OnlineSoftmax
open Distillation (realExpLog)

/-! ## The order of a grid -/

def KernelEvent.pid : KernelEvent → Nat
  | .launched pid => pid
  | .stored pid => pid

/-- Every program is launched, and later stores its results. -/
structure GridEvents (numPrograms : Nat) (events : List KernelEvent) : Prop where
  nodup : events.Nodup
  mem : ∀ event, event ∈ events ↔ event.pid < numPrograms
  ordered : ∀ pid < numPrograms, List.Sublist [.launched pid, .stored pid] events

/-- The program that has a token and a column. -/
def ownerOf (a : KernelArgs ℝ) (blocks : BlockSizes) (vocabPerSplit token col : Nat) : Nat :=
  col / vocabPerSplit * cdiv a.numTokens blocks.m + token / blocks.m

/-- The first program is launched after the logit of a token was stored, and the token is the
first one. -/
def ResetLate (a : KernelArgs ℝ) (blocks : BlockSizes) (vocabPerSplit : Nat)
    (events : List KernelEvent) (token col : Nat) : Prop :=
  token = 0 ∧
    List.Sublist [.stored (ownerOf a blocks vocabPerSplit token col), .launched 0] events

variable {a : KernelArgs ℝ} {blocks : BlockSizes} {vocabPerSplit token : Nat}

theorem pid_eq_iff {numPidM block pid : Nat} (hblock : block < numPidM) (split : Nat) :
    pid % numPidM = block ∧ pid / numPidM = split ↔ pid = split * numPidM + block := by
  constructor
  · rintro ⟨rfl, rfl⟩
    have := Nat.div_add_mod pid numPidM
    rw [Nat.mul_comm] at this
    omega
  · rintro rfl
    rw [Nat.mul_comm]
    exact ⟨by rw [Nat.mul_add_mod, Nat.mod_eq_of_lt hblock],
      by rw [Nat.mul_add_div (by omega), Nat.div_eq_of_lt hblock, Nat.add_zero]⟩

theorem ownerOf_lt {numSplits : Nat} (col : Nat) (hm : 0 < blocks.m) (htoken : token < a.numTokens)
    (hcol : col / vocabPerSplit < numSplits) :
    ownerOf a blocks vocabPerSplit token col < cdiv a.numTokens blocks.m * numSplits := by
  have hblock := Tiles.div_lt_cdiv hm htoken
  have hsplits := Nat.mul_le_mul_right (cdiv a.numTokens blocks.m) (Nat.succ_le_of_lt hcol)
  rw [Nat.succ_mul] at hsplits
  rw [ownerOf, Nat.mul_comm (cdiv a.numTokens blocks.m)]
  omega

/-- What the programs leave in the buffers between the kernels. -/
theorem splits_runMainloop (hblocks : BlocksOk a.hiddenSize blocks) (hsize : 0 < vocabPerSplit)
    {events : List KernelEvent}
    (hevents : GridEvents (cdiv a.numTokens blocks.m * cdiv a.vocabSize vocabPerSplit) events)
    (htoken : token < a.numTokens) {split : Nat} (hsplit : split < cdiv a.vocabSize vocabPerSplit)
    (buffers : KernelBuffers ℝ) :
    SplitOk a vocabPerSplit split token
      ((runMainloop realExpLog a blocks vocabPerSplit events buffers).splits (token, split)) := by
  have hblock := Tiles.div_lt_cdiv hblocks.pos_m htoken
  have hdiv : split * vocabPerSplit / vocabPerSplit = split := Nat.mul_div_cancel _ hsize
  have hpid := ownerOf_lt (split * vocabPerSplit) hblocks.pos_m htoken (hdiv.symm ▸ hsplit)
  have hvalue := mainloop_split hblocks (Tiles.mul_lt_of_lt_cdiv hsize hsplit) hsize htoken
  rw [runMainloop]
  have hread := Tiles.foldl_owner
    (efficientEntropyKernelGeneralMainloop realExpLog a blocks vocabPerSplit)
    (fun buffers => buffers.splits (token, split))
    (.stored (ownerOf a blocks vocabPerSplit token (split * vocabPerSplit)))
    (fun _ => ⟨(mainloop realExpLog a blocks vocabPerSplit split token).max,
      (mainloop realExpLog a blocks vocabPerSplit split token).accu,
      (mainloop realExpLog a blocks vocabPerSplit split token).entropyB,
      (mainloop realExpLog a blocks vocabPerSplit split token).nan⟩)
    (fun buffers => ?_) hevents.nodup ((hevents.mem _).mpr hpid) (fun buffers event _ hne => ?_)
    buffers
  · exact hread ▸ hvalue
  · obtain ⟨hmod, hquot⟩ := (pid_eq_iff hblock split).mpr rfl
    change (storeResults realExpLog a blocks vocabPerSplit buffers _).splits (token, split) = _
    simp only [storeResults, ownerOf, hdiv, hmod, hquot]
    rw [if_pos ⟨trivial, htoken, trivial, hsplit⟩]
  · cases event with
    | launched pid =>
        change (resetScalar a blocks buffers pid).splits (token, split) = _
        rw [resetScalar]
        split
        · rfl
        · rfl
    | stored pid =>
        change (storeResults realExpLog a blocks vocabPerSplit buffers pid).splits _ = _
        refine if_neg ?_
        rintro ⟨hmod, -, hquot, -⟩
        refine hne (congrArg KernelEvent.stored ?_)
        rw [ownerOf, hdiv]
        exact (pid_eq_iff hblock _).mp ⟨hmod.symm, hquot.symm⟩

/-! ## The logit of the label -/

theorem logprobs_launched (hpos : 0 < cdiv a.numTokens blocks.m) (buffers : KernelBuffers ℝ)
    (pid : Nat) :
    (resetScalar a blocks buffers pid).logprobs token =
      if pid = 0 ∧ token = 0 then 0 else buffers.logprobs token := by
  have hfirst : pid % cdiv a.numTokens blocks.m = 0 ∧ pid / cdiv a.numTokens blocks.m = 0 ↔
      pid = 0 := by
    rw [pid_eq_iff hpos, Nat.zero_mul]
  simp only [resetScalar, hfirst]
  by_cases hpid : pid = 0
  · simp only [hpid, true_and, if_true]
  · simp only [hpid, false_and, if_false]

/-- A program has a column of the label. -/
theorem label_mem_iff (hsize : 0 < vocabPerSplit) {col split : Nat} (hcol : col < a.vocabSize)
    (hlabel : a.labels token = col + a.rank * a.vocabSize) :
    (split * vocabPerSplit + a.rank * a.vocabSize ≤ a.labels token ∧
      a.labels token < min ((split + 1) * vocabPerSplit) a.vocabSize + a.rank * a.vocabSize) ↔
      col / vocabPerSplit = split := by
  rw [hlabel, Nat.div_eq_iff hsize, Nat.succ_mul]
  omega

theorem logprobs_stored (hblocks : BlocksOk a.hiddenSize blocks) (hsize : 0 < vocabPerSplit)
    (htoken : token < a.numTokens) {col : Nat} (hcol : col < a.vocabSize)
    (hlabel : a.labels token = col + a.rank * a.vocabSize) (buffers : KernelBuffers ℝ) :
    (storeResults realExpLog a blocks vocabPerSplit buffers
      (ownerOf a blocks vocabPerSplit token col)).logprobs token = a.logits token col := by
  have hblock := Tiles.div_lt_cdiv hblocks.pos_m htoken
  obtain ⟨hmod, hquot⟩ := (pid_eq_iff hblock (col / vocabPerSplit)).mpr rfl
  obtain ⟨hleft, hright⟩ := (label_mem_iff hsize hcol hlabel).mpr rfl
  have hstart := Nat.div_mul_le_self col vocabPerSplit
  have hstop : col < splitBound a vocabPerSplit (col / vocabPerSplit) := by
    rw [splitBound]
    omega
  simp only [storeResults, ownerOf, hmod, hquot]
  rw [if_pos ⟨trivial, htoken, hleft, hright⟩]
  exact mainloop_logprobs hblocks hsize htoken hstart hstop hlabel

theorem logprobs_stored_of_ne (hblocks : BlocksOk a.hiddenSize blocks) (hsize : 0 < vocabPerSplit)
    (htoken : token < a.numTokens) {col : Nat} (hcol : col < a.vocabSize)
    (hlabel : a.labels token = col + a.rank * a.vocabSize) (buffers : KernelBuffers ℝ) {pid : Nat}
    (hne : pid ≠ ownerOf a blocks vocabPerSplit token col) :
    (storeResults realExpLog a blocks vocabPerSplit buffers pid).logprobs token =
      buffers.logprobs token := by
  refine if_neg ?_
  rintro ⟨hmod, -, hbounds⟩
  have hquot := (label_mem_iff hsize hcol hlabel).mp hbounds
  exact hne ((pid_eq_iff (Tiles.div_lt_cdiv hblocks.pos_m htoken) _).mp ⟨hmod.symm, hquot.symm⟩)

/-- The programs that write the logit of the label, or set it to zero. -/
theorem logprobs_unowned (hblocks : BlocksOk a.hiddenSize blocks) (hsize : 0 < vocabPerSplit)
    (htoken : token < a.numTokens) {col : Nat} (hcol : col < a.vocabSize)
    (hlabel : a.labels token = col + a.rank * a.vocabSize) {event : KernelEvent}
    (hstored : event ≠ .stored (ownerOf a blocks vocabPerSplit token col))
    (hlaunched : token = 0 → event ≠ .launched 0) (buffers : KernelBuffers ℝ) :
    (efficientEntropyKernelGeneralMainloop realExpLog a blocks vocabPerSplit buffers
      event).logprobs token = buffers.logprobs token := by
  cases event with
  | launched pid =>
      have hpos := Nat.zero_lt_of_lt (Tiles.div_lt_cdiv hblocks.pos_m htoken)
      refine (logprobs_launched hpos buffers pid).trans (if_neg ?_)
      rintro ⟨rfl, hzero⟩
      exact hlaunched hzero rfl
  | stored pid =>
      refine logprobs_stored_of_ne hblocks hsize htoken hcol hlabel buffers ?_
      rintro rfl
      exact hstored rfl

section

variable (hblocks : BlocksOk a.hiddenSize blocks) (hsize : 0 < vocabPerSplit)
  {events : List KernelEvent}
  (hevents : GridEvents (cdiv a.numTokens blocks.m * cdiv a.vocabSize vocabPerSplit) events)
  (htoken : token < a.numTokens) {col : Nat} (hcol : col < a.vocabSize)
  (hlabel : a.labels token = col + a.rank * a.vocabSize) (buffers : KernelBuffers ℝ)

include hblocks hsize hevents htoken hcol in
theorem owner_mem : .stored (ownerOf a blocks vocabPerSplit token col) ∈ events :=
  (hevents.mem _).mpr (ownerOf_lt col hblocks.pos_m htoken (Tiles.div_lt_cdiv hsize hcol))

include hblocks hsize hevents htoken hcol in
theorem first_mem : .launched 0 ∈ events :=
  (hevents.mem _).mpr (Nat.zero_lt_of_lt
    (ownerOf_lt col hblocks.pos_m htoken (Tiles.div_lt_cdiv hsize hcol)))

include hblocks hsize hevents htoken hcol hlabel

/-- The logit is there when the main loop is done. -/
theorem logprobs_runMainloop (hreset : ¬ ResetLate a blocks vocabPerSplit events token col) :
    (runMainloop realExpLog a blocks vocabPerSplit events buffers).logprobs token =
      a.logits token col := by
  have howner := owner_mem hblocks hsize hevents htoken hcol
  rw [runMainloop]
  obtain rfl | hne := Nat.eq_zero_or_pos token
  · have hfirst := first_mem hblocks hsize hevents htoken hcol
    have horder := (Tiles.pair_sublist hfirst howner (by rintro ⟨⟩)).resolve_right
      fun hlate => hreset ⟨rfl, hlate⟩
    refine Tiles.foldl_last
      (efficientEntropyKernelGeneralMainloop realExpLog a blocks vocabPerSplit)
      (fun buffers => buffers.logprobs 0) (.stored (ownerOf a blocks vocabPerSplit 0 col))
      (fun buffers => logprobs_stored hblocks hsize htoken hcol hlabel buffers) hevents.nodup horder
      (fun buffers event _ hlaunched hstored => ?_) buffers
    exact logprobs_unowned hblocks hsize htoken hcol hlabel hstored (fun _ => hlaunched) buffers
  · refine Tiles.foldl_owner
      (efficientEntropyKernelGeneralMainloop realExpLog a blocks vocabPerSplit)
      (fun buffers => buffers.logprobs token)
      (.stored (ownerOf a blocks vocabPerSplit token col)) (fun _ => a.logits token col)
      (fun buffers => logprobs_stored hblocks hsize htoken hcol hlabel buffers) hevents.nodup howner
      (fun buffers event _ hstored => ?_) buffers
    exact logprobs_unowned hblocks hsize htoken hcol hlabel hstored
      (fun hzero => absurd hzero hne.ne') buffers

/-- The logit is lost. -/
theorem logprobs_of_resetLate (hreset : ResetLate a blocks vocabPerSplit events token col) :
    (runMainloop realExpLog a blocks vocabPerSplit events buffers).logprobs token = 0 := by
  obtain ⟨rfl, horder⟩ := hreset
  have hpos := Nat.zero_lt_of_lt (Tiles.div_lt_cdiv hblocks.pos_m htoken)
  rw [runMainloop]
  refine Tiles.foldl_last _ (fun buffers => buffers.logprobs 0) (.launched 0) (fun buffers => ?_)
    hevents.nodup horder (fun buffers event _ hstored hlaunched => ?_) buffers
  · exact (logprobs_launched hpos buffers 0).trans (if_pos ⟨rfl, rfl⟩)
  · exact logprobs_unowned hblocks hsize htoken hcol hlabel hstored (fun _ => hlaunched) buffers

end

/-! ## The epilogue -/

/-- What the kernels return for logits, besides the log-prob. -/
structure ForwardOk (vocabSize : Nat) (logits : Nat → ℝ) (cell : ForwardCell ℝ) : Prop where
  entropy : cell.entropy = entropyFromLogits realExpLog vocabSize logits
  accumulate : Scaled cell.maximum cell.accumulate (∑ v ∈ range vocabSize, Real.exp (logits v))
  entropyB : cell.entropyB =
    ∑ v ∈ range vocabSize, softmax realExpLog vocabSize logits v * logits v

theorem sum_exp_pos {vocabSize : Nat} (hvocab : 0 < vocabSize) (logits : Nat → ℝ) :
    0 < ∑ v ∈ range vocabSize, Real.exp (logits v) :=
  sum_pos (fun v _ => Real.exp_pos (logits v)) ⟨0, mem_range.mpr hvocab⟩

theorem sum_softmax_mul (vocabSize : Nat) (logits : Nat → ℝ) :
    ∑ v ∈ range vocabSize, softmax realExpLog vocabSize logits v * logits v =
      (∑ v ∈ range vocabSize, logits v * Real.exp (logits v)) /
        ∑ v ∈ range vocabSize, Real.exp (logits v) := by
  rw [sum_div]
  refine sum_congr rfl fun v _ => ?_
  change Real.exp (logits v) / (∑ v ∈ range vocabSize, Real.exp (logits v)) * logits v = _
  rw [div_mul_eq_mul_div, mul_comm]

section

variable {vocabSize : Nat} {logits : Nat → ℝ} {s : EpilogueLane ℝ}
  (hvocab : 0 < vocabSize)
  (haccu : Scaled s.max s.accu (∑ v ∈ range vocabSize, Real.exp (logits v)))
  (logprobs : ℝ)

include hvocab haccu

theorem finish_logprobs : (finish realExpLog s logprobs).logprobs =
    logprobs - logsumexp realExpLog vocabSize logits := by
  have hlog := haccu.log_add (sum_exp_pos hvocab logits)
  change -1 * (s.max + Real.log s.accu - logprobs) =
    logprobs - Real.log (∑ v ∈ range vocabSize, Real.exp (logits v))
  rw [← hlog]
  ring

theorem finish_ok (hentropyB :
    Scaled s.max s.entropyB (∑ v ∈ range vocabSize, logits v * Real.exp (logits v))) :
    ForwardOk vocabSize logits (finish realExpLog s logprobs) := by
  have hdiv := haccu.div_eq hentropyB
  rw [← sum_softmax_mul] at hdiv
  constructor
  · change Real.log s.accu + s.max - s.entropyB / s.accu = _
    rw [haccu.log_add (sum_exp_pos hvocab logits), hdiv]
    rfl
  · exact haccu
  · exact hdiv

end

/-- The splits are the vocabulary. -/
theorem sum_splits (hsize : 0 < vocabPerSplit) (f : Nat → ℝ) :
    ∑ split ∈ range (cdiv a.vocabSize vocabPerSplit),
        ∑ v ∈ Ico (split * vocabPerSplit) (splitBound a vocabPerSplit split), f v =
      ∑ v ∈ range a.vocabSize, f v :=
  Tiles.sum_parts hsize a.vocabSize f

/-- The epilogue of one rank, after its main loop. -/
theorem epilogue_runMainloop (hblocks : BlocksOk a.hiddenSize blocks) (hsize : 0 < vocabPerSplit)
    {events : List KernelEvent}
    (hevents : GridEvents (cdiv a.numTokens blocks.m * cdiv a.vocabSize vocabPerSplit) events)
    (htoken : token < a.numTokens) {blockSizeN : Nat} (hpos : 0 < blockSizeN)
    (buffers : KernelBuffers ℝ) (reducedMax : Nat → Option ℝ) :
    let s := epilogue realExpLog blockSizeN (cdiv a.vocabSize vocabPerSplit) reducedMax fun split =>
      (runMainloop realExpLog a blocks vocabPerSplit events buffers).splits (token, split)
    Scaled s.max s.accu (∑ v ∈ range a.vocabSize, Real.exp (a.logits token v)) ∧
      Scaled s.max s.entropyB
        (∑ v ∈ range a.vocabSize, a.logits token v * Real.exp (a.logits token v)) := by
  have hsplits (split : Nat) (hsplit : split < cdiv a.vocabSize vocabPerSplit) :=
    splits_runMainloop hblocks hsize hevents htoken hsplit buffers
  rw [← sum_splits hsize, ← sum_splits hsize]
  exact epilogue_scaled hpos _ reducedMax (fun split hsplit => (hsplits split hsplit).accu)
    fun split hsplit => (hsplits split hsplit).entropyB

/-- The programs of the epilogue. -/
theorem efficientEntropyForward_apply {epilogueBlocks : BlockSizes} (hpos : 0 < epilogueBlocks.m)
    {events : List KernelEvent} {epiloguePrograms : List Nat}
    (hprograms : epiloguePrograms.Perm (List.range (cdiv a.numTokens epilogueBlocks.m)))
    (htoken : token < a.numTokens) (buffers : KernelBuffers ℝ) (out : Nat → ForwardCell ℝ) :
    efficientEntropyForward realExpLog a blocks epilogueBlocks vocabPerSplit events
        epiloguePrograms buffers out token =
      let buffers := runMainloop realExpLog a blocks vocabPerSplit events buffers
      let splits := fun split => buffers.splits (token, split)
      finish realExpLog (epilogue realExpLog epilogueBlocks.n (cdiv a.vocabSize vocabPerSplit)
        (fun split => (splits split).max) splits) (buffers.logprobs token) :=
  Tiles.foldl_blocks hpos
    (fun token =>
      let buffers := runMainloop realExpLog a blocks vocabPerSplit events buffers
      let splits := fun split => buffers.splits (token, split)
      finish realExpLog (epilogue realExpLog epilogueBlocks.n (cdiv a.vocabSize vocabPerSplit)
        (fun split => (splits split).max) splits) (buffers.logprobs token))
    hprograms htoken out

section

variable (hblocks : BlocksOk a.hiddenSize blocks) (hsize : 0 < vocabPerSplit)
  {epilogueBlocks : BlockSizes} (hepilogue : 0 < epilogueBlocks.m ∧ 0 < epilogueBlocks.n)
  {events : List KernelEvent}
  (hevents : GridEvents (cdiv a.numTokens blocks.m * cdiv a.vocabSize vocabPerSplit) events)
  {epiloguePrograms : List Nat}
  (hprograms : epiloguePrograms.Perm (List.range (cdiv a.numTokens epilogueBlocks.m)))
  (htoken : token < a.numTokens) (hvocab : 0 < a.vocabSize) (buffers : KernelBuffers ℝ)
  (out : Nat → ForwardCell ℝ)

include hblocks hsize hepilogue hevents hprograms htoken hvocab

theorem efficientEntropyForward_ok :
    ForwardOk a.vocabSize (a.logits token) (efficientEntropyForward realExpLog a blocks
      epilogueBlocks vocabPerSplit events epiloguePrograms buffers out token) := by
  obtain ⟨haccu, hentropyB⟩ := epilogue_runMainloop hblocks hsize hevents htoken hepilogue.2 buffers
    fun split =>
      ((runMainloop realExpLog a blocks vocabPerSplit events buffers).splits (token, split)).max
  rw [efficientEntropyForward_apply hepilogue.1 hprograms htoken]
  exact finish_ok hvocab haccu _ hentropyB

/-- The log-prob, from the logit that the main loop stored. -/
theorem efficientEntropyForward_logprobs :
    (efficientEntropyForward realExpLog a blocks epilogueBlocks vocabPerSplit events
        epiloguePrograms buffers out token).logprobs =
      (runMainloop realExpLog a blocks vocabPerSplit events buffers).logprobs token -
        logsumexp realExpLog a.vocabSize (a.logits token) := by
  obtain ⟨haccu, -⟩ := epilogue_runMainloop hblocks hsize hevents htoken hepilogue.2 buffers
    fun split =>
      ((runMainloop realExpLog a blocks vocabPerSplit events buffers).splits (token, split)).max
  rw [efficientEntropyForward_apply hepilogue.1 hprograms htoken]
  exact finish_logprobs hvocab haccu _

end

/-- On one device the fused forward gives the log-prob and the entropy of the plain path, for
every size of the tiles and every order of the programs, and never takes `inf - inf`.  The
log-prob of the first token is wrong if the scalar is set to zero after its logit was stored. -/
theorem efficientEntropyForward_plain (a : KernelArgs ℝ) (blocks epilogueBlocks : BlockSizes)
    (vocabPerSplit : Nat) (events : List KernelEvent) (epiloguePrograms : List Nat)
    (buffers : KernelBuffers ℝ) (out : Nat → ForwardCell ℝ) (token : Nat)
    (hblocks : BlocksOk a.hiddenSize blocks) (hsize : 0 < vocabPerSplit)
    (hepilogue : 0 < epilogueBlocks.m ∧ 0 < epilogueBlocks.n)
    (hevents : GridEvents (cdiv a.numTokens blocks.m * cdiv a.vocabSize vocabPerSplit) events)
    (hprograms : epiloguePrograms.Perm (List.range (cdiv a.numTokens epilogueBlocks.m)))
    (htoken : token < a.numTokens) (hrank : a.rank = 0) (hlabel : a.labels token < a.vocabSize) :
    let cell := efficientEntropyForward realExpLog a blocks epilogueBlocks vocabPerSplit events
      epiloguePrograms buffers out token
    ForwardOk a.vocabSize (a.logits token) cell ∧
      (¬ ResetLate a blocks vocabPerSplit events token (a.labels token) →
        cell.logprobs =
          logprobsFromLogits realExpLog a.vocabSize (a.logits token) (a.labels token)) ∧
      (ResetLate a blocks vocabPerSplit events token (a.labels token) →
        cell.logprobs = -logsumexp realExpLog a.vocabSize (a.logits token)) ∧
      ∀ split < cdiv a.vocabSize vocabPerSplit,
        ((runMainloop realExpLog a blocks vocabPerSplit events buffers).splits
          (token, split)).nan = false := by
  have hvocab := Nat.zero_lt_of_lt hlabel
  have hcolumn : a.labels token = a.labels token + a.rank * a.vocabSize := by
    rw [hrank, Nat.zero_mul, Nat.add_zero]
  have hok :=
    efficientEntropyForward_ok hblocks hsize hepilogue hevents hprograms htoken hvocab buffers out
  have hlogprobs := efficientEntropyForward_logprobs hblocks hsize hepilogue hevents hprograms
    htoken hvocab buffers out
  refine ⟨hok, fun hreset => ?_, fun hreset => ?_,
    fun split hsplit => (splits_runMainloop hblocks hsize hevents htoken hsplit buffers).nan⟩
  · rw [hlogprobs,
      logprobs_runMainloop hblocks hsize hevents htoken hlabel hcolumn buffers hreset]
    rfl
  · rw [hlogprobs, logprobs_of_resetLate hblocks hsize hevents htoken hlabel hcolumn buffers hreset,
      zero_sub]

/-- Two programs that run at the same time. -/
theorem gridEvents_two : GridEvents (cdiv 1 1 * cdiv 2 1)
    [.launched 0, .launched 1, .stored 1, .stored 0] := by
  constructor
  · decide
  · intro event
    cases event with
    | launched pid =>
        simp [KernelEvent.pid, cdiv]
        omega
    | stored pid =>
        simp [KernelEvent.pid, cdiv]
        omega
  · decide

/-- The first of them is launched in time. -/
theorem not_resetLate_two (hpid : ownerOf a blocks vocabPerSplit 0 1 = 1) :
    ¬ ResetLate a blocks vocabPerSplit [.launched 0, .launched 1, .stored 1, .stored 0] 0 1 := by
  rintro ⟨-, hlate⟩
  rw [hpid] at hlate
  exact absurd hlate (by decide)

theorem efficientEntropyForward_plain_two_splits :
    let a : KernelArgs ℝ := ⟨0, fun _ => 1, fun i => i, fun _ => 1, 1, 1, 2, 1, false⟩
    let cell := efficientEntropyForward realExpLog a ⟨1, 1, 1⟩ ⟨1, 1, 1⟩ 1
      [.launched 0, .launched 1, .stored 1, .stored 0] [0] ⟨fun _ => ⟨none, 0, 0, true⟩, fun _ => 7⟩
      (fun _ => ⟨7, 7, 7, 7, 7⟩) 0
    cell.logprobs = logprobsFromLogits realExpLog 2 (a.logits 0) 1 ∧
      cell.entropy = entropyFromLogits realExpLog 2 (a.logits 0) := by
  intro a cell
  have hprograms : [0].Perm (List.range (cdiv 1 1)) := by decide
  obtain ⟨hok, hlogprobs, -⟩ := efficientEntropyForward_plain a ⟨1, 1, 1⟩ ⟨1, 1, 1⟩ 1
    [.launched 0, .launched 1, .stored 1, .stored 0] [0] ⟨fun _ => ⟨none, 0, 0, true⟩, fun _ => 7⟩
    (fun _ => ⟨7, 7, 7, 7, 7⟩) 0 ⟨Nat.one_pos, Nat.one_pos, Nat.one_pos, one_dvd _⟩ Nat.one_pos
    ⟨Nat.one_pos, Nat.one_pos⟩ gridEvents_two hprograms Nat.one_pos rfl (by decide)
  exact ⟨hlogprobs (not_resetLate_two (by simp [ownerOf, cdiv, a])), hok.entropy⟩

end Verl.Kernel
