import Verl.AgentLoop.ToolAgentLoop

/-!
# Alignment of the tool agent loop

All lists of the loop are functions of the prompt and the kept tokens, where the
log-probs start with the first generated token.  The output then holds the
prompt, the response and its mask.  It is aligned up to two defects.

*Nothing was kept.*  The response is `prompt_ids[-len(response_mask):]`, which is
then the whole prompt.

*A tool turn came first.*  Its log-probs are left out while there are no
log-probs yet, so that the ones of the later tokens are too far to the front.
-/

namespace Verl

namespace ToolAgent

variable {Tools V E : Type} [Zero V]

/-- The server returns a log-prob for every token. -/
def Action.HasLogprobs : Action V E → Prop
  | .generate output _ => output.logProbs.map List.length = some output.tokenIds.length
  | .pending => True
  | .processTools _ => True

instance decidableHasLogprobs : (a : Action V E) → Decidable a.HasLogprobs
  | .generate output _ =>
      inferInstanceAs (Decidable (output.logProbs.map List.length = some output.tokenIds.length))
  | .pending => .isTrue trivial
  | .processTools _ => .isTrue trivial

/-! ## The data in terms of the kept tokens -/

/-- The data after the prompt `prompt` was rendered and `kept` was kept.  Log-probs
start with the first generated token. -/
structure Holds (prompt : List Int) (kept : List (ResponseToken V)) (data : AgentData V E) :
    Prop where
  promptIds : data.promptIds = prompt ++ kept.map ResponseToken.token
  responseMask : data.responseMask = kept.map ResponseToken.mask
  responseLogprobs :
    data.responseLogprobs = (kept.dropWhile ResponseToken.isOther).map ResponseToken.logprob

/-- The invariant of the loop. -/
def State.Ok (prompt : List Int) (messages : List Message) (s : State V E) : Prop :=
  (s.agentState = .pending ∧ s.kept = [] ∧ s.data = { messages }) ∨
    (s.agentState ≠ .pending ∧ Holds prompt s.kept s.data)

/-- The output of the model, recorded. -/
theorem Holds.recordOutput {prompt : List Int} {kept : List (ResponseToken V)}
    {data : AgentData V E} (h : Holds prompt kept data) {output : TokenOutput V E}
    {logprobs : List V} (hlogprobs : output.logProbs = some logprobs)
    (hlength : logprobs.length = output.tokenIds.length) :
    Holds prompt (kept ++ ResponseToken.ofOutput output.tokenIds logprobs)
      (recordOutput data output) := by
  refine ⟨?_, ?_, ?_⟩
  · rw [ToolAgent.recordOutput, h.promptIds, List.map_append,
      ResponseToken.map_token_ofOutput hlength, List.append_assoc]
  · rw [ToolAgent.recordOutput, h.responseMask, List.map_append,
      ResponseToken.map_mask_ofOutput hlength]
  · rw [ToolAgent.recordOutput, h.responseLogprobs, hlogprobs, Option.getD_some,
      List.dropWhile_append]
    split
    next hnone =>
      rw [List.isEmpty_iff.mp hnone, ResponseToken.dropWhile_ofOutput,
        ResponseToken.map_logprob_ofOutput hlength]
      rfl
    next => rw [List.map_append, ResponseToken.map_logprob_ofOutput hlength]

/-- The tokens of a tool turn, appended. -/
theorem Holds.append_tools {prompt ids : List Int} {kept : List (ResponseToken V)}
    {data data' : AgentData V E} (h : Holds prompt kept data)
    (hprompt : data'.promptIds = data.promptIds ++ ids)
    (hmask : data'.responseMask = data.responseMask ++ List.replicate ids.length 0)
    (hlogprobs : data'.responseLogprobs = if data.responseLogprobs = [] then []
      else data.responseLogprobs ++ List.replicate ids.length 0) :
    Holds prompt (kept ++ ResponseToken.ofOther ids) data' := by
  refine ⟨?_, ?_, ?_⟩
  · rw [hprompt, h.promptIds, List.map_append, ResponseToken.map_token_ofOther, List.append_assoc]
  · rw [hmask, h.responseMask, List.map_append, ResponseToken.map_mask_ofOther]
  · rw [hlogprobs, h.responseLogprobs, List.dropWhile_append]
    cases hrest : kept.dropWhile ResponseToken.isOther with
    | nil =>
        rw [List.isEmpty_nil, if_pos rfl, ResponseToken.dropWhile_ofOther]
        rfl
    | cons t ts =>
        rw [List.isEmpty_cons, if_neg Bool.false_ne_true, List.map_append,
          ResponseToken.map_logprob_ofOther]
        exact if_neg (List.cons_ne_nil _ _)

variable {cfg : Config} {tokenizer : Tokenizer Tools} {tools : Option Tools}
  {messages : List Message}

/-- The prompt that `_handle_pending_state` renders. -/
def initialPrompt (cfg : Config) (tokenizer : Tokenizer Tools) (tools : Option Tools)
    (messages : List Message) : List Int :=
  applyChatTemplate cfg tokenizer messages tools false

theorem Holds.handleGeneratingState {prompt : List Int} {kept : List (ResponseToken V)}
    {data : AgentData V E} (h : Holds prompt kept data) {output : TokenOutput V E}
    (houtput : output.logProbs.map List.length = some output.tokenIds.length)
    (toolCalls : List FunctionCall) :
    Holds prompt (kept ++ ResponseToken.ofOutput output.tokenIds (output.logProbs.getD []))
      (handleGeneratingState cfg data output toolCalls).1 := by
  obtain ⟨logprobs, hlogprobs, hlength⟩ := Option.map_eq_some_iff.mp houtput
  have hrecord := h.recordOutput hlogprobs hlength
  rw [hlogprobs, Option.getD_some]
  simp only [ToolAgent.handleGeneratingState]
  split
  · exact hrecord
  · split
    · exact hrecord
    · split
      · exact hrecord
      · exact ⟨hrecord.promptIds, hrecord.responseMask, hrecord.responseLogprobs⟩

theorem Holds.handleProcessingToolsState {prompt : List Int} {kept : List (ResponseToken V)}
    {data : AgentData V E} (h : Holds prompt kept data) (results : List (ToolResult V)) :
    Holds prompt (kept ++ ResponseToken.ofOther (State.keptToolIds cfg tokenizer data results))
      (handleProcessingToolsState cfg tokenizer data results).1 := by
  simp only [ToolAgent.handleProcessingToolsState, State.keptToolIds]
  split
  next hlong =>
    have hnone : (ResponseToken.ofOther [] : List (ResponseToken V)) = [] := rfl
    rw [hnone, List.append_nil]
    exact ⟨h.promptIds, h.responseMask, h.responseLogprobs⟩
  next => exact h.append_tools rfl rfl rfl

omit [Zero V] in
theorem handleGeneratingState_ne_pending (data : AgentData V E) (output : TokenOutput V E)
    (toolCalls : List FunctionCall) :
    (handleGeneratingState cfg data output toolCalls).2 ≠ .pending := by
  simp only [handleGeneratingState]
  split
  · nofun
  · split
    · nofun
    · split
      · nofun
      · dsimp only
        split <;> nofun

theorem handleProcessingToolsState_ne_pending (data : AgentData V E)
    (results : List (ToolResult V)) :
    (handleProcessingToolsState cfg tokenizer data results).2 ≠ .pending := by
  simp only [handleProcessingToolsState]
  split <;> nofun

/-- A pass of the loop keeps the invariant. -/
theorem State.Ok.next {s t : State V E} {a : Action V E}
    (hs : s.Ok (initialPrompt cfg tokenizer tools messages) messages) (ha : a.HasLogprobs)
    (h : s.next cfg tokenizer tools a = some t) :
    t.Ok (initialPrompt cfg tokenizer tools messages) messages := by
  cases a with
  | pending =>
      rw [State.next] at h
      split at h
      next hpending =>
        obtain rfl := Option.some.inj h
        rcases hs with ⟨-, hkept, hdata⟩ | ⟨hne, -⟩
        · refine .inr ⟨AgentState.noConfusion, ?_⟩
          rw [hkept, hdata]
          exact ⟨(List.append_nil _).symm, rfl, rfl⟩
        · exact absurd hpending hne
      next => cases h
  | generate output toolCalls =>
      rw [State.next] at h
      split at h
      next hgenerating =>
        obtain rfl := Option.some.inj h
        rcases hs with ⟨hpending, -⟩ | ⟨-, hholds⟩
        · rw [hpending] at hgenerating
          cases hgenerating
        · exact .inr ⟨handleGeneratingState_ne_pending s.data output toolCalls,
            hholds.handleGeneratingState ha toolCalls⟩
      next => cases h
  | processTools results =>
      rw [State.next] at h
      split at h
      next hprocessing =>
        obtain rfl := Option.some.inj h
        rcases hs with ⟨hpending, -⟩ | ⟨-, hholds⟩
        · rw [hpending] at hprocessing
          cases hprocessing.1
        · exact .inr ⟨handleProcessingToolsState_ne_pending s.data results,
            hholds.handleProcessingToolsState results⟩
      next => cases h

/-- What the loop holds when it stops. -/
theorem holds_of_exec {as : List (Action V E)} {s : State V E}
    (hlogprobs : ∀ a ∈ as, a.HasLogprobs)
    (hrun : Run.exec (State.next cfg tokenizer tools) (.init messages) as = some s)
    (hdone : s.agentState = .terminated) :
    Holds (initialPrompt cfg tokenizer tools messages) s.kept s.data := by
  have hinit : (State.init messages : State V E).Ok
      (initialPrompt cfg tokenizer tools messages) messages := .inl ⟨rfl, rfl, rfl⟩
  have hok : s.Ok (initialPrompt cfg tokenizer tools messages) messages :=
    Run.exec_invariant_of_forall (fun _ _ _ hs ha h => hs.next ha h) hinit hlogprobs hrun
  rcases hok with ⟨hpending, -⟩ | ⟨-, hholds⟩
  · rw [hpending] at hdone
    cases hdone
  · exact hholds

/-! ## The output -/

/-- The output holds the prompt and a response that is aligned with its mask and
its log-probs, where `kept` are the tokens that were kept after the prompt. -/
structure AlignedOutput (limit : Nat) (prompt : List Int) (kept : List (ResponseToken V))
    (output : AgentLoopOutput V E) : Prop where
  promptIds : output.promptIds = prompt
  length_responseIds : output.responseIds.length = output.responseMask.length
  length_le : output.responseMask.length ≤ limit
  responseIds : output.responseIds <+: kept.map ResponseToken.token
  responseMask : output.responseMask <+: kept.map ResponseToken.mask
  responseLogprobs : ∀ logprobs, output.responseLogprobs = some logprobs →
    logprobs.length = output.responseMask.length ∧
      ∀ i : Nat, output.responseMask[i]? = some 0 → logprobs[i]? = some 0

/-- Log-probs that start at the first generated token hide the shift: there are
enough of them for the limit, and those at the places of tool tokens are zero. -/
def ShiftHidden (limit : Nat) (kept : List (ResponseToken V)) : Prop :=
  limit ≤ (kept.dropWhile ResponseToken.isOther).length ∧
    ∀ i < limit, ∀ t u, kept[i]? = some t → t.isOther = true →
      (kept.dropWhile ResponseToken.isOther)[i]? = some u → u.logprob = 0

/-- The kept tokens on which neither defect shows. -/
structure Regular (limit : Nat) (prompt : List Int) (kept : List (ResponseToken V)) : Prop where
  /-- Some token was kept, or the limit leaves nothing of the prompt. -/
  kept_or_nil : kept ≠ [] ∨ prompt.take limit = []
  /-- No tool token came before the first generated one, unless none was generated. -/
  generated_first : kept.takeWhile ResponseToken.isOther = [] ∨
    kept.dropWhile ResponseToken.isOther = [] ∨ ShiftHidden limit kept

/-- An element of a mapped list, cut at a limit. -/
theorem getElem?_map_take {α β : Type*} {f : α → β} {xs : List α} {limit i : Nat} {y : β} :
    ((xs.map f).take limit)[i]? = some y ↔ i < limit ∧ ∃ x, xs[i]? = some x ∧ f x = y := by
  rw [List.getElem?_take]
  split
  next hi => rw [List.getElem?_map, Option.map_eq_some_iff, and_iff_right hi]
  next hi => exact iff_of_false nofun fun h => hi h.1

/-- Log-probs that start at the first generated token, cut at the limit, fit the
mask if and only if a generated token came first or the shift is hidden. -/
theorem logprobs_fit_iff (limit : Nat) (kept : List (ResponseToken V))
    (hgenerated : kept.dropWhile ResponseToken.isOther ≠ []) :
    (((kept.dropWhile ResponseToken.isOther).map ResponseToken.logprob).take limit).length =
        ((kept.map ResponseToken.mask).take limit).length ∧
      (∀ i : Nat, ((kept.map ResponseToken.mask).take limit)[i]? = some 0 →
        (((kept.dropWhile ResponseToken.isOther).map ResponseToken.logprob).take limit)[i]? =
          some 0) ↔
      kept.takeWhile ResponseToken.isOther = [] ∨ ShiftHidden limit kept := by
  have hsplit := List.takeWhile_append_dropWhile (p := ResponseToken.isOther) (l := kept)
  have hlength := congrArg List.length hsplit
  have hpos := List.length_pos_iff.mpr hgenerated
  rw [List.length_append] at hlength
  simp only [List.length_take, List.length_map, getElem?_map_take]
  constructor
  · intro ⟨hfits, hzero⟩
    by_cases hlead : kept.takeWhile ResponseToken.isOther = []
    · exact .inl hlead
    have hleadpos := List.length_pos_iff.mpr hlead
    refine .inr ⟨by omega, fun i hi t u ht hother hu => ?_⟩
    obtain ⟨-, u', hu', hlogprob⟩ := hzero i ⟨hi, t, ht, ResponseToken.mask_eq_zero.mpr hother⟩
    rw [hu, Option.some.injEq] at hu'
    exact hu' ▸ hlogprob
  · intro hcases
    rcases hcases with hlead | ⟨hlimit, hzero⟩
    · rw [hlead, List.nil_append] at hsplit
      rw [hsplit]
      refine ⟨rfl, ?_⟩
      intro i ⟨hi, t, ht, hmask⟩
      exact ⟨hi, t, ht, ResponseToken.logprob_of_isOther (ResponseToken.mask_eq_zero.mp hmask)⟩
    · refine ⟨by omega, ?_⟩
      intro i ⟨hi, t, ht, hmask⟩
      have hu := List.getElem?_eq_getElem (Nat.lt_of_lt_of_le hi hlimit)
      exact ⟨hi, _, hu, hzero i hi t _ ht (ResponseToken.mask_eq_zero.mp hmask) hu⟩

section Output

variable {prompt : List Int} {kept : List (ResponseToken V)} {data : AgentData V E}

theorem Holds.output_promptIds (h : Holds prompt kept data) :
    (finalizeOutput cfg data).promptIds = prompt := by
  show Py.upTo data.promptIds ((data.promptIds.length : Int) - data.responseMask.length) = prompt
  have hlength : ((data.promptIds.length : Int) - data.responseMask.length) =
      (prompt.length : Int) := by
    rw [h.promptIds, h.responseMask, List.length_append, List.length_map, List.length_map]
    omega
  rw [hlength, Py.upTo_ofNat, h.promptIds, List.take_left]

theorem Holds.output_responseMask (h : Holds prompt kept data) :
    (finalizeOutput cfg data).responseMask =
      (kept.map ResponseToken.mask).take cfg.responseLength := by
  rw [← h.responseMask]
  rfl

theorem Holds.output_responseIds (h : Holds prompt kept data) :
    (finalizeOutput cfg data).responseIds =
      (if kept = [] then prompt else kept.map ResponseToken.token).take cfg.responseLength := by
  show (Py.takeEnd data.promptIds data.responseMask.length).take cfg.responseLength = _
  rw [h.promptIds, h.responseMask, List.length_map]
  split
  next hkept =>
    rw [hkept, List.map_nil, List.append_nil]
    rfl
  next hkept =>
    have hne : kept.map ResponseToken.token ≠ [] := fun hnil => hkept (List.map_eq_nil_iff.mp hnil)
    have hlength : kept.length = (kept.map ResponseToken.token).length := (List.length_map _).symm
    rw [hlength, Py.takeEnd_append _ _ hne]

theorem Holds.output_responseLogprobs (h : Holds prompt kept data) :
    (finalizeOutput cfg data).responseLogprobs =
      if kept.dropWhile ResponseToken.isOther = [] then none
      else some (((kept.dropWhile ResponseToken.isOther).map ResponseToken.logprob).take
        cfg.responseLength) := by
  show (if data.responseLogprobs = [] then none
    else some (data.responseLogprobs.take cfg.responseLength)) = _
  rw [h.responseLogprobs]
  simp only [List.map_eq_nil_iff]

/-- The log-probs of the output fit its mask exactly if no tool token came before
the first generated one, or none was generated, or the shift is hidden. -/
theorem Holds.responseLogprobs_iff (h : Holds prompt kept data) :
    (∀ logprobs, (finalizeOutput cfg data).responseLogprobs = some logprobs →
      logprobs.length = (finalizeOutput cfg data).responseMask.length ∧
        ∀ i : Nat, (finalizeOutput cfg data).responseMask[i]? = some 0 →
          logprobs[i]? = some 0) ↔
      (kept.takeWhile ResponseToken.isOther = [] ∨
        kept.dropWhile ResponseToken.isOther = [] ∨ ShiftHidden cfg.responseLength kept) := by
  rw [h.output_responseLogprobs, h.output_responseMask]
  by_cases hgenerated : kept.dropWhile ResponseToken.isOther = []
  · rw [if_pos hgenerated]
    exact iff_of_true nofun (.inr (.inl hgenerated))
  · rw [if_neg hgenerated]
    simp only [Option.some.injEq, forall_eq']
    rw [logprobs_fit_iff cfg.responseLength kept hgenerated]
    exact or_congr_right (or_iff_right hgenerated).symm

/-- The output is aligned exactly if neither defect shows on the kept tokens. -/
theorem Holds.aligned_iff (h : Holds prompt kept data) :
    AlignedOutput cfg.responseLength prompt kept (finalizeOutput cfg data) ↔
      Regular cfg.responseLength prompt kept := by
  have hmask : (finalizeOutput cfg data).responseMask <+: kept.map ResponseToken.mask := by
    rw [h.output_responseMask]
    exact List.take_prefix _ _
  have hlength : (finalizeOutput cfg data).responseMask.length ≤ cfg.responseLength := by
    rw [h.output_responseMask]
    exact List.length_take_le _ _
  constructor
  · intro haligned
    refine ⟨?_, h.responseLogprobs_iff.mp haligned.responseLogprobs⟩
    by_cases hkept : kept = []
    · have hlengths := haligned.length_responseIds
      rw [h.output_responseIds, h.output_responseMask, if_pos hkept, hkept, List.map_nil,
        List.take_nil, List.length_nil] at hlengths
      exact .inr (List.length_eq_zero_iff.mp hlengths)
    · exact .inl hkept
  · intro hregular
    have hids : (finalizeOutput cfg data).responseIds =
        (kept.map ResponseToken.token).take cfg.responseLength := by
      rw [h.output_responseIds]
      split
      next hkept =>
        rw [hkept, List.map_nil, List.take_nil]
        exact hregular.kept_or_nil.resolve_left (not_not_intro hkept)
      next => rfl
    refine ⟨h.output_promptIds, ?_, hlength, ?_, hmask,
      h.responseLogprobs_iff.mpr hregular.generated_first⟩
    · rw [hids, h.output_responseMask, List.length_take, List.length_take, List.length_map,
        List.length_map]
    · rw [hids]
      exact List.take_prefix _ _

end Output

/-- Every run of the loop returns an aligned output if and only if neither defect
shows on the tokens that it kept. -/
theorem output_aligned_iff (cfg : Config) (tokenizer : Tokenizer Tools) (tools : Option Tools)
    (messages : List Message) (as : List (Action V E)) (s : State V E)
    (hlogprobs : ∀ a ∈ as, a.HasLogprobs)
    (hrun : Run.exec (State.next cfg tokenizer tools) (.init messages) as = some s)
    (hdone : s.agentState = .terminated) :
    AlignedOutput cfg.responseLength (initialPrompt cfg tokenizer tools messages) s.kept
        (finalizeOutput cfg s.data) ↔
      Regular cfg.responseLength (initialPrompt cfg tokenizer tools messages) s.kept :=
  (holds_of_exec hlogprobs hrun hdone).aligned_iff

/-- A template with a system prompt `1`, one token for a message and the
generation prompt `3`. -/
def shortTokenizer : Tokenizer Unit where
  encode text := text.toList.map fun c => (c.toNat : Int)
  chatTemplate messages _ := 1 :: (messages.map fun _ => 2) ++ [3]

def shortConfig : Config where
  maxUserTurns := none
  maxAssistantTurns := none
  maxParallelCalls := 1
  promptLength := 8
  responseLength := 6
  toolParserName := "hermes"
  systemPrompt := [1]
  turnSeparator := [10]

/-- Two outputs of the model around one tool turn. -/
theorem output_aligned_iff_one_tool :
    let as : List (Action Int Int) := [.pending,
      .generate ⟨[7], some [-1], none, none⟩ [⟨"", "f", none⟩],
      .processTools [⟨some "ok", none⟩], .generate ⟨[8], some [-2], none, none⟩ []]
    ∃ s, Run.exec (State.next shortConfig shortTokenizer none)
        (.init [{ role := some "user" }]) as = some s ∧
      s.kept = [.generated 7 (-1), .other 10, .other 2, .other 3, .generated 8 (-2)] ∧
      AlignedOutput 6 [1, 2, 3] s.kept (finalizeOutput shortConfig s.data) := by
  intro as
  have hfinal : (Run.exec (State.next shortConfig shortTokenizer none)
      (.init [{ role := some "user" }]) as).map (fun s => (s.agentState, s.kept)) =
        some (.terminated,
          [.generated 7 (-1), .other 10, .other 2, .other 3, .generated 8 (-2)]) := by
    decide
  obtain ⟨s, hrun, hs⟩ := Option.map_eq_some_iff.mp hfinal
  obtain ⟨hdone, hkept⟩ := Prod.mk.inj hs
  refine ⟨s, hrun, hkept, ?_⟩
  have haligned := output_aligned_iff shortConfig shortTokenizer none _ as s (by decide) hrun hdone
  refine haligned.mpr ⟨?_, ?_⟩
  · rw [hkept]
    exact .inl (List.cons_ne_nil _ _)
  · rw [hkept]
    exact .inl rfl

/-- The first output of the model is empty: the response is the whole prompt. -/
theorem output_not_aligned :
    let as : List (Action Int Int) := [.pending, .generate ⟨[], some [], none, none⟩ []]
    (∀ a ∈ as, a.HasLogprobs) ∧
    ∃ s, Run.exec (State.next shortConfig shortTokenizer none)
        (.init [{ role := some "user" }]) as = some s ∧
      s.agentState = .terminated ∧
      (finalizeOutput shortConfig s.data).responseIds = [1, 2, 3] ∧
      (finalizeOutput shortConfig s.data).responseMask = [] ∧
      ¬ AlignedOutput 6 [1, 2, 3] s.kept (finalizeOutput shortConfig s.data) := by
  intro as
  have hfinal : (Run.exec (State.next shortConfig shortTokenizer none)
      (.init [{ role := some "user" }]) as).map (fun s => (s.agentState,
        (finalizeOutput shortConfig s.data).responseIds,
        (finalizeOutput shortConfig s.data).responseMask)) =
          some (.terminated, [1, 2, 3], []) := by
    decide
  obtain ⟨s, hrun, hs⟩ := Option.map_eq_some_iff.mp hfinal
  simp only [Prod.mk.injEq] at hs
  obtain ⟨hdone, hids, hmask⟩ := hs
  refine ⟨by decide, s, hrun, hdone, hids, hmask, fun h => ?_⟩
  have hlengths := h.length_responseIds
  rw [hids, hmask] at hlengths
  cases hlengths

end ToolAgent

end Verl
