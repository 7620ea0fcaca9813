import Verl.Tokenizer.ContinuousToken
import Verl.Tokenizer.ResponseToken
import Verl.Lib.Run

/-!
# Response metadata over whole conversations

A conversation starts from the tokens of the first prompt.  Each turn merges
assistant tokens or non-assistant messages into the stream and then aligns the
response mask and the log-probs with the `MergeResult`.

Next to the three lists of the code, the state holds the response as a list of
entries, each one a model-generated token with its log-prob or another token.
A turn appends its entries, and a merge that removed tokens at the boundary
loses the last ones.  The entries take no part in what the code computes.  The
conversation is *aligned* while the three lists are what the entries say.

*The junction of GLM.*  It removes an ambiguous boundary token wherever the
stream ends in one.  When the whole response was removed before, the token
belongs to the first prompt, while the metadata has nothing left to trim.  Every
other turn keeps the conversation aligned.
-/

namespace Verl

namespace ContinuousToken

variable {Tools V : Type} [Zero V]

/-! ## Conversations -/

/-- The runtime stream with its response metadata. -/
structure Conversation (V : Type) where
  tokenIds : List Int
  responseMask : List Nat
  responseLogprobs : List V
  entries : List (ResponseToken V)
deriving DecidableEq, Repr

/-- A turn of a conversation. -/
inductive Turn (Tools V : Type) where
  | assistant (assistantTokenIds : List Int) (assistantLogprobs : List V)
  | nonAssistant (previousMessages updatedMessages : List Message) (tools : Option Tools)

namespace Conversation

/-- The conversation before its first turn. -/
def start (initialIds : List Int) : Conversation V := ⟨initialIds, [], [], []⟩

/-- The stream and the metadata after a merge. -/
def align (s : Conversation V) (mergeResult : MergeResult) (assistantLogprobs : Option (List V))
    (entries : List (ResponseToken V)) : Except Py.Error (Conversation V) := do
  let (mask, logprobs) ← alignResponseMetadata mergeResult s.responseMask
    (some s.responseLogprobs) assistantLogprobs
  return ⟨mergeResult.tokenIds, mask, logprobs.getD [], entries⟩

/-- What is left of the response after a merge, and the entries of its new
tokens that no model generated. -/
def mergedEntries (s : Conversation V) (mergeResult : MergeResult) : List (ResponseToken V) :=
  s.entries.take (s.entries.length - mergeResult.removedPrefixTokenCount) ++
    ResponseToken.ofOther (mergeResult.insertedTokenIds ++
      mergeResult.tokenIds.drop (mergeResult.tokenIds.length - mergeResult.appendedTokenCount))

/-- A merge followed by `align_response_metadata`. -/
def turn (b : Builder Tools) (s : Conversation V) : Turn Tools V → Except Py.Error (Conversation V)
  | .assistant ids logprobs =>
      s.align (b.mergeAssistantTokens s.tokenIds ids) (some logprobs)
        (s.entries ++ ResponseToken.ofOutput ids logprobs)
  | .nonAssistant previousMessages updatedMessages tools => do
      let mergeResult ← b.mergeNonAssistantTokens previousMessages updatedMessages s.tokenIds tools
      s.align mergeResult none (s.mergedEntries mergeResult)

/-- A turn that raises nothing. -/
def next (b : Builder Tools) (s : Conversation V) (t : Turn Tools V) : Option (Conversation V) :=
  (s.turn b t).toOption

end Conversation

/-! ## What a merge does -/

/-- A merge result of kind `kind` says which tokens it took from the runtime
stream, and which it added. -/
structure MergeResult.Describes (mergeResult : MergeResult) (kind : MergeKind)
    (runtimeTokenIds appendedTokenIds : List Int) : Prop where
  kind : mergeResult.kind = kind
  tokenIds : mergeResult.tokenIds =
    runtimeTokenIds.take (runtimeTokenIds.length - mergeResult.removedPrefixTokenCount) ++
      mergeResult.insertedTokenIds ++ appendedTokenIds
  appended : mergeResult.appendedTokenCount = appendedTokenIds.length

namespace Builder

/-- The junction removes the last token of the stream. -/
def removesBoundary (b : Builder Tools) (runtimeTokenIds : List Int) : Bool :=
  match b.kind with
  | .glm observationId userId => runtimeTokenIds.getLast?.any (· ∈ [observationId, userId])
  | _ => false

theorem mergeAssistantTokens_describes (b : Builder Tools) (runtimeTokenIds ids : List Int) :
    (b.mergeAssistantTokens runtimeTokenIds ids).Describes .assistant runtimeTokenIds ids := by
  refine ⟨rfl, ?_, rfl⟩
  simp only [mergeAssistantTokens, Nat.sub_zero, List.take_length, List.append_nil]

theorem mergeAfterNewline_describes (newlineId stopId : Int)
    (runtimeTokenIds appendedIds : List Int) :
    (mergeAfterNewline newlineId stopId runtimeTokenIds appendedIds).Describes .nonAssistant
      runtimeTokenIds appendedIds := by
  refine ⟨rfl, ?_, rfl⟩
  simp only [mergeAfterNewline, Nat.sub_zero, List.take_length]

theorem mergeToolResponse_describes (toolResponseId : Int) (appendedMessages : List Message)
    (runtimeTokenIds appendedIds : List Int) :
    (mergeToolResponse toolResponseId appendedMessages runtimeTokenIds appendedIds).Describes
      .nonAssistant runtimeTokenIds appendedIds := by
  refine ⟨rfl, ?_, rfl⟩
  simp only [mergeToolResponse, Nat.sub_zero, List.take_length]

theorem mergeAmbiguousBoundary_describes (ambiguousIds runtimeTokenIds appendedIds : List Int) :
    (mergeAmbiguousBoundary ambiguousIds runtimeTokenIds appendedIds).Describes .nonAssistant
      runtimeTokenIds appendedIds := by
  rw [mergeAmbiguousBoundary]
  split
  · refine ⟨rfl, ?_, rfl⟩
    simp only [Py.dropEnd, Nat.one_ne_zero, if_false, List.append_nil]
  · refine ⟨rfl, ?_, rfl⟩
    simp only [Nat.sub_zero, List.take_length, List.append_nil]

theorem mergeAmbiguousBoundary_removed (ambiguousIds runtimeTokenIds appendedIds : List Int) :
    (mergeAmbiguousBoundary ambiguousIds runtimeTokenIds appendedIds).removedPrefixTokenCount =
      if runtimeTokenIds.getLast?.any (· ∈ ambiguousIds) then 1 else 0 := by
  rw [mergeAmbiguousBoundary]
  split <;> rfl

/-- The junction of every builder that joins token ids only. -/
theorem mergeNonAssistantTokenIds_describes (b : Builder Tools)
    (runtimeTokenIds appendedIds : List Int) :
    (b.mergeNonAssistantTokenIds runtimeTokenIds appendedIds).Describes .nonAssistant
      runtimeTokenIds appendedIds ∧
    (b.mergeNonAssistantTokenIds runtimeTokenIds appendedIds).removedPrefixTokenCount =
      if b.removesBoundary runtimeTokenIds then 1 else 0 := by
  have hplain : MergeResult.Describes
      { tokenIds := runtimeTokenIds ++ appendedIds, appendedTokenCount := appendedIds.length }
      .nonAssistant runtimeTokenIds appendedIds := by
    refine ⟨rfl, ?_, rfl⟩
    simp only [Nat.sub_zero, List.take_length, List.append_nil]
  rw [mergeNonAssistantTokenIds, removesBoundary]
  cases b.kind with
  | default => exact ⟨hplain, rfl⟩
  | gptOss => exact ⟨hplain, rfl⟩
  | qwen newlineId imEndId => exact ⟨mergeAfterNewline_describes _ _ _ _, rfl⟩
  | miniMax newlineId eosId => exact ⟨mergeAfterNewline_describes _ _ _ _, rfl⟩
  | glm observationId userId =>
      exact ⟨mergeAmbiguousBoundary_describes _ _ _, mergeAmbiguousBoundary_removed _ _ _⟩
  | gemma4 toolResponseId => exact ⟨hplain, rfl⟩

/-- Every merge of non-assistant messages that raises nothing. -/
theorem mergeNonAssistantTokens_describes {b : Builder Tools}
    {previousMessages updatedMessages : List Message} {runtimeTokenIds : List Int}
    {tools : Option Tools} {mergeResult : MergeResult}
    (h : b.mergeNonAssistantTokens previousMessages updatedMessages runtimeTokenIds tools =
      .ok mergeResult) :
    (∃ appendedIds, mergeResult.Describes .nonAssistant runtimeTokenIds appendedIds) ∧
    mergeResult.removedPrefixTokenCount = if b.removesBoundary runtimeTokenIds then 1 else 0 := by
  obtain ⟨appendedIds, -, h⟩ := Py.bind_eq_ok.mp h
  have hids := b.mergeNonAssistantTokenIds_describes runtimeTokenIds appendedIds
  split at h
  next toolResponseId hkind =>
    rw [Py.pure_eq_ok, Except.ok.injEq] at h
    subst h
    refine ⟨⟨appendedIds, mergeToolResponse_describes _ _ _ _⟩, ?_⟩
    rw [removesBoundary, hkind]
    rfl
  next =>
    rw [Py.pure_eq_ok, Except.ok.injEq] at h
    subst h
    exact ⟨⟨appendedIds, hids.1⟩, hids.2⟩

end Builder

/-! ## Aligned conversations -/

namespace Conversation

/-- The metadata of the response is what its entries say, and the first prompt
is unchanged. -/
structure Aligned (initialIds : List Int) (s : Conversation V) : Prop where
  length_logprobs : s.responseMask.length = s.responseLogprobs.length
  length_tokenIds : s.tokenIds.length = initialIds.length + s.responseMask.length
  tokenIds : s.tokenIds = initialIds ++ s.entries.map ResponseToken.token
  responseMask : s.responseMask = s.entries.map ResponseToken.mask
  responseLogprobs : s.responseLogprobs = s.entries.map ResponseToken.logprob

/-- The lengths follow from the entries. -/
theorem Aligned.of_entries {initialIds : List Int} {s : Conversation V}
    (htokens : s.tokenIds = initialIds ++ s.entries.map ResponseToken.token)
    (hmask : s.responseMask = s.entries.map ResponseToken.mask)
    (hlogprobs : s.responseLogprobs = s.entries.map ResponseToken.logprob) :
    Aligned initialIds s := by
  refine ⟨?_, ?_, htokens, hmask, hlogprobs⟩
  · rw [hmask, hlogprobs, List.length_map, List.length_map]
  · rw [htokens, hmask, List.length_append, List.length_map, List.length_map]

theorem Aligned.start (initialIds : List Int) :
    Aligned initialIds (Conversation.start initialIds : Conversation V) :=
  .of_entries (List.append_nil initialIds).symm rfl rfl

/-- The turn does not remove a token of the first prompt. -/
def KeepsPrompt (b : Builder Tools) (s : Conversation V) : Turn Tools V → Prop
  | .assistant _ _ => True
  | .nonAssistant _ _ _ => b.removesBoundary s.tokenIds = true → s.responseMask ≠ []

instance decidableKeepsPrompt (b : Builder Tools) (s : Conversation V) :
    (t : Turn Tools V) → Decidable (KeepsPrompt b s t)
  | .assistant _ _ => .isTrue trivial
  | .nonAssistant _ _ _ =>
      inferInstanceAs (Decidable (b.removesBoundary s.tokenIds = true → s.responseMask ≠ []))

/-- What aligning does to metadata that is given by entries. -/
theorem align_eq_ok {s t : Conversation V} {mergeResult : MergeResult}
    {assistantLogprobs : Option (List V)} {entries : List (ResponseToken V)}
    (h : s.align mergeResult assistantLogprobs entries = .ok t) :
    ∃ appended, appendedLogprobs mergeResult assistantLogprobs = .ok appended ∧
      t.tokenIds = mergeResult.tokenIds ∧ t.entries = entries ∧
      t.responseMask = s.responseMask.take
          (s.responseMask.length - mergeResult.removedPrefixTokenCount) ++
        List.replicate mergeResult.insertedTokenIds.length 0 ++
        List.replicate mergeResult.appendedTokenCount
          (match mergeResult.kind with | .assistant => 1 | .nonAssistant => 0) ∧
      t.responseLogprobs = s.responseLogprobs.take
          (s.responseLogprobs.length - mergeResult.removedPrefixTokenCount) ++
        List.replicate mergeResult.insertedTokenIds.length 0 ++ appended := by
  obtain ⟨⟨mask, logprobs⟩, halign, ht⟩ := Py.bind_eq_ok.mp h
  obtain rfl := Except.ok.inj ht
  rw [alignResponseMetadata, if_neg (fun hnone => Option.some_ne_none _ hnone.1)] at halign
  simp only [Py.dropEnd_unless_zero] at halign
  obtain ⟨appended, happended, halign⟩ := Py.bind_eq_ok.mp halign
  rw [Py.pure_eq_ok, Except.ok.injEq, Prod.mk.injEq] at halign
  obtain ⟨rfl, rfl⟩ := halign
  exact ⟨appended, happended, rfl, rfl, rfl, rfl⟩

/-- The log-probs of an assistant merge are those of its tokens. -/
theorem appendedLogprobs_assistant {mergeResult : MergeResult} {logprobs appended : List V}
    (hkind : mergeResult.kind = .assistant)
    (h : appendedLogprobs mergeResult (some logprobs) = .ok appended) :
    logprobs.length = mergeResult.appendedTokenCount ∧ appended = logprobs := by
  rw [appendedLogprobs, hkind] at h
  dsimp only at h
  by_cases hlength : logprobs.length = mergeResult.appendedTokenCount
  · rw [if_pos hlength] at h
    exact ⟨hlength, (Except.ok.inj h).symm⟩
  · rw [if_neg hlength] at h
    cases h

/-- Assistant tokens keep the conversation aligned. -/
theorem Aligned.assistant {b : Builder Tools} {initialIds ids : List Int} {logprobs : List V}
    {s t : Conversation V} (hs : Aligned initialIds s)
    (h : s.turn b (.assistant ids logprobs) = .ok t) : Aligned initialIds t := by
  obtain ⟨appended, happended, htokens, hentries, hmask, hlogprobs⟩ := align_eq_ok h
  obtain ⟨hlength, rfl⟩ := appendedLogprobs_assistant rfl happended
  simp only [Builder.mergeAssistantTokens, Nat.sub_zero, List.take_length, List.length_nil,
    List.replicate_zero, List.append_nil] at htokens hmask hlogprobs
  refine .of_entries ?_ ?_ ?_
  · rw [htokens, hentries, hs.tokenIds, List.map_append,
      ResponseToken.map_token_ofOutput hlength, List.append_assoc]
  · rw [hmask, hentries, hs.responseMask, List.map_append,
      ResponseToken.map_mask_ofOutput hlength]
  · rw [hlogprobs, hentries, hs.responseLogprobs, List.map_append,
      ResponseToken.map_logprob_ofOutput hlength]

/-- The tokens, entries and metadata after a merge of non-assistant messages, in
terms of the number `k` of tokens that the junction removed. -/
theorem nonAssistant_eq_ok {b : Builder Tools} {previousMessages updatedMessages : List Message}
    {tools : Option Tools} {s t : Conversation V}
    (h : s.turn b (.nonAssistant previousMessages updatedMessages tools) = .ok t) :
    ∃ k added, k = (if b.removesBoundary s.tokenIds then 1 else 0) ∧
      t.tokenIds = s.tokenIds.take (s.tokenIds.length - k) ++ added ∧
      t.entries = s.entries.take (s.entries.length - k) ++ ResponseToken.ofOther added ∧
      t.responseMask = s.responseMask.take (s.responseMask.length - k) ++
        List.replicate added.length 0 ∧
      t.responseLogprobs = s.responseLogprobs.take (s.responseLogprobs.length - k) ++
        List.replicate added.length 0 := by
  obtain ⟨mergeResult, hmerge, h⟩ := Py.bind_eq_ok.mp h
  obtain ⟨⟨appendedIds, hdescribes⟩, hremoved⟩ := Builder.mergeNonAssistantTokens_describes hmerge
  obtain ⟨appended, happended, htokens, hentries, hmask, hlogprobs⟩ := align_eq_ok h
  rw [appendedLogprobs, hdescribes.kind] at happended
  obtain rfl := Except.ok.inj happended
  have hlast : mergeResult.tokenIds.drop
      (mergeResult.tokenIds.length - mergeResult.appendedTokenCount) = appendedIds := by
    rw [hdescribes.appended, hdescribes.tokenIds]
    conv_lhs => rw [List.length_append, Nat.add_sub_cancel, List.drop_left]
  refine ⟨_, mergeResult.insertedTokenIds ++ appendedIds, hremoved, ?_, ?_, ?_, ?_⟩
  · rw [htokens, hdescribes.tokenIds, List.append_assoc]
  · rw [hentries, mergedEntries, hlast]
  · rw [hmask, hdescribes.kind, hdescribes.appended, List.length_append,
      ← List.replicate_append_replicate, List.append_assoc]
  · rw [hlogprobs, hdescribes.appended, List.length_append, ← List.replicate_append_replicate,
      List.append_assoc]

/-- Taking off no more tokens than the response has takes them off its entries. -/
theorem Aligned.take_tokenIds {initialIds : List Int} {s : Conversation V}
    (hs : Aligned initialIds s) {k : Nat} (hk : k ≤ s.entries.length) :
    s.tokenIds.take (s.tokenIds.length - k) =
      initialIds ++ (s.entries.take (s.entries.length - k)).map ResponseToken.token := by
  have hlength : s.tokenIds.length - k = initialIds.length + (s.entries.length - k) := by
    rw [hs.length_tokenIds, hs.responseMask, List.length_map]
    omega
  rw [hlength, hs.tokenIds, List.take_length_add_append, List.map_take]

/-- Non-assistant messages keep the conversation aligned if the junction takes
its tokens from the response. -/
theorem Aligned.nonAssistant {b : Builder Tools} {initialIds : List Int}
    {previousMessages updatedMessages : List Message} {tools : Option Tools}
    {s t : Conversation V} (hs : Aligned initialIds s)
    (hkeeps : b.removesBoundary s.tokenIds = true → s.responseMask ≠ [])
    (h : s.turn b (.nonAssistant previousMessages updatedMessages tools) = .ok t) :
    Aligned initialIds t := by
  obtain ⟨k, added, hk, htokens, hentries, hmask, hlogprobs⟩ := nonAssistant_eq_ok h
  have hk_le : k ≤ s.entries.length := by
    rw [hk]
    split
    next hremoves =>
      have hne := hkeeps hremoves
      rw [hs.responseMask, ne_eq, List.map_eq_nil_iff] at hne
      exact List.length_pos_iff.mpr hne
    next => exact Nat.zero_le _
  refine .of_entries ?_ ?_ ?_
  · rw [htokens, hs.take_tokenIds hk_le, hentries, List.map_append,
      ResponseToken.map_token_ofOther, List.append_assoc]
  · rw [hmask, hentries, List.map_append, ResponseToken.map_mask_ofOther, hs.responseMask,
      List.length_map, List.map_take]
  · rw [hlogprobs, hentries, List.map_append, ResponseToken.map_logprob_ofOther,
      hs.responseLogprobs, List.length_map, List.map_take]

/-- Once the junction removes a token of the first prompt, the stream is shorter
than the prompt and the response together. -/
theorem Aligned.not_of_removed {b : Builder Tools} {initialIds : List Int}
    {previousMessages updatedMessages : List Message} {tools : Option Tools}
    {s t : Conversation V} (hremoves : b.removesBoundary s.tokenIds = true)
    (hempty : s.responseMask = []) (hs : Aligned initialIds s)
    (h : s.turn b (.nonAssistant previousMessages updatedMessages tools) = .ok t) :
    ¬ Aligned initialIds t := by
  obtain ⟨k, added, hk, htokens, -, hmask, -⟩ := nonAssistant_eq_ok h
  rw [if_pos hremoves] at hk
  subst hk
  have hpos : 0 < s.tokenIds.length := by
    rw [List.length_pos_iff]
    intro hnil
    rw [hnil, Builder.removesBoundary] at hremoves
    split at hremoves <;> cases hremoves
  have hlength := hs.length_tokenIds
  rw [hempty, List.length_nil, Nat.add_zero] at hlength
  intro ht
  have hafter := ht.length_tokenIds
  rw [htokens, hmask, hempty, List.take_nil, List.nil_append, List.length_append,
    List.length_take, List.length_replicate] at hafter
  omega

/-- A turn keeps an aligned conversation aligned exactly if it does not remove a
token of the first prompt. -/
theorem Aligned.next_iff {b : Builder Tools} {initialIds : List Int} {s s' : Conversation V}
    {t : Turn Tools V} (hs : Aligned initialIds s) (h : s.next b t = some s') :
    Aligned initialIds s' ↔ KeepsPrompt b s t := by
  have h : s.turn b t = .ok s' := by
    rw [next] at h
    cases hturn : s.turn b t with
    | error e =>
        rw [hturn] at h
        cases h
    | ok u =>
        rw [hturn] at h
        rw [Option.some.inj h]
  cases t with
  | assistant ids logprobs => exact iff_of_true (hs.assistant h) trivial
  | nonAssistant previousMessages updatedMessages tools =>
      constructor
      · intro hs' hremoves hempty
        exact not_of_removed hremoves hempty hs h hs'
      · intro hkeeps
        exact hs.nonAssistant hkeeps h

/-! ## Whole conversations -/

/-- A conversation is aligned after each of its turns if and only if no turn
removes a token of the first prompt: a merge of non-assistant messages whose
junction removes a boundary token always finds a response that is not empty. -/
theorem aligned_iff_keepsPrompt (b : Builder Tools) (initialIds : List Int)
    (turns : List (Turn Tools V)) (s : Conversation V)
    (h : Run.exec (Conversation.next b) (.start initialIds) turns = some s) :
    (∀ earlier t, earlier <+: turns →
      Run.exec (Conversation.next b) (.start initialIds) earlier = some t →
        Aligned initialIds t) ↔
      Run.Meets (Conversation.next b) (KeepsPrompt b) (.start initialIds) turns :=
  Run.forall_prefix_iff_meets (fun _ _ _ hs hnext => hs.next_iff hnext) (.start initialIds) h

/-- A template in the manner of GLM: a message is the token of its role and one
token of content, and the generation prompt is the token of the assistant. -/
def glmTokenizer : Tokenizer Unit where
  encode text := text.toList.map fun c => (c.toNat : Int)
  convertTokensToIds token :=
    if token = "<|observation|>" then .id 5 else if token = "<|user|>" then .id 6 else .none
  applyChatTemplate messages addGenerationPrompt _ :=
    .ok ((messages.flatMap fun message =>
        [if message.role = some "tool" then 5
          else if message.role = some "user" then 6
          else if message.role = some "system" then 4 else 7, 9]) ++
      if addGenerationPrompt then [7] else [])

def glmBuilder : Builder Unit := ⟨glmTokenizer, supportedAppendRoles, .glm 5 6⟩

/-- The model stops at `<|observation|>`, and a tool message is appended. -/
theorem aligned_iff_keepsPrompt_observation :
    let turns : List (Turn Unit Int) := [.assistant [30, 5] [-2, -1],
      .nonAssistant [{ role := some "user" }] [{ role := some "user" }, { role := some "tool" }]
        none]
    let s : Conversation Int := ⟨[6, 9, 7, 30, 5, 9, 7], [1, 0, 0, 0], [-2, 0, 0, 0],
      [.generated 30 (-2), .other 5, .other 9, .other 7]⟩
    newGLM glmTokenizer none = .ok glmBuilder ∧
      Run.exec (next glmBuilder) (start [6, 9, 7]) turns = some s ∧ Aligned [6, 9, 7] s := by
  intro turns s
  have hrun : Run.exec (next glmBuilder) (start [6, 9, 7]) turns = some s := by decide
  have haligned := (aligned_iff_keepsPrompt glmBuilder [6, 9, 7] turns s hrun).mpr (by decide)
  exact ⟨rfl, hrun, haligned turns s (List.prefix_refl turns) hrun⟩

/-- The model answers `<|observation|>` to a prompt that ends in it, and twice no
message is appended. -/
theorem not_aligned_glm :
    let turns : List (Turn Unit Int) :=
      [.assistant [5] [-1], .nonAssistant [] [] none, .nonAssistant [] [] none]
    let s : Conversation Int := ⟨[6, 9], [], [], []⟩
    newGLM glmTokenizer none = .ok glmBuilder ∧
      Run.exec (next glmBuilder) (start [6, 9, 5]) turns = some s ∧ ¬ Aligned [6, 9, 5] s := by
  intro turns s
  refine ⟨rfl, by decide, fun h => ?_⟩
  exact absurd h.length_tokenIds (by decide)

end Conversation

end ContinuousToken

end Verl
