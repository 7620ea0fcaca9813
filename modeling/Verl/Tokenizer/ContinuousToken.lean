import Verl.Lib.Python

/-!
# Continuous-token builders

A multi-turn rollout keeps one runtime token stream.  A builder renders the
first prompt, appends model-generated tokens, and appends the tokens of new
tool, user and system messages.  It reports every edit at the junction in a
`MergeResult`, from which `alignResponseMetadata` updates the response mask and
the log-probs.

The tokenizer and its chat template are abstract.  The builders of the model
families differ in the kind, `BuilderKind`, which holds the token ids that their
constructor looks up.
-/

namespace Verl

/-! ## Messages -/

/-- An item of a list-valued message content. -/
inductive ContentItem where
  | dict (type : Option String) (text : Option String)
  | other
deriving DecidableEq, Repr

/-- `message.get("content", "")`. -/
inductive Content where
  | none
  | str (text : String)
  | list (items : List ContentItem)
  | other (shown : String)
deriving DecidableEq, Repr

/-- `tool_call["function"]`. -/
structure ToolFunction where
  name : Option String
  arguments : List (String × String)
deriving DecidableEq, Repr

/-- An element of a message's `tool_calls`. -/
inductive ToolCall where
  | dict (id : Option String) (type : Option String) (function : Option ToolFunction)
  | other
deriving DecidableEq, Repr

/-- `message.get("tool_calls") or []`. -/
inductive ToolCalls where
  | list (calls : List ToolCall)
  | other
deriving DecidableEq, Repr

/-- A chat message.  `extra` holds the keys that no builder reads. -/
structure Message where
  role : Option String
  content : Content := .str ""
  reasoningContent : Option String := .none
  name : Option String := .none
  toolCallId : Option String := .none
  toolCalls : ToolCalls := .list []
  extra : List (String × String) := []
deriving DecidableEq, Repr

namespace ContinuousToken

/-! ## Tokenizers and builders -/

/-- The value of `tokenizer.convert_tokens_to_ids`. -/
inductive ConvertedToken where
  | none
  | id (tokenId : Int)
  | list (ids : List Int)
  | other
deriving DecidableEq, Repr

/-- A tokenizer with its chat template.  `applyChatTemplate messages g tools` is
`apply_chat_template` with `add_generation_prompt=g` and the template arguments
of the builder, normalized to a list of token ids. -/
structure Tokenizer (Tools : Type) where
  encode : String → List Int
  convertTokensToIds : String → ConvertedToken
  applyChatTemplate : List Message → Bool → Option Tools → Except Py.Error (List Int)

/-- The model families, with the token ids their junctions depend on. -/
inductive BuilderKind where
  | default
  | gptOss
  | qwen (newlineId imEndId : Int)
  | miniMax (newlineId eosId : Int)
  | glm (observationId userId : Int)
  | gemma4 (toolResponseId : Int)
deriving DecidableEq, Repr

/-- A continuous-token builder. -/
structure Builder (Tools : Type) where
  tokenizer : Tokenizer Tools
  allowedAppendRoles : List String
  kind : BuilderKind

/-- `_SUPPORTED_APPEND_ROLES`. -/
def supportedAppendRoles : List String := ["tool", "user", "system"]

/-- `_SYNTHETIC_SYSTEM_MESSAGE`. -/
def syntheticSystemMessage : Message :=
  { role := some "system", content := .str "continuous token synthetic system" }

/-- `_SYNTHETIC_USER_MESSAGE`. -/
def syntheticUserMessage : Message :=
  { role := some "user", content := .str "continuous token synthetic user" }

/-- `_ASSISTANT_REASONING_CONTENT`. -/
def assistantReasoningContent : String := "reasoning"

/-- `_DUMMY_TOOL_NAME`. -/
def dummyToolName : String := "continuous_token_tool"

variable {Tools : Type}

/-! ## Constructors -/

/-- `_require_token_id`. -/
def requireTokenId (tokenizer : Tokenizer Tools) (token : String) : Except Py.Error Int :=
  let valid (tokenId : Int) : Except Py.Error Int :=
    if tokenId < 0 then
      .error (.value s!"Tokenizer returned invalid id for required token {token}: {tokenId}")
    else .ok tokenId
  match tokenizer.convertTokensToIds token with
  | .none => .error (.value s!"Tokenizer does not define required token {token}")
  | .list [tokenId] => valid tokenId
  | .list ids =>
      .error (.value s!"Tokenizer returned multiple ids for required token {token}: {ids}")
  | .id tokenId => valid tokenId
  | .other => .error (.value s!"Tokenizer returned invalid id for required token {token}")

/-- `ContinuousTokenBuilder.__init__`. -/
def initRoles (allowedAppendRoles : Option (List String)) : Except Py.Error (List String) :=
  match allowedAppendRoles with
  | none => .ok supportedAppendRoles
  | some roles =>
      let unknown := roles.filter (· ∉ supportedAppendRoles)
      if unknown = [] then .ok roles
      else
        let shown := Py.reprList ((Py.sorted unknown).map Py.reprStr)
        .error (.value s!"Unsupported Continuous Token append roles: {shown}")

/-- The newline lookup of the Qwen and the MiniMax constructors. -/
def newlineId (tokenizer : Tokenizer Tools) (family : String) : Except Py.Error Int :=
  match tokenizer.encode "\n" with
  | [tokenId] => .ok tokenId
  | ids => .error (.value s!"Expected {family} newline to tokenize to one token, got {ids}")

/-- `ContinuousTokenBuilder(tokenizer)`. -/
def newDefault (tokenizer : Tokenizer Tools) (roles : Option (List String)) :
    Except Py.Error (Builder Tools) := do
  return ⟨tokenizer, ← initRoles roles, .default⟩

/-- `GptOssContinuousTokenBuilder(tokenizer)`. -/
def newGptOss (tokenizer : Tokenizer Tools) (roles : Option (List String)) :
    Except Py.Error (Builder Tools) := do
  return ⟨tokenizer, ← initRoles roles, .gptOss⟩

/-- `QwenContinuousTokenBuilder(tokenizer)`. -/
def newQwen (tokenizer : Tokenizer Tools) (roles : Option (List String)) :
    Except Py.Error (Builder Tools) := do
  let roles ← initRoles roles
  let newline ← newlineId tokenizer "Qwen"
  return ⟨tokenizer, roles, .qwen newline (← requireTokenId tokenizer "<|im_end|>")⟩

/-- `MiniMaxContinuousTokenBuilder(tokenizer)`. -/
def newMiniMax (tokenizer : Tokenizer Tools) (roles : Option (List String)) :
    Except Py.Error (Builder Tools) := do
  let roles ← initRoles roles
  let newline ← newlineId tokenizer "MiniMax"
  return ⟨tokenizer, roles, .miniMax newline (← requireTokenId tokenizer "[e~[")⟩

/-- `GLMContinuousTokenBuilder(tokenizer)`. -/
def newGLM (tokenizer : Tokenizer Tools) (roles : Option (List String)) :
    Except Py.Error (Builder Tools) := do
  let roles ← initRoles roles
  let observation ← requireTokenId tokenizer "<|observation|>"
  return ⟨tokenizer, roles, .glm observation (← requireTokenId tokenizer "<|user|>")⟩

/-- `Gemma4ContinuousTokenBuilder(tokenizer)`. -/
def newGemma4 (tokenizer : Tokenizer Tools) (roles : Option (List String)) :
    Except Py.Error (Builder Tools) := do
  let roles ← initRoles roles
  return ⟨tokenizer, roles, .gemma4 (← requireTokenId tokenizer "<|tool_response>")⟩

/-! ## Tool messages -/

/-- `_stringify_tool_content`. -/
def stringifyToolContent : Content → String
  | .none => ""
  | .str text => text
  | .list items =>
      String.join (items.map fun item =>
        match item with
        | .dict (some "text") text => text.getD ""
        | _ => "")
  | .other shown => shown

/-- `_tool_message_name_or_dummy`. -/
def toolMessageNameOrDummy (message : Message) : String :=
  (Py.truthy message.name).getD dummyToolName

/-- `_tool_call_id_or_dummy`. -/
def toolCallIdOrDummy (message : Message) (index : Nat) : String :=
  message.toolCallId.getD s!"continuous_token_call_{index}"

/-- `_tool_call_function_name`. -/
def toolCallFunctionName : ToolCall → Option String
  | .dict _ _ (some function) => function.name
  | _ => none

/-- The `setdefault` loop over the tool calls: the first name given to an id. -/
def toolNamesById (calls : List ToolCall) : List (String × String) :=
  calls.filterMap fun call =>
    match call, toolCallFunctionName call with
    | .dict (some id) _ _, some name => some (id, name)
    | _, _ => none

/-- `_latest_assistant_tool_call_names`. -/
def latestAssistantToolCallNames (messages : List Message) :
    List (String × String) × List (Option String) :=
  match messages.reverse.find? fun message => decide (message.role = some "assistant") with
  | none => ([], [])
  | some message =>
      match message.toolCalls with
      | .other => ([], [])
      | .list calls => (toolNamesById calls, calls.map toolCallFunctionName)

/-- `_resolve_required_tool_name`. -/
def resolveRequiredToolName (message : Message) (index : Nat)
    (toolMessages previousMessages : List Message) : Except Py.Error String :=
  let (namesById, positional) := latestAssistantToolCallNames previousMessages
  let byPosition : Except Py.Error String :=
    if toolMessages.length ≠ positional.length then
      .error (.value <| "Continuous Token cannot resolve tool name by position: got " ++
        s!"{toolMessages.length} tool response messages but the latest assistant has " ++
        s!"{positional.length} tool calls")
    else
      match positional[index]? with
      | some (some name) => .ok name
      | _ =>
          .error (.value <| "Continuous Token cannot resolve tool name by position: " ++
            s!"assistant tool call at index {index} has no function name")
  match Py.truthy message.name with
  | some name => .ok name
  | none =>
      match message.toolCallId.bind fun id => List.lookup id namesById with
      | some name => .ok name
      | none => byPosition

/-- The tool call that `_synthetic_assistant_for_tools` makes for one tool message. -/
def syntheticToolCall (message : Message) (index : Nat) : ToolCall :=
  .dict (some (toolCallIdOrDummy message index)) (some "function")
    (some ⟨some (toolMessageNameOrDummy message), []⟩)

/-- `_synthetic_assistant_for_tools`. -/
def syntheticAssistantForTools (toolMessages : List Message) : Message :=
  { role := some "assistant"
    reasoningContent := some assistantReasoningContent
    toolCalls := .list (toolMessages.zipIdx.map fun (message, index) =>
      syntheticToolCall message index) }

namespace Builder

/-! ## Rendering -/

/-- `render_delta_token_id`. -/
def renderDeltaTokenId (b : Builder Tools) (prefixMessages appendedMessages : List Message)
    (addGenerationPrompt : Bool) (tools : Option Tools) : Except Py.Error (List Int) := do
  let prefixIds ← b.tokenizer.applyChatTemplate prefixMessages false tools
  let fullIds ← b.tokenizer.applyChatTemplate (prefixMessages ++ appendedMessages)
    addGenerationPrompt tools
  if fullIds.take prefixIds.length = prefixIds then
    return fullIds.drop prefixIds.length
  else
    let roles := if appendedMessages = [] then ["'generation_prompt'"]
      else appendedMessages.map fun message => Py.reprOption message.role
    let shown := Py.reprList roles
    throw (.value s!"Continuous Token token-id suffix diff failed for roles: {shown}")

/-- `build_initial_tokens`. -/
def buildInitialTokens (b : Builder Tools) (messages : List Message) (tools : Option Tools) :
    Except Py.Error (List Int) :=
  b.tokenizer.applyChatTemplate messages true tools

/-- `GptOssContinuousTokenBuilder._format_tool_response`. -/
def formatGptOssToolResponse (message : Message) (toolName : String) : String :=
  let content := stringifyToolContent message.content
  s!"<|start|>functions.{toolName} to=assistant<|channel|>commentary<|message|>{content}<|end|>"

/-- `Gemma4ContinuousTokenBuilder._format_tool_response`. -/
def formatGemma4ToolResponse (message : Message) (toolName : String) : String :=
  let content := stringifyToolContent message.content
  "<|tool_response>response:" ++ toolName ++ "\x7bvalue:<|\"|>" ++ content ++
    "<|\"|>\x7d<tool_response|>"

/-- The `_tokenize_tool_group` that GPT-OSS and Gemma4 share, up to the format
of one response. -/
def tokenizeFormattedToolGroup (b : Builder Tools) (format : Message → String → String)
    (toolMessages previousMessages : List Message) : Except Py.Error (List Int) := do
  let responses ← toolMessages.zipIdx.mapM fun (message, index) => do
    let name ← resolveRequiredToolName message index toolMessages previousMessages
    return format message name
  return b.tokenizer.encode (String.join responses)

/-- `_tokenize_tool_group`. -/
def tokenizeToolGroup (b : Builder Tools) (toolMessages previousMessages : List Message)
    (tools : Option Tools) : Except Py.Error (List Int) :=
  match b.kind with
  | .gptOss =>
      b.tokenizeFormattedToolGroup formatGptOssToolResponse toolMessages previousMessages
  | .gemma4 _ =>
      b.tokenizeFormattedToolGroup formatGemma4ToolResponse toolMessages previousMessages
  | _ =>
      b.renderDeltaTokenId
        [syntheticSystemMessage, syntheticUserMessage, syntheticAssistantForTools toolMessages]
        toolMessages false tools

/-- `_tokenize_single_non_tool`. -/
def tokenizeSingleNonTool (b : Builder Tools) (message : Message) (tools : Option Tools) :
    Except Py.Error (List Int) :=
  b.renderDeltaTokenId [syntheticSystemMessage, syntheticUserMessage] [message] false tools

/-- `_tokenize_generation_prompt_delta`. -/
def tokenizeGenerationPromptDelta (b : Builder Tools) (updatedMessages : List Message)
    (tools : Option Tools) : Except Py.Error (List Int) :=
  match b.kind with
  | .gemma4 _ =>
      match updatedMessages.getLast? with
      | none => .error .index
      | some lastMessage =>
          if lastMessage.role ∈ [some "user", some "system"] then
            b.renderDeltaTokenId [syntheticSystemMessage, syntheticUserMessage, lastMessage] []
              true tools
          else .ok []
  | _ => b.renderDeltaTokenId updatedMessages [] true tools

/-- `_iter_append_groups`: a run of tool messages is one group, every other
message a group of its own. -/
def iterAppendGroups : List Message → List (List Message)
  | [] => []
  | message :: rest =>
      match iterAppendGroups rest with
      | (next :: group) :: groups =>
          if message.role = some "tool" ∧ next.role = some "tool" then
            (message :: next :: group) :: groups
          else [message] :: (next :: group) :: groups
      | groups => [message] :: groups

/-- `_assert_append_only`. -/
def assertAppendOnly (b : Builder Tools) (previousMessages updatedMessages : List Message) :
    Except Py.Error Unit :=
  if updatedMessages.length < previousMessages.length then
    .error (.value
      "Continuous Token messages must be append-only; updated_messages is shorter")
  else if updatedMessages.take previousMessages.length ≠ previousMessages then
    .error (.value "Continuous Token messages must be append-only; prefix messages changed")
  else
    (updatedMessages.drop previousMessages.length).forM fun message =>
      if message.role ∈ b.allowedAppendRoles.map some then .ok ()
      else
        let roles := Py.reprList ((Py.sorted b.allowedAppendRoles).map Py.reprStr)
        let got := Py.reprOption message.role
        .error (.value s!"Continuous Token only supports appending roles {roles}, got {got}")

/-- The tokens of one group of appended messages. -/
def tokenizeGroup (b : Builder Tools) (previousMessages group : List Message)
    (tools : Option Tools) : Except Py.Error (List Int) :=
  match group with
  | [] => .error .index
  | message :: rest =>
      let role := Py.reprOption message.role
      if message.role = some "tool" then
        b.tokenizeToolGroup group previousMessages tools
      else if message.role ∈ [some "user", some "system"] then
        if rest = [] then b.tokenizeSingleNonTool message tools
        else
          let size := group.length
          .error (.value <|
            s!"Continuous Token expects one {role} message per append group, got {size}")
      else .error (.value s!"Unsupported Continuous Token append role: {role}")

/-- `tokenize_non_assistant_incremental_messages`. -/
def tokenizeNonAssistantIncrementalMessages (b : Builder Tools)
    (previousMessages updatedMessages : List Message) (tools : Option Tools) :
    Except Py.Error (List Int) := do
  b.assertAppendOnly previousMessages updatedMessages
  let appendedMessages := updatedMessages.drop previousMessages.length
  if appendedMessages = [] then return []
  else
    let incrementalIds ← (iterAppendGroups appendedMessages).mapM fun group =>
      b.tokenizeGroup previousMessages group tools
    return incrementalIds.flatten ++ (← b.tokenizeGenerationPromptDelta updatedMessages tools)

end Builder

/-! ## Merges -/

/-- `MergeKind`. -/
inductive MergeKind where
  | assistant
  | nonAssistant
deriving DecidableEq, Repr

/-- `MergeResult`. -/
structure MergeResult where
  tokenIds : List Int
  appendedTokenCount : Nat
  kind : MergeKind := .nonAssistant
  insertedTokenIds : List Int := []
  removedPrefixTokenCount : Nat := 0
deriving DecidableEq, Repr

namespace Builder

/-- `merge_assistant_tokens`. -/
def mergeAssistantTokens (_ : Builder Tools) (runtimeTokenIds assistantTokenIds : List Int) :
    MergeResult :=
  { tokenIds := runtimeTokenIds ++ assistantTokenIds
    appendedTokenCount := assistantTokenIds.length
    kind := .assistant }

/-- The junction of Qwen and of MiniMax: a stop token at the end of the prefix
is followed by a newline. -/
def mergeAfterNewline (newlineId stopId : Int) (runtimeTokenIds appendedTokenIds : List Int) :
    MergeResult :=
  let inserted := if runtimeTokenIds.getLast? = some stopId then [newlineId] else []
  { tokenIds := runtimeTokenIds ++ inserted ++ appendedTokenIds
    appendedTokenCount := appendedTokenIds.length
    insertedTokenIds := inserted }

/-- The junction of GLM: an ambiguous boundary token at the end of the prefix is
removed. -/
def mergeAmbiguousBoundary (ambiguousBoundaryIds runtimeTokenIds appendedTokenIds : List Int) :
    MergeResult :=
  if runtimeTokenIds.getLast?.any (· ∈ ambiguousBoundaryIds) then
    { tokenIds := Py.dropEnd runtimeTokenIds 1 ++ appendedTokenIds
      appendedTokenCount := appendedTokenIds.length
      removedPrefixTokenCount := 1 }
  else
    { tokenIds := runtimeTokenIds ++ appendedTokenIds
      appendedTokenCount := appendedTokenIds.length }

/-- `_merge_non_assistant_token_ids`. -/
def mergeNonAssistantTokenIds (b : Builder Tools) (runtimeTokenIds appendedTokenIds : List Int) :
    MergeResult :=
  match b.kind with
  | .qwen newlineId imEndId => mergeAfterNewline newlineId imEndId runtimeTokenIds appendedTokenIds
  | .miniMax newlineId eosId => mergeAfterNewline newlineId eosId runtimeTokenIds appendedTokenIds
  | .glm observationId userId =>
      mergeAmbiguousBoundary [observationId, userId] runtimeTokenIds appendedTokenIds
  | _ =>
      { tokenIds := runtimeTokenIds ++ appendedTokenIds
        appendedTokenCount := appendedTokenIds.length }

/-- The junction of Gemma4: the prefix ends in the tool-response token before
messages are appended. -/
def mergeToolResponse (toolResponseId : Int) (appendedMessages : List Message)
    (runtimeTokenIds appendedTokenIds : List Int) : MergeResult :=
  let inserted :=
    if appendedMessages ≠ [] ∧ Py.takeEnd runtimeTokenIds 1 ≠ [toolResponseId] then
      [toolResponseId]
    else []
  { tokenIds := runtimeTokenIds ++ inserted ++ appendedTokenIds
    appendedTokenCount := appendedTokenIds.length
    insertedTokenIds := inserted }

/-- `merge_non_assistant_tokens`. -/
def mergeNonAssistantTokens (b : Builder Tools) (previousMessages updatedMessages : List Message)
    (runtimeTokenIds : List Int) (tools : Option Tools) : Except Py.Error MergeResult := do
  let appendedIds ← b.tokenizeNonAssistantIncrementalMessages previousMessages updatedMessages
    tools
  match b.kind with
  | .gemma4 toolResponseId =>
      return mergeToolResponse toolResponseId (updatedMessages.drop previousMessages.length)
        runtimeTokenIds appendedIds
  | _ => return b.mergeNonAssistantTokenIds runtimeTokenIds appendedIds

end Builder

/-! ## Response metadata -/

variable {V : Type} [Zero V]

/-- The log-probs that `align_response_metadata` appends for the new tokens. -/
def appendedLogprobs (mergeResult : MergeResult) (assistantLogprobs : Option (List V)) :
    Except Py.Error (List V) :=
  match mergeResult.kind with
  | .nonAssistant => .ok (List.replicate mergeResult.appendedTokenCount 0)
  | .assistant =>
      let count := mergeResult.appendedTokenCount
      match assistantLogprobs with
      | none =>
          if count = 0 then .ok []
          else .error (.value
            "assistant_logprobs is required for assistant Continuous Token alignment")
      | some logprobs =>
          let got := logprobs.length
          if got = count then .ok logprobs
          else .error (.value <| "assistant_logprobs length must match appended assistant " ++
            s!"token count, got {got} and {count}")

/-- `align_response_metadata`. -/
def alignResponseMetadata (mergeResult : MergeResult) (responseMask : List Nat)
    (responseLogprobs assistantLogprobs : Option (List V)) :
    Except Py.Error (List Nat × Option (List V)) :=
  if responseLogprobs = none ∧ assistantLogprobs ≠ none then
    .error (.value "response_logprobs is required when assistant_logprobs is provided")
  else do
    let removed := mergeResult.removedPrefixTokenCount
    let inserted := mergeResult.insertedTokenIds.length
    let trimmedMask := if removed = 0 then responseMask else Py.dropEnd responseMask removed
    let appendedMask := match mergeResult.kind with
      | .assistant => 1
      | .nonAssistant => 0
    let alignedMask := trimmedMask ++ List.replicate inserted 0 ++
      List.replicate mergeResult.appendedTokenCount appendedMask
    match responseLogprobs with
    | none => return (alignedMask, none)
    | some logprobs =>
        let trimmed := if removed = 0 then logprobs else Py.dropEnd logprobs removed
        let appended ← appendedLogprobs mergeResult assistantLogprobs
        return (alignedMask, some (trimmed ++ List.replicate inserted 0 ++ appended))

end ContinuousToken

end Verl
