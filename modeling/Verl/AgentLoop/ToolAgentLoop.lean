import Verl.Lib.Run
import Verl.Tokenizer.ContinuousToken
import Verl.Tokenizer.ResponseToken

/-!
# The tool agent loop

A run of the loop renders the prompt, then lets the model generate and executes
its tool calls in turns.  All tokens go to the end of one list, and the response
mask and the log-probs grow next to it.  At the end the list is split into the
prompt and the response.

The loop is modelled without continuous tokens and for text only.  A step is one
pass of the loop.  Its action holds what the server, the tool parser and the
tools answered.  The chat template and the tokenizer are abstract.

Next to the data of the code, the state holds the tokens that were kept, each
with its origin.  They take no part in what the loop computes.
-/

namespace Verl

namespace ToolAgent

/-! ## Data -/

/-- `TokenOutput`. -/
structure TokenOutput (V E : Type) where
  tokenIds : List Int
  logProbs : Option (List V)
  routedExperts : Option (List E) := none
  numPreempted : Option Nat := none
deriving DecidableEq

/-- `FunctionCall`. -/
structure FunctionCall where
  arguments : String
  name : String
  toolCallId : Option String := none
deriving DecidableEq

/-- What `_call_tool` returns: a text-only `ToolResponse` and its reward. -/
structure ToolResult (V : Type) where
  text : Option String
  reward : Option V := none
deriving DecidableEq

/-- `AgentState`. -/
inductive AgentState where
  | pending
  | generating
  | processingTools
  | terminated
deriving DecidableEq

/-- The fields of `ToolAgentLoop` that its configuration sets. -/
structure Config where
  maxUserTurns : Option Nat
  maxAssistantTurns : Option Nat
  maxParallelCalls : Nat
  promptLength : Nat
  responseLength : Nat
  toolParserName : String
  systemPrompt : List Int
  turnSeparator : List Int

/-- The tokenizer.  `chatTemplate messages tools` is the tokenized prompt with a
generation prompt. -/
structure Tokenizer (Tools : Type) where
  encode : String → List Int
  chatTemplate : List Message → Option Tools → List Int

/-- `AgentData`. -/
structure AgentData (V E : Type) where
  messages : List Message
  promptIds : List Int := []
  responseIds : List Int := []
  responseMask : List Nat := []
  responseLogprobs : List V := []
  toolRewards : List V := []
  userTurns : Nat := 0
  assistantTurns : Nat := 0
  toolCalls : List FunctionCall := []
  routedExperts : Option (List E) := none
  numPreempted : Option Int := none
deriving DecidableEq

/-- `AgentLoopOutput`. -/
structure AgentLoopOutput (V E : Type) where
  promptIds : List Int
  responseIds : List Int
  responseMask : List Nat
  responseLogprobs : Option (List V)
  numTurns : Nat
  routedExperts : Option (List E)
  toolRewards : List V
deriving DecidableEq

variable {Tools V E : Type} [Zero V]

/-! ## Prompts and tool responses -/

/-- `apply_chat_template`. -/
def applyChatTemplate (cfg : Config) (tokenizer : Tokenizer Tools) (messages : List Message)
    (tools : Option Tools) (removeSystemPrompt : Bool) : List Int :=
  let rendered := tokenizer.chatTemplate messages tools
  let promptIds := if removeSystemPrompt then rendered.drop cfg.systemPrompt.length else rendered
  if promptIds.length > cfg.promptLength then Py.takeEnd promptIds cfg.promptLength else promptIds

/-- The message of one tool response. -/
def toolMessage (toolCall : FunctionCall) (result : ToolResult V) : Message :=
  { role := some "tool"
    content := .str (result.text.getD "")
    toolCallId := toolCall.toolCallId }

/-- `format_gpt_oss_tool_response_manually`. -/
def formatGptOssToolResponseManually (toolResponse toolCallName : String) : String :=
  s!"<|start|>functions.{toolCallName} to=assistant<|channel|>commentary" ++
    s!"<|message|>{toolResponse}<|end|>"

/-- `build_gpt_oss_tool_response_text`. -/
def buildGptOssToolResponseText (messages : List Message) (toolCallNames : List String) : String :=
  String.join (List.zipWith (fun message name =>
      formatGptOssToolResponseManually (ContinuousToken.stringifyToolContent message.content) name)
    messages toolCallNames) ++ "<|start|>assistant"

/-- The text that the loop makes of tool responses for Gemma4. -/
def buildGemma4ToolResponseText (messages : List Message) (toolCallNames : List String) : String :=
  String.join (List.zipWith ContinuousToken.Builder.formatGemma4ToolResponse messages
    toolCallNames)

/-- The tokens of the tool responses. -/
def toolResponseIds (cfg : Config) (tokenizer : Tokenizer Tools) (addMessages : List Message)
    (toolCallNames : List String) : List Int :=
  if cfg.toolParserName = "gpt-oss" then
    tokenizer.encode (buildGptOssToolResponseText addMessages toolCallNames)
  else if cfg.toolParserName = "gemma4" then
    tokenizer.encode (buildGemma4ToolResponseText addMessages toolCallNames)
  else
    cfg.turnSeparator ++ applyChatTemplate cfg tokenizer addMessages none true

/-! ## The states of the loop -/

/-- `if limit and turns >= limit`. -/
def reachedLimit (limit : Option Nat) (turns : Nat) : Bool :=
  match limit with
  | none | some 0 => false
  | some limit => decide (limit ≤ turns)

/-- `_handle_pending_state`. -/
def handlePendingState (cfg : Config) (tokenizer : Tokenizer Tools) (tools : Option Tools)
    (data : AgentData V E) : AgentData V E × AgentState :=
  ({ data with promptIds := applyChatTemplate cfg tokenizer data.messages tools false },
    .generating)

/-- `metrics["num_preempted"]` after one more output. -/
def addNumPreempted (sofar : Option Int) (numPreempted : Option Nat) : Option Int :=
  match sofar with
  | none => some ((numPreempted.map Int.ofNat).getD (-1))
  | some n => some (n + (numPreempted.map Int.ofNat).getD 0)

/-- `_handle_generating_state`, up to the termination conditions. -/
def recordOutput (data : AgentData V E) (output : TokenOutput V E) : AgentData V E :=
  { data with
    numPreempted := addNumPreempted data.numPreempted output.numPreempted
    assistantTurns := data.assistantTurns + 1
    responseIds := output.tokenIds
    promptIds := data.promptIds ++ output.tokenIds
    responseMask := data.responseMask ++ List.replicate output.tokenIds.length 1
    responseLogprobs := data.responseLogprobs ++ output.logProbs.getD []
    routedExperts := output.routedExperts.or data.routedExperts }

/-- `_handle_generating_state`. -/
def handleGeneratingState (cfg : Config) (data : AgentData V E) (output : TokenOutput V E)
    (toolCalls : List FunctionCall) : AgentData V E × AgentState :=
  let data := recordOutput data output
  if cfg.responseLength ≤ data.responseMask.length then (data, .terminated)
  else if reachedLimit cfg.maxAssistantTurns data.assistantTurns then (data, .terminated)
  else if reachedLimit cfg.maxUserTurns data.userTurns then (data, .terminated)
  else ({ data with toolCalls }, if toolCalls = [] then .terminated else .processingTools)

/-- The tool calls that are executed. -/
def activeCalls (cfg : Config) (data : AgentData V E) : List FunctionCall :=
  data.toolCalls.take cfg.maxParallelCalls

/-- The tokens that `_handle_processing_tools_state` wants to append. -/
def toolTurnIds (cfg : Config) (tokenizer : Tokenizer Tools) (data : AgentData V E)
    (results : List (ToolResult V)) : List Int :=
  toolResponseIds cfg tokenizer (List.zipWith toolMessage (activeCalls cfg data) results)
    ((activeCalls cfg data).map FunctionCall.name)

/-- `_handle_processing_tools_state`. -/
def handleProcessingToolsState (cfg : Config) (tokenizer : Tokenizer Tools) (data : AgentData V E)
    (results : List (ToolResult V)) : AgentData V E × AgentState :=
  let addMessages := List.zipWith toolMessage (activeCalls cfg data) results
  let responseIds := toolTurnIds cfg tokenizer data results
  let data := { data with
    toolRewards := data.toolRewards ++ results.filterMap ToolResult.reward
    messages := data.messages ++ addMessages }
  if cfg.responseLength ≤ data.responseMask.length + responseIds.length then (data, .terminated)
  else
    ({ data with
        promptIds := data.promptIds ++ responseIds
        responseMask := data.responseMask ++ List.replicate responseIds.length 0
        responseLogprobs := if data.responseLogprobs = [] then []
          else data.responseLogprobs ++ List.replicate responseIds.length 0
        userTurns := data.userTurns + 1 },
      .generating)

/-- The end of `run`. -/
def finalizeOutput (cfg : Config) (data : AgentData V E) : AgentLoopOutput V E :=
  let responseIds := Py.takeEnd data.promptIds data.responseMask.length
  let promptIds := Py.upTo data.promptIds
    ((data.promptIds.length : Int) - data.responseMask.length)
  { promptIds
    responseIds := responseIds.take cfg.responseLength
    responseMask := data.responseMask.take cfg.responseLength
    responseLogprobs := if data.responseLogprobs = [] then none
      else some (data.responseLogprobs.take cfg.responseLength)
    numTurns := data.userTurns + data.assistantTurns + 1
    routedExperts := data.routedExperts.map fun experts =>
      experts.take (promptIds.length + cfg.responseLength)
    toolRewards := data.toolRewards }

/-! ## Runs -/

/-- The loop between two passes. -/
structure State (V E : Type) where
  agentState : AgentState
  data : AgentData V E
  kept : List (ResponseToken V)
deriving DecidableEq

/-- One pass of the loop, with what the server, the parser and the tools answer. -/
inductive Action (V E : Type) where
  | pending
  | generate (output : TokenOutput V E) (toolCalls : List FunctionCall)
  | processTools (results : List (ToolResult V))
deriving DecidableEq

namespace State

/-- The start of `run`. -/
def init (messages : List Message) : State V E := ⟨.pending, { messages }, []⟩

/-- The tokens of a tool turn that are kept. -/
def keptToolIds (cfg : Config) (tokenizer : Tokenizer Tools) (data : AgentData V E)
    (results : List (ToolResult V)) : List Int :=
  let ids := toolTurnIds cfg tokenizer data results
  if cfg.responseLength ≤ data.responseMask.length + ids.length then [] else ids

/-- One pass of the loop in `run`. -/
def next (cfg : Config) (tokenizer : Tokenizer Tools) (tools : Option Tools) (s : State V E) :
    Action V E → Option (State V E)
  | .pending =>
      if s.agentState = .pending then
        let result := handlePendingState cfg tokenizer tools s.data
        some ⟨result.2, result.1, s.kept⟩
      else none
  | .generate output toolCalls =>
      if s.agentState = .generating then
        let result := handleGeneratingState cfg s.data output toolCalls
        some ⟨result.2, result.1,
          s.kept ++ ResponseToken.ofOutput output.tokenIds (output.logProbs.getD [])⟩
      else none
  | .processTools results =>
      if s.agentState = .processingTools ∧ results.length = (activeCalls cfg s.data).length then
        let result := handleProcessingToolsState cfg tokenizer s.data results
        some ⟨result.2, result.1,
          s.kept ++ ResponseToken.ofOther (keptToolIds cfg tokenizer s.data results)⟩
      else none

end State

end ToolAgent

end Verl
