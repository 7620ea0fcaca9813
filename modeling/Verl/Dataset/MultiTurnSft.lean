import Verl.Lib.Python

/-!
# The dataset of multi-turn conversations

`MultiTurnSFTDataset.__getitem__` tokenizes each message on its own, cuts the system
prompt off every message but the first, and marks the tokens of the assistant
messages with a loss mask.  The result is padded to `max_length`, or left as long as
it is.  Conversations are text, so every token has the attention mask 1.

The chat template is abstract, and so is a message.  The system prompt and the
generation prompt are those that the constructor has extracted from the template.
-/

namespace Verl

/-! ## The dataset -/

/-- The values of `truncation`. -/
inductive Truncation where
  | error
  | left
  | right
deriving DecidableEq

/-- The fields of the dataset.  `template messages tools enableThinking` is
`apply_chat_template` of the tokenizer without a generation prompt, and `dummyUser`
the user message without text. -/
structure SftDataset (M Tools : Type) where
  template : List M → Option Tools → Option Bool → Except Py.Error (List Int)
  role : M → String
  dummyUser : M
  systemPrompt : List Int
  generationPrompt : List Int
  padTokenId : Option Int
  maxLength : Nat
  truncation : Truncation
  ignoreInputIdsMismatch : Bool

/-- The three tensors of a message or of a conversation. -/
structure SftTensors where
  inputIds : List Int
  lossMask : List Nat
  attentionMask : List Int
deriving DecidableEq

/-- The result of `__getitem__` with `pad_mode="right"`. -/
structure PaddedItem where
  inputIds : List Int
  attentionMask : List Int
  positionIds : List Nat
  lossMask : List Nat
deriving DecidableEq

/-- The result of `__getitem__` with `pad_mode="no_padding"`. -/
structure UnpaddedItem where
  inputIds : List Int
  positionIds : List Nat
  lossMask : List Nat
deriving DecidableEq

namespace SftDataset

variable {M Tools : Type} (ds : SftDataset M Tools)

/-! ## One message -/

/-- `apply_chat_template` of `chat_template.py` for one message.  A template that
needs a user message gets an empty one, whose tokens are cut off again. -/
def applyChatTemplate (message : M) (tools : Option Tools) (enableThinking : Option Bool) :
    Except Py.Error (List Int) :=
  match ds.template [message] tools enableThinking with
  | .ok output => .ok output
  | .error _ => do
      let dummyUserPrefix ← ds.template [ds.dummyUser] tools enableThinking
      let output ← ds.template [ds.dummyUser, message] tools enableThinking
      return output.drop dummyUserPrefix.length

/-- The tokens of a message in the conversation. -/
def removeSystemPrompt (index : Nat) (message : M) (ids : List Int) : List Int :=
  if index ≠ 0 ∧ ds.role message ≠ "system" then ids.drop ds.systemPrompt.length else ids

/-- The loss mask of a message of some tokens. -/
def messageLossMask (message : M) (numTokens : Nat) : List Nat :=
  if ds.role message = "assistant" then
    List.replicate (min ds.generationPrompt.length numTokens) 0 ++
      List.replicate (numTokens - ds.generationPrompt.length) 1
  else List.replicate numTokens 0

/-- `_process_single_message`. -/
def processSingleMessage (index : Nat) (message : M) (tools : Option Tools)
    (enableThinking : Option Bool) : Except Py.Error SftTensors := do
  let ids ← ds.applyChatTemplate message tools enableThinking
  let inputIds := ds.removeSystemPrompt index message ids
  return { inputIds := inputIds
           lossMask := ds.messageLossMask message inputIds.length
           attentionMask := List.replicate inputIds.length 1 }

/-! ## A conversation -/

def mismatchMessage : String :=
  "MultiTurnSFTDataset apply_chat_template to each turn separately and concat `input_ids` " ++
  "as a whole sequence, which may not equal to apply_chat_template to whole messages at once.\n" ++
  "For example, Qwen Thinking series models add <think></think> tags to last turn, please check " ++
  "your tokenizer chat template settings.\n" ++
  "Set `ignore_input_ids_mismatch=True` to ignore input_ids mismatch and use the concatenated " ++
  "input_ids as the final input_ids. "

/-- `sanity_check`. -/
def sanityCheck (inputIds : List Int) (messages : List M) (tools : Option Tools)
    (enableThinking : Option Bool) : Except Py.Error Unit := do
  let whole ← ds.template messages tools enableThinking
  if inputIds ≠ whole ∧ ¬ ds.ignoreInputIdsMismatch then
    .error (.assertion mismatchMessage)
  else .ok ()

/-- The messages one after the other.  Only the first one is given the tools. -/
def assemble (messages : List M) (tools : Option Tools) (enableThinking : Option Bool) :
    Except Py.Error SftTensors := do
  let parts ← messages.zipIdx.mapM fun (message, i) =>
    ds.processSingleMessage i message (if i = 0 then tools else none) enableThinking
  if parts.isEmpty then
    .error (.runtime "torch.cat(): expected a non-empty list of Tensors")
  else
    let inputIds := parts.flatMap SftTensors.inputIds
    let lossMask := parts.flatMap SftTensors.lossMask
    let attentionMask := parts.flatMap SftTensors.attentionMask
    Py.check (inputIds.length = lossMask.length ∧ lossMask.length = attentionMask.length)
      s!"Shape mismatch: {inputIds.length}, {lossMask.length}, {attentionMask.length}"
    ds.sanityCheck inputIds messages tools enableThinking
    return { inputIds := inputIds, lossMask := lossMask, attentionMask := attentionMask }

/-- `f"{sequence_length=} is larger than {self.max_length=}"`. -/
def tooLong (sequenceLength : Nat) : Py.Error :=
  .value s!"sequence_length={sequenceLength} is larger than self.max_length={ds.maxLength}"

/-- `xs[-max_length:]` of a sequence that is longer. -/
def lastTokens {α : Type} (xs : List α) : List α := xs.drop (xs.length - ds.maxLength)

/-- `__getitem__` with `pad_mode="right"`. -/
def getItemRight (messages : List M) (tools : Option Tools) (enableThinking : Option Bool) :
    Except Py.Error PaddedItem := do
  let item ← ds.assemble messages tools enableThinking
  let positionIds := List.range item.inputIds.length
  let sequenceLength := item.inputIds.length
  if sequenceLength < ds.maxLength then
    let padding := ds.maxLength - sequenceLength
    return { inputIds := item.inputIds ++ List.replicate padding (ds.padTokenId.getD 0)
             attentionMask := item.attentionMask ++ List.replicate padding 0
             positionIds := positionIds ++ List.replicate padding 0
             lossMask := item.lossMask ++ List.replicate padding 0 }
  else if sequenceLength > ds.maxLength then
    match ds.truncation with
    | .left =>
        return { inputIds := ds.lastTokens item.inputIds
                 attentionMask := ds.lastTokens item.attentionMask
                 positionIds := ds.lastTokens positionIds
                 lossMask := ds.lastTokens item.lossMask }
    | .right =>
        return { inputIds := item.inputIds.take ds.maxLength
                 attentionMask := item.attentionMask.take ds.maxLength
                 positionIds := positionIds.take ds.maxLength
                 lossMask := item.lossMask.take ds.maxLength }
    | .error => .error (ds.tooLong sequenceLength)
  else
    return { inputIds := item.inputIds, attentionMask := item.attentionMask
             positionIds := positionIds, lossMask := item.lossMask }

/-- `__getitem__` with `pad_mode="no_padding"`. -/
def getItemNoPadding (messages : List M) (tools : Option Tools) (enableThinking : Option Bool) :
    Except Py.Error UnpaddedItem := do
  let item ← ds.assemble messages tools enableThinking
  let positionIds := List.range item.inputIds.length
  let sequenceLength := item.inputIds.length
  if sequenceLength > ds.maxLength ∧ ds.truncation = .error then
    .error (ds.tooLong sequenceLength)
  else if sequenceLength > ds.maxLength then
    return { inputIds := item.inputIds.take ds.maxLength
             positionIds := positionIds.take ds.maxLength
             lossMask := item.lossMask.take ds.maxLength }
  else
    return { inputIds := item.inputIds, positionIds := positionIds, lossMask := item.lossMask }

end SftDataset

end Verl
