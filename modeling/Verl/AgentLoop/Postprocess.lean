import Mathlib.Algebra.Order.Field.Rat
import Verl.Workers.Padding

/-!
# The padded batch of the agent loops

`_agent_loop_postprocess` pads the prompt of an output to the left and the
response to the right, and `_postprocess` puts the outputs of all agent loops
into one batch.  The tokenizer pads with its pad id, which may also be the id of
a real token.  Multi-modal inputs, routed experts and teacher outputs are left
out.
-/

namespace Verl

/-! ## Padding one output -/

structure AgentLoopOutput where
  promptIds : List Int
  responseIds : List Int
  responseMask : List Int
  responseLogprobs : Option (List ℚ)
  rewardScore : Option ℚ
deriving DecidableEq

inductive PaddingSide where
  | left
  | right
deriving DecidableEq

/-- `tokenizer.pad(tokens, padding="max_length")`. -/
def tokenizerPad (padTokenId : Int) (side : PaddingSide) (maxLength : Nat) (tokens : List Int) :
    List Int × List Int :=
  let padding := maxLength - tokens.length
  match side with
  | .left =>
      (List.replicate padding padTokenId ++ tokens,
        List.replicate padding 0 ++ List.replicate tokens.length 1)
  | .right =>
      (tokens ++ List.replicate padding padTokenId,
        List.replicate tokens.length 1 ++ List.replicate padding 0)

/-- `_pad_token_ids`, the ids with the attention mask. -/
def padTokenIds (padTokenId : Int) (tokens : List Int) (maxLength : Nat) (side : PaddingSide) :
    List Int × List Int :=
  if tokens = [] then (List.replicate maxLength padTokenId, List.replicate maxLength 0)
  else tokenizerPad padTokenId side maxLength tokens

/-- `compute_position_id_with_mask`. -/
def computePositionIdWithMask (mask : List Int) : List Int :=
  (List.range mask.length).map fun i => max ((mask.take (i + 1)).sum - 1) 0

/-- `prompt_length` and `response_length` of the rollout, with the pad id. -/
structure RolloutConfig where
  promptLength : Nat
  responseLength : Nat
  padTokenId : Int

structure InternalAgentLoopOutput where
  promptIds : List Int
  responseIds : List Int
  inputIds : List Int
  positionIds : List Int
  responseMask : List Int
  attentionMask : List Int
  responseLogprobs : Option (List ℚ)
  rewardScore : Option ℚ

/-- `_agent_loop_postprocess`. -/
def agentLoopPostprocess (cfg : RolloutConfig) (output : AgentLoopOutput) :
    InternalAgentLoopOutput :=
  let promptOutput := padTokenIds cfg.padTokenId output.promptIds cfg.promptLength .left
  let responseOutput := padTokenIds cfg.padTokenId output.responseIds cfg.responseLength .right
  let responseMaskOutput := padTokenIds cfg.padTokenId output.responseMask cfg.responseLength .right
  let attentionMask := promptOutput.2 ++ responseOutput.2
  { promptIds := promptOutput.1
    responseIds := responseOutput.1
    inputIds := promptOutput.1 ++ responseOutput.1
    positionIds := computePositionIdWithMask attentionMask
    responseMask := List.zipWith (· * ·) responseMaskOutput.1 responseOutput.2
    attentionMask := attentionMask
    responseLogprobs := output.responseLogprobs.map fun logprobs =>
      logprobs ++ List.replicate (cfg.responseLength - logprobs.length) 0
    rewardScore := output.rewardScore }

/-! ## The batch -/

/-- `torch.cat` of rows along the first dimension. -/
def torchCat {α : Type} (rows : List (List α)) : Except Py.Error (List (List α)) :=
  match rows with
  | [] => .error (.runtime "expected a non-empty list of Tensors")
  | row :: _ =>
      if ∀ row' ∈ rows, row'.length = row.length then .ok rows
      else .error (.runtime "Sizes of tensors must match except in dimension 0")

/-- The elements of a list without `None`.  A `None` is not a tensor. -/
def tensors {α : Type} (xs : List (Option α)) : Except Py.Error (List α) :=
  xs.mapM fun x =>
    match x with
    | some x => .ok x
    | none => .error (.type "expected Tensor as element but got NoneType")

structure AgentLoopBatch where
  prompts : List (List Int)
  responses : List (List Int)
  responseMask : List (List Int)
  inputIds : List (List Int)
  attentionMask : List (List Int)
  positionIds : List (List Int)
  rolloutLogProbs : Option (List (List ℚ))
  rmScores : Option (List (List ℚ))

/-- `torch.cat([input.response_logprobs for input in inputs])`, if the first one
is not `None`. -/
def catLogprobs (inputs : List InternalAgentLoopOutput) :
    Except Py.Error (Option (List (List ℚ))) :=
  match inputs.head?.bind InternalAgentLoopOutput.responseLogprobs with
  | none => .ok none
  | some _ => do
      let logprobs ← tensors (inputs.map InternalAgentLoopOutput.responseLogprobs)
      let rows ← torchCat logprobs
      return some rows

/-- A row of `rm_scores`: the score at the last token of the response. -/
def rmScoreRow (promptLength width : Nat) (attentionMask : List Int) (score : ℚ) :
    Except Py.Error (List ℚ) :=
  let responseLength := (attentionMask.drop promptLength).sum - 1
  Py.setItemInt (List.replicate width 0) responseLength score

/-- `rm_scores`, if every score is there. -/
def rmScores (promptLength : Nat) (inputs : List InternalAgentLoopOutput) :
    Except Py.Error (Option (List (List ℚ))) :=
  if inputs.all fun input => input.rewardScore.isSome then do
    let rows ← inputs.mapM fun input =>
      rmScoreRow promptLength input.responseMask.length input.attentionMask
        (input.rewardScore.getD 0)
    return some rows
  else .ok none

/-- `_postprocess`. -/
def postprocess (inputs : List InternalAgentLoopOutput) : Except Py.Error AgentLoopBatch := do
  let prompts ← torchCat (inputs.map InternalAgentLoopOutput.promptIds)
  let responses ← torchCat (inputs.map InternalAgentLoopOutput.responseIds)
  let responseMask ← torchCat (inputs.map InternalAgentLoopOutput.responseMask)
  let attentionMask ← torchCat (inputs.map InternalAgentLoopOutput.attentionMask)
  let inputIds ← torchCat (inputs.map InternalAgentLoopOutput.inputIds)
  let positionIds ← torchCat (inputs.map InternalAgentLoopOutput.positionIds)
  let rolloutLogProbs ← catLogprobs inputs
  let scores ← rmScores ((prompts.map List.length).headD 0) inputs
  return ⟨prompts, responses, responseMask, inputIds, attentionMask, positionIds, rolloutLogProbs,
    scores⟩

end Verl
