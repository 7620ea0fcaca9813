import Verl.Lib.Decoding
import Verl.Lib.Dict
import Verl.Lib.Python

/-!
# Generation that survives aborts

`FullyAsyncLLMServerClient.generate` sends a request again whenever the server
aborted it, with the tokens so far after the prompt and with what is left of
the limit.  The limit is kept in the caller's dictionary `sampling_params`.
Other tasks can hold the same dictionary, and write to it whenever this call
waits (`shared`).

The server is a parameter: `server i request` is the answer to the call
number `i`.  The arguments that every request passes on unchanged (images and
so on) are left out.
-/

namespace Verl.LLMServer

open Py (Dict)

/-! ## Requests and answers -/

/-- The entries of `sampling_params` that are integers or `None`. -/
abbrev SamplingParams := Dict String (Option Int)

/-- `limit_key`. -/
def limitKey (samplingParams : SamplingParams) : Option String :=
  if "max_tokens" ∈ samplingParams.keys then some "max_tokens"
  else if "max_new_tokens" ∈ samplingParams.keys then some "max_new_tokens"
  else none

/-- `sampling_params.get(limit_key) if limit_key else None`. -/
def tokenLimit (samplingParams : SamplingParams) : Option Int :=
  (limitKey samplingParams).bind fun key => (samplingParams.get? key).join

structure GenerateRequest where
  promptIds : List Int
  samplingParams : SamplingParams

/-- `L` are the log-probabilities, `R` the rows of `routed_experts`.  The last
three fields are entries of `extra_fields`. -/
structure TokenOutput (L R : Type) where
  tokenIds : List Int
  logProbs : Option (List L)
  routedExperts : Option (List R)
  stopReason : Option String
  numPreempted : Option Int
  globalSteps : Option Int
  minGlobalSteps : Option Int
  maxGlobalSteps : Option Int
deriving DecidableEq

variable {L R : Type}

namespace TokenOutput

/-- `stop_reason in ("aborted", "abort")`. -/
def aborted (output : TokenOutput L R) : Bool :=
  output.stopReason = some "aborted" ∨ output.stopReason = some "abort"

/-- `final_output` before the first request. -/
def empty : TokenOutput L R := ⟨[], some [], none, none, some 0, none, none, none⟩

/-- The rows after the rows of `output` are merged.  The rows of the tokens that
were there before stay as they are. -/
def mergeRoutedExperts (finalOutput output : TokenOutput L R) : Option (List R) :=
  match output.routedExperts with
  | none => finalOutput.routedExperts
  | some rows =>
      if 0 < output.tokenIds.length then
        match finalOutput.routedExperts with
        | none => some rows
        | some kept => some (kept ++ Py.takeEnd rows output.tokenIds.length)
      else finalOutput.routedExperts

/-- Merges `output` into `final_output`. -/
def merge (finalOutput output : TokenOutput L R) : TokenOutput L R :=
  { finalOutput with
    tokenIds := finalOutput.tokenIds ++ output.tokenIds
    logProbs :=
      match output.logProbs with
      | none => finalOutput.logProbs
      | some logProbs => finalOutput.logProbs.map (· ++ logProbs)
    routedExperts := finalOutput.mergeRoutedExperts output
    numPreempted :=
      match output.numPreempted with
      | none => finalOutput.numPreempted
      | some n => finalOutput.numPreempted.map (· + n)
    stopReason := output.stopReason }

end TokenOutput

/-- `LLMServerClient.generate`. -/
def clientGenerate (server : Nat → GenerateRequest → TokenOutput L R) (i : Nat)
    (request : GenerateRequest) : TokenOutput L R :=
  let output := server i request
  { output with
    minGlobalSteps := output.minGlobalSteps.or output.globalSteps
    maxGlobalSteps := output.maxGlobalSteps.or output.globalSteps }

/-! ## The loop -/

/-- The variables of `FullyAsyncLLMServerClient.generate`, and the calls it made. -/
structure Generation (L R : Type) where
  samplingParams : SamplingParams
  finalOutput : TokenOutput L R
  globalSteps : Option Int
  minGlobalSteps : Option Int
  maxGlobalSteps : Option Int
  calls : List (GenerateRequest × TokenOutput L R)

namespace Generation

/-- What the loop does not change. -/
structure Client (L R : Type) where
  server : Nat → GenerateRequest → TokenOutput L R
  /-- What other tasks write to the dictionary before the request number `i`. -/
  shared : Nat → SamplingParams → SamplingParams
  /-- `config.async_training.partial_rollout`, if there is such a section. -/
  partialRollout : Option Bool
  promptIds : List Int
  limitKey : Option String
  originalMaxTokens : Option Int

variable (client : Client L R) (g : Generation L R)

/-- The next request. -/
def request : GenerateRequest where
  promptIds := client.promptIds ++ g.finalOutput.tokenIds
  samplingParams := client.shared g.calls.length g.samplingParams

/-- The answer to the next request. -/
def output : TokenOutput L R := clientGenerate client.server g.calls.length (g.request client)

/-- Generates tokens, merges them and notes the version of the weights. -/
def receive : Generation L R where
  samplingParams := (g.request client).samplingParams
  finalOutput := g.finalOutput.merge (g.output client)
  globalSteps := (g.output client).globalSteps
  minGlobalSteps := g.minGlobalSteps.or (g.output client).globalSteps
  maxGlobalSteps := (g.output client).globalSteps
  calls := g.calls ++ [(g.request client, g.output client)]

/-- Writes what is left of the limit to the dictionary. -/
def updateLimit : Generation L R :=
  match client.limitKey, client.originalMaxTokens with
  | some key, some limit =>
      { g with
        samplingParams := g.samplingParams.set key (some (limit - g.finalOutput.tokenIds.length)) }
  | _, _ => g

/-- Whether the limit is reached. -/
def limitReached : Bool :=
  match client.originalMaxTokens with
  | some limit => limit ≤ g.finalOutput.tokenIds.length
  | none => false

/-- `stop_reason = "length"`. -/
def stopAtLimit : Generation L R :=
  { g with finalOutput := { g.finalOutput with stopReason := some "length" } }

/-- `should_retry`. -/
def shouldRetry : Bool := client.partialRollout ≠ some false

/-- Writes the versions to `final_output`. -/
def finish : Generation L R :=
  { g with
    finalOutput := { g.finalOutput with
      globalSteps := g.globalSteps
      minGlobalSteps := g.minGlobalSteps
      maxGlobalSteps := g.maxGlobalSteps } }

/-- The loop, for at most `fuel` requests. -/
def loop : Nat → Generation L R → Option (Generation L R)
  | 0, _ => none
  | fuel + 1, g =>
      let t := (g.receive client).updateLimit client
      if t.limitReached client then some t.stopAtLimit.finish
      else if (g.output client).aborted ∧ shouldRetry client then loop fuel t
      else some t.finish

end Generation

/-- `FullyAsyncLLMServerClient.generate`, for at most `fuel` requests. -/
def generate (server : Nat → GenerateRequest → TokenOutput L R)
    (shared : Nat → SamplingParams → SamplingParams) (partialRollout : Option Bool)
    (promptIds : List Int) (samplingParams : SamplingParams) (fuel : Nat) :
    Option (Generation L R) :=
  Generation.loop
    ⟨server, shared, partialRollout, promptIds, limitKey samplingParams, tokenLimit samplingParams⟩
    fuel ⟨samplingParams, .empty, none, none, none, []⟩

end Verl.LLMServer
