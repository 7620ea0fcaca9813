import Verl.Lib.Json
import Verl.Lib.Regex

/-!
# The Gemma4 tool parser

`Gemma4ToolParser` of `verl/experimental/agent_loop/tool_parser.py`.  One
expression finds the calls in the decoded text and a second one the arguments of a
call.  The first is compiled with `regex.DOTALL`, so its dot stands for every
character.  The second is not, and its dot stands for every character but a
newline.

A text is a list of characters.  What `\w` is outside ASCII, how `int` reads digits
outside ASCII and how `float` reads a text are parameters.  The limit of the
interpreter on the digits of an integer is taken to be off.

The second half of the module is the documented format,
`<|tool_call>call:func_name{key:<|"|>str_val<|"|>,key2:num_val}<tool_call|>`.
-/

namespace Verl

open Regex (Pattern Way)
open Json (Scalar)

/-- `[A-Za-z0-9_]` -/
def isNameChar (c : Char) : Bool := c.isAlphanum || c == '_'

/-- The classes and conversions of the interpreter and of the `regex` package. -/
structure TextTools (F : Type) where
  /-- `\w` -/
  isWord : Char → Bool
  isWord_ascii : ∀ c : Char, c.toNat < 128 → isWord c = isNameChar c
  /-- `int(s)`, where `none` is a `ValueError`. -/
  int : List Char → Option Int
  int_ascii : ∀ cs : List Char, (∀ c ∈ cs, c.toNat < 128) → int cs = Py.parseInt cs
  /-- `float(s)`, where `none` is a `ValueError`. -/
  float : List Char → Option F
  floats : Json.FloatText F

structure ToolTokenizer where
  /-- `tokenizer.decode(ids, skip_special_tokens=False)` -/
  decode : List Int → List Char
  padToken : Option (List Char)

structure FunctionCall where
  arguments : List Char
  name : List Char
  toolCallId : Option (List Char)
deriving DecidableEq

/-! ## The expressions -/

def toolCallStartToken : List Char := "<|tool_call>".toList

def toolCallEndToken : List Char := "<tool_call|>".toList

/-- The token around a string. -/
def stringToken : List Char := "<|\"|>".toList

/-- `<\|tool_call>call:(\w+)\{(.*?)\}<tool_call\|>` with `regex.DOTALL` -/
def toolCallRegex (isWord : Char → Bool) : Pattern :=
  .seq (.lit (toolCallStartToken ++ "call:".toList))
    (.seq (.group 1 (Regex.plus isWord))
      (.seq (.lit ['{']) (Regex.lazyUntil 2 (fun _ => true) ('}' :: toolCallEndToken))))

/-- `<\|"\|>(.*?)<\|"\|>` -/
def stringRegex : Pattern :=
  .seq (.lit stringToken) (Regex.lazyUntil 2 (fun c => c != '\n') stringToken)

/-- `([^,}]*)` -/
def bareRegex : Pattern := .group 3 (.run true fun c => c != ',' && c != '}')

/-- `(\w+):(?:<\|"\|>(.*?)<\|"\|>|([^,}]*))` -/
def argRegex (isWord : Char → Bool) : Pattern :=
  .seq (.group 1 (Regex.plus isWord)) (.seq (.lit [':']) (.alt stringRegex bareRegex))

/-! ## The parser -/

section

variable {F : Type} (tools : TextTools F)

/-- A value that is not between string tokens. -/
def bareValue (bareVal : List Char) : Scalar F :=
  let bareVal := Py.strip bareVal
  if bareVal.map Char.toLower = "true".toList then .bool true
  else if bareVal.map Char.toLower = "false".toList then .bool false
  else if bareVal.map Char.toLower = "null".toList then .null
  else
    match tools.int bareVal with
    | some n => .int n
    | none =>
        match tools.float bareVal with
        | some x => .float x
        | none => .str bareVal

/-- The body of the loop of `_parse_arguments`. -/
def setArgument (result : Py.Dict (List Char) (Scalar F)) (m : Way) :
    Py.Dict (List Char) (Scalar F) :=
  let key := (m.group 1).getD []
  match m.group 2, m.group 3 with
  | some strVal, _ => result.set key (.str strVal)
  | none, some bareVal => result.set key (bareValue tools bareVal)
  | none, none => result

/-- `_parse_arguments` -/
def parseArguments (argsStr : List Char) : Py.Dict (List Char) (Scalar F) :=
  (Regex.finditer (argRegex tools.isWord) argsStr).foldl (setArgument tools) Py.Dict.empty

/-- The decoded text without pad tokens. -/
def responseText (tokenizer : ToolTokenizer) (responsesIds : List Int) : List Char :=
  let text := tokenizer.decode responsesIds
  match tokenizer.padToken with
  | some padToken => if padToken = [] then text else Py.remove padToken text
  | none => text

/-- The call that is built from one match.  `json.dumps` takes every dictionary that
`_parse_arguments` returns, so the handler around it is never entered. -/
def functionCall (m : Way) : FunctionCall where
  arguments := Json.dumps tools.floats (parseArguments tools ((m.group 2).getD []))
  name := (m.group 1).getD []
  toolCallId := none

/-- `extract_tool_calls` -/
def extractToolCalls (tokenizer : ToolTokenizer) (responsesIds : List Int) :
    List Char × List FunctionCall :=
  let text := responseText tokenizer responsesIds
  if ¬ Py.contains toolCallStartToken text then (text, [])
  else
    let found := Regex.finditer (toolCallRegex tools.isWord) text
    if found = [] then (text, [])
    else
      let content :=
        match Py.find toolCallStartToken text with
        | some contentIdx => text.take contentIdx
        | none => text
      (content, found.map (functionCall tools))

end

/-! ## The documented format -/

/-- The value of an argument that a model sends. -/
inductive Argument where
  | str (s : List Char)
  | int (n : Int)
  | bool (b : Bool)
  | null
deriving DecidableEq

namespace Argument

def toScalar {F : Type} : Argument → Scalar F
  | .str s => .str s
  | .int n => .int n
  | .bool b => .bool b
  | .null => .null

def render : Argument → List Char
  | .str s => stringToken ++ (s ++ stringToken)
  | .int n => Py.intChars n
  | .bool true => "true".toList
  | .bool false => "false".toList
  | .null => "null".toList

theorem render_str (s : List Char) :
    (Argument.str s).render = stringToken ++ (s ++ stringToken) := rfl

theorem render_int (n : Int) : (Argument.int n).render = Py.intChars n := rfl

end Argument

/-- A word over `[A-Za-z0-9_]` with at least one character. -/
def IsName (cs : List Char) : Prop := cs ≠ [] ∧ ∀ c ∈ cs, isNameChar c = true

def MarkerFree (cs : List Char) : Prop :=
  ¬ toolCallStartToken <:+: cs ∧ ¬ toolCallEndToken <:+: cs ∧ ¬ stringToken <:+: cs

/-- A call as a model sends it. -/
structure SentCall where
  name : List Char
  arguments : Py.Dict (List Char) Argument
  isName_name : IsName name
  isName_key : ∀ e ∈ arguments.entries, IsName e.1
  markerFree : ∀ e ∈ arguments.entries, ∀ s, e.2 = .str s → MarkerFree s

namespace SentCall

def renderArgument (e : List Char × Argument) : List Char := e.1 ++ ':' :: e.2.render

def renderArguments (call : SentCall) : List Char :=
  List.intercalate [','] (call.arguments.entries.map renderArgument)

def render (call : SentCall) : List Char :=
  toolCallStartToken ++ ("call:".toList ++ (call.name ++
    '{' :: (call.renderArguments ++ '}' :: toolCallEndToken)))

end SentCall

/-- Calls with the text before each of them, and the text after the last one. -/
structure Response where
  calls : List (List Char × SentCall)
  after : List Char
  markerFree_before : ∀ e ∈ calls, MarkerFree e.1
  markerFree_after : MarkerFree after

namespace Response

def render (response : Response) : List Char :=
  (response.calls.flatMap fun e => e.1 ++ e.2.render) ++ response.after

/-- The text before the first call. -/
def content (response : Response) : List Char :=
  match response.calls with
  | [] => response.after
  | e :: _ => e.1

end Response

end Verl
