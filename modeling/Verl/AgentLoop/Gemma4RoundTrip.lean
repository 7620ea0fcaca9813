import Verl.AgentLoop.Gemma4Arguments

/-!
# Round trip of the Gemma4 tool calls

The call expression cuts a response into exactly the calls that were sent, in their
order, whatever the strings in them are (`extractToolCalls_render`).  Its dot stands for
newlines too.  The arguments of a call are read back when no string among them has a
newline, so a response comes back exactly when no string in it has one
(`roundTrips_iff`).
-/

namespace Verl

open Regex (Pattern Way)
open Py (Free)

/-! ## One call -/

/-- The arguments of a call do not contain its closing token. -/
theorem free_render {v : Argument} (hv : ∀ s, v = .str s → MarkerFree s) {cs : List Char} :
    Free toolCallEndToken v.render cs := by
  by_cases hstr : ∃ s, v = .str s
  · obtain ⟨s, rfl⟩ := hstr
    have htoken : ∀ rest, Free toolCallEndToken stringToken rest := by
      intro rest
      refine ⟨fun hprefix => ?_, Py.free_of_not_mem (by decide) rest⟩
      have hsecond := (List.cons_prefix_cons.mp hprefix).2
      exact absurd (List.cons_prefix_cons.mp hsecond).1 (by decide)
    have hs : Free toolCallEndToken s (stringToken ++ cs) := by
      refine Py.free_of_not_isInfix (hv s rfl).2.1 fun c hc => ?_
      obtain rfl := Option.some.inj hc
      decide
    rw [Argument.render_str, Py.free_append, Py.free_append]
    exact ⟨htoken _, hs, htoken _⟩
  · push Not at hstr
    have hstart : '<' ∉ v.render :=
      fun hmem => ((Argument.render_bare hstr).2 _ hmem).2 (by decide)
    exact Py.free_of_not_mem hstart cs

open SentCall (renderArgument)

theorem free_renderArgument {e : List Char × Argument} (hkey : IsName e.1)
    (hv : ∀ s, e.2 = .str s → MarkerFree s) (cs : List Char) :
    Free toolCallEndToken (renderArgument e) cs := by
  rw [renderArgument, List.append_cons, Py.free_append, Py.free_append]
  exact ⟨⟨Py.free_of_not_mem (hkey.not_mem (by decide)) _, Py.free_of_not_mem (by decide) _⟩,
    free_render hv⟩

theorem free_renderTail {es : List (List Char × Argument)} (hkey : ∀ e ∈ es, IsName e.1)
    (hv : ∀ e ∈ es, ∀ s, e.2 = .str s → MarkerFree s) (cs : List Char) :
    Free toolCallEndToken (renderTail es) cs := by
  induction es with
  | nil => trivial
  | cons e es ih =>
      rw [renderTail, List.flatMap_cons, ← List.singleton_append, List.append_assoc,
        Py.free_append, Py.free_append]
      exact ⟨Py.free_of_not_mem (by decide) _,
        free_renderArgument (hkey e List.mem_cons_self) (hv e List.mem_cons_self) _,
        ih (fun e he => hkey e (List.mem_cons_of_mem _ he))
          fun e he => hv e (List.mem_cons_of_mem _ he)⟩

theorem free_renderArguments (call : SentCall) (cs : List Char) :
    Free toolCallEndToken call.renderArguments cs := by
  have hkey := call.isName_key
  have hv := call.markerFree
  cases hes : call.arguments.entries with
  | nil =>
      rw [SentCall.renderArguments, hes]
      trivial
  | cons e es =>
      rw [hes] at hkey hv
      rw [renderArguments_cons hes, Py.free_append]
      exact ⟨free_renderArgument (hkey e List.mem_cons_self) (hv e List.mem_cons_self) _,
        free_renderTail (fun e he => hkey e (List.mem_cons_of_mem _ he))
          (fun e he => hv e (List.mem_cons_of_mem _ he)) cs⟩

section

variable {F : Type} {tools : TextTools F}

/-- The call expression takes a call from its first to its last token. -/
theorem match?_call (call : SentCall) (cs : List Char) :
    (toolCallRegex tools.isWord).match? (call.render ++ cs) =
      some ⟨call.render, [(1, call.name), (2, call.renderArguments)], cs⟩ := by
  obtain ⟨body, hbody⟩ : ∃ body, body = call.renderArguments ++ ('}' :: toolCallEndToken ++ cs) :=
    ⟨_, rfl⟩
  have hclose : Free ('}' :: toolCallEndToken) call.renderArguments
      ('}' :: toolCallEndToken ++ cs) := by
    refine Py.free_cons (free_renderArguments call _) fun hprefix => ?_
    exact absurd (List.cons_prefix_cons.mp hprefix).1 (by decide)
  have hlazy := Regex.match?_lazyUntil 2 cs (p := fun _ => true) (fun _ _ => rfl) hclose
  have hbrace : ∀ c ∈ ('{' :: body).head?, tools.isWord c = false := by
    intro c hc
    obtain rfl := Option.some.inj hc
    exact tools.isWord_eq_false (by decide) (by decide)
  have hname := Pattern.match?_group 1
    (Regex.match?_plus call.isName_name.1 call.isName_name.isWord hbrace)
  have hopen := Pattern.match?_lit ['{'] body
  have hstart := Pattern.match?_lit (toolCallStartToken ++ "call:".toList)
    (call.name ++ '{' :: body)
  rw [← hbody] at hlazy
  have hinput : call.render ++ cs =
      toolCallStartToken ++ "call:".toList ++ (call.name ++ '{' :: body) := by
    rw [SentCall.render, hbody]
    simp only [List.append_assoc, List.cons_append]
  have hmatch := Pattern.match?_seq hstart
    (Pattern.match?_seq hname (Pattern.match?_seq hopen hlazy))
  rw [hinput, toolCallRegex]
  refine hmatch.trans ?_
  rw [SentCall.render]
  simp only [List.append_assoc, List.cons_append, List.nil_append]

/-! ## The whole response -/

theorem free_toolCallStartToken {before : List Char} (h : MarkerFree before) (call : SentCall)
    (cs : List Char) : Free toolCallStartToken before (call.render ++ cs) := by
  refine Py.free_of_not_isInfix h.1 fun c hc => ?_
  obtain rfl := Option.some.inj hc
  decide

/-- No call begins in a text that is free of the start token. -/
theorem finditer_append_of_free {before cs : List Char} (h : Free toolCallStartToken before cs) :
    Regex.finditer (toolCallRegex tools.isWord) (before ++ cs) =
      Regex.finditer (toolCallRegex tools.isWord) cs := by
  refine Regex.finditer_append_of_none fun ys zs hbefore hzs => ?_
  refine Pattern.ways_seq (Pattern.ways_lit fun hprefix => ?_)
  exact Regex.free_of_suffix h hbefore hzs ((List.prefix_append _ _).trans hprefix)

theorem finditer_render {calls : List (List Char × SentCall)} {after : List Char}
    (hcalls : ∀ e ∈ calls, MarkerFree e.1) (hafter : MarkerFree after) :
    (Regex.finditer (toolCallRegex tools.isWord)
        ((calls.flatMap fun e => e.1 ++ e.2.render) ++ after)).map Way.groups =
      calls.map fun e => [(1, e.2.name), (2, e.2.renderArguments)] := by
  induction calls with
  | nil =>
      have hfree : Free toolCallStartToken after [] :=
        Py.free_of_not_isInfix hafter.1 nofun
      have hnone := @finditer_append_of_free F tools _ _ hfree
      rw [List.append_nil, Regex.finditer_nil] at hnone
      rw [List.flatMap_nil, List.nil_append, hnone]
      rfl
  | cons e calls ih =>
      have hne : e.2.render ≠ [] := List.cons_ne_nil _ _
      rw [List.flatMap_cons, List.append_assoc, List.append_assoc,
        finditer_append_of_free (free_toolCallStartToken (hcalls e List.mem_cons_self) e.2 _),
        Regex.finditer_of_match (match?_call e.2 _) hne, List.map_cons,
        ih fun e he => hcalls e (List.mem_cons_of_mem _ he)]
      rfl

/-- The parser finds every call and hands its arguments on as they were sent. -/
theorem extractToolCalls_render {tokenizer : ToolTokenizer} {responsesIds : List Int}
    {response : Response} (h : responseText tokenizer responsesIds = response.render) :
    extractToolCalls tools tokenizer responsesIds =
      (response.content, response.calls.map fun e =>
        ⟨Json.dumps tools.floats (parseArguments tools e.2.renderArguments), e.2.name, none⟩) := by
  obtain ⟨calls, after, hcalls, hafter⟩ := response
  have hgroups := @finditer_render F tools _ _ hcalls hafter
  rw [Response.render] at h
  cases calls with
  | nil =>
      rw [extractToolCalls, h]
      exact if_pos fun hstart => hafter.1 (Py.contains_eq_true_iff.mp hstart)
  | cons e calls =>
      obtain ⟨text, htext⟩ : ∃ text, text =
          ((e :: calls).flatMap fun e => e.1 ++ e.2.render) ++ after := ⟨_, rfl⟩
      obtain ⟨rest, hrest⟩ : ∃ rest, e.2.render ++
          ((calls.flatMap fun e => e.1 ++ e.2.render) ++ after) = toolCallStartToken ++ rest :=
        ⟨_, List.append_assoc _ _ _⟩
      have hsplit : text = e.1 ++ (toolCallStartToken ++ rest) := by
        rw [htext, List.flatMap_cons, List.append_assoc, List.append_assoc, hrest]
      have hfree : Free toolCallStartToken e.1 (toolCallStartToken ++ rest) :=
        hrest ▸ free_toolCallStartToken (hcalls e List.mem_cons_self) e.2 _
      have hstart : Py.contains toolCallStartToken text = true :=
        Py.contains_eq_true_iff.mpr ⟨e.1, rest, by rw [hsplit, List.append_assoc]⟩
      have hfind : Py.find toolCallStartToken text = some e.1.length := by
        rw [hsplit, Py.find_of_free hfree]
      have hcontent : text.take e.1.length = e.1 := by rw [hsplit, List.take_left]
      rw [← htext] at h hgroups
      have hfound : Regex.finditer (toolCallRegex tools.isWord) text ≠ [] := by
        intro hnil
        rw [hnil] at hgroups
        cases hgroups
      rw [extractToolCalls, h]
      simp only [hstart, not_true_eq_false, if_false, hfound, hfind, hcontent]
      refine Prod.ext rfl ?_
      have hmap := congrArg (List.map fun groups : List (Nat × List Char) =>
        (⟨Json.dumps tools.floats (parseArguments tools ((groups.lookup 2).getD [])),
          (groups.lookup 1).getD [], none⟩ : FunctionCall)) hgroups
      rw [List.map_map, List.map_map] at hmap
      exact hmap

/-! ## The round trip -/

/-- Without pad tokens in it, a response is decoded as it was sent. -/
theorem responseText_of_not_isInfix {tokenizer : ToolTokenizer} {responsesIds : List Int}
    (h : ∀ pad, tokenizer.padToken = some pad →
      ¬ pad <:+: tokenizer.decode responsesIds) :
    responseText tokenizer responsesIds = tokenizer.decode responsesIds := by
  rw [responseText]
  cases hpad : tokenizer.padToken with
  | none => rfl
  | some pad =>
      simp only
      split
      next => rfl
      next => exact Py.remove_of_not_isInfix (h pad hpad)

/-- `extract_tool_calls` returns the calls that were sent and the text before the first
of them. -/
def RoundTrips (tools : TextTools F) (tokenizer : ToolTokenizer) (responsesIds : List Int)
    (response : Response) : Prop :=
  extractToolCalls tools tokenizer responsesIds =
    (response.content, response.calls.map fun e =>
      ⟨Json.dumps tools.floats (e.2.arguments.mapValues Argument.toScalar), e.2.name, none⟩)

/-- A response comes back exactly when no string in it has a newline. -/
theorem roundTrips_iff {tokenizer : ToolTokenizer} {responsesIds : List Int} {response : Response}
    (h : responseText tokenizer responsesIds = response.render) :
    RoundTrips tools tokenizer responsesIds response ↔
      ∀ e ∈ response.calls, ∀ a ∈ e.2.arguments.entries, ∀ s, a.2 = .str s → '\n' ∉ s := by
  have hcall : ∀ call : SentCall,
      (⟨Json.dumps tools.floats (parseArguments tools call.renderArguments), call.name, none⟩ :
          FunctionCall) =
        ⟨Json.dumps tools.floats (call.arguments.mapValues Argument.toScalar), call.name, none⟩ ↔
      ∀ a ∈ call.arguments.entries, ∀ s, a.2 = .str s → '\n' ∉ s := by
    intro call
    rw [← parseArguments_eq_iff, FunctionCall.mk.injEq, and_iff_left ⟨rfl, rfl⟩]
    refine ⟨fun heq => Json.dumps_inj (fun e he x hx => ?_) heq, congrArg _⟩
    obtain ⟨a, _, rfl⟩ := List.mem_map.mp he
    obtain ⟨key, v⟩ := a
    cases v <;> cases hx
  rw [RoundTrips, extractToolCalls_render h, Prod.mk.injEq, and_iff_right rfl, List.map_inj_left]
  exact forall₂_congr fun e _ => hcall e.2

end

/-! ## Two responses -/

/-- Conversions that know ASCII and no floats. -/
def asciiTools : TextTools Empty where
  isWord := isNameChar
  isWord_ascii := fun _ _ => rfl
  int := Py.parseInt
  int_ascii := fun _ _ => rfl
  float := fun _ => none
  floats := ⟨nofun, nofun, nofun, nofun⟩

theorem markerFree_of_contains {cs : List Char}
    (h : (Py.contains toolCallStartToken cs || Py.contains toolCallEndToken cs ||
      Py.contains stringToken cs) = false) : MarkerFree cs := by
  rw [Bool.or_eq_false_iff, Bool.or_eq_false_iff] at h
  simp only [Bool.eq_false_iff, ne_eq, Py.contains_eq_true_iff] at h
  exact ⟨h.1.1, h.1.2, h.2⟩

theorem isName_of_all {cs : List Char} (h : cs ≠ [] ∧ cs.all isNameChar = true) : IsName cs :=
  ⟨h.1, List.all_eq_true.mp h.2⟩

/-- `search{query:<|"|>a, {b}<|"|>,top:-5,fresh:true,site:null}` -/
def searchCall : SentCall where
  name := "search".toList
  arguments := ⟨[("query".toList, .str "a, \x7bb\x7d".toList), ("top".toList, .int (-5)),
    ("fresh".toList, .bool true), ("site".toList, .null)], by decide⟩
  isName_name := isName_of_all (by decide)
  isName_key := by
    intro e he
    simp only [List.mem_cons, List.not_mem_nil, or_false] at he
    rcases he with rfl | rfl | rfl | rfl <;> exact isName_of_all (by decide)
  markerFree := by
    intro e he s hs
    simp only [List.mem_cons, List.not_mem_nil, or_false] at he
    rcases he with rfl | rfl | rfl | rfl <;> cases hs
    exact markerFree_of_contains (by decide)

/-- A call without arguments. -/
def listCall : SentCall where
  name := "list_files".toList
  arguments := Py.Dict.empty
  isName_name := isName_of_all (by decide)
  isName_key := nofun
  markerFree := nofun

/-- `Let me look. ` with a call, and ` Also ` with another one. -/
def twoCalls : Response where
  calls := [("Let me look. ".toList, searchCall), (" Also ".toList, listCall)]
  after := []
  markerFree_before := by
    intro e he
    simp only [List.mem_cons, List.not_mem_nil, or_false] at he
    rcases he with rfl | rfl
    · exact markerFree_of_contains (by decide)
    · exact markerFree_of_contains (by decide)
  markerFree_after := markerFree_of_contains (by decide)

/-- A tokenizer that decodes every response to one text, followed by two pad tokens. -/
def paddedTokenizer (text : List Char) : ToolTokenizer where
  decode := fun _ => text ++ "<pad><pad>".toList
  padToken := some "<pad>".toList

theorem roundTrips_iff_twoCalls :
    RoundTrips asciiTools (paddedTokenizer twoCalls.render) [] twoCalls := by
  refine (roundTrips_iff (by decide +kernel)).mpr fun e he a ha s hs => ?_
  simp only [twoCalls, List.mem_cons, List.not_mem_nil, or_false] at he
  rcases he with rfl | rfl
  · simp only [searchCall, List.mem_cons, List.not_mem_nil, or_false] at ha
    rcases ha with rfl | rfl | rfl | rfl
    · obtain rfl := Argument.str.inj hs
      decide
    · cases hs
    · cases hs
    · cases hs
  · exact absurd ha List.not_mem_nil

/-- `note{text:<|"|>a⏎b<|"|>}`, where the string has a newline. -/
def noteCall : SentCall where
  name := "note".toList
  arguments := ⟨[("text".toList, .str "a\nb".toList)], by decide⟩
  isName_name := isName_of_all (by decide)
  isName_key := by
    intro e he
    obtain rfl := List.mem_singleton.mp he
    exact isName_of_all (by decide)
  markerFree := by
    intro e he s hs
    obtain rfl := List.mem_singleton.mp he
    obtain rfl := Argument.str.inj hs
    exact markerFree_of_contains (by decide)

def oneNote : Response where
  calls := [([], noteCall)]
  after := []
  markerFree_before := by
    intro e he
    obtain rfl := List.mem_singleton.mp he
    exact markerFree_of_contains (by decide)
  markerFree_after := markerFree_of_contains (by decide)

/-- The value comes back as `<|"|>a⏎b<|"|>`, with the tokens around it. -/
theorem not_roundTrips_oneNote :
    ¬ RoundTrips asciiTools (paddedTokenizer oneNote.render) [] oneNote := by
  rw [RoundTrips]
  decide +kernel

end Verl
