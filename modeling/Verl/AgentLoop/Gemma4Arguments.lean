import Verl.AgentLoop.Gemma4ToolParser

/-!
# Reading the arguments of a call back

The argument expression reads a string without newlines back as it was sent, and the
other kinds of values as well.  A string with a newline is never read back
(`parseArguments_eq_iff`).  Its first alternative cannot match, since its dot stops at
the newline.  The second alternative takes the tokens around the string into the value,
or stops at a comma or a brace of the string.
-/

namespace Verl

open Regex (Pattern Way)
open Json (Scalar)
open Py (Free)

/-! ## Characters -/

theorem toNat_lt_of_isNameChar {c : Char} (h : isNameChar c = true) : c.toNat < 128 := by
  change ((decide (c.val ≥ 'A'.val ∧ c.val ≤ 'Z'.val) ||
    decide (c.val ≥ 'a'.val) && decide (c.val ≤ 'z'.val)) ||
      decide (c.val ≥ '0'.val) && decide (c.val ≤ '9'.val) || c == '_') = true at h
  simp only [Bool.or_eq_true, Bool.and_eq_true, decide_eq_true_eq, beq_iff_eq, ge_iff_le,
    UInt32.le_iff_toNat_le] at h
  rcases h with ((⟨_, hle⟩ | ⟨_, hle⟩) | ⟨_, hle⟩) | rfl
  · exact Nat.lt_of_le_of_lt hle (by decide)
  · exact Nat.lt_of_le_of_lt hle (by decide)
  · exact Nat.lt_of_le_of_lt hle (by decide)
  · decide

theorem IsName.isWord {F : Type} {tools : TextTools F} {cs : List Char} (h : IsName cs) :
    ∀ c ∈ cs, tools.isWord c = true := by
  intro c hc
  have hname := h.2 c hc
  rw [tools.isWord_ascii c (toNat_lt_of_isNameChar hname), hname]

theorem IsName.not_mem {cs : List Char} {c : Char} (h : IsName cs) (hc : isNameChar c = false) :
    c ∉ cs :=
  fun hmem => absurd (h.2 c hmem) (Bool.eq_false_iff.mp hc)

/-- A character of ASCII that ends a word. -/
theorem TextTools.isWord_eq_false {F : Type} (tools : TextTools F) {c : Char}
    (hascii : c.toNat < 128) (hc : isNameChar c = false) : tools.isWord c = false := by
  rw [tools.isWord_ascii c hascii, hc]

/-! ## Values that are not strings -/

namespace Argument

/-- The characters of a value that is not a string. -/
theorem render_bare {v : Argument} (hv : ∀ s, v ≠ .str s) :
    v.render ≠ [] ∧ ∀ c ∈ v.render, c.toNat < 128 ∧ c ∉ [',', '}', '<', '\n'] := by
  cases v with
  | str s => exact absurd rfl (hv s)
  | bool b =>
      cases b with
      | true => exact ⟨List.cons_ne_nil _ _, Py.forall_mem_of_all (by decide)⟩
      | false => exact ⟨List.cons_ne_nil _ _, Py.forall_mem_of_all (by decide)⟩
  | null => exact ⟨List.cons_ne_nil _ _, Py.forall_mem_of_all (by decide)⟩
  | int n =>
      refine ⟨?_, fun c hc => ?_⟩
      · cases n with
        | ofNat n => exact Nat.toDigits_ne_nil
        | negSucc n => exact List.cons_ne_nil _ _
      · rcases Py.mem_intChars hc with rfl | hdigit
        · decide
        · have hname : isNameChar c = true := by
            rw [isNameChar, Char.isAlphanum, hdigit, Bool.or_true, Bool.true_or]
          refine ⟨toNat_lt_of_isNameChar hname, fun hmem => ?_⟩
          have hnone : ∀ d ∈ [',', '}', '<', '\n'], d.isDigit = false :=
            Py.forall_mem_of_all (by decide)
          exact absurd hdigit (Bool.eq_false_iff.mp (hnone c hmem))

end Argument

theorem strip_intChars (n : Int) : Py.strip (Py.intChars n) = Py.intChars n := by
  have hspace : ∀ c ∈ Py.intChars n, Py.isSpace c = false := by
    intro c hc
    rcases Py.mem_intChars hc with rfl | hdigit
    · decide
    · exact Py.isSpace_of_isDigit hdigit
  exact Py.strip_eq_self (fun c hc => hspace c (List.mem_of_mem_head? hc))
    fun c hc => hspace c (List.mem_of_getLast? hc)

theorem map_toLower_intChars (n : Int) : (Py.intChars n).map Char.toLower = Py.intChars n := by
  calc (Py.intChars n).map Char.toLower
      = (Py.intChars n).map id := by
        refine List.map_congr_left fun c hc => ?_
        rcases Py.mem_intChars hc with rfl | hdigit
        · rfl
        · exact Py.toLower_of_isDigit hdigit
    _ = Py.intChars n := List.map_id _

section

variable {F : Type} {tools : TextTools F}

theorem bareValue_render {v : Argument} (hv : ∀ s, v ≠ .str s) :
    bareValue tools v.render = v.toScalar := by
  cases v with
  | str s => exact absurd rfl (hv s)
  | bool b =>
      cases b with
      | true => rfl
      | false => rfl
  | null => rfl
  | int n =>
      have hascii : ∀ c ∈ Py.intChars n, c.toNat < 128 :=
        fun c hc => ((Argument.render_bare (v := .int n) nofun).2 c hc).1
      have hword := Json.intChars_not_word n
      simp only [List.mem_cons, List.not_mem_nil, or_false, not_or] at hword
      rw [Argument.render_int, bareValue, strip_intChars, map_toLower_intChars]
      simp only [if_neg hword.1, if_neg hword.2.1, if_neg hword.2.2, tools.int_ascii _ hascii,
        Py.parseInt_intChars]
      rfl

/-! ## One value -/

namespace Argument

/-- What the parser makes of a value as long as it reads it from its first to its last
character. -/
def readBack (tools : TextTools F) (v : Argument) : Scalar F :=
  match v with
  | .str s => if '\n' ∈ s then bareValue tools v.render else .str s
  | _ => bareValue tools v.render

/-- The groups after the key. -/
def captured (v : Argument) : List (Nat × List Char) :=
  match v with
  | .str s => if '\n' ∈ s then [(3, v.render)] else [(2, s)]
  | _ => [(3, v.render)]

/-- The parser does not stop inside the value. -/
def Whole (v : Argument) : Prop :=
  ∀ s, v = .str s → ¬ stringToken <:+: s ∧ ('\n' ∈ s → ',' ∉ s ∧ '}' ∉ s)

end Argument

/-- The text after a value begins with a comma, if there is any. -/
def AfterValue (cs : List Char) : Prop := ∀ c ∈ cs.head?, c = ','

theorem AfterValue.cons (cs : List Char) : AfterValue (',' :: cs) :=
  fun _ hc => (Option.some.inj hc).symm

theorem AfterValue.nil : AfterValue [] := nofun

theorem free_stringToken {s : List Char} (h : ¬ stringToken <:+: s) (cs : List Char) :
    Free stringToken s (stringToken ++ cs) := by
  refine Py.free_of_not_isInfix h fun c hc => ?_
  obtain rfl := Option.some.inj hc
  decide

theorem match?_stringRegex {s : List Char} (hmarker : ¬ stringToken <:+: s) (hline : '\n' ∉ s)
    (cs : List Char) :
    stringRegex.match? ((Argument.str s).render ++ cs) =
      some ⟨(Argument.str s).render, [(2, s)], cs⟩ := by
  have hdot : ∀ c ∈ s, (c != '\n') = true := by
    rintro c hc
    rw [bne_iff_ne]
    rintro rfl
    exact hline hc
  have hlazy := Regex.match?_lazyUntil 2 cs hdot (free_stringToken hmarker cs)
  have hopen := Pattern.match?_lit stringToken (s ++ (stringToken ++ cs))
  rw [Argument.render_str, List.append_assoc, List.append_assoc, stringRegex]
  exact Pattern.match?_seq hopen hlazy

/-- The dot of the first alternative does not match a newline. -/
theorem ways_stringRegex_of_newline {s : List Char} (hmarker : ¬ stringToken <:+: s)
    (hline : '\n' ∈ s) (cs : List Char) :
    stringRegex.ways ((Argument.str s).render ++ cs) = [] := by
  obtain ⟨before, after, rfl⟩ := List.append_of_mem hline
  have hfree := free_stringToken hmarker cs
  rw [List.append_cons, Py.free_append] at hfree
  have hlazy : (Regex.lazyUntil 2 (fun c => c != '\n') stringToken).ways
      (before ++ '\n' :: (after ++ (stringToken ++ cs))) = [] :=
    Regex.ways_lazyUntil_eq_nil 2 (by decide) hfree.1
  have hopen : (Pattern.lit stringToken).ways
      (stringToken ++ (before ++ '\n' :: (after ++ (stringToken ++ cs)))) =
        [⟨stringToken, [], before ++ '\n' :: (after ++ (stringToken ++ cs))⟩] := by
    rw [Pattern.lit_ways, if_pos (List.prefix_append _ _), List.drop_left]
  rw [Argument.render_str, List.append_assoc, List.append_assoc, List.append_assoc,
    List.cons_append, stringRegex, Pattern.seq_ways, hopen, List.flatMap_singleton, hlazy,
      List.map_nil]

theorem ways_stringRegex_of_bare {text : List Char} (hne : text ≠ []) (hstart : '<' ∉ text)
    (cs : List Char) : stringRegex.ways (text ++ cs) = [] := by
  refine Pattern.ways_seq (Pattern.ways_lit fun hprefix => ?_)
  obtain ⟨c, text, rfl⟩ := List.exists_cons_of_ne_nil hne
  obtain rfl := (List.cons_prefix_cons.mp hprefix).1
  exact hstart List.mem_cons_self

theorem match?_bareRegex {text cs : List Char} (htext : ',' ∉ text ∧ '}' ∉ text)
    (hcs : AfterValue cs) :
    bareRegex.match? (text ++ cs) = some ⟨text, [(3, text)], cs⟩ := by
  have hclass : ∀ c ∈ text, (c != ',' && c != '}') = true := by
    intro c hc
    rw [Bool.and_eq_true, bne_iff_ne, bne_iff_ne]
    refine ⟨?_, ?_⟩
    · rintro rfl
      exact htext.1 hc
    · rintro rfl
      exact htext.2 hc
  have hstop : (cs.takeWhile fun c => c != ',' && c != '}') = [] ∧
      (cs.dropWhile fun c => c != ',' && c != '}') = cs := by
    cases cs with
    | nil => exact ⟨rfl, rfl⟩
    | cons c cs =>
        obtain rfl := hcs c rfl
        exact ⟨rfl, rfl⟩
  have hrun := Pattern.match?_run (fun c => c != ',' && c != '}') (text ++ cs)
  rw [List.takeWhile_append_of_pos hclass, List.dropWhile_append_of_pos hclass, hstop.1, hstop.2,
    List.append_nil] at hrun
  exact Pattern.match?_group 3 hrun

/-- The value of an argument is matched from its first to its last character. -/
theorem match?_value {v : Argument} (hv : v.Whole) {cs : List Char} (hcs : AfterValue cs) :
    (Pattern.alt stringRegex bareRegex).match? (v.render ++ cs) =
      some ⟨v.render, v.captured, cs⟩ := by
  by_cases hstr : ∃ s, v = .str s
  · obtain ⟨s, rfl⟩ := hstr
    obtain ⟨hmarker, hdelim⟩ := hv s rfl
    by_cases hline : '\n' ∈ s
    · obtain ⟨hcomma, hbrace⟩ := hdelim hline
      have htext : ',' ∉ (Argument.str s).render ∧ '}' ∉ (Argument.str s).render := by
        simp only [Argument.render_str, List.mem_append, not_or]
        exact ⟨⟨by decide, hcomma, by decide⟩, by decide, hbrace, by decide⟩
      rw [Pattern.match?_alt_right _ (ways_stringRegex_of_newline hmarker hline cs),
        match?_bareRegex htext hcs, Argument.captured, if_pos hline]
    · rw [Pattern.match?_alt_left (match?_stringRegex hmarker hline cs), Argument.captured,
        if_neg hline]
  · push Not at hstr
    obtain ⟨hne, hchars⟩ := Argument.render_bare hstr
    have hnone : ∀ c ∈ [',', '}', '<', '\n'], c ∉ v.render :=
      fun c hc hmem => (hchars c hmem).2 hc
    have htext : ',' ∉ v.render ∧ '}' ∉ v.render :=
      ⟨hnone ',' (by decide), hnone '}' (by decide)⟩
    rw [Pattern.match?_alt_right _ (ways_stringRegex_of_bare hne (hnone '<' (by decide)) cs),
      match?_bareRegex htext hcs]
    cases v with
    | str s => exact absurd rfl (hstr s)
    | int n => rfl
    | bool b => rfl
    | null => rfl

/-- A bare value that is kept as a string is the matched text without outer spaces. -/
theorem eq_strip_of_bareValue {bareVal s : List Char} (h : bareValue tools bareVal = .str s) :
    s = Py.strip bareVal := by
  simp only [bareValue] at h
  split at h
  next => cases h
  next =>
    split at h
    next => cases h
    next =>
      split at h
      next => cases h
      next =>
        split at h
        next => cases h
        next =>
          split at h
          next => cases h
          next => exact (Scalar.str.inj h).symm

theorem strip_render (s : List Char) :
    Py.strip (Argument.str s).render = (Argument.str s).render := by
  refine Py.strip_eq_self (fun c hc => ?_) fun c hc => ?_
  · obtain rfl := Option.some.inj hc
    decide
  · have hlast : ((Argument.str s).render).getLast? = some '>' := by
      rw [Argument.render_str, List.getLast?_append, List.getLast?_append]
      rfl
    rw [hlast] at hc
    obtain rfl := Option.some.inj hc
    decide

theorem readBack_eq_iff {v : Argument} (hv : v.Whole) :
    v.readBack tools = v.toScalar ↔ ∀ s, v = .str s → '\n' ∉ s := by
  by_cases hstr : ∃ s, v = .str s
  · obtain ⟨s, rfl⟩ := hstr
    have hmarker := (hv s rfl).1
    refine ⟨?_, fun hline => if_neg (hline s rfl)⟩
    rintro heq s' hs' hline
    obtain rfl := Argument.str.inj hs'
    rw [Argument.readBack, if_pos hline] at heq
    have hs := eq_strip_of_bareValue heq
    have htokens : stringToken <:+: (Argument.str s).render :=
      (List.prefix_append stringToken (s ++ stringToken)).isInfix
    rw [strip_render] at hs
    rw [← hs] at htokens
    exact hmarker htokens
  · push Not at hstr
    refine iff_of_true ?_ fun s hs => absurd hs (hstr s)
    rw [← bareValue_render hstr]
    cases v with
    | str s => exact absurd rfl (hstr s)
    | int n => rfl
    | bool b => rfl
    | null => rfl

/-! ## All arguments -/

open SentCall (renderArgument)

theorem match?_argument {e : List Char × Argument} (hkey : IsName e.1) (hvalue : e.2.Whole)
    {cs : List Char} (hcs : AfterValue cs) :
    (argRegex tools.isWord).match? (renderArgument e ++ cs) =
      some ⟨renderArgument e, (1, e.1) :: e.2.captured, cs⟩ := by
  have hcolon : ∀ c ∈ (':' :: (e.2.render ++ cs)).head?, tools.isWord c = false := by
    intro c hc
    obtain rfl := Option.some.inj hc
    exact tools.isWord_eq_false (by decide) (by decide)
  have hword := Pattern.match?_group 1 (Regex.match?_plus hkey.1 hkey.isWord hcolon)
  have hcolon' := Pattern.match?_lit [':'] (e.2.render ++ cs)
  have htail := Pattern.match?_seq hcolon' (match?_value hvalue hcs)
  rw [renderArgument, List.append_assoc, List.cons_append, argRegex]
  exact Pattern.match?_seq hword htail

/-- A comma starts no argument. -/
theorem finditer_comma (cs : List Char) :
    Regex.finditer (argRegex tools.isWord) (',' :: cs) =
      Regex.finditer (argRegex tools.isWord) cs := by
  refine Regex.finditer_cons_of_none (Pattern.ways_seq ?_)
  rw [Pattern.group_ways, Regex.ways_plus_eq_nil, List.map_nil]
  intro c hc
  obtain rfl := Option.some.inj hc
  exact tools.isWord_eq_false (by decide) (by decide)

theorem renderArgument_ne_nil (e : List Char × Argument) : renderArgument e ≠ [] :=
  List.append_ne_nil_of_right_ne_nil _ (List.cons_ne_nil _ _)

/-- The arguments after the first one. -/
def renderTail (es : List (List Char × Argument)) : List Char :=
  es.flatMap fun e => ',' :: renderArgument e

theorem afterValue_renderTail (es : List (List Char × Argument)) :
    AfterValue (renderTail es) := by
  cases es with
  | nil => exact .nil
  | cons e es => exact .cons _

theorem setArgument_captured (result : Py.Dict (List Char) (Scalar F)) (e : List Char × Argument)
    (text rest : List Char) :
    setArgument tools result ⟨text, (1, e.1) :: e.2.captured, rest⟩ =
      result.set e.1 (e.2.readBack tools) := by
  obtain ⟨key, v⟩ := e
  cases v with
  | str s =>
      rw [Argument.captured, Argument.readBack]
      split
      next => rfl
      next => rfl
  | int n => rfl
  | bool b => rfl
  | null => rfl

/-- The first argument of a text that begins with one. -/
theorem foldl_finditer_argument {e : List Char × Argument} (hkey : IsName e.1)
    (hvalue : e.2.Whole) {cs : List Char} (hcs : AfterValue cs)
    (result : Py.Dict (List Char) (Scalar F)) :
    (Regex.finditer (argRegex tools.isWord) (renderArgument e ++ cs)).foldl
        (setArgument tools) result =
      (Regex.finditer (argRegex tools.isWord) cs).foldl (setArgument tools)
        (result.set e.1 (e.2.readBack tools)) := by
  rw [Regex.finditer_of_match (match?_argument hkey hvalue hcs) (renderArgument_ne_nil e),
    List.foldl_cons, setArgument_captured]

theorem foldl_finditer_tail {es : List (List Char × Argument)} (hkey : ∀ e ∈ es, IsName e.1)
    (hvalue : ∀ e ∈ es, e.2.Whole) (result : Py.Dict (List Char) (Scalar F)) :
    (Regex.finditer (argRegex tools.isWord) (renderTail es)).foldl (setArgument tools) result =
      result.update (es.map fun e => (e.1, e.2.readBack tools)) := by
  induction es generalizing result with
  | nil => rfl
  | cons e es ih =>
      rw [renderTail, List.flatMap_cons, List.cons_append, finditer_comma, ← renderTail,
        foldl_finditer_argument (hkey e List.mem_cons_self) (hvalue e List.mem_cons_self)
          (afterValue_renderTail es),
        ih (fun e he => hkey e (List.mem_cons_of_mem _ he))
          fun e he => hvalue e (List.mem_cons_of_mem _ he)]
      rfl

theorem renderArguments_cons {call : SentCall} {e : List Char × Argument}
    {es : List (List Char × Argument)} (hes : call.arguments.entries = e :: es) :
    call.renderArguments = renderArgument e ++ renderTail es := by
  rw [SentCall.renderArguments, hes, List.map_cons, Py.intercalate_cons, List.flatMap_map]
  rfl

/-- The parser goes through the arguments of a call one by one. -/
theorem entries_parseArguments {call : SentCall}
    (hvalue : ∀ e ∈ call.arguments.entries, e.2.Whole) :
    (parseArguments tools call.renderArguments).entries =
      call.arguments.entries.map fun e => (e.1, e.2.readBack tools) := by
  have hkey := call.isName_key
  have hnodup := call.arguments.nodup
  cases hes : call.arguments.entries with
  | nil =>
      rw [SentCall.renderArguments, hes]
      rfl
  | cons e es =>
      rw [hes] at hkey hvalue hnodup
      have hkeys : ((Py.Dict.empty : Py.Dict (List Char) (Scalar F)).keys ++
          ((e :: es).map fun e => (e.1, e.2.readBack tools)).map Prod.fst).Nodup := by
        rw [List.map_map]
        exact hnodup
      rw [parseArguments, renderArguments_cons hes,
        foldl_finditer_argument (hkey e List.mem_cons_self) (hvalue e List.mem_cons_self)
          (afterValue_renderTail es),
        foldl_finditer_tail (fun e he => hkey e (List.mem_cons_of_mem _ he))
          fun e he => hvalue e (List.mem_cons_of_mem _ he)]
      exact Py.Dict.entries_update_of_nodup Py.Dict.empty hkeys

/-! ## What can be read at all -/

/-- The groups of a match, wherever it begins. -/
theorem groups_argRegex {cs : List Char} {w : Way} (hw : w ∈ (argRegex tools.isWord).ways cs) :
    ∃ key, (∃ s, w.groups = [(1, key), (2, s)] ∧ '\n' ∉ s) ∨
      ∃ bareVal, w.groups = [(1, key), (3, bareVal)] ∧ ',' ∉ bareVal ∧ '}' ∉ bareVal := by
  obtain ⟨w₁, hw₁, w₂, hw₂, hgroups⟩ := Pattern.mem_ways_seq hw
  obtain ⟨key, hkey, _, hgroup⟩ := Pattern.mem_ways_group hw₁
  obtain ⟨colon, hcolon, value, hvalue, hgroups'⟩ := Pattern.mem_ways_seq hw₂
  rw [hgroup, Regex.groups_plus hkey, hgroups', Pattern.groups_lit hcolon] at hgroups
  refine ⟨key.text, ?_⟩
  rw [Pattern.alt_ways] at hvalue
  rcases List.mem_append.mp hvalue with hvalue | hvalue
  · obtain ⟨w₃, hw₃, w₄, hw₄, hstring⟩ := Pattern.mem_ways_seq hvalue
    obtain ⟨s, hs, hdot⟩ := Regex.groups_lazyUntil hw₄
    rw [hstring, hs, Pattern.groups_lit hw₃] at hgroups
    refine .inl ⟨s, hgroups, fun hline => ?_⟩
    exact absurd (hdot _ hline) (by decide)
  · obtain ⟨bare, hbare, _, hbareGroup⟩ := Pattern.mem_ways_group hvalue
    obtain ⟨hnone, hclass⟩ := Pattern.groups_run hbare
    rw [hbareGroup, hnone] at hgroups
    refine .inr ⟨bare.text, hgroups, fun hcomma => ?_, fun hbrace => ?_⟩
    · exact absurd (hclass _ hcomma) (by decide)
    · exact absurd (hclass _ hbrace) (by decide)

/-- A value that some match can have set. -/
def Readable (tools : TextTools F) (v : Scalar F) : Prop :=
  (∃ s, v = .str s ∧ '\n' ∉ s) ∨
    ∃ bareVal, v = bareValue tools bareVal ∧ ',' ∉ bareVal ∧ '}' ∉ bareVal

theorem readable_parseArguments {argsStr : List Char} :
    ∀ e ∈ (parseArguments tools argsStr).entries, Readable tools e.2 := by
  rw [parseArguments]
  refine List.foldlRecOn _ (motive := fun result : Py.Dict (List Char) (Scalar F) =>
    ∀ e ∈ result.entries, Readable tools e.2) _ (fun e he => absurd he List.not_mem_nil) ?_
  intro result hresult m hm e he
  obtain ⟨cs, hways⟩ := Regex.exists_of_mem_finditerFrom hm
  obtain ⟨key, hgroups⟩ := groups_argRegex hways
  have hset : ∃ v, Readable tools v ∧ setArgument tools result m = result.set key v := by
    obtain ⟨text, groups, rest⟩ := m
    rcases hgroups with ⟨s, rfl, hs⟩ | ⟨bareVal, rfl, hbare⟩
    · exact ⟨.str s, .inl ⟨s, rfl, hs⟩, rfl⟩
    · exact ⟨bareValue tools bareVal, .inr ⟨bareVal, rfl, hbare⟩, rfl⟩
  obtain ⟨v, hv, heq⟩ := hset
  rw [heq] at he
  rcases Py.Dict.mem_entries_set he with rfl | he
  · exact hv
  · exact hresult e he

/-- A string with a newline that is read at all has no comma and no brace. -/
theorem Readable.delimiters {s : List Char} (h : Readable tools (.str s)) (hline : '\n' ∈ s) :
    ',' ∉ s ∧ '}' ∉ s := by
  rcases h with ⟨s', hs', hline'⟩ | ⟨bareVal, hbare, hcomma, hbrace⟩
  · obtain rfl := Scalar.str.inj hs'
    exact absurd hline hline'
  · obtain rfl := eq_strip_of_bareValue hbare.symm
    exact ⟨fun h => hcomma (Py.mem_of_mem_strip h), fun h => hbrace (Py.mem_of_mem_strip h)⟩

/-- The arguments are read back exactly when no string has a newline. -/
theorem parseArguments_eq_iff (call : SentCall) :
    parseArguments tools call.renderArguments = call.arguments.mapValues Argument.toScalar ↔
      ∀ e ∈ call.arguments.entries, ∀ s, e.2 = .str s → '\n' ∉ s := by
  constructor
  · intro heq
    have hentries := congrArg Py.Dict.entries heq
    have hwhole : ∀ e ∈ call.arguments.entries, e.2.Whole := by
      intro e he s hs
      refine ⟨(call.markerFree e he s hs).2.2, fun hline => ?_⟩
      have hmem : (e.1, e.2.toScalar) ∈ (parseArguments tools call.renderArguments).entries := by
        rw [hentries]
        exact List.mem_map_of_mem (f := fun e => (e.1, Argument.toScalar e.2)) he
      have hread := readable_parseArguments _ hmem
      rw [hs] at hread
      exact hread.delimiters hline
    rw [entries_parseArguments hwhole] at hentries
    intro e he
    have hvalue := List.map_inj_left.mp hentries e he
    exact (readBack_eq_iff (hwhole e he)).mp (Prod.ext_iff.mp hvalue).2
  · intro hline
    have hwhole : ∀ e ∈ call.arguments.entries, e.2.Whole := by
      intro e he s hs
      exact ⟨(call.markerFree e he s hs).2.2, fun h => absurd h (hline e he s hs)⟩
    refine Py.Dict.eq_of_entries ?_
    rw [entries_parseArguments hwhole]
    refine List.map_congr_left fun e he => ?_
    exact Prod.ext rfl ((readBack_eq_iff (hwhole e he)).mpr (hline e he))

end

end Verl
