import Verl.Lib.Dict
import Verl.Lib.Strings

/-!
# JSON texts of flat dictionaries

`json.dumps(d, ensure_ascii=False)` for a dictionary from strings to strings,
integers, booleans, nulls and floats.  The text of a float is a parameter.  It has
no delimiter in it and is not the text of another kind of value.

A text that was written for a dictionary without floats was written for no other
dictionary (`dumps_inj`).  Strings are told apart character by character, because
no escape sequence begins another one or holds a bare quote, and the other values
end at the first comma or brace.
-/

namespace Json

inductive Scalar (F : Type) where
  | str (s : List Char)
  | int (n : Int)
  | bool (b : Bool)
  | null
  | float (x : F)
deriving DecidableEq

/-- How floats are written. -/
structure FloatText (F : Type) where
  text : F → List Char
  plain : ∀ x, ∀ c ∈ text x, c ≠ ',' ∧ c ≠ '}' ∧ c ≠ '"'
  notInt : ∀ x, ∃ c ∈ text x, c ≠ '-' ∧ c.isDigit = false
  notWord : ∀ x, text x ∉ ["true".toList, "false".toList, "null".toList]

def escape (c : Char) : List Char :=
  if c = '"' then ['\\', '"']
  else if c = '\\' then ['\\', '\\']
  else if c = '\n' then ['\\', 'n']
  else if c = '\r' then ['\\', 'r']
  else if c = '\t' then ['\\', 't']
  else if c = '\x0c' then ['\\', 'f']
  else if c = '\x08' then ['\\', 'b']
  else if c.toNat < 0x20 then
    ['\\', 'u', '0', '0', Nat.digitChar (c.toNat / 16), Nat.digitChar (c.toNat % 16)]
  else [c]

def quote (s : List Char) : List Char := '"' :: (s.flatMap escape ++ ['"'])

section

variable {F : Type} (floats : FloatText F)

def scalar : Scalar F → List Char
  | .str s => quote s
  | .int n => Py.intChars n
  | .bool true => "true".toList
  | .bool false => "false".toList
  | .null => "null".toList
  | .float x => floats.text x

def item (e : List Char × Scalar F) : List Char :=
  quote e.1 ++ (": ".toList ++ scalar floats e.2)

/-- `json.dumps(d, ensure_ascii=False)`. -/
def dumps (d : Py.Dict (List Char) (Scalar F)) : List Char :=
  '{' :: (List.intercalate ", ".toList (d.entries.map (item floats)) ++ ['}'])

end

/-! ## Strings -/

/-- The character that an escape sequence at the front stands for. -/
def unescape : List Char → Option (Char × List Char)
  | '"' :: _ => none
  | '\\' :: 'n' :: cs => some ('\n', cs)
  | '\\' :: 'r' :: cs => some ('\r', cs)
  | '\\' :: 't' :: cs => some ('\t', cs)
  | '\\' :: 'f' :: cs => some ('\x0c', cs)
  | '\\' :: 'b' :: cs => some ('\x08', cs)
  | '\\' :: 'u' :: _ :: _ :: high :: low :: cs =>
      let digits := "0123456789abcdef".toList
      some (Char.ofNat (16 * digits.idxOf high + digits.idxOf low), cs)
  | '\\' :: c :: cs => some (c, cs)
  | c :: cs => some (c, cs)
  | [] => none

theorem idxOf_digitChar : ∀ n < 16, "0123456789abcdef".toList.idxOf (Nat.digitChar n) = n := by
  decide

theorem unescape_escape (c : Char) (cs : List Char) :
    unescape (escape c ++ cs) = some (c, cs) := by
  rw [escape]
  split
  next h =>
    subst h
    rfl
  split
  next h =>
    subst h
    rfl
  split
  next h =>
    subst h
    rfl
  split
  next h =>
    subst h
    rfl
  split
  next h =>
    subst h
    rfl
  split
  next h =>
    subst h
    rfl
  split
  next h =>
    subst h
    rfl
  split
  next h =>
    have hhigh := idxOf_digitChar (c.toNat / 16) (by omega)
    have hlow := idxOf_digitChar (c.toNat % 16) (by omega)
    have hvalue : 16 * (c.toNat / 16) + c.toNat % 16 = c.toNat := by omega
    simp only [List.cons_append, List.nil_append, unescape]
    rw [hhigh, hlow, hvalue, Char.ofNat_toNat]
  next hquote hslash _ _ _ _ _ _ =>
    rw [List.singleton_append, unescape.eq_def]
    split <;> simp_all

theorem escape_append_inj {c c' : Char} {cs cs' : List Char}
    (h : escape c ++ cs = escape c' ++ cs') : c = c' ∧ cs = cs' := by
  have hunescape := congrArg unescape h
  rw [unescape_escape, unescape_escape] at hunescape
  exact Prod.ext_iff.mp (Option.some.inj hunescape)

theorem escape_append_ne_quote (c : Char) (cs cs' : List Char) :
    escape c ++ cs ≠ '"' :: cs' := by
  intro h
  have hunescape := congrArg unescape h
  rw [unescape_escape] at hunescape
  cases hunescape

theorem quote_append_inj {s s' cs cs' : List Char} (h : quote s ++ cs = quote s' ++ cs') :
    s = s' ∧ cs = cs' := by
  rw [quote, quote, List.cons_append, List.cons_append, List.cons.injEq, List.append_assoc,
    List.append_assoc] at h
  have hbody := h.2
  clear h
  induction s generalizing s' with
  | nil =>
      cases s' with
      | nil => exact ⟨rfl, (List.cons.inj hbody).2⟩
      | cons c' s' =>
          rw [List.flatMap_cons, List.append_assoc] at hbody
          exact absurd hbody.symm (escape_append_ne_quote c' _ _)
  | cons c s ih =>
      rw [List.flatMap_cons, List.append_assoc] at hbody
      cases s' with
      | nil => exact absurd hbody (escape_append_ne_quote c _ _)
      | cons c' s' =>
          rw [List.flatMap_cons, List.append_assoc] at hbody
          obtain ⟨rfl, htail⟩ := escape_append_inj hbody
          obtain ⟨rfl, rfl⟩ := ih htail
          exact ⟨rfl, rfl⟩

/-! ## Other values -/

/-- A character that ends a value which is not a string. -/
def Closes (c : Char) : Prop := c = ',' ∨ c = '}'

/-- Texts that end at the first closing character. -/
theorem append_inj_of_closes {xs ys cs ds : List Char} (hxs : ∀ c ∈ xs, ¬ Closes c)
    (hys : ∀ c ∈ ys, ¬ Closes c) (hcs : ∃ c ∈ cs.head?, Closes c)
    (hds : ∃ c ∈ ds.head?, Closes c) (h : xs ++ cs = ys ++ ds) : xs = ys ∧ cs = ds := by
  induction xs generalizing ys with
  | nil =>
      cases ys with
      | nil => exact ⟨rfl, h⟩
      | cons d ys =>
          obtain ⟨c, hc, hcloses⟩ := hcs
          rw [List.nil_append] at h
          rw [h] at hc
          obtain rfl := Option.some.inj hc
          exact absurd hcloses (hys d List.mem_cons_self)
  | cons c xs ih =>
      cases ys with
      | nil =>
          obtain ⟨d, hd, hcloses⟩ := hds
          rw [List.nil_append] at h
          rw [← h] at hd
          obtain rfl := Option.some.inj hd
          exact absurd hcloses (hxs c List.mem_cons_self)
      | cons d ys =>
          obtain ⟨rfl, htail⟩ := List.cons.inj h
          obtain ⟨rfl, rfl⟩ := ih (fun e he => hxs e (List.mem_cons_of_mem c he))
            (fun e he => hys e (List.mem_cons_of_mem c he)) htail
          exact ⟨rfl, rfl⟩

theorem intChars_plain {n : Int} : ∀ c ∈ Py.intChars n, c ≠ ',' ∧ c ≠ '}' ∧ c ≠ '"' := by
  intro c hc
  rcases Py.mem_intChars hc with rfl | hdigit
  · decide
  · refine ⟨?_, ?_, ?_⟩ <;>
    · rintro rfl
      exact absurd hdigit (by decide)

theorem intChars_not_word (n : Int) :
    Py.intChars n ∉ ["true".toList, "false".toList, "null".toList] := by
  intro hmem
  have hletter : ∃ c ∈ Py.intChars n, c ≠ '-' ∧ c.isDigit = false := by
    generalize Py.intChars n = word at hmem
    simp only [List.mem_cons, List.not_mem_nil, or_false] at hmem
    rcases hmem with rfl | rfl | rfl
    · exact ⟨'t', by decide, by decide, by decide⟩
    · exact ⟨'f', by decide, by decide, by decide⟩
    · exact ⟨'n', by decide, by decide, by decide⟩
  obtain ⟨c, hc, hminus, hdigit⟩ := hletter
  rcases Py.mem_intChars hc with rfl | h
  · exact hminus rfl
  · exact absurd h (Bool.eq_false_iff.mp hdigit)

section

variable {F : Type} {floats : FloatText F}

theorem scalar_plain {v : Scalar F} (hv : ∀ s, v ≠ .str s) :
    ∀ c ∈ scalar floats v, c ≠ ',' ∧ c ≠ '}' ∧ c ≠ '"' := by
  cases v with
  | str s => exact absurd rfl (hv s)
  | int n => exact intChars_plain
  | bool b =>
      cases b with
      | true => exact @Py.forall_mem_of_all _ _ "true".toList (by decide)
      | false => exact @Py.forall_mem_of_all _ _ "false".toList (by decide)
  | null => exact @Py.forall_mem_of_all _ _ "null".toList (by decide)
  | float x => exact floats.plain x

/-- The integer, boolean or null that a text was written for. -/
def readBare (cs : List Char) : Option (Scalar F) :=
  if cs = "true".toList then some (.bool true)
  else if cs = "false".toList then some (.bool false)
  else if cs = "null".toList then some .null
  else (Py.parseInt cs).map .int

theorem readBare_scalar {v : Scalar F} (hstr : ∀ s, v ≠ .str s) (hfloat : ∀ x, v ≠ .float x) :
    readBare (scalar floats v) = some v := by
  cases v with
  | str s => exact absurd rfl (hstr s)
  | float x => exact absurd rfl (hfloat x)
  | int n =>
      have hword := intChars_not_word n
      simp only [List.mem_cons, List.not_mem_nil, or_false, not_or] at hword
      rw [scalar, readBare, if_neg hword.1, if_neg hword.2.1, if_neg hword.2.2,
        Py.parseInt_intChars]
      rfl
  | bool b =>
      cases b with
      | true => rfl
      | false => rfl
  | null => rfl

/-- The text of an integer, a boolean or null is not the text of a float. -/
theorem text_ne_scalar {v : Scalar F} (hstr : ∀ s, v ≠ .str s) (hfloat : ∀ x, v ≠ .float x)
    (x : F) : floats.text x ≠ scalar floats v := by
  intro h
  have hword := floats.notWord x
  rw [h] at hword
  cases v with
  | str s => exact hstr s rfl
  | float y => exact hfloat y rfl
  | int n =>
      obtain ⟨c, hc, hminus, hdigit⟩ := floats.notInt x
      rw [h] at hc
      rcases Py.mem_intChars hc with rfl | hc
      · exact hminus rfl
      · exact absurd hc (Bool.eq_false_iff.mp hdigit)
  | bool b =>
      cases b with
      | true => exact hword List.mem_cons_self
      | false => exact hword (List.mem_cons_of_mem _ List.mem_cons_self)
  | null => exact hword (List.mem_cons_of_mem _ (List.mem_cons_of_mem _ List.mem_cons_self))

theorem scalar_inj {v v' : Scalar F} (hstr : ∀ s, v ≠ .str s) (hstr' : ∀ s, v' ≠ .str s)
    (hfloat : ∀ x, v ≠ .float x) (h : scalar floats v' = scalar floats v) : v' = v := by
  have hfloat' : ∀ x, v' ≠ .float x := by
    rintro x rfl
    exact text_ne_scalar hstr hfloat x h
  have hread := @readBare_scalar F floats _ hstr' hfloat'
  rw [h, readBare_scalar hstr hfloat] at hread
  exact (Option.some.inj hread).symm

theorem quote_ne_scalar_append {v : Scalar F} (hv : ∀ s, v ≠ .str s) {cs : List Char}
    (hcs : ∃ c ∈ cs.head?, Closes c) (s cs' : List Char) :
    quote s ++ cs' ≠ scalar floats v ++ cs := by
  intro h
  have hplain := @scalar_plain F floats _ hv
  cases htext : scalar floats v with
  | nil =>
      obtain ⟨c, hc, hcloses⟩ := hcs
      rw [htext, List.nil_append] at h
      rw [← h] at hc
      obtain rfl := Option.some.inj hc
      exact absurd hcloses (by simp [Closes])
  | cons c text =>
      rw [htext] at h hplain
      exact (hplain c List.mem_cons_self).2.2 (List.cons.inj h).1.symm

/-- A value without floats, read up to the character that closes it. -/
theorem scalar_append_inj {v v' : Scalar F} {cs cs' : List Char} (hfloat : ∀ x, v ≠ .float x)
    (hcs : ∃ c ∈ cs.head?, Closes c) (hcs' : ∃ c ∈ cs'.head?, Closes c)
    (h : scalar floats v' ++ cs' = scalar floats v ++ cs) : v' = v ∧ cs' = cs := by
  by_cases hstr : ∃ s, v = .str s
  · obtain ⟨s, rfl⟩ := hstr
    by_cases hstr' : ∃ s', v' = .str s'
    · obtain ⟨s', rfl⟩ := hstr'
      obtain ⟨rfl, rfl⟩ := quote_append_inj h
      exact ⟨rfl, rfl⟩
    · push Not at hstr'
      exact absurd h.symm (quote_ne_scalar_append hstr' hcs' s cs)
  · push Not at hstr
    by_cases hstr' : ∃ s', v' = .str s'
    · obtain ⟨s', rfl⟩ := hstr'
      exact absurd h (quote_ne_scalar_append hstr hcs s' cs')
    · push Not at hstr'
      have hopen : ∀ w : Scalar F, (∀ s, w ≠ .str s) →
          ∀ c ∈ scalar floats w, ¬ Closes c := by
        intro w hw c hc hcloses
        obtain ⟨hcomma, hbrace, _⟩ := scalar_plain hw c hc
        rcases hcloses with rfl | rfl
        · exact hcomma rfl
        · exact hbrace rfl
      obtain ⟨htext, rfl⟩ := append_inj_of_closes (hopen v' hstr') (hopen v hstr) hcs' hcs h
      exact ⟨scalar_inj hstr hstr' hfloat htext, rfl⟩

/-! ## Dictionaries -/

theorem item_append_inj {e e' : List Char × Scalar F} {cs cs' : List Char}
    (hfloat : ∀ x, e.2 ≠ .float x) (hcs : ∃ c ∈ cs.head?, Closes c)
    (hcs' : ∃ c ∈ cs'.head?, Closes c) (h : item floats e' ++ cs' = item floats e ++ cs) :
    e' = e ∧ cs' = cs := by
  rw [item, item, List.append_assoc, List.append_assoc, List.append_assoc,
    List.append_assoc] at h
  obtain ⟨hkey, htail⟩ := quote_append_inj h
  obtain ⟨hvalue, rfl⟩ := scalar_append_inj hfloat hcs hcs' (List.append_cancel_left htail)
  exact ⟨Prod.ext hkey hvalue, rfl⟩

theorem item_append_ne_brace (e : List Char × Scalar F) (cs cs' : List Char) :
    item floats e ++ cs ≠ '}' :: cs' := by
  intro h
  exact absurd (List.cons.inj h).1 (by decide)

theorem exists_closes (es : List (List Char × Scalar F)) :
    ∃ c ∈ ((es.flatMap fun e => ", ".toList ++ item floats e) ++ ['}']).head?, Closes c := by
  cases es with
  | nil => exact ⟨'}', rfl, .inr rfl⟩
  | cons e es => exact ⟨',', rfl, .inl rfl⟩

/-- The entries after the first one. -/
theorem tail_inj {es es' : List (List Char × Scalar F)} (hfloat : ∀ e ∈ es, ∀ x, e.2 ≠ .float x)
    (h : (es'.flatMap fun e => ", ".toList ++ item floats e) ++ ['}'] =
      (es.flatMap fun e => ", ".toList ++ item floats e) ++ ['}']) : es' = es := by
  induction es generalizing es' with
  | nil =>
      cases es' with
      | nil => rfl
      | cons e' es' =>
          rw [List.flatMap_cons, List.append_assoc, List.append_assoc] at h
          exact absurd (List.cons.inj h).1 (by decide)
  | cons e es ih =>
      cases es' with
      | nil =>
          rw [List.flatMap_cons, List.append_assoc, List.append_assoc] at h
          exact absurd (List.cons.inj h).1 (by decide)
      | cons e' es' =>
          rw [List.flatMap_cons, List.flatMap_cons, List.append_assoc, List.append_assoc,
            List.append_assoc, List.append_assoc] at h
          obtain ⟨rfl, htail⟩ := item_append_inj (hfloat e List.mem_cons_self)
            (exists_closes es) (exists_closes es') (List.append_cancel_left h)
          rw [ih (fun e he => hfloat e (List.mem_cons_of_mem _ he)) htail]

/-- The text of a dictionary without floats is the text of no other dictionary. -/
theorem dumps_inj {d d' : Py.Dict (List Char) (Scalar F)}
    (hfloat : ∀ e ∈ d.entries, ∀ x, e.2 ≠ .float x) (h : dumps floats d' = dumps floats d) :
    d' = d := by
  have hbody := (List.cons.inj h).2
  refine Py.Dict.eq_of_entries ?_
  generalize hes : d.entries = es at *
  generalize d'.entries = es' at *
  cases es with
  | nil =>
      cases es' with
      | nil => rfl
      | cons e' es' =>
          rw [List.map_cons, Py.intercalate_cons, List.append_assoc] at hbody
          exact absurd hbody (item_append_ne_brace e' _ _)
  | cons e es =>
      cases es' with
      | nil =>
          rw [List.map_cons, Py.intercalate_cons, List.append_assoc] at hbody
          exact absurd hbody.symm (item_append_ne_brace e _ _)
      | cons e' es' =>
          rw [List.map_cons, List.map_cons, Py.intercalate_cons, Py.intercalate_cons,
            List.append_assoc, List.append_assoc, List.flatMap_map, List.flatMap_map] at hbody
          obtain ⟨rfl, htail⟩ := item_append_inj (hfloat e List.mem_cons_self)
            (exists_closes es) (exists_closes es') hbody
          rw [tail_inj (fun e he => hfloat e (List.mem_cons_of_mem _ he)) htail]

end

end Json
