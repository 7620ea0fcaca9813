import Verl.Lib.Python

/-!
# Python strings

`str.rsplit` with a limit, `str.strip`, `int` of a string, lists in a string with commas,
`str.find` and `str.replace` by nothing.  A number that was written with `str` is read back by
`int`, and the parts that were joined by a separator come back from `rsplit` when
only the first of them can contain it.

A text is `Free` of a marker before some rest when no occurrence of the marker
starts in it.  A marker whose first character does not come again in it cannot
begin in one text and end in the next, so a text that does not contain the marker
is free of it before every other one.
-/

namespace Py

/-! ## Splitting from the right -/

/-- What stands before and after the last separator. -/
def splitLast (sep : Char) : List Char → Option (List Char × List Char)
  | [] => none
  | c :: cs =>
      match splitLast sep cs with
      | some (before, after) => some (c :: before, after)
      | none => if c = sep then some ([], cs) else none

def rsplitChars (sep : Char) : Nat → List Char → List (List Char)
  | 0, cs => [cs]
  | maxsplit + 1, cs =>
      match splitLast sep cs with
      | some (before, after) => rsplitChars sep maxsplit before ++ [after]
      | none => [cs]

/-- `s.rsplit(sep, maxsplit)`. -/
def rsplit (sep : Char) (maxsplit : Nat) (s : String) : List String :=
  (rsplitChars sep maxsplit s.toList).map String.ofList

theorem splitLast_of_not_mem {sep : Char} {cs : List Char} (h : sep ∉ cs) :
    splitLast sep cs = none := by
  induction cs with
  | nil => rfl
  | cons c cs ih =>
      rw [List.mem_cons, not_or] at h
      rw [splitLast, ih h.2]
      exact if_neg (Ne.symm h.1)

theorem splitLast_append {sep : Char} {after : List Char} (h : sep ∉ after)
    (before : List Char) : splitLast sep (before ++ sep :: after) = some (before, after) := by
  induction before with
  | nil =>
      rw [List.nil_append, splitLast, splitLast_of_not_mem h]
      exact if_pos rfl
  | cons c before ih => rw [List.cons_append, splitLast, ih]

theorem rsplitChars_append {sep : Char} {after : List Char} (h : sep ∉ after) (maxsplit : Nat)
    (before : List Char) :
    rsplitChars sep (maxsplit + 1) (before ++ sep :: after) =
      rsplitChars sep maxsplit before ++ [after] := by
  rw [rsplitChars, splitLast_append h]

/-- A test of every character.  `decide` on the quantifier itself would go through all
the characters there are. -/
theorem forall_mem_of_all {p : Char → Prop} [DecidablePred p] {cs : List Char}
    (h : (cs.all fun c => decide (p c)) = true) : ∀ c ∈ cs, p c :=
  fun c hc => of_decide_eq_true (List.all_eq_true.mp h c hc)

/-! ## Joining -/

/-- The parts after the first come with a separator each. -/
theorem intercalate_cons (sep part : List Char) (parts : List (List Char)) :
    List.intercalate sep (part :: parts) = part ++ parts.flatMap fun p => sep ++ p := by
  induction parts generalizing part with
  | nil =>
      rw [List.intercalate_singleton, List.flatMap_nil, List.append_nil]
  | cons p parts ih =>
      rw [List.intercalate_cons_cons, ih p, List.flatMap_cons, List.append_assoc,
        List.append_assoc]

/-! ## Numbers -/

/-- `c.isspace()`. -/
def isSpace (c : Char) : Bool :=
  (9 ≤ c.toNat && c.toNat ≤ 13) || (28 ≤ c.toNat && c.toNat ≤ 32) || c.toNat = 0x85 ||
    c.toNat = 0xa0 || c.toNat = 0x1680 || (0x2000 ≤ c.toNat && c.toNat ≤ 0x200a) ||
    c.toNat = 0x2028 || c.toNat = 0x2029 || c.toNat = 0x202f || c.toNat = 0x205f ||
    c.toNat = 0x3000

/-- `s.strip()`. -/
def strip (cs : List Char) : List Char :=
  ((cs.dropWhile isSpace).reverse.dropWhile isSpace).reverse

/-- The digits of an integer literal.  Between two digits there may be an underscore. -/
def literalDigits : List Char → Option (List Char)
  | [] => none
  | [c] => if c.isDigit then some [c] else none
  | c :: c' :: cs =>
      if c.isDigit then
        if c' = '_' then (literalDigits cs).map (c :: ·)
        else (literalDigits (c' :: cs)).map (c :: ·)
      else none

/-- The value of an integer literal in ASCII digits. -/
def parseInt (cs : List Char) : Option Int :=
  match strip cs with
  | '-' :: rest => (literalDigits rest).map fun digits => -(Nat.ofDigitChars 10 digits 0 : Int)
  | '+' :: rest => (literalDigits rest).map fun digits => (Nat.ofDigitChars 10 digits 0 : Int)
  | rest => (literalDigits rest).map fun digits => (Nat.ofDigitChars 10 digits 0 : Int)

/-- `int(s)`. -/
def int (s : String) : Except Error Int :=
  match parseInt s.toList with
  | some value => .ok value
  | none => .error (.value s!"invalid literal for int() with base 10: {reprStr s}")

theorem dropWhile_of_head {cs : List Char} (h : ∀ c ∈ cs.head?, isSpace c = false) :
    cs.dropWhile isSpace = cs := by
  cases cs with
  | nil => rfl
  | cons c cs => exact List.dropWhile_cons_of_neg (Bool.eq_false_iff.mp (h c rfl))

/-- Text that neither begins nor ends with white space. -/
theorem strip_eq_self {cs : List Char} (hhead : ∀ c ∈ cs.head?, isSpace c = false)
    (hlast : ∀ c ∈ cs.getLast?, isSpace c = false) : strip cs = cs := by
  rw [strip, dropWhile_of_head hhead, dropWhile_of_head, List.reverse_reverse]
  rwa [List.head?_reverse]

theorem mem_of_mem_strip {c : Char} {cs : List Char} (h : c ∈ strip cs) : c ∈ cs := by
  have hreverse := (List.dropWhile_sublist isSpace).mem (List.mem_reverse.mp h)
  exact (List.dropWhile_sublist isSpace).mem (List.mem_reverse.mp hreverse)

theorem toNat_of_isDigit {c : Char} (h : c.isDigit = true) : 48 ≤ c.toNat ∧ c.toNat ≤ 57 := by
  rw [Char.isDigit, Bool.and_eq_true, decide_eq_true_eq, decide_eq_true_eq, ge_iff_le,
    UInt32.le_iff_toNat_le, UInt32.le_iff_toNat_le] at h
  exact h

theorem isSpace_of_isDigit {c : Char} (h : c.isDigit = true) : isSpace c = false := by
  obtain ⟨hlow, hhigh⟩ := toNat_of_isDigit h
  simp only [isSpace, Bool.or_eq_false_iff, Bool.and_eq_false_iff, decide_eq_false_iff_not]
  omega

theorem toLower_of_isDigit {c : Char} (h : c.isDigit = true) : c.toLower = c := by
  refine dif_neg fun hupper => ?_
  have hle : 65 ≤ c.toNat := UInt32.le_iff_toNat_le.mp hupper.1
  have hdigit := (toNat_of_isDigit h).2
  omega

theorem literalDigits_of_isDigit {cs : List Char} (hne : cs ≠ [])
    (h : ∀ c ∈ cs, c.isDigit = true) : literalDigits cs = some cs := by
  induction cs with
  | nil => exact absurd rfl hne
  | cons c cs ih =>
      have hc := h c List.mem_cons_self
      cases cs with
      | nil => exact if_pos hc
      | cons c' cs =>
          have hc' := h c' (List.mem_cons_of_mem c List.mem_cons_self)
          have hunderscore : c' ≠ '_' := by
            rintro rfl
            cases hc'
          rw [literalDigits, if_pos hc, if_neg hunderscore,
            ih (List.cons_ne_nil _ _) fun d hd => h d (List.mem_cons_of_mem c hd)]
          rfl

theorem isDigit_of_mem_toDigits {n : Nat} : ∀ c ∈ Nat.toDigits 10 n, c.isDigit = true :=
  fun _ hc => Nat.isDigit_of_mem_toDigits (by decide) (by decide) hc

theorem strip_toDigits (n : Nat) : strip (Nat.toDigits 10 n) = Nat.toDigits 10 n :=
  strip_eq_self
    (fun _ hc => isSpace_of_isDigit (isDigit_of_mem_toDigits _ (List.mem_of_mem_head? hc)))
    fun _ hc => isSpace_of_isDigit (isDigit_of_mem_toDigits _ (List.mem_of_getLast? hc))

/-- `int(str(n))` for a number that is not negative. -/
theorem parseInt_toDigits (n : Nat) : parseInt (Nat.toDigits 10 n) = some (n : Int) := by
  have hdigits := literalDigits_of_isDigit Nat.toDigits_ne_nil (isDigit_of_mem_toDigits (n := n))
  have hvalue : Nat.ofDigitChars 10 (Nat.toDigits 10 n) 0 = n := Nat.ofDigitChars_ten_toDigits
  rw [parseInt, strip_toDigits]
  split
  next rest hrest =>
    have hminus := isDigit_of_mem_toDigits '-' (hrest ▸ List.mem_cons_self)
    cases hminus
  next rest hrest =>
    have hplus := isDigit_of_mem_toDigits '+' (hrest ▸ List.mem_cons_self)
    cases hplus
  next => rw [hdigits, Option.map_some, hvalue]

/-- `str(n)`. -/
def intChars : Int → List Char
  | .ofNat n => Nat.toDigits 10 n
  | .negSucc n => '-' :: Nat.toDigits 10 (n + 1)

theorem parseInt_intChars (n : Int) : parseInt (intChars n) = some n := by
  cases n with
  | ofNat n => exact parseInt_toDigits n
  | negSucc n =>
      have hdigits := literalDigits_of_isDigit Nat.toDigits_ne_nil
        (isDigit_of_mem_toDigits (n := n + 1))
      have hvalue : Nat.ofDigitChars 10 (Nat.toDigits 10 (n + 1)) 0 = n + 1 :=
        Nat.ofDigitChars_ten_toDigits
      have hstrip : strip ('-' :: Nat.toDigits 10 (n + 1)) = '-' :: Nat.toDigits 10 (n + 1) := by
        refine strip_eq_self (fun c hc => ?_) fun c hc => ?_
        · obtain rfl := Option.some.inj hc
          decide
        · rw [List.getLast?_cons_of_ne_nil Nat.toDigits_ne_nil] at hc
          exact isSpace_of_isDigit (isDigit_of_mem_toDigits _ (List.mem_of_getLast? hc))
      rw [intChars, parseInt, hstrip]
      simp only [hdigits, hvalue, Option.map_some]
      rw [Int.negSucc_eq, Int.natCast_succ]

theorem mem_intChars {n : Int} {c : Char} (hc : c ∈ intChars n) :
    c = '-' ∨ c.isDigit = true := by
  cases n with
  | ofNat n => exact .inr (isDigit_of_mem_toDigits c hc)
  | negSucc n =>
      rcases List.mem_cons.mp hc with rfl | hc
      · exact .inl rfl
      · exact .inr (isDigit_of_mem_toDigits c hc)

theorem int_toString (n : Nat) : int (toString n) = .ok (n : Int) := by
  rw [int, Nat.toString_eq_repr, Nat.toList_repr, parseInt_toDigits]

/-! ## Lists separated by commas -/

/-- `s.split(sep, 1)`, if the separator occurs. -/
def splitFirst (sep : Char) : List Char → Option (List Char × List Char)
  | [] => none
  | c :: cs =>
      if c = sep then some ([], cs)
      else (splitFirst sep cs).map fun parts => (c :: parts.1, parts.2)

/-- `[part.strip() for part in s.split(",") if part.strip()]`. -/
def commaParts (cs : List Char) : List (List Char) :=
  ((cs.splitOn ',').map strip).filter (· ≠ [])

theorem not_mem_of_mem_splitOn {sep : Char} {cs part : List Char} (h : part ∈ cs.splitOn sep) :
    sep ∉ part := by
  induction cs generalizing part with
  | nil =>
      rw [List.splitOn_nil, List.mem_singleton] at h
      rw [h]
      exact List.not_mem_nil
  | cons c cs ih =>
      rw [List.splitOn_eq_splitOnP] at h ih
      rw [List.splitOnP_cons_eq_if_modifyHead] at h
      split at h
      next =>
        rcases List.mem_cons.mp h with rfl | h
        · exact List.not_mem_nil
        · exact ih h
      next hc =>
        obtain ⟨first, rest, hparts⟩ :=
          List.exists_cons_of_ne_nil (List.splitOnP_ne_nil (· == sep) cs)
        rw [hparts] at h ih
        rw [List.modifyHead_cons] at h
        rcases List.mem_cons.mp h with rfl | h
        · rw [List.mem_cons, not_or]
          exact ⟨fun heq => hc (beq_iff_eq.mpr heq.symm), ih List.mem_cons_self⟩
        · exact ih (List.mem_cons_of_mem first h)

theorem head?_dropWhile_isSpace (cs : List Char) :
    ∀ c ∈ (cs.dropWhile isSpace).head?, isSpace c = false := by
  intro c hc
  have hnot := List.head?_dropWhile_not isSpace cs
  rw [Option.mem_def.mp hc] at hnot
  exact hnot

theorem strip_strip (cs : List Char) : strip (strip cs) = strip cs := by
  refine strip_eq_self ?_ ?_
  · -- what is left is a prefix of the text without its leading white space
    obtain ⟨trailing, htrailing⟩ :=
      @List.dropWhile_suffix _ (cs.dropWhile isSpace).reverse isSpace
    have hprefix : strip cs ++ trailing.reverse = cs.dropWhile isSpace := by
      rw [strip, ← List.reverse_append, htrailing, List.reverse_reverse]
    intro c hc
    refine head?_dropWhile_isSpace cs c ?_
    rw [← hprefix, List.head?_append, Option.mem_def.mp hc]
    rfl
  · rw [strip, List.getLast?_reverse]
    exact head?_dropWhile_isSpace _

theorem commaParts_append (cs cs' : List Char) :
    commaParts (cs ++ ',' :: cs') = commaParts cs ++ commaParts cs' := by
  have hsplit : (cs ++ ',' :: cs').splitOn ',' = cs.splitOn ',' ++ cs'.splitOn ',' :=
    List.splitOnP_append_cons cs cs' (beq_self_eq_true ',')
  rw [commaParts, hsplit, List.map_append, List.filter_append]
  rfl

/-- A part alone is a list with that part. -/
theorem commaParts_of_mem {cs part : List Char} (h : part ∈ commaParts cs) :
    commaParts part = [part] := by
  obtain ⟨hmem, hne⟩ := List.mem_filter.mp h
  obtain ⟨piece, hpiece, rfl⟩ := List.mem_map.mp hmem
  have hcomma : ',' ∉ strip piece := fun hc => not_mem_of_mem_splitOn hpiece (mem_of_mem_strip hc)
  have hsplit : (strip piece).splitOn ',' = [strip piece] := by
    rw [List.splitOn_eq_splitOnP]
    exact List.splitOnP_eq_singleton fun c hc => beq_false_of_ne fun heq => hcomma (heq ▸ hc)
  rw [commaParts, hsplit, List.map_singleton, strip_strip, List.filter_singleton, hne]
  rfl

/-- Parts that are joined by commas. -/
theorem commaParts_intercalate {parts : List (List Char)}
    (h : ∀ part ∈ parts, commaParts part = [part]) :
    commaParts ([','].intercalate parts) = parts := by
  induction parts with
  | nil => rfl
  | cons part parts ih =>
      have hpart := h part List.mem_cons_self
      have hparts := ih fun part hpart => h part (List.mem_cons_of_mem _ hpart)
      cases parts with
      | nil => exact (congrArg commaParts (List.append_nil part)).trans hpart
      | cons part' parts =>
          rw [List.intercalate_cons_cons, List.append_assoc, List.singleton_append,
            commaParts_append, hpart, hparts, List.singleton_append]

/-! ## Occurrences -/

/-- No occurrence of the marker starts in the text when `rest` comes after it. -/
def Free (marker : List Char) : List Char → List Char → Prop
  | [], _ => True
  | c :: cs, rest => ¬ marker <+: c :: cs ++ rest ∧ Free marker cs rest

theorem free_append {marker xs ys rest : List Char} :
    Free marker (xs ++ ys) rest ↔ Free marker xs (ys ++ rest) ∧ Free marker ys rest := by
  induction xs with
  | nil => exact (and_iff_right trivial).symm
  | cons c xs ih =>
      rw [List.cons_append, Free, Free, ih, List.cons_append, List.append_assoc, and_assoc]
      rfl

/-- The first character of the marker is not in the text. -/
theorem free_of_not_mem {first : Char} {marker xs : List Char} (h : first ∉ xs)
    (rest : List Char) : Free (first :: marker) xs rest := by
  induction xs with
  | nil => trivial
  | cons c xs ih =>
      rw [List.mem_cons, not_or] at h
      refine ⟨fun hprefix => ?_, ih h.2⟩
      exact h.1 (List.cons_prefix_cons.mp hprefix).1

/-- The marker is not in the text, and what follows cannot be an inner part of it. -/
theorem free_of_not_isInfix {marker xs rest : List Char} (h : ¬ marker <:+: xs)
    (hrest : ∀ c ∈ rest.head?, c ∉ marker.tail) : Free marker xs rest := by
  induction xs with
  | nil => trivial
  | cons c xs ih =>
      refine ⟨fun hprefix => ?_, ih fun hinfix => h (List.IsInfix.trans hinfix
        (List.suffix_cons c xs).isInfix)⟩
      rcases List.prefix_or_prefix_of_prefix hprefix (List.prefix_append (c :: xs) rest) with
        hle | ⟨more, hmarker⟩
      · exact h hle.isInfix
      · cases more with
        | nil =>
            rw [List.append_nil] at hmarker
            exact h (hmarker ▸ List.infix_rfl)
        | cons d more =>
            rw [← hmarker, List.prefix_append_right_inj] at hprefix
            cases rest with
            | nil => exact absurd (List.prefix_nil.mp hprefix) (List.cons_ne_nil d more)
            | cons e rest =>
                obtain rfl := (List.cons_prefix_cons.mp hprefix).1
                refine hrest d rfl ?_
                rw [← hmarker, List.cons_append, List.tail_cons]
                exact List.mem_append_right xs List.mem_cons_self

/-- A marker with one more character in front of it. -/
theorem free_cons {c : Char} {marker xs rest : List Char} (h : Free marker xs rest)
    (hrest : ¬ marker <+: rest) : Free (c :: marker) xs rest := by
  induction xs with
  | nil => trivial
  | cons d xs ih =>
      refine ⟨fun hprefix => ?_, ih h.2⟩
      have htail := (List.cons_prefix_cons.mp hprefix).2
      cases xs with
      | nil => exact hrest htail
      | cons e xs => exact h.2.1 htail

/-- `s.find(marker)`, where `none` stands for `-1`. -/
def find (marker : List Char) : List Char → Option Nat
  | [] => if marker = [] then some 0 else none
  | c :: cs => if marker <+: c :: cs then some 0 else (find marker cs).map (· + 1)

theorem find_of_free {marker xs rest : List Char} (h : Free marker xs (marker ++ rest)) :
    find marker (xs ++ (marker ++ rest)) = some xs.length := by
  induction xs with
  | nil =>
      cases hcs : marker ++ rest with
      | nil => exact if_pos (List.append_eq_nil_iff.mp hcs).1
      | cons c cs => exact if_pos (hcs ▸ List.prefix_append marker rest)
  | cons c xs ih =>
      rw [List.cons_append, find, ih h.2]
      exact if_neg h.1

theorem find_eq_none_iff {marker cs : List Char} : find marker cs = none ↔ ¬ marker <:+: cs := by
  induction cs with
  | nil =>
      rw [find, List.infix_nil]
      split
      next h => exact iff_of_false (by simp) (not_not_intro h)
      next h => exact iff_of_true rfl h
  | cons c cs ih =>
      rw [find, List.infix_cons_iff, not_or]
      split
      next h => exact iff_of_false (by simp) fun hnone => hnone.1 h
      next h => rw [Option.map_eq_none_iff, ih, and_iff_right h]

/-- `marker in s`. -/
def contains (marker cs : List Char) : Bool := (find marker cs).isSome

theorem contains_eq_true_iff {marker cs : List Char} :
    contains marker cs = true ↔ marker <:+: cs := by
  rw [contains, Option.isSome_iff_ne_none, ne_eq, find_eq_none_iff, not_not]

/-- `s.rsplit(sep, 1)[0]`, what stands before the last separator. -/
def rsplitFirst (sep s : String) : String :=
  match find sep.toList.reverse s.toList.reverse with
  | some i => String.ofList (s.toList.reverse.drop (i + sep.toList.length)).reverse
  | none => s

theorem rsplitFirst_append (s sep : String) : rsplitFirst sep (s ++ sep) = s := by
  have hfind : find sep.toList.reverse (s ++ sep).toList.reverse = some 0 := by
    rw [String.toList_append, List.reverse_append]
    cases hchars : sep.toList.reverse ++ s.toList.reverse with
    | nil => rw [(List.append_eq_nil_iff.mp hchars).1]; rfl
    | cons c cs => exact if_pos (hchars ▸ List.prefix_append _ _)
  rw [rsplitFirst, hfind, String.toList_append, List.reverse_append]
  dsimp only
  rw [Nat.zero_add, ← List.length_reverse, List.drop_left, List.reverse_reverse,
    String.ofList_toList]

/-- `s.replace(marker, "")` for a marker that is not empty.  The number counts the characters
of an occurrence that are still to be left out. -/
def removeFrom (marker : List Char) : Nat → List Char → List Char
  | _, [] => []
  | skip + 1, _ :: cs => removeFrom marker skip cs
  | 0, c :: cs =>
      if marker <+: c :: cs then removeFrom marker (marker.length - 1) cs
      else c :: removeFrom marker 0 cs

def remove (marker cs : List Char) : List Char := removeFrom marker 0 cs

theorem remove_of_not_isInfix {marker cs : List Char} (h : ¬ marker <:+: cs) :
    remove marker cs = cs := by
  induction cs with
  | nil => rfl
  | cons c cs ih =>
      have hcs : ¬ marker <:+: cs := fun hinfix =>
        h (List.IsInfix.trans hinfix (List.suffix_cons c cs).isInfix)
      rw [remove, removeFrom, if_neg fun hprefix => h hprefix.isInfix]
      exact congrArg (c :: ·) (ih hcs)

end Py
