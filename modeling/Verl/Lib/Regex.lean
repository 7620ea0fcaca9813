import Verl.Lib.Strings

/-!
# Backtracking regular expressions

A pattern is a literal, one character of a class, a run of characters of a class,
a capture group, a sequence or an alternative.  `ways` lists all the ways a
pattern matches at the front of a text, in the order in which a backtracking
matcher tries them.  A greedy run tries the longest text first and a lazy run the
shortest, and an alternative tries its first branch first.  The matcher returns
the first way there is.

`finditer` goes through a text from the left.  After a match it goes on behind the
matched text.  A match of no characters is outside this module.
-/

namespace Regex

open Py (Free)

inductive Pattern where
  | lit (text : List Char)
  | one (p : Char → Bool)
  | run (greedy : Bool) (p : Char → Bool)
  | group (index : Nat) (r : Pattern)
  | seq (r s : Pattern)
  | alt (r s : Pattern)

/-- A match: its text, the captured groups and what is left of the input. -/
structure Way where
  text : List Char
  groups : List (Nat × List Char)
  rest : List Char
deriving DecidableEq

/-- `match.group(i)`, where `none` is a group that took no part. -/
def Way.group (w : Way) (i : Nat) : Option (List Char) := w.groups.lookup i

/-- The ways to cut off characters of a class at the front, shortest first. -/
def prefixes (p : Char → Bool) : List Char → List (List Char × List Char)
  | [] => [([], [])]
  | c :: cs =>
      ([], c :: cs) ::
        if p c then (prefixes p cs).map fun e => (c :: e.1, e.2) else []

def Pattern.ways : Pattern → List Char → List Way
  | .lit text, cs => if text <+: cs then [⟨text, [], cs.drop text.length⟩] else []
  | .one _, [] => []
  | .one p, c :: cs => if p c then [⟨[c], [], cs⟩] else []
  | .run greedy p, cs =>
      (if greedy then (prefixes p cs).reverse else prefixes p cs).map fun e => ⟨e.1, [], e.2⟩
  | .group i r, cs => (r.ways cs).map fun w => { w with groups := (i, w.text) :: w.groups }
  | .seq r s, cs =>
      (r.ways cs).flatMap fun w =>
        (s.ways w.rest).map fun w' => ⟨w.text ++ w'.text, w.groups ++ w'.groups, w'.rest⟩
  | .alt r s, cs => r.ways cs ++ s.ways cs

namespace Pattern

theorem lit_ways (text cs : List Char) :
    (lit text).ways cs = if text <+: cs then [⟨text, [], cs.drop text.length⟩] else [] := rfl

theorem one_ways_cons (p : Char → Bool) (c : Char) (cs : List Char) :
    (one p).ways (c :: cs) = if p c then [⟨[c], [], cs⟩] else [] := rfl

theorem run_ways (greedy : Bool) (p : Char → Bool) (cs : List Char) :
    (run greedy p).ways cs =
      (if greedy then (prefixes p cs).reverse else prefixes p cs).map fun e => ⟨e.1, [], e.2⟩ :=
  rfl

theorem group_ways (i : Nat) (r : Pattern) (cs : List Char) :
    (group i r).ways cs =
      (r.ways cs).map fun w => { w with groups := (i, w.text) :: w.groups } := rfl

theorem seq_ways (r s : Pattern) (cs : List Char) :
    (seq r s).ways cs =
      (r.ways cs).flatMap fun w =>
        (s.ways w.rest).map fun w' => ⟨w.text ++ w'.text, w.groups ++ w'.groups, w'.rest⟩ := rfl

theorem alt_ways (r s : Pattern) (cs : List Char) :
    (alt r s).ways cs = r.ways cs ++ s.ways cs := rfl

end Pattern

/-- `pattern.match(text)`. -/
def Pattern.match? (r : Pattern) (cs : List Char) : Option Way := (r.ways cs).head?

/-- The number counts the characters of the last match that are still ahead. -/
def finditerFrom (r : Pattern) : Nat → List Char → List Way
  | _, [] => []
  | skip + 1, _ :: cs => finditerFrom r skip cs
  | 0, c :: cs =>
      match r.match? (c :: cs) with
      | some w => w :: finditerFrom r (w.text.length - 1) cs
      | none => finditerFrom r 0 cs

/-- `pattern.finditer(text)`. -/
def finditer (r : Pattern) (cs : List Char) : List Way := finditerFrom r 0 cs

/-- `p+` -/
def plus (p : Char → Bool) : Pattern := .seq (.one p) (.run true p)

/-! ## Runs -/

theorem mem_prefixes {p : Char → Bool} {cs : List Char} {e : List Char × List Char}
    (he : e ∈ prefixes p cs) : e.1 ++ e.2 = cs ∧ ∀ c ∈ e.1, p c = true := by
  induction cs generalizing e with
  | nil =>
      obtain rfl := List.mem_singleton.mp he
      exact ⟨rfl, List.forall_mem_nil _⟩
  | cons c cs ih =>
      rw [prefixes] at he
      rcases List.mem_cons.mp he with rfl | he
      · exact ⟨rfl, List.forall_mem_nil _⟩
      · split at he
        next hc =>
          obtain ⟨e', he', rfl⟩ := List.mem_map.mp he
          obtain ⟨htext, hp⟩ := ih he'
          exact ⟨congrArg (c :: ·) htext, List.forall_mem_cons.mpr ⟨hc, hp⟩⟩
        next => exact absurd he List.not_mem_nil

theorem prefixes_ne_nil (p : Char → Bool) (cs : List Char) : prefixes p cs ≠ [] := by
  cases cs with
  | nil => exact List.cons_ne_nil _ _
  | cons c cs => exact List.cons_ne_nil _ _

/-- The longest text that a run can take. -/
theorem getLast?_prefixes (p : Char → Bool) (cs : List Char) :
    (prefixes p cs).getLast? = some (cs.takeWhile p, cs.dropWhile p) := by
  induction cs with
  | nil => rfl
  | cons c cs ih =>
      rw [prefixes]
      split
      next hc =>
        have hne : (prefixes p cs).map (fun e => (c :: e.1, e.2)) ≠ [] :=
          fun h => prefixes_ne_nil p cs (List.map_eq_nil_iff.mp h)
        rw [List.getLast?_cons_of_ne_nil hne, List.getLast?_map, ih,
          List.takeWhile_cons_of_pos hc, List.dropWhile_cons_of_pos hc]
        rfl
      next hc =>
        rw [List.takeWhile_cons_of_neg hc, List.dropWhile_cons_of_neg hc]
        rfl

/-- A lazy run takes `taken` when nothing shorter lets the rest of the pattern match. -/
theorem head?_flatMap_prefixes {β : Type} {p : Char → Bool} {taken cs : List Char} {b : β}
    (hp : ∀ c ∈ taken, p c = true) (f : List Char × List Char → List β)
    (hskip : ∀ ys zs, taken = ys ++ zs → zs ≠ [] → f (ys, zs ++ cs) = [])
    (h : (f (taken, cs)).head? = some b) :
    ((prefixes p (taken ++ cs)).flatMap f).head? = some b := by
  induction taken generalizing f with
  | nil =>
      rw [List.nil_append]
      cases cs with
      | nil =>
          rw [prefixes, List.flatMap_singleton]
          exact h
      | cons c cs =>
          rw [prefixes, List.flatMap_cons, List.head?_append, h]
          rfl
  | cons c taken ih =>
      rw [List.cons_append, prefixes, if_pos (hp c List.mem_cons_self), List.flatMap_cons]
      have hnil : f ([], c :: (taken ++ cs)) = [] :=
          hskip [] (c :: taken) rfl (List.cons_ne_nil _ _)
      rw [hnil, List.nil_append, List.flatMap_map]
      refine ih (fun d hd => hp d (List.mem_cons_of_mem c hd)) (fun e => f (c :: e.1, e.2)) ?_ h
      intro ys zs htaken hzs
      exact hskip (c :: ys) zs (congrArg (c :: ·) htaken) hzs

/-- A lazy run cannot go past a character that is not of its class. -/
theorem flatMap_prefixes_eq_nil {β : Type} {p : Char → Bool} {taken cs : List Char} {c : Char}
    (hc : p c = false) (f : List Char × List Char → List β)
    (hskip : ∀ ys zs, taken = ys ++ zs → f (ys, zs ++ c :: cs) = []) :
    (prefixes p (taken ++ c :: cs)).flatMap f = [] := by
  induction taken generalizing f with
  | nil =>
      have hnil : f ([], c :: cs) = [] := hskip [] [] rfl
      rw [List.nil_append, prefixes, hc, if_neg Bool.false_ne_true, List.flatMap_singleton, hnil]
  | cons d taken ih =>
      have hnil : f ([], d :: (taken ++ c :: cs)) = [] := hskip [] (d :: taken) rfl
      rw [List.cons_append, prefixes, List.flatMap_cons, hnil, List.nil_append]
      split
      next =>
        rw [List.flatMap_map]
        refine ih (fun e => f (d :: e.1, e.2)) ?_
        intro ys zs htaken
        exact hskip (d :: ys) zs (congrArg (d :: ·) htaken)
      next => rfl

/-! ## Ways -/

/-- A match cuts its text off the input. -/
theorem Pattern.text_append_rest {r : Pattern} {cs : List Char} {w : Way} (hw : w ∈ r.ways cs) :
    w.text ++ w.rest = cs := by
  induction r generalizing cs w with
  | lit text =>
      rw [lit_ways] at hw
      split at hw
      next hprefix =>
        obtain rfl := List.mem_singleton.mp hw
        obtain ⟨rest, rfl⟩ := hprefix
        rw [List.drop_left]
      next => exact absurd hw List.not_mem_nil
  | one p =>
      cases cs with
      | nil => exact absurd hw List.not_mem_nil
      | cons c cs =>
          rw [one_ways_cons] at hw
          split at hw
          next =>
            obtain rfl := List.mem_singleton.mp hw
            rfl
          next => exact absurd hw List.not_mem_nil
  | run greedy p =>
      obtain ⟨e, he, rfl⟩ := List.mem_map.mp hw
      refine (mem_prefixes (p := p) ?_).1
      cases greedy with
      | true => exact List.mem_reverse.mp he
      | false => exact he
  | group i r ih =>
      obtain ⟨w', hw', rfl⟩ := List.mem_map.mp hw
      have htext := ih hw'
      exact htext
  | seq r s ihr ihs =>
      obtain ⟨w₁, hw₁, hw⟩ := List.mem_flatMap.mp hw
      obtain ⟨w₂, hw₂, rfl⟩ := List.mem_map.mp hw
      rw [← ihr hw₁, ← ihs hw₂, List.append_assoc]
  | alt r s ihr ihs =>
      rcases List.mem_append.mp hw with hw | hw
      · exact ihr hw
      · exact ihs hw

theorem Pattern.groups_lit {text cs : List Char} {w : Way} (hw : w ∈ (lit text).ways cs) :
    w.groups = [] := by
  rw [lit_ways] at hw
  split at hw
  next =>
    obtain rfl := List.mem_singleton.mp hw
    rfl
  next => exact absurd hw List.not_mem_nil

theorem Pattern.groups_one {p : Char → Bool} {cs : List Char} {w : Way}
    (hw : w ∈ (one p).ways cs) : w.groups = [] := by
  cases cs with
  | nil => exact absurd hw List.not_mem_nil
  | cons c cs =>
      rw [one_ways_cons] at hw
      split at hw
      next =>
        obtain rfl := List.mem_singleton.mp hw
        rfl
      next => exact absurd hw List.not_mem_nil

theorem Pattern.groups_run {greedy : Bool} {p : Char → Bool} {cs : List Char} {w : Way}
    (hw : w ∈ (run greedy p).ways cs) : w.groups = [] ∧ ∀ c ∈ w.text, p c = true := by
  obtain ⟨e, he, rfl⟩ := List.mem_map.mp hw
  have hmem : e ∈ prefixes p cs := by
    cases greedy with
    | true => exact List.mem_reverse.mp he
    | false => exact he
  exact ⟨rfl, (mem_prefixes hmem).2⟩

theorem Pattern.mem_ways_group {i : Nat} {r : Pattern} {cs : List Char} {w : Way}
    (hw : w ∈ (group i r).ways cs) :
    ∃ w' ∈ r.ways cs, w.text = w'.text ∧ w.groups = (i, w'.text) :: w'.groups := by
  obtain ⟨w', hw', rfl⟩ := List.mem_map.mp hw
  exact ⟨w', hw', rfl, rfl⟩

theorem Pattern.mem_ways_seq {r s : Pattern} {cs : List Char} {w : Way}
    (hw : w ∈ (seq r s).ways cs) :
    ∃ w₁ ∈ r.ways cs, ∃ w₂ ∈ s.ways w₁.rest, w.groups = w₁.groups ++ w₂.groups := by
  obtain ⟨w₁, hw₁, hw⟩ := List.mem_flatMap.mp hw
  obtain ⟨w₂, hw₂, rfl⟩ := List.mem_map.mp hw
  exact ⟨w₁, hw₁, w₂, hw₂, rfl⟩

theorem groups_plus {p : Char → Bool} {cs : List Char} {w : Way} (hw : w ∈ (plus p).ways cs) :
    w.groups = [] := by
  obtain ⟨w₁, hw₁, w₂, hw₂, hgroups⟩ := Pattern.mem_ways_seq hw
  rw [hgroups, Pattern.groups_one hw₁, (Pattern.groups_run hw₂).1]
  rfl

theorem Pattern.mem_ways_of_match? {r : Pattern} {cs : List Char} {w : Way}
    (h : r.match? cs = some w) : w ∈ r.ways cs :=
  List.mem_of_mem_head? h

theorem Pattern.match?_eq_none {r : Pattern} {cs : List Char} (h : r.ways cs = []) :
    r.match? cs = none := by
  rw [match?, h]
  rfl

theorem Pattern.ways_lit {text cs : List Char} (h : ¬ text <+: cs) : (lit text).ways cs = [] :=
  if_neg h

theorem Pattern.match?_lit (text cs : List Char) :
    (lit text).match? (text ++ cs) = some ⟨text, [], cs⟩ := by
  rw [match?, lit_ways, if_pos (List.prefix_append text cs), List.drop_left]
  rfl

theorem Pattern.match?_run (p : Char → Bool) (cs : List Char) :
    (run true p).match? cs = some ⟨cs.takeWhile p, [], cs.dropWhile p⟩ := by
  rw [match?, run_ways, if_pos rfl, List.head?_map, List.head?_reverse, getLast?_prefixes]
  rfl

theorem Pattern.match?_group {r : Pattern} {cs : List Char} {w : Way} (i : Nat)
    (h : r.match? cs = some w) :
    (group i r).match? cs = some { w with groups := (i, w.text) :: w.groups } := by
  rw [match?] at h
  rw [match?, group_ways, List.head?_map, h]
  rfl

theorem Pattern.ways_seq {r s : Pattern} {cs : List Char} (h : r.ways cs = []) :
    (seq r s).ways cs = [] := by
  rw [seq_ways, h]
  rfl

theorem Pattern.match?_seq {r s : Pattern} {cs : List Char} {w w' : Way}
    (h : r.match? cs = some w) (h' : s.match? w.rest = some w') :
    (seq r s).match? cs =
      some ⟨w.text ++ w'.text, w.groups ++ w'.groups, w'.rest⟩ := by
  rw [match?] at h
  rw [match?] at h'
  obtain ⟨more, hways⟩ := List.head?_eq_some_iff.mp h
  rw [match?, seq_ways, hways, List.flatMap_cons, List.head?_append, List.head?_map, h']
  rfl

theorem Pattern.match?_alt_left {r s : Pattern} {cs : List Char} {w : Way}
    (h : r.match? cs = some w) : (alt r s).match? cs = some w := by
  rw [match?] at h
  rw [match?, alt_ways, List.head?_append, h]
  rfl

theorem Pattern.match?_alt_right {r : Pattern} (s : Pattern) {cs : List Char}
    (h : r.ways cs = []) : (alt r s).match? cs = s.match? cs := by
  rw [match?, alt_ways, h]
  rfl

/-- A greedy word ends where its class ends. -/
theorem match?_plus {p : Char → Bool} {word cs : List Char} (hne : word ≠ [])
    (hword : ∀ c ∈ word, p c = true) (hcs : ∀ c ∈ cs.head?, p c = false) :
    (plus p).match? (word ++ cs) = some ⟨word, [], cs⟩ := by
  cases word with
  | nil => exact absurd rfl hne
  | cons c word =>
      have hone : (Pattern.one p).match? (c :: word ++ cs) = some ⟨[c], [], word ++ cs⟩ := by
        rw [List.cons_append, Pattern.match?, Pattern.one_ways_cons,
          if_pos (hword c List.mem_cons_self)]
        rfl
      have hstop : cs.takeWhile p = [] ∧ cs.dropWhile p = cs := by
        cases cs with
        | nil => exact ⟨rfl, rfl⟩
        | cons d cs =>
            have hd := Bool.eq_false_iff.mp (hcs d rfl)
            exact ⟨List.takeWhile_cons_of_neg hd, List.dropWhile_cons_of_neg hd⟩
      have htail : ∀ d ∈ word, p d = true := fun d hd => hword d (List.mem_cons_of_mem c hd)
      rw [plus, Pattern.match?_seq hone (Pattern.match?_run p (word ++ cs)),
        List.takeWhile_append_of_pos htail, List.dropWhile_append_of_pos htail, hstop.1, hstop.2,
        List.append_nil]
      rfl

theorem ways_plus_eq_nil {p : Char → Bool} {cs : List Char} (h : ∀ c ∈ cs.head?, p c = false) :
    (plus p).ways cs = [] := by
  refine Pattern.ways_seq ?_
  cases cs with
  | nil => rfl
  | cons c cs => exact if_neg (Bool.eq_false_iff.mp (h c rfl))

/-! ## A lazy group before a literal -/

/-- `(p*?)marker` -/
def lazyUntil (i : Nat) (p : Char → Bool) (marker : List Char) : Pattern :=
  .seq (.group i (.run false p)) (.lit marker)

theorem ways_lazyUntil (i : Nat) (p : Char → Bool) (marker cs : List Char) :
    (lazyUntil i p marker).ways cs =
      (prefixes p cs).flatMap fun e =>
        ((Pattern.lit marker).ways e.2).map fun w =>
          ⟨e.1 ++ w.text, (i, e.1) :: w.groups, w.rest⟩ := by
  rw [lazyUntil, Pattern.seq_ways, Pattern.group_ways, Pattern.run_ways,
    if_neg Bool.false_ne_true, List.map_map, List.flatMap_map]
  rfl

theorem groups_lazyUntil {i : Nat} {p : Char → Bool} {marker cs : List Char} {w : Way}
    (hw : w ∈ (lazyUntil i p marker).ways cs) :
    ∃ taken, w.groups = [(i, taken)] ∧ ∀ c ∈ taken, p c = true := by
  obtain ⟨w₁, hw₁, w₂, hw₂, hgroups⟩ := Pattern.mem_ways_seq hw
  obtain ⟨w', hw', _, hgroup⟩ := Pattern.mem_ways_group hw₁
  obtain ⟨hnone, hclass⟩ := Pattern.groups_run hw'
  refine ⟨w'.text, ?_, hclass⟩
  rw [hgroups, hgroup, hnone, Pattern.groups_lit hw₂]
  rfl

theorem free_of_suffix {marker taken ys zs rest : List Char} (h : Free marker taken rest)
    (htaken : taken = ys ++ zs) (hzs : zs ≠ []) : ¬ marker <+: zs ++ rest := by
  subst htaken
  cases zs with
  | nil => exact absurd rfl hzs
  | cons c zs => exact (Py.free_append.mp h).2.1

/-- A lazy group ends at the first marker. -/
theorem match?_lazyUntil {p : Char → Bool} {marker taken : List Char} (i : Nat)
    (cs : List Char) (hp : ∀ c ∈ taken, p c = true) (hfree : Free marker taken (marker ++ cs)) :
    (lazyUntil i p marker).match? (taken ++ (marker ++ cs)) =
      some ⟨taken ++ marker, [(i, taken)], cs⟩ := by
  rw [Pattern.match?, ways_lazyUntil]
  refine head?_flatMap_prefixes hp _ (fun ys zs htaken hzs => ?_) ?_
  · rw [Pattern.ways_lit (free_of_suffix hfree htaken hzs)]
    rfl
  · rw [Pattern.lit_ways, if_pos (List.prefix_append marker cs), List.drop_left]
    rfl

/-- A lazy group does not match when its class ends before the first marker. -/
theorem ways_lazyUntil_eq_nil {p : Char → Bool} {marker taken cs : List Char} {c : Char} (i : Nat)
    (hc : p c = false) (hfree : Free marker (taken ++ [c]) cs) :
    (lazyUntil i p marker).ways (taken ++ c :: cs) = [] := by
  rw [ways_lazyUntil]
  refine flatMap_prefixes_eq_nil hc _ fun ys zs htaken => ?_
  have hsuffix : taken ++ [c] = ys ++ (zs ++ [c]) := by rw [htaken, List.append_assoc]
  have hprefix := free_of_suffix hfree hsuffix
    (List.append_ne_nil_of_right_ne_nil _ (List.cons_ne_nil c []))
  rw [List.append_assoc, List.singleton_append] at hprefix
  rw [Pattern.ways_lit hprefix]
  rfl

/-! ## All matches -/

theorem finditerFrom_append (r : Pattern) (xs cs : List Char) :
    finditerFrom r xs.length (xs ++ cs) = finditer r cs := by
  induction xs with
  | nil => rfl
  | cons c xs ih => exact ih

theorem finditer_nil (r : Pattern) : finditer r [] = [] := rfl

theorem finditer_of_match {r : Pattern} {cs : List Char} {w : Way} (h : r.match? cs = some w)
    (hne : w.text ≠ []) : finditer r cs = w :: finditer r w.rest := by
  have hcs := Pattern.text_append_rest (Pattern.mem_ways_of_match? h)
  obtain ⟨c, text, htext⟩ := List.exists_cons_of_ne_nil hne
  rw [htext] at hcs
  subst hcs
  rw [List.cons_append] at h ⊢
  rw [finditer, finditerFrom, h]
  simp only [htext, List.length_cons, Nat.add_sub_cancel]
  rw [finditerFrom_append]

/-- A character at which no match starts. -/
theorem finditer_cons_of_none {r : Pattern} {c : Char} {cs : List Char}
    (h : r.ways (c :: cs) = []) : finditer r (c :: cs) = finditer r cs := by
  rw [finditer, finditerFrom, Pattern.match?_eq_none h]
  rfl

theorem finditer_append_of_none {r : Pattern} {xs cs : List Char}
    (h : ∀ ys zs, xs = ys ++ zs → zs ≠ [] → r.ways (zs ++ cs) = []) :
    finditer r (xs ++ cs) = finditer r cs := by
  induction xs with
  | nil => rfl
  | cons c xs ih =>
      have hnone : r.ways (c :: (xs ++ cs)) = [] := h [] (c :: xs) rfl (List.cons_ne_nil c xs)
      rw [List.cons_append, finditer_cons_of_none hnone]
      exact ih fun ys zs hxs hzs => h (c :: ys) zs (congrArg (c :: ·) hxs) hzs

/-- Every match that is found is a way of the pattern somewhere in the text. -/
theorem exists_of_mem_finditerFrom {r : Pattern} {skip : Nat} {cs : List Char} {w : Way}
    (hw : w ∈ finditerFrom r skip cs) : ∃ cs', w ∈ r.ways cs' := by
  induction cs generalizing skip with
  | nil => exact absurd hw List.not_mem_nil
  | cons c cs ih =>
      cases skip with
      | succ skip => exact ih hw
      | zero =>
          rw [finditerFrom] at hw
          split at hw
          next w' hmatch =>
            rcases List.mem_cons.mp hw with rfl | hw
            · exact ⟨c :: cs, Pattern.mem_ways_of_match? hmatch⟩
            · exact ih hw
          next => exact ih hw

end Regex
