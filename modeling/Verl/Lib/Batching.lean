import Mathlib.Data.List.Basic
import Mathlib.Data.List.Forall2

/-!
# Buffered loops

A loop that collects items in a buffer.  The buffer is flushed before an item
that must not join it, after an item that fills it, and at the end.

*Groups.*  Where the loop cuts depends on the items alone, not on what a flush
does.  `groups` computes the cuts, and `run_eq` says that the loop flushes
these groups in order.  `flatten_groups` and `forall_groups` are all that a
property needs that no cut can break.

*Lookahead.*  A message of a stream is held back until the next one is known, so
that the last one carries a flag.  `close_foldl_hold` is what such a stream
writes.
-/

namespace Batching

variable {ε E S A : Type}

/-! ## Batches -/

structure Batcher (ε E S A : Type) where
  /-- The counter of an empty buffer. -/
  start : A
  add : A → E → A
  /-- Whether the buffer is flushed before the item. -/
  before : List E → A → E → Bool
  /-- Whether the buffer is flushed after its last item. -/
  after : List E → A → Bool
  flush : S → List E → Except ε S

/-- What the flushes made, the buffer, and its counter. -/
structure Buffered (S E A : Type) where
  out : S
  buffer : List E
  count : A

namespace Batcher

variable (b : Batcher ε E S A)

def init (out : S) : Buffered S E A := ⟨out, [], b.start⟩

/-- Flushes the buffer if `c` holds and it is not empty. -/
def spill (c : Bool) (st : Buffered S E A) : Except ε (Buffered S E A) :=
  if c && !st.buffer.isEmpty then do
    let out ← b.flush st.out st.buffer
    .ok ⟨out, [], b.start⟩
  else .ok st

/-- The loop body. -/
def push (st : Buffered S E A) (x : E) : Except ε (Buffered S E A) := do
  let st ← b.spill (b.before st.buffer st.count x) st
  let buffer := st.buffer ++ [x]
  let count := b.add st.count x
  b.spill (b.after buffer count) ⟨st.out, buffer, count⟩

/-- The whole loop. -/
def run (st : Buffered S E A) (xs : List E) : Except ε S := do
  let st ← xs.foldlM b.push st
  let st ← b.spill true st
  .ok st.out

/-! ### Groups -/

/-- The groups that were cut off, and the buffer that stays. -/
structure Cut (E A : Type) where
  groups : List (List E)
  buffer : List E
  count : A

def cut (c : Bool) (buffer : List E) (count : A) : Cut E A :=
  if c && !buffer.isEmpty then ⟨[buffer], [], b.start⟩ else ⟨[], buffer, count⟩

/-- The cuts around one item. -/
def cutAround (buffer : List E) (count : A) (x : E) : Cut E A :=
  let c := b.cut (b.before buffer count x) buffer count
  let buffer := c.buffer ++ [x]
  let count := b.add c.count x
  let c' := b.cut (b.after buffer count) buffer count
  ⟨c.groups ++ c'.groups, c'.buffer, c'.count⟩

/-- The groups that the loop flushes. -/
def groups (buffer : List E) (count : A) : List E → List (List E)
  | [] => (b.cut true buffer count).groups
  | x :: xs =>
      let c := b.cutAround buffer count x
      c.groups ++ groups c.buffer c.count xs

/-! ### The loop flushes its groups -/

/-- The state after the groups of a cut were flushed. -/
def flushCut (out : S) (c : Cut E A) : Except ε (Buffered S E A) := do
  let out ← c.groups.foldlM b.flush out
  .ok ⟨out, c.buffer, c.count⟩

variable {b}

theorem spill_eq (c : Bool) (out : S) (buffer : List E) (count : A) :
    b.spill c ⟨out, buffer, count⟩ = b.flushCut out (b.cut c buffer count) := by
  rw [spill, cut]
  split
  · rw [flushCut, List.foldlM_cons]
    cases b.flush out buffer <;> rfl
  · rfl

theorem push_eq (out : S) (buffer : List E) (count : A) (x : E) :
    b.push ⟨out, buffer, count⟩ x = b.flushCut out (b.cutAround buffer count x) := by
  simp only [push, spill_eq, flushCut, cutAround, List.foldlM_append]
  cases (b.cut (b.before buffer count x) buffer count).groups.foldlM b.flush out <;> rfl

/-- What the loop does is to flush its groups. -/
theorem run_eq (out : S) (buffer : List E) (count : A) (xs : List E) :
    b.run ⟨out, buffer, count⟩ xs = (b.groups buffer count xs).foldlM b.flush out := by
  induction xs generalizing out buffer count with
  | nil =>
      show (do .ok (← b.spill true ⟨out, buffer, count⟩).out) = _
      rw [spill_eq, flushCut, groups]
      cases (b.cut true buffer count).groups.foldlM b.flush out <;> rfl
  | cons x xs ih =>
      have hrun : b.run ⟨out, buffer, count⟩ (x :: xs) =
          (b.push ⟨out, buffer, count⟩ x).bind fun st => b.run st xs := by
        rw [run, List.foldlM_cons]
        cases b.push ⟨out, buffer, count⟩ x <;> rfl
      rw [hrun, push_eq, flushCut, groups, List.foldlM_append]
      cases (b.cutAround buffer count x).groups.foldlM b.flush out with
      | error e => rfl
      | ok out' => exact ih out' _ _

theorem of_run_eq_ok {st : Buffered S E A} {xs : List E} {out : S} (h : b.run st xs = .ok out) :
    ∃ st' st'', xs.foldlM b.push st = .ok st' ∧ b.spill true st' = .ok st'' ∧ st''.out = out := by
  rw [run] at h
  cases hpush : xs.foldlM b.push st with
  | error e =>
      rw [hpush] at h
      cases h
  | ok st' =>
      rw [hpush] at h
      cases hspill : b.spill true st' with
      | error e =>
          change (b.spill true st').bind _ = _ at h
          rw [hspill] at h
          cases h
      | ok st'' =>
          change (b.spill true st').bind _ = _ at h
          rw [hspill] at h
          exact ⟨st', st'', rfl, hspill, Except.ok.inj h⟩

/-- A loop that steps through lists steps through what they add up to. -/
theorem foldlM_flatMap {ε S X E : Type} (f : X → List E) (step : S → E → Except ε S)
    (xs : List X) (out : S) :
    xs.foldlM (fun out x => (f x).foldlM step out) out = (xs.flatMap f).foldlM step out := by
  induction xs generalizing out with
  | nil => rfl
  | cons x xs ih =>
      rw [List.foldlM_cons, List.flatMap_cons, List.foldlM_append]
      cases (f x).foldlM step out with
      | error e => rfl
      | ok out' => exact ih out'

/-! ### What the cuts keep -/

theorem flatten_cut (c : Bool) (buffer : List E) (count : A) :
    (b.cut c buffer count).groups.flatten ++ (b.cut c buffer count).buffer = buffer := by
  rw [cut]
  split
  · rw [List.flatten_singleton, List.append_nil]
  · rfl

theorem flatten_cutAround (buffer : List E) (count : A) (x : E) :
    (b.cutAround buffer count x).groups.flatten ++ (b.cutAround buffer count x).buffer =
      buffer ++ [x] := by
  simp only [cutAround]
  rw [List.flatten_append, List.append_assoc, flatten_cut, ← List.append_assoc, flatten_cut]

/-- No item is lost, repeated or moved. -/
theorem flatten_groups (buffer : List E) (count : A) (xs : List E) :
    (b.groups buffer count xs).flatten = buffer ++ xs := by
  induction xs generalizing buffer count with
  | nil =>
      rw [groups, List.append_nil, cut, Bool.true_and]
      split
      · rw [List.flatten_singleton]
      next h =>
        rw [Bool.not_eq_true', Bool.not_eq_false, List.isEmpty_iff] at h
        exact h.symm
  | cons x xs ih =>
      rw [groups, List.flatten_append, ih, ← List.append_assoc, flatten_cutAround,
        List.append_assoc, List.singleton_append]

/-- Where a flush takes the items one by one, the cuts do not matter. -/
theorem run_eq_foldlM {step : S → E → Except ε S}
    (hflush : ∀ out buffer, b.flush out buffer = buffer.foldlM step out) (out : S)
    (xs : List E) : b.run (b.init out) xs = xs.foldlM step out := by
  have hsteps : b.flush = fun out buffer => (id buffer).foldlM step out :=
    funext fun out => funext fun buffer => hflush out buffer
  rw [init, run_eq, hsteps, foldlM_flatMap, List.flatMap_id, flatten_groups, List.nil_append]

variable (b) in
/-- A property of groups that the cuts before an item guarantee. -/
structure Keeps (P : List E → Prop) : Prop where
  single : ∀ x, P [x]
  concat : ∀ buffer count x, P buffer → b.before buffer count x = false → P (buffer ++ [x])

/-- The groups of a cut, and the buffer unless it is empty, have the property. -/
structure Cut.Has (P : List E → Prop) (c : Cut E A) : Prop where
  groups : ∀ g ∈ c.groups, g ≠ [] ∧ P g
  buffer : c.buffer ≠ [] → P c.buffer

theorem Cut.Has.cut {P : List E → Prop} (c : Bool) {buffer : List E} (count : A)
    (h : buffer ≠ [] → P buffer) : (b.cut c buffer count).Has P := by
  rw [Batcher.cut]
  split
  next hc =>
    rw [Bool.and_eq_true, Bool.not_eq_true', List.isEmpty_eq_false_iff] at hc
    refine ⟨fun g hg => ?_, fun hnil => (hnil rfl).elim⟩
    rw [List.mem_singleton.mp hg]
    exact ⟨hc.2, h hc.2⟩
  · exact ⟨fun g hg => (List.not_mem_nil hg).elim, h⟩

theorem Cut.Has.cutAround {P : List E → Prop} (hkeeps : b.Keeps P) {buffer : List E} (count : A)
    (h : buffer ≠ [] → P buffer) (x : E) : (b.cutAround buffer count x).Has P := by
  have hbefore := Cut.Has.cut (b := b) (b.before buffer count x) count h
  have hconcat : P ((b.cut (b.before buffer count x) buffer count).buffer ++ [x]) := by
    rw [Batcher.cut]
    split
    · exact hkeeps.single x
    next hc =>
      by_cases hnil : buffer = []
      · rw [hnil, List.nil_append]
        exact hkeeps.single x
      · refine hkeeps.concat buffer count x (h hnil) ?_
        rw [Bool.and_eq_true, not_and, Bool.not_eq_true', List.isEmpty_eq_false_iff] at hc
        exact Bool.eq_false_iff.mpr fun htrue => hc htrue hnil
  have hafter := Cut.Has.cut (b := b)
    (b.after ((b.cut (b.before buffer count x) buffer count).buffer ++ [x])
      (b.add (b.cut (b.before buffer count x) buffer count).count x))
    (b.add (b.cut (b.before buffer count x) buffer count).count x) fun _ => hconcat
  refine ⟨fun g hg => ?_, hafter.buffer⟩
  rcases List.mem_append.mp hg with hg | hg
  · exact hbefore.groups g hg
  · exact hafter.groups g hg

/-- Every group that the loop flushes is nonempty and has the property. -/
theorem forall_groups {P : List E → Prop} (hkeeps : b.Keeps P) {buffer : List E} (count : A)
    (h : buffer ≠ [] → P buffer) (xs : List E) :
    ∀ g ∈ b.groups buffer count xs, g ≠ [] ∧ P g := by
  induction xs generalizing buffer count with
  | nil => exact (Cut.Has.cut true count h).groups
  | cons x xs ih =>
      have hcut := Cut.Has.cutAround hkeeps count h x
      intro g hg
      rcases List.mem_append.mp hg with hg | hg
      · exact hcut.groups g hg
      · exact ih _ hcut.buffer g hg

end Batcher

/-! ## Lookahead -/

section Lookahead

variable {W F : Type}

/-- The stream that was written, and the message that is held back. -/
structure Held (W F : Type) where
  wire : W
  pending : Option F

variable (publish : W → F → Bool → W) (terminal : W → W)

/-- Writes the message that is held back. -/
def Held.emit (h : Held W F) (isLast : Bool) : Held W F :=
  match h.pending with
  | none => h
  | some f => ⟨publish h.wire f isLast, none⟩

/-- The next message is known. -/
def Held.hold (h : Held W F) (f : F) : Held W F :=
  { h.emit publish false with pending := some f }

/-- The end of the stream.  A stream without messages still gets a marker. -/
def Held.close (h : Held W F) : W :=
  match h.pending with
  | none => terminal h.wire
  | some _ => (h.emit publish true).wire

/-- A whole stream: only its last message is flagged. -/
def writeStream (wire : W) : List F → W
  | [] => terminal wire
  | [f] => publish wire f true
  | f :: f' :: fs => writeStream (publish wire f false) (f' :: fs)

theorem close_foldl_hold (wire : W) (fs : List F) :
    (fs.foldl (Held.hold publish) ⟨wire, none⟩).close publish terminal =
      writeStream publish terminal wire fs := by
  have hsome (wire : W) (f : F) (fs : List F) :
      (fs.foldl (Held.hold publish) ⟨wire, some f⟩).close publish terminal =
        writeStream publish terminal wire (f :: fs) := by
    induction fs generalizing wire f with
    | nil => rfl
    | cons f' fs ih => exact ih (publish wire f false) f'
  cases fs with
  | nil => rfl
  | cons f fs => exact hsome wire f fs

/-- A loop that makes a message of each group and holds it back: it writes one
stream, whatever the groups are. -/
theorem Batcher.stream_spec {b : Batcher ε E (Held W F) A} (make : List E → Except ε F)
    (R : List E → F → Prop) (xs : List E)
    (hflush : ∀ held g, b.flush held g = (make g).map (held.hold publish))
    (hmake : ∀ g, g ≠ [] → (∀ x ∈ g, x ∈ xs) → ∃ f, make g = .ok f ∧ R g f) (wire : W) :
    ∃ groups fs st st', groups.flatten = xs ∧ List.Forall₂ R groups fs ∧
      xs.foldlM b.push (b.init ⟨wire, none⟩) = .ok st ∧ b.spill true st = .ok st' ∧
      st'.out.close publish terminal = writeStream publish terminal wire fs := by
  have hflatten : (b.groups [] b.start xs).flatten = xs := flatten_groups [] b.start xs
  have hne := forall_groups (b := b) (P := fun _ => True)
    ⟨fun _ => trivial, fun _ _ _ _ _ => trivial⟩ b.start (fun hnil => (hnil rfl).elim) xs
  obtain ⟨fs, hfs, hloop⟩ : ∃ fs, List.Forall₂ R (b.groups [] b.start xs) fs ∧ ∀ held,
      (b.groups [] b.start xs).foldlM b.flush held = .ok (fs.foldl (Held.hold publish) held) := by
    have hmem : ∀ g ∈ b.groups [] b.start xs, g ≠ [] ∧ ∀ x ∈ g, x ∈ xs := fun g hg =>
      ⟨(hne g hg).1, fun x hx => hflatten ▸ List.mem_flatten_of_mem hg hx⟩
    generalize b.groups [] b.start xs = groups at hmem
    induction groups with
    | nil => exact ⟨[], .nil, fun _ => rfl⟩
    | cons g groups ih =>
        obtain ⟨hg, hsub⟩ := hmem g List.mem_cons_self
        obtain ⟨f, hf, hR⟩ := hmake g hg hsub
        obtain ⟨fs, hfs, hloop⟩ := ih fun g' hg' => hmem g' (List.mem_cons_of_mem g hg')
        refine ⟨f :: fs, .cons hR hfs, fun held => ?_⟩
        rw [List.foldlM_cons, hflush, hf]
        exact hloop _
  have hrun := run_eq (b := b) ⟨wire, none⟩ [] b.start xs
  rw [hloop] at hrun
  obtain ⟨st, st', hpush, hspill, hout⟩ := of_run_eq_ok hrun
  refine ⟨_, fs, st, st', hflatten, hfs, hpush, hspill, ?_⟩
  rw [hout]
  exact close_foldl_hold publish terminal wire fs

end Lookahead

end Batching
