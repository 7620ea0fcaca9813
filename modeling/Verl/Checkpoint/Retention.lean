import Mathlib.Data.List.DropRight
import Mathlib.Data.List.Nodup
import Mathlib.Data.List.Perm.Subperm
import Verl.Lib.Crash

/-!
# Retention of checkpoints

The part of `verl/utils/checkpoint/checkpoint_manager.py` that deletes old checkpoints.
A save calls `ensure_checkpoint_capacity`, writes the new checkpoint and calls
`register_checkpoint`.  The process can die after any effect on the disk or on the list
of the manager.

A path is the list of the components of the absolute path.  `rmtree` takes away all that
lies below a path, the files first, and it succeeds.

*Invariant.*  `Holding` says which checkpoints there are and which of them are complete.
Between two saves these are the newest `max_ckpt_to_keep` ones (`Saved`), and each call
has one triple that starts or ends there.
-/

namespace Verl.Retention

open Crash

/-- The components of an absolute path. -/
abbrev Path := List String

/-- The disk and the list of the manager. -/
structure World where
  /-- the directories that exist -/
  dirs : List Path
  /-- the directories that have all their files -/
  intact : List Path
  previousSavedPaths : List Path
  /-- history: the paths to which a write has begun -/
  begun : List Path
  /-- history: the paths that have been registered -/
  registered : List Path

/-- A new manager over any disk. -/
def World.fresh (dirs intact : List Path) : World := ⟨dirs, intact, [], [], []⟩

/-- `os.path.exists` -/
def World.exists (w : World) (p : Path) : Bool := w.dirs.any p.isPrefixOf

/-! ## The source functions -/

/-- `shutil.rmtree` -/
def rmtree (p : Path) : Proc World Unit := do
  Proc.effect fun w => { w with intact := w.intact.filter fun q => !p.isPrefixOf q }
  Proc.effect fun w => { w with dirs := w.dirs.filter fun q => !p.isPrefixOf q }

/-- `remove_previous_save_local_path` -/
def removePreviousSaveLocalPath (path : List Path) : Proc World Unit :=
  path.forM fun p => do
    let w ← Proc.get
    if w.exists p then rmtree p

/-- `self.previous_saved_paths = self.previous_saved_paths[keep_start:]` after the paths
before `keep_start` have been removed. -/
def keepFrom (keepStart : Nat) : Proc World Unit := do
  let w ← Proc.get
  removePreviousSaveLocalPath (w.previousSavedPaths.take keepStart)
  Proc.effect fun w => { w with previousSavedPaths := w.previousSavedPaths.drop keepStart }

/-- `ensure_checkpoint_capacity` -/
def ensureCheckpointCapacity : Option Int → Proc World Unit
  | none => pure ⟨⟩
  | some maxCkptToKeep => do
    let w ← Proc.get
    if 1 < maxCkptToKeep ∧ maxCkptToKeep ≤ w.previousSavedPaths.length then
      keepFrom (w.previousSavedPaths.length - maxCkptToKeep + 1).toNat

/-- `register_checkpoint` -/
def registerCheckpoint (newPath : Path) (maxCkptToKeep : Option Int) : Proc World Unit := do
  Proc.effect fun w => { w with
    previousSavedPaths := w.previousSavedPaths ++ [newPath]
    registered := w.registered ++ [newPath] }
  match maxCkptToKeep with
  | none => pure ⟨⟩
  | some maxCkptToKeep => do
    let w ← Proc.get
    if 0 < maxCkptToKeep ∧ maxCkptToKeep < w.previousSavedPaths.length then
      keepFrom (w.previousSavedPaths.length - maxCkptToKeep).toNat

/-- The write of a checkpoint: its directory, then its files. -/
def write (path : Path) : Proc World Unit := do
  Proc.effect fun w => { w with dirs := w.dirs ++ [path], begun := w.begun ++ [path] }
  Proc.effect fun w => { w with intact := w.intact ++ [path] }

/-- `save_checkpoint` -/
def save (maxCkptToKeep : Option Int) (path : Path) : Proc World Unit := do
  ensureCheckpointCapacity maxCkptToKeep
  write path
  registerCheckpoint path maxCkptToKeep

def saves (maxCkptToKeep : Option Int) (paths : List Path) : Proc World Unit :=
  paths.forM (save maxCkptToKeep)

/-! ## What is to hold -/

/-- The checkpoint is on disk with all its files. -/
def World.OnDisk (w : World) (p : Path) : Prop := p ∈ w.dirs ∧ p ∈ w.intact

/-- The newest checkpoints are on disk, and there are not many. -/
structure Safe (k : Nat) (w : World) : Prop where
  survive : ∀ p ∈ w.registered.rtake (max (k - 1) 1), w.OnDisk p
  bound : (w.begun.filter (· ∈ w.dirs)).length ≤ max k 2

/-- The list of the manager has the registered checkpoints that are on disk, in order. -/
def Tracked (w : World) : Prop :=
  w.previousSavedPaths = w.registered.filter (· ∈ w.dirs)

/-- What is to hold of a sequence of saves by a new manager, stopped at any moment. -/
def Retained (k : Nat) (paths : List Path) (w : World) : Prop :=
  (∀ w' ∈ (saves (some k) paths).moments w, Safe k w') ∧
    ∀ done p rest, paths = done ++ p :: rest →
      ∃ before ensured after, before = (saves (some k) done w).world ∧
        ensured = (ensureCheckpointCapacity (some k) before).world ∧
        after = (save (some k) p before).world ∧
        before.registered = done ∧ Tracked ensured ∧
        after.registered = done ++ [p] ∧ Tracked after ∧
        ∀ q ∈ (done ++ [p]).rtake k, after.OnDisk q

/-- No path lies inside another, or is the same. -/
def Separate (paths : List Path) : Prop :=
  paths.Pairwise fun p q => ¬ p <+: q ∧ ¬ q <+: p

instance (paths : List Path) : Decidable (Separate paths) :=
  inferInstanceAs (Decidable (List.Pairwise _ paths))

/-! ## The newest entries of a list -/

variable {α : Type*}

theorem rtake_rtake (l : List α) (m n : Nat) : (l.rtake n).rtake m = l.rtake (min m n) := by
  rw [List.rtake, List.rtake, List.rtake, List.drop_drop, List.length_drop]
  congr 1
  omega

theorem length_rtake (l : List α) (n : Nat) : (l.rtake n).length = min n l.length := by
  rw [List.rtake, List.length_drop]
  omega

theorem rtake_of_length_le {l : List α} {n : Nat} (h : l.length ≤ n) : l.rtake n = l := by
  rw [List.rtake, Nat.sub_eq_zero_of_le h, List.drop_zero]

theorem rtake_sublist (l : List α) (n : Nat) : (l.rtake n).Sublist l := List.drop_sublist _ _

theorem rtake_subset_rtake (l : List α) {m n : Nat} (h : m ≤ n) : l.rtake m ⊆ l.rtake n := by
  rw [← Nat.min_eq_left h, ← rtake_rtake]
  exact (rtake_sublist _ _).subset

/-- A list without duplicates from which all but the newest are filtered out. -/
theorem filter_eq_rtake {l : List α} {n : Nat} {keep : α → Bool} (h : l.Nodup)
    (hkeep : ∀ x ∈ l, keep x = true ↔ x ∈ l.rtake n) : l.filter keep = l.rtake n := by
  obtain ⟨old, hold⟩ : ∃ old, old = l.take (l.length - n) := ⟨_, rfl⟩
  obtain ⟨new, hnew⟩ : ∃ new, new = l.rtake n := ⟨_, rfl⟩
  have hsplit : old ++ new = l := by
    rw [hold, hnew]
    exact List.take_append_drop _ l
  rw [← hnew] at hkeep ⊢
  rw [← hsplit] at h hkeep ⊢
  have hdisjoint := (List.nodup_append.mp h).2.2
  have hnone : old.filter keep = [] := by
    refine List.filter_eq_nil_iff.mpr fun x hx hkept => ?_
    exact hdisjoint x hx x ((hkeep x (List.mem_append_left _ hx)).mp hkept) rfl
  have hall : new.filter keep = new :=
    List.filter_eq_self.mpr fun x hx => (hkeep x (List.mem_append_right _ hx)).mpr hx
  rw [List.filter_append, hnone, hall, List.nil_append]

/-! ## The state of the disk -/

/-- The checkpoints there are and those that are complete, and what the manager knows. -/
structure Holding (begun registered tracked present complete : List Path) (w : World) :
    Prop where
  present : ∀ p ∈ begun, p ∈ w.dirs ↔ p ∈ present
  complete : ∀ p ∈ complete, w.OnDisk p
  tracked : w.previousSavedPaths = tracked
  begun : w.begun = begun
  registered : w.registered = registered

/-- The state between two saves. -/
def Saved (k : Nat) (done : List Path) : World → Prop :=
  Holding done done (done.rtake k) (done.rtake k) (done.rtake k)

variable {k : Nat} {begun registered tracked present complete : List Path} {w : World}

theorem Separate.nodup {paths : List Path} (h : Separate paths) : paths.Nodup :=
  h.imp fun hpq heq => hpq.1 ⟨[], by rw [heq, List.append_nil]⟩

theorem Holding.safe (h : Holding begun registered tracked present complete w)
    (hbegun : begun.Nodup) (hsurvive : registered.rtake (max (k - 1) 1) ⊆ complete)
    (hbound : present.length ≤ max k 2) : Safe k w where
  survive := by
    rw [h.registered]
    exact fun p hp => h.complete p (hsurvive hp)
  bound := by
    rw [h.begun]
    have hsubset : begun.filter (· ∈ w.dirs) ⊆ present := by
      intro p hp
      obtain ⟨hmem, hdirs⟩ := List.mem_filter.mp hp
      exact (h.present p hmem).mp (of_decide_eq_true hdirs)
    exact Nat.le_trans (List.subperm_of_subset (hbegun.filter _) hsubset).length_le hbound

/-- Nothing is missing from the list when a call is over. -/
theorem Holding.isTracked {done : List Path} {n : Nat}
    (h : Holding done done (done.rtake n) (done.rtake n) complete w) (hdone : done.Nodup) :
    Tracked w := by
  rw [Tracked, h.tracked, h.registered]
  refine (filter_eq_rtake hdone fun p hp => ?_).symm
  rw [decide_eq_true_iff]
  exact h.present p hp

/-! ## One triple for each call -/

theorem isPrefixOf_self (p : Path) : p.isPrefixOf p = true :=
  List.isPrefixOf_iff_prefix.mpr List.prefix_rfl

theorem not_isPrefixOf {p q : Path} (h : ¬ p <+: q) : (!p.isPrefixOf q) = true := by
  rw [Bool.not_eq_true', ← Bool.not_eq_true, List.isPrefixOf_iff_prefix]
  exact h

/-- Removing a checkpoint leaves the others as they are. -/
theorem triple_rmtree {p : Path} {rest : List Path} (hsep : Separate begun)
    (hsub : (p :: rest).Sublist begun)
    (hsurvive : registered.rtake (max (k - 1) 1) ⊆ rest)
    (hbound : (p :: rest).length ≤ max k 2) :
    Triple (Holding begun registered tracked (p :: rest) (p :: rest)) (rmtree p)
      (fun _ => Holding begun registered tracked rest rest) (Safe k) := by
  have hpart : Separate (p :: rest) := hsep.sublist hsub
  have hother : ∀ q ∈ rest, (!p.isPrefixOf q) = true := fun q hq =>
    not_isPrefixOf ((List.pairwise_cons.mp hpart).1 q hq).1
  have hdamage : ∀ w, Holding begun registered tracked (p :: rest) (p :: rest) w →
      Holding begun registered tracked (p :: rest) rest
        { w with intact := w.intact.filter fun q => !p.isPrefixOf q } := fun w h =>
    { begun := h.begun
      registered := h.registered
      tracked := h.tracked
      present := h.present
      complete := fun q hq =>
        have hdisk := h.complete q (List.mem_cons_of_mem p hq)
        ⟨hdisk.1, List.mem_filter.mpr ⟨hdisk.2, hother q hq⟩⟩ }
  have hunlink : ∀ w, Holding begun registered tracked (p :: rest) rest w →
      Holding begun registered tracked rest rest
        { w with dirs := w.dirs.filter fun q => !p.isPrefixOf q } := fun w h =>
    { begun := h.begun
      registered := h.registered
      tracked := h.tracked
      present := by
        intro q hq
        rw [List.mem_filter, h.present q hq, List.mem_cons]
        constructor
        · rintro ⟨rfl | hmem, hnot⟩
          · rw [isPrefixOf_self] at hnot
            cases hnot
          · exact hmem
        · exact fun hmem => ⟨.inr hmem, hother q hmem⟩
      complete := fun q hq =>
        have hdisk := h.complete q hq
        ⟨List.mem_filter.mpr ⟨hdisk.1, hother q hq⟩, hdisk.2⟩ }
  have hshort : rest.length ≤ max k 2 := Nat.le_trans (Nat.le_succ _) hbound
  exact triple_bind
    (triple_effect hdamage fun w h => (hdamage w h).safe hsep.nodup hsurvive hbound)
    fun _ => triple_effect hunlink fun w h => (hunlink w h).safe hsep.nodup hsurvive hshort

/-- The checkpoints that are on disk are those before the cut, which go, and those after it. -/
theorem triple_removePreviousSaveLocalPath {old new : List Path} (hsep : Separate begun)
    (hsub : (old ++ new).Sublist begun)
    (hsurvive : registered.rtake (max (k - 1) 1) ⊆ new)
    (hbound : (old ++ new).length ≤ max k 2) :
    Triple (Holding begun registered tracked (old ++ new) (old ++ new))
      (removePreviousSaveLocalPath old)
      (fun _ => Holding begun registered tracked new new) (Safe k) := by
  induction old with
  | nil => exact triple_pure fun _ h => h
  | cons p old ih =>
      have hsub' : (old ++ new).Sublist begun := (List.sublist_cons_self p _).trans hsub
      have hbound' : (old ++ new).length ≤ max k 2 := Nat.le_trans (Nat.le_succ _) hbound
      refine triple_bind (triple_get fun w hw => ?_) fun _ => ih hsub' hbound'
      have hexists : w.exists p = true := by
        have hmem : p ∈ begun := hsub.subset List.mem_cons_self
        have hdirs := (hw.present p hmem).mpr List.mem_cons_self
        exact List.any_eq_true.mpr ⟨p, hdirs, isPrefixOf_self p⟩
      rw [if_pos hexists]
      refine (triple_rmtree hsep hsub ?_ hbound).pre fun w' hw' => hw' ▸ hw
      exact fun q hq => List.mem_append_right _ (hsurvive hq)

/-- The cut leaves the newest `n`. -/
theorem triple_keepFrom {n : Nat} (hsep : Separate begun)
    (hsub : tracked.Sublist begun)
    (hsurvive : registered.rtake (max (k - 1) 1) ⊆ tracked.rtake n)
    (hbound : tracked.length ≤ max k 2) :
    Triple (Holding begun registered tracked tracked tracked) (keepFrom (tracked.length - n))
      (fun _ => Holding begun registered (tracked.rtake n) (tracked.rtake n) (tracked.rtake n))
      (Safe k) := by
  obtain ⟨old, hold⟩ : ∃ old, old = tracked.take (tracked.length - n) := ⟨_, rfl⟩
  have hsplit : old ++ tracked.rtake n = tracked := by
    rw [hold]
    exact List.take_append_drop _ tracked
  have hforget : ∀ w, Holding begun registered tracked (tracked.rtake n) (tracked.rtake n) w →
      Holding begun registered (tracked.rtake n) (tracked.rtake n) (tracked.rtake n)
        { w with previousSavedPaths := w.previousSavedPaths.drop (tracked.length - n) } :=
    fun w h =>
    { begun := h.begun
      registered := h.registered
      tracked := by
        rw [h.tracked]
        rfl
      present := h.present
      complete := h.complete }
  have hshort : (tracked.rtake n).length ≤ max k 2 := by
    rw [length_rtake]
    omega
  refine triple_get fun w hw => ?_
  rw [hw.tracked, ← hold]
  refine triple_bind ((triple_removePreviousSaveLocalPath hsep ?_ hsurvive ?_).pre ?_) fun _ =>
    triple_effect hforget fun w h => (hforget w h).safe hsep.nodup hsurvive hshort
  · rw [hsplit]
    exact hsub
  · rw [hsplit]
    exact hbound
  · rintro w' rfl
    rw [hsplit]
    exact hw

theorem triple_ensureCheckpointCapacity {done : List Path} (hsep : Separate done) (hk : 1 ≤ k) :
    Triple (Saved k done) (ensureCheckpointCapacity (some k))
      (fun _ => Holding done done (done.rtake (max (k - 1) 1)) (done.rtake (max (k - 1) 1))
        (done.rtake (max (k - 1) 1))) (Safe k) := by
  refine triple_get fun w hw => ?_
  have hlength : w.previousSavedPaths.length = (done.rtake k).length := by rw [hw.tracked]
  have hlen := length_rtake done k
  rw [hlength]
  split
  next hfull =>
    -- One more than the capacity allows before the write.
    have hcut : (((done.rtake k).length : Int) - k + 1).toNat =
        (done.rtake k).length - max (k - 1) 1 := by omega
    have hkept : (done.rtake k).rtake (max (k - 1) 1) = done.rtake (max (k - 1) 1) := by
      rw [rtake_rtake, Nat.min_eq_left (by omega)]
    have hkeep := @triple_keepFrom k done done (done.rtake k) (max (k - 1) 1) hsep
      (rtake_sublist done k) (by rw [hkept]; exact List.Subset.refl _) (by omega)
    rw [hkept, ← hcut] at hkeep
    exact hkeep.pre fun w' hw' => hw' ▸ hw
  next hroom =>
    have hkept : done.rtake (max (k - 1) 1) = done.rtake k := by
      by_cases hone : k = 1
      · subst hone
        rfl
      · rw [rtake_of_length_le (show done.length ≤ max (k - 1) 1 by omega),
          rtake_of_length_le (show done.length ≤ k by omega)]
    rw [hkept]
    exact triple_pure fun w' hw' => hw' ▸ hw

theorem triple_write {done : List Path} {p : Path} (hsep : Separate (done ++ [p])) :
    Triple (Holding done done (done.rtake (max (k - 1) 1)) (done.rtake (max (k - 1) 1))
        (done.rtake (max (k - 1) 1))) (write p)
      (fun _ => Holding (done ++ [p]) done (done.rtake (max (k - 1) 1))
        (done.rtake (max (k - 1) 1) ++ [p]) (done.rtake (max (k - 1) 1) ++ [p])) (Safe k) := by
  obtain ⟨kept, hkept⟩ : ∃ kept, kept = done.rtake (max (k - 1) 1) := ⟨_, rfl⟩
  have hlen := length_rtake done (max (k - 1) 1)
  rw [← hkept] at hlen ⊢
  have hbound : (kept ++ [p]).length ≤ max k 2 := by
    rw [List.length_append, List.length_singleton]
    omega
  have hmkdir : ∀ w, Holding done done kept kept kept w →
      Holding (done ++ [p]) done kept (kept ++ [p]) kept
        { w with dirs := w.dirs ++ [p], begun := w.begun ++ [p] } := fun w h =>
    { present := by
        intro q hq
        rw [List.mem_append, List.mem_append]
        rcases List.mem_append.mp hq with hq | hq
        · rw [h.present q hq]
        · exact iff_of_true (.inr hq) (.inr hq)
      complete := fun q hq => ⟨List.mem_append_left _ (h.complete q hq).1, (h.complete q hq).2⟩
      tracked := h.tracked
      begun := congrArg (· ++ [p]) h.begun
      registered := h.registered }
  have hfiles : ∀ w, Holding (done ++ [p]) done kept (kept ++ [p]) kept w →
      Holding (done ++ [p]) done kept (kept ++ [p]) (kept ++ [p])
        { w with intact := w.intact ++ [p] } := fun w h =>
    { present := h.present
      complete := by
        intro q hq
        rcases List.mem_append.mp hq with hq' | hq'
        · exact ⟨(h.complete q hq').1, List.mem_append_left _ (h.complete q hq').2⟩
        · have hbegun : q ∈ done ++ [p] := List.mem_append_right _ hq'
          exact ⟨(h.present q hbegun).mpr hq, List.mem_append_right _ hq'⟩
      tracked := h.tracked
      begun := h.begun
      registered := h.registered }
  refine triple_bind (triple_effect hmkdir fun w h => ?_) fun _ =>
    triple_effect hfiles fun w h => ?_
  · refine (hmkdir w h).safe hsep.nodup ?_ hbound
    rw [← hkept]
    exact List.Subset.refl _
  · refine (hfiles w h).safe hsep.nodup ?_ hbound
    rw [← hkept]
    exact List.subset_append_left _ _

theorem triple_registerCheckpoint {done : List Path} {p : Path} (hsep : Separate (done ++ [p]))
    (hk : 1 ≤ k) :
    Triple (Holding (done ++ [p]) done (done.rtake (max (k - 1) 1))
        (done.rtake (max (k - 1) 1) ++ [p]) (done.rtake (max (k - 1) 1) ++ [p]))
      (registerCheckpoint p (some k)) (fun _ => Saved k (done ++ [p])) (Safe k) := by
  obtain ⟨all, hall⟩ : ∃ all, all = done ++ [p] := ⟨_, rfl⟩
  have hnew : done.rtake (max (k - 1) 1) ++ [p] = all.rtake (max k 2) := by
    rw [hall, show max k 2 = max (k - 1) 1 + 1 by omega, List.rtake_concat_succ]
  rw [hnew, ← hall]
  have hlen := length_rtake all (max k 2)
  have hsurvive : all.rtake (max (k - 1) 1) ⊆ all.rtake (max k 2) :=
    rtake_subset_rtake all (by omega)
  have hregister : ∀ w, Holding all done (done.rtake (max (k - 1) 1)) (all.rtake (max k 2))
        (all.rtake (max k 2)) w →
      Holding all all (all.rtake (max k 2)) (all.rtake (max k 2)) (all.rtake (max k 2))
        { w with
          previousSavedPaths := w.previousSavedPaths ++ [p]
          registered := w.registered ++ [p] } := fun w h =>
    { present := h.present
      complete := h.complete
      tracked := by
        rw [h.tracked]
        exact hnew
      begun := h.begun
      registered := by
        rw [h.registered, hall] }
  refine triple_bind (Q := fun _ => Holding all all (all.rtake (max k 2)) (all.rtake (max k 2))
    (all.rtake (max k 2))) (triple_effect hregister fun w h =>
    (hregister w h).safe (hall ▸ hsep).nodup hsurvive (by omega)) fun _ => ?_
  refine triple_get fun w hw => ?_
  have hlength : w.previousSavedPaths.length = (all.rtake (max k 2)).length := by rw [hw.tracked]
  rw [hlength]
  split
  next hfull =>
    have hcut : (((all.rtake (max k 2)).length : Int) - k).toNat =
        (all.rtake (max k 2)).length - k := by omega
    have hkept : (all.rtake (max k 2)).rtake k = all.rtake k := by
      rw [rtake_rtake, Nat.min_eq_left (by omega)]
    have hkeep := @triple_keepFrom k all all (all.rtake (max k 2)) k (hall ▸ hsep)
      (rtake_sublist all _) (by rw [hkept]; exact rtake_subset_rtake all (by omega)) (by omega)
    rw [hkept, ← hcut] at hkeep
    exact hkeep.pre fun w' hw' => hw' ▸ hw
  next hroom =>
    have hkept : all.rtake k = all.rtake (max k 2) := by
      by_cases hone : k = 1
      · rw [rtake_of_length_le (show all.length ≤ k by omega),
          rtake_of_length_le (show all.length ≤ max k 2 by omega)]
      · rw [Nat.max_eq_left (by omega)]
    rw [Saved, hkept]
    exact triple_pure fun w' hw' => hw' ▸ hw

/-! ## Sequences of saves -/

theorem triple_save {done : List Path} {p : Path} (hsep : Separate (done ++ [p])) (hk : 1 ≤ k) :
    Triple (Saved k done) (save (some k) p) (fun _ => Saved k (done ++ [p])) (Safe k) :=
  triple_bind (triple_ensureCheckpointCapacity (hsep.sublist (List.sublist_append_left _ _)) hk)
    fun _ => triple_bind (triple_write hsep) fun _ => triple_registerCheckpoint hsep hk

/-- The induction over the saves. -/
theorem triple_saves {done paths : List Path} (hsep : Separate (done ++ paths)) (hk : 1 ≤ k) :
    Triple (Saved k done) (saves (some k) paths) (fun _ => Saved k (done ++ paths)) (Safe k) := by
  induction paths generalizing done with
  | nil =>
      rw [List.append_nil]
      exact triple_pure fun _ hw => hw
  | cons p paths ih =>
      rw [List.append_cons] at hsep ⊢
      exact triple_bind (triple_save (hsep.sublist (List.sublist_append_left _ _)) hk) fun _ =>
        ih hsep

theorem saved_fresh (dirs intact : List Path) : Saved k [] (World.fresh dirs intact) where
  present := fun _ h => absurd h List.not_mem_nil
  complete := fun p h => by
    rw [List.rtake_nil] at h
    exact absurd h List.not_mem_nil
  tracked := (List.rtake_nil k).symm
  begun := rfl
  registered := rfl

/-- As long as no path lies inside another, the newest checkpoints are on disk at every
moment, there are not many, and the manager knows which ones there are. -/
theorem retained_of_separate {k : Nat} {paths : List Path} (hk : 1 ≤ k) (hsep : Separate paths)
    (dirs intact : List Path) : Retained k paths (World.fresh dirs intact) := by
  constructor
  · have hfresh := @saved_fresh k dirs intact
    refine (@triple_saves k [] paths hsep hk).moments hfresh (hfresh.safe List.nodup_nil ?_ ?_)
    · rw [List.rtake_nil]
      exact List.nil_subset _
    · rw [List.rtake_nil]
      exact Nat.zero_le _
  · rintro done p rest rfl
    have hsep' : Separate (done ++ [p]) := by
      rw [List.append_cons] at hsep
      exact hsep.sublist (List.sublist_append_left _ _)
    have hdone : Separate done := hsep'.sublist (List.sublist_append_left _ _)
    have hbefore := (@triple_saves k [] done hdone hk _ (saved_fresh dirs intact)).1
    have hensured := (triple_ensureCheckpointCapacity hdone hk _ hbefore).1
    have hafter := (triple_save hsep' hk _ hbefore).1
    exact ⟨_, _, _, rfl, rfl, rfl, hbefore.registered, hensured.isTracked hdone.nodup,
      hafter.registered, hafter.isTracked hsep'.nodup, hafter.complete⟩

theorem retained_of_separate_twoSteps :
    (1 : Nat) ≤ 1 ∧ Separate [["ckpts", "step_1"], ["ckpts", "step_2"]] ∧
      Retained 1 [["ckpts", "step_1"], ["ckpts", "step_2"]] (World.fresh [] []) :=
  have hsep : Separate [["ckpts", "step_1"], ["ckpts", "step_2"]] := by decide
  ⟨Nat.le_refl 1, hsep, retained_of_separate (Nat.le_refl 1) hsep [] []⟩

/-- The second checkpoint lies inside the first and goes with it. -/
theorem not_retained_nested :
    [["ckpt"], ["ckpt", "new"]].Nodup ∧
      ¬ Retained 1 [["ckpt"], ["ckpt", "new"]] (World.fresh [] []) := by
  refine ⟨by decide, fun h => ?_⟩
  obtain ⟨before, ensured, after, hbefore, -, hafter, -, -, -, -, hdisk⟩ :=
    h.2 [["ckpt"]] ["ckpt", "new"] [] rfl
  have hdirs : after.dirs = [] := by
    rw [hafter, hbefore]
    decide
  have hmem := (hdisk ["ckpt", "new"] (by decide)).1
  rw [hdirs] at hmem
  exact List.not_mem_nil hmem

end Verl.Retention
