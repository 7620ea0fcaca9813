import Verl.ActivationOffload.Passes

/-!
# The backward pass

The backward pass brings the groups back in the other direction, each one while a later
layer computes.  A commit there fails only if a tensor that was saved under the key of
another one of its group has more or fewer elements than that one.
-/

namespace Verl

open Streams (Seen)

/-! ## The calls -/

namespace OffloadHandler

variable {κ α : Type} [DecidableEq κ] {address : κ → κ} {G : Nat} {windows : List Int}
  {h h' : OffloadHandler κ α}

/-- The handler of the layer before, once both streams have waited. -/
def turned (h : OffloadHandler κ α) : OffloadHandler κ α :=
  ({ h with currentGroup := h.currentGroup - 1 }.waitStream .h2d .current).waitStream .current .h2d

/-- The end of a commit: the first layer waits for all that came back. -/
def finished (h : OffloadHandler κ α) : OffloadHandler κ α :=
  if h.currentGroup = 0 then { h.waitStream .current .h2d with offloadedGroupCount := 0 } else h

/-- A commit at which a group comes back. -/
theorem onGroupCommitBackward_window (address : κ → κ) (G : Nat) (hpos : 0 < h.currentGroup)
    (hmap : layerWindow windows ((h.offloadedGroupCount : Int) - 1) =
      .ok ((h.currentGroup - 1 : Nat) : Int)) :
    h.onGroupCommitBackward address G windows =
      (h.turned.bulkReloadGroup address G (h.offloadedGroupCount - 1)).map fun h' =>
        { h' with
          offloadedGroupCount :=
            if 1 < h'.offloadedGroupCount then h'.offloadedGroupCount - 1
            else h'.offloadedGroupCount }.finished := by
  simp only [onGroupCommitBackward, Py.check_of_true hpos, Py.ok_bind, hmap, if_pos,
    waitStream_offloadedGroupCount]
  rw [← turned]
  cases h.turned.bulkReloadGroup address G (h.offloadedGroupCount - 1) with
  | error error => rfl
  | ok h' =>
      simp only [Py.ok_bind, Py.pure_eq_ok, Except.map, finished]
      split
      · rfl
      · rfl

/-- A commit at which nothing comes back. -/
theorem onGroupCommitBackward_stay (address : κ → κ) (G : Nat) (hpos : 0 < h.currentGroup)
    {window : Int}
    (hmap : layerWindow windows ((h.offloadedGroupCount : Int) - 1) = .ok window)
    (hwindow : window ≠ ((h.currentGroup - 1 : Nat) : Int)) :
    h.onGroupCommitBackward address G windows =
      .ok { h with currentGroup := h.currentGroup - 1 }.finished := by
  simp only [onGroupCommitBackward, Py.check_of_true hpos, Py.ok_bind, hmap, if_neg hwindow,
    Py.pure_eq_ok, finished]
  split
  · rfl
  · rfl

/-- A commit goes to the layer before. -/
theorem currentGroup_of_onGroupCommitBackward
    (hcommit : h.onGroupCommitBackward address G windows = .ok h') :
    h'.currentGroup = h.currentGroup - 1 := by
  have hreload {h₁ h₂ : OffloadHandler κ α} {g : Nat}
      (hcall : h₁.bulkReloadGroup address G g = .ok h₂) : h₂.currentGroup = h₁.currentGroup := by
    obtain ⟨-, -, hcall⟩ := Py.bind_eq_ok.mp hcall
    split at hcall
    · cases hcall
    · obtain ⟨-, -, hcall⟩ := Py.bind_eq_ok.mp hcall
      obtain rfl := Except.ok.inj hcall
      rfl
  have hfinished (h₁ : OffloadHandler κ α) : h₁.finished.currentGroup = h₁.currentGroup := by
    rw [finished]
    split
    · rfl
    · rfl
  obtain ⟨u, hpos, hcommit'⟩ := Py.bind_eq_ok.mp hcommit
  obtain ⟨window, hmap, -⟩ := Py.bind_eq_ok.mp hcommit'
  have hpos : 0 < h.currentGroup := Py.of_check_eq_ok hpos
  obtain rfl | hwindow := Decidable.em (window = ((h.currentGroup - 1 : Nat) : Int))
  · rw [onGroupCommitBackward_window _ _ hpos hmap] at hcommit
    cases hcall : h.turned.bulkReloadGroup address G (h.offloadedGroupCount - 1) with
    | error error =>
        rw [hcall] at hcommit
        cases hcommit
    | ok h₂ =>
        rw [hcall] at hcommit
        obtain rfl := Except.ok.inj hcommit
        rw [hfinished]
        exact hreload hcall
  · rw [onGroupCommitBackward_stay _ _ hpos hmap hwindow] at hcommit
    obtain rfl := Except.ok.inj hcommit
    rw [hfinished]

end OffloadHandler

namespace OffloadOk

variable {κ α : Type} [DecidableEq κ] {address : κ → κ} {L G : Nat} {s : OffloadRun κ α}

/-- The backward pass begins where the forward pass ends. -/
theorem turn (hok : OffloadOk address L G s) (hG : 0 < G) (hlt : G < L)
    (hforward : s.forward = true) (hend : s.handler.currentGroup = L) :
    OffloadOk address L G { s with forward := false } where
  tables := by
    have htables := hok.tables
    rw [hforward, hend, funext (place_turn hG hlt)] at htables
    simp only [hend]
    exact htables
  le := hok.le
  live := fun hfalse => by cases hfalse
  fresh := fun hfalse => by cases hfalse
  groups := hok.groups
  count := fun hfalse => by cases hfalse
  countBackward := fun _ => by
    have hcount := hok.count hforward
    have hall : s.handler.offloadedGroupCount = G := by
      refine Nat.le_antisymm hcount.1 (Nat.le_of_not_lt fun hk => ?_)
      have := hcount.2.2 _ (Nat.le_refl _) hk
      have := window_lt_layers hG (Nat.le_of_lt hlt) hk
      omega
    rw [if_neg (by change s.handler.currentGroup ≠ 0; omega)]
    exact ⟨s.handler.offloadedGroupCount, hcount,
      show s.handler.offloadedGroupCount = max 1 s.handler.offloadedGroupCount by omega⟩
  freed := fun i hi _ => hok.freed i hi fun _ => by
    rw [hend]
    exact window_lt_layers hG (Nat.le_of_lt hlt) hi
  waited := fun _ i hi hle => by
    have hle : s.handler.currentGroup ≤ offloadedAt L G i := hle
    have := offloadedAt_lt_window hG hlt i
    have := window_lt_layers hG (Nat.le_of_lt hlt) hi
    omega
  buffers := fun tag tensor hget => by
    obtain ⟨-, hi, -, hwindow⟩ := hok.buffers tag tensor hget
    have := window_lt_layers hG (Nat.le_of_lt hlt) hi
    omega

/-- A commit, once the handler has brought back what comes back there. -/
theorem of_commitBackward (hok : OffloadOk address L G s) (hbackward : s.forward = false)
    {c : Nat} (hc : s.handler.currentGroup = c + 1) {h : OffloadHandler κ α}
    (hgroup : h.currentGroup = c)
    (htables : HandlerOk address s.graph s.live (place L G false c) h)
    (hcount : ∃ k, Passed L G k c ∧ h.offloadedGroupCount = max 1 k)
    (hfreed : ∀ i < G, h.seen .current (.offload i) = true)
    (hwaited : 0 < c → ∀ i < G, c ≤ offloadedAt L G i → h.seen .current (.reload i) = true)
    (hbuffers : h.tensorTagToBuf = s.handler.tensorTagToBuf) :
    OffloadOk address L G { s with handler := h.finished } := by
  have hle := hok.le
  have hkept (tag : TensorTag) (tensor : DeviceTensor κ α)
      (hget : h.tensorTagToBuf.get? tag = some (some tensor)) : False := by
    have hforward := (hok.buffers tag tensor (hbuffers ▸ hget)).1
    rw [hbackward] at hforward
    cases hforward
  obtain rfl | hpos := Nat.eq_zero_or_pos c
  · have hfinished : h.finished =
        { h.waitStream .current .h2d with offloadedGroupCount := 0 } := if_pos hgroup
    rw [hfinished]
    constructor
    · simp only [hbackward, OffloadHandler.waitStream_currentGroup, hgroup]
      exact (htables.waitStream .current .h2d).of_tables rfl rfl rfl htables.safe
    · exact hgroup ▸ Nat.zero_le L
    · exact hok.live
    · exact fun hforward => by simp [hbackward] at hforward
    · exact hok.groups
    · exact fun hforward => by simp [hbackward] at hforward
    · exact fun _ => if_pos hgroup ▸ rfl
    · exact fun i hi _ => Seen.wait_of_seen (hfreed i hi)
    · intro _ i hi _
      refine Seen.wait_self (htables.returned i ?_)
      rw [place_backward hi, if_neg (Nat.not_lt_zero _)]
    · exact fun tag tensor hget => (hkept tag tensor hget).elim
  · have hfinished : h.finished = h := if_neg (by omega)
    rw [hfinished]
    constructor
    · simp only [hbackward, hgroup]
      exact htables
    · change h.currentGroup ≤ L
      omega
    · exact hok.live
    · exact fun hforward => by simp [hbackward] at hforward
    · exact hok.groups
    · exact fun hforward => by simp [hbackward] at hforward
    · intro _
      simp only [hgroup, if_neg (Nat.ne_of_gt hpos)]
      exact hcount
    · exact fun i hi _ => hfreed i hi
    · intro _ i hi hat
      exact hwaited hpos i hi (hgroup ▸ hat)
    · exact fun tag tensor hget => (hkept tag tensor hget).elim

/-- The window of the group that comes back next. -/
theorem commitBackward_window (hok : OffloadOk address L G s) (hG : 0 < G) (hlt : G < L)
    (hbackward : s.forward = false) {c k : Nat} (hc : s.handler.currentGroup = c + 1)
    (hpassed : Passed L G (k + 1) (c + 1)) (hcount : s.handler.offloadedGroupCount = k + 1)
    (hwindow : window L G k = c) :
    (∀ h', s.handler.onGroupCommitBackward address G (layerWindowMap L G) = .ok h' →
      OffloadOk address L G { s with handler := h' }) ∧
    (∀ error, s.handler.onGroupCommitBackward address G (layerWindowMap L G) = .error error →
      error = .runtime "shape is invalid for input") ∧
    ((∀ p ∈ s.live, p.1.1 = k → (firstLike s.graph p).elems.length = p.2.shape.prod) →
      ∃ h', s.handler.onGroupCommitBackward address G (layerWindowMap L G) = .ok h') := by
  have hle := Nat.le_of_lt hlt
  have hk : k < G := hpassed.1
  have hpos : 0 < s.handler.currentGroup := by omega
  have hpred : s.handler.currentGroup - 1 = c := by omega
  have htables := hok.tables
  rw [hbackward, hc] at htables
  have hhost : place L G false (c + 1) k = .host := by
    rw [place_backward hk, if_pos (by omega)]
  have hcounted : HandlerOk address s.graph s.live (place L G false (c + 1))
      { s.handler with currentGroup := s.handler.currentGroup - 1 } :=
    htables.of_tables rfl rfl rfl htables.safe
  -- Both streams wait.
  have hturned : HandlerOk address s.graph s.live (place L G false (c + 1)) s.handler.turned :=
    (hcounted.waitStream .h2d .current).waitStream .current .h2d
  have hfreed (i : Nat) (hi : i < G) : s.handler.seen .current (.offload i) = true :=
    hok.freed i hi fun hforward => by simp [hbackward] at hforward
  have hseen : s.handler.turned.seen .h2d (.offload k) = true :=
    Seen.wait_of_seen (Seen.wait_self (hfreed k hk))
  have hmap : layerWindow (layerWindowMap L G) ((s.handler.offloadedGroupCount : Int) - 1) =
      .ok ((s.handler.currentGroup - 1 : Nat) : Int) := by
    rw [hcount, hpred, ← hwindow, Int.natCast_succ, Int.add_sub_cancel]
    exact layerWindow_eq hG hle hk
  have hcommit := OffloadHandler.onGroupCommitBackward_window address G hpos hmap
  rw [hcount, Nat.add_sub_cancel] at hcommit
  have hreload (hfit : ∀ p ∈ s.live, p.1.1 = k →
      (firstLike s.graph p).elems.length = p.2.shape.prod) :
      ∃ h', s.handler.turned.bulkReloadGroup address G k = .ok h' ∧
        OffloadOk address L G { s with handler := { h' with
          offloadedGroupCount :=
            if 1 < h'.offloadedGroupCount then h'.offloadedGroupCount - 1
            else h'.offloadedGroupCount }.finished } := by
    obtain ⟨h', hreload, htables', hgroup, hoffloaded, hbuf, hsame⟩ :=
      hturned.bulkReloadGroup hk hhost hseen hfit
    have hgroup : h'.currentGroup = c := hgroup.trans hpred
    have hoffloaded : h'.offloadedGroupCount = k + 1 := hoffloaded.trans hcount
    refine ⟨h', hreload, hok.of_commitBackward hbackward hc hgroup ?_ ?_ ?_ ?_ hbuf⟩
    · refine HandlerOk.of_tables (h := h') ?_ rfl rfl rfl htables'.safe
      convert htables' using 1
      funext i
      rw [place_backward_pred]
      refine if_congr ?_ rfl rfl
      constructor
      · rintro ⟨-, hi⟩
        exact window_inj hG hle (hi.trans hwindow.symm)
      · rintro rfl
        exact ⟨hk, hwindow⟩
    · refine ⟨k, ⟨Nat.le_of_lt hk, fun i hi => ?_, fun i hi _ => ?_⟩, ?_⟩
      · rw [← hwindow]
        exact window_lt hG hle hi
      · rw [← hwindow]
        obtain hi | rfl := Nat.lt_or_eq_of_le hi
        · exact Nat.le_of_lt (window_lt hG hle hi)
        · exact Nat.le_refl _
      · simp only [hoffloaded]
        split
        · omega
        · omega
    · intro i hi
      exact (hsame _ _ (by simp)).trans (Seen.wait_of_seen (Seen.wait_of_seen (hfreed i hi)))
    · intro _ i hi hat
      have hk' := offloadedAt_lt_window hG hlt k
      have hne : i ≠ k := by
        rintro rfl
        omega
      refine (hsame _ _ (by simp [hne])).trans ?_
      obtain hlater | hat := Nat.lt_or_eq_of_le hat
      · exact Seen.wait_of_seen (Seen.wait_of_seen (hok.waited hbackward i hi (by omega)))
      · have hi' := offloadedAt_lt_window hG hlt i
        refine Seen.wait_self (Seen.wait_of_seen (htables.returned i ?_))
        rw [place_backward hi, if_neg (by omega)]
  refine ⟨fun h' hok' => ?_, fun error herror => ?_, fun hfit => ?_⟩
  · rw [hcommit] at hok'
    cases hcall : s.handler.turned.bulkReloadGroup address G k with
    | error error =>
        rw [hcall] at hok'
        cases hok'
    | ok h'' =>
        rw [hcall] at hok'
        obtain ⟨h₁, hcall', hafter⟩ := hreload (hturned.length_eq_of_bulkReloadGroup hhost hcall)
        obtain rfl := Except.ok.inj (hcall.symm.trans hcall')
        obtain rfl := Except.ok.inj hok'
        exact hafter
  · rw [hcommit] at herror
    cases hcall : s.handler.turned.bulkReloadGroup address G k with
    | error error' =>
        rw [hcall] at herror
        obtain rfl := Except.error.inj herror
        exact hturned.bulkReloadGroup_eq_error hk hhost hcall
    | ok h'' =>
        rw [hcall] at herror
        cases herror
  · obtain ⟨h', hcall, -⟩ := hreload hfit
    rw [hcommit, hcall]
    exact ⟨_, rfl⟩

/-- A layer with no window. -/
theorem commitBackward_stay (hok : OffloadOk address L G s) (hG : 0 < G) (hlt : G < L)
    (hbackward : s.forward = false) {c k : Nat} (hc : s.handler.currentGroup = c + 1)
    (hpassed : Passed L G k (c + 1)) (hcount : s.handler.offloadedGroupCount = max 1 k)
    (hwindow : window L G (max 1 k - 1) ≠ c) :
    ∃ h', s.handler.onGroupCommitBackward address G (layerWindowMap L G) = .ok h' ∧
      OffloadOk address L G { s with handler := h' } := by
  have hle := Nat.le_of_lt hlt
  have hpos : 0 < s.handler.currentGroup := by omega
  have hpred : s.handler.currentGroup - 1 = c := by omega
  have hindex : max 1 k - 1 < G := by
    have := hpassed.1
    omega
  have hnone (i : Nat) (hi : i < G) : window L G i ≠ c := by
    intro heq
    obtain hik | hik := Nat.lt_or_ge i k
    · have := hpassed.2.1 (k - 1) (by omega)
      obtain hlast | rfl : i < k - 1 ∨ i = k - 1 := by omega
      · have := window_lt hG hle hlast
        omega
      · exact hwindow (by rwa [Nat.max_eq_right (by omega)])
    · have := hpassed.2.2 i hik hi
      omega
  have hpassed' : Passed L G k c := by
    refine ⟨hpassed.1, fun i hi => ?_, fun i hi hiG => ?_⟩
    · have := hpassed.2.1 i hi
      have := hnone i (by have := hpassed.1; omega)
      omega
    · have := hpassed.2.2 i hi hiG
      omega
  have hmap : layerWindow (layerWindowMap L G) ((s.handler.offloadedGroupCount : Int) - 1) =
      .ok (window L G (max 1 k - 1) : Int) := by
    have hcast : (s.handler.offloadedGroupCount : Int) - 1 = ((max 1 k - 1 : Nat) : Int) := by
      rw [hcount]
      omega
    rw [hcast]
    exact layerWindow_eq hG hle hindex
  have htables := hok.tables
  rw [hbackward, hc] at htables
  have hcommit := OffloadHandler.onGroupCommitBackward_stay address G hpos hmap (by omega)
  refine ⟨_, hcommit, hok.of_commitBackward hbackward hc hpred ?_ ⟨k, hpassed', hcount⟩ ?_ ?_ rfl⟩
  · refine HandlerOk.of_tables (h := s.handler) ?_ rfl rfl rfl htables.safe
    convert htables using 1
    funext i
    rw [place_backward_pred, if_neg]
    rintro ⟨hi, heq⟩
    exact hnone i hi heq
  · exact fun i hi => hok.freed i hi fun hforward => by simp [hbackward] at hforward
  · intro hc' i hi hat
    refine hok.waited hbackward i hi ?_
    rw [hc]
    refine Nat.lt_of_le_of_ne hat fun heq => ?_
    cases i with
    | zero =>
        rw [heq] at hc'
        exact Nat.lt_irrefl 0 hc'
    | succ i => exact hnone i (by omega) heq.symm

/-- Every commit of the backward pass. -/
theorem commitBackward (hok : OffloadOk address L G s) (hG : 0 < G) (hlt : G < L)
    (hbackward : s.forward = false) (hpos : 0 < s.handler.currentGroup) :
    (∀ h', s.handler.onGroupCommitBackward address G (layerWindowMap L G) = .ok h' →
      OffloadOk address L G { s with handler := h' }) ∧
    (∀ error, s.handler.onGroupCommitBackward address G (layerWindowMap L G) = .error error →
      error = .runtime "shape is invalid for input") ∧
    ((∀ p ∈ s.live, (firstLike s.graph p).elems.length = p.2.shape.prod) →
      ∃ h', s.handler.onGroupCommitBackward address G (layerWindowMap L G) = .ok h') := by
  obtain ⟨c, hc⟩ := Nat.exists_eq_succ_of_ne_zero (Nat.ne_of_gt hpos)
  have hcount := hok.countBackward hbackward
  rw [if_neg (Nat.ne_of_gt hpos), hc] at hcount
  obtain ⟨k, hpassed, hcount⟩ := hcount
  obtain hwindow | hwindow := Decidable.em (window L G (max 1 k - 1) = c)
  · cases k with
    | zero =>
        have := hpassed.2.2 0 (Nat.le_refl 0) hG
        have hwindow : window L G 0 = c := hwindow
        omega
    | succ k =>
        rw [Nat.max_eq_right (Nat.succ_pos k)] at hcount hwindow
        obtain ⟨hok', herror, hfit⟩ :=
          hok.commitBackward_window hG hlt hbackward hc hpassed hcount hwindow
        exact ⟨hok', herror, fun h => hfit fun p hp _ => h p hp⟩
  · obtain ⟨h', hcommit, hok'⟩ := hok.commitBackward_stay hG hlt hbackward hc hpassed hcount hwindow
    refine ⟨fun h'' h => ?_, fun error h => ?_, fun _ => ⟨h', hcommit⟩⟩
    · obtain rfl := Except.ok.inj (hcommit.symm.trans h)
      exact hok'
    · rw [hcommit] at h
      cases h

end OffloadOk

end Verl
