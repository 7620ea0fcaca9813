import Verl.ActivationOffload.Copies

/-!
# What a pass keeps

After layer `c` of a forward pass the groups up to some `k` are copied and freed, the
group `k` is being copied, and later groups are on the device.  The backward pass goes
the same way back.  `OffloadOk` says this of the tables, of the counter, and of what
the streams have seen.
-/

namespace Verl

open Streams (Seen)

/-! ## Where a group is -/

/-- At which commit of a forward pass the copy of a group begins. -/
def offloadedAt (L G i : Nat) : Nat := if i = 0 then 0 else window L G (i - 1)

/-- Where a group is before layer `c`. -/
def place (L G : Nat) (forward : Bool) (c i : Nat) : GroupPlace :=
  if G ≤ i then .device
  else if forward then (if offloadedAt L G i < c then .host else .device)
  else if window L G i < c then .host
  else .returned

/-- The first `k` groups are freed before layer `c`. -/
def Passed (L G k c : Nat) : Prop :=
  k ≤ G ∧ (∀ i, i < k → window L G i < c) ∧ ∀ i, k ≤ i → i < G → c ≤ window L G i

section

variable {L G : Nat} {c i j k : Nat}

theorem window_inj (hG : 0 < G) (hle : G ≤ L) (h : window L G i = window L G j) : i = j :=
  (strictMono_nat_of_lt_succ (window_lt_succ hG hle)).injective h

theorem le_offloadedAt (hG : 0 < G) (hlt : G < L) (i : Nat) : i ≤ offloadedAt L G i := by
  cases i with
  | zero => exact Nat.zero_le _
  | succ i => exact lt_window hG hlt i

theorem offloadedAt_lt_window (hG : 0 < G) (hlt : G < L) (i : Nat) :
    offloadedAt L G i < window L G i := by
  cases i with
  | zero => exact lt_window hG hlt 0
  | succ i => exact window_lt_succ hG (Nat.le_of_lt hlt) i

theorem place_forward (h : i < G) :
    place L G true c i = if offloadedAt L G i < c then .host else .device := by
  rw [place, if_neg (Nat.not_le_of_lt h), if_pos rfl]

theorem place_backward (h : i < G) :
    place L G false c i = if window L G i < c then .host else .returned := by
  rw [place, if_neg (Nat.not_le_of_lt h), if_neg Bool.false_ne_true]

theorem place_of_le (forward : Bool) (h : G ≤ i) : place L G forward c i = .device := if_pos h

/-- The layer that runs keeps its tensors. -/
theorem place_current (hG : 0 < G) (hlt : G < L) : place L G true c c = .device := by
  obtain h | h := Nat.lt_or_ge c G
  · rw [place_forward h, if_neg (Nat.not_lt_of_le (le_offloadedAt hG hlt c))]
  · exact place_of_le true h

/-- A commit of a forward pass moves the group whose copy begins there. -/
theorem place_forward_succ (c i : Nat) :
    place L G true (c + 1) i =
      if i < G ∧ offloadedAt L G i = c then .host else place L G true c i := by
  obtain h | h := Nat.lt_or_ge i G
  · rw [place_forward h, place_forward h]
    obtain hc | hc | hc := Nat.lt_trichotomy (offloadedAt L G i) c
    · rw [if_pos (by omega), if_neg (by omega), if_pos hc]
    · rw [if_pos (by omega), if_pos ⟨h, hc⟩]
    · rw [if_neg (by omega), if_neg (by omega), if_neg (by omega)]
  · rw [place_of_le true h, place_of_le true h, if_neg (by omega)]

/-- A commit of the backward pass moves the group that was freed there. -/
theorem place_backward_pred (c i : Nat) :
    place L G false c i =
      if i < G ∧ window L G i = c then .returned else place L G false (c + 1) i := by
  obtain h | h := Nat.lt_or_ge i G
  · rw [place_backward h, place_backward h]
    obtain hc | hc | hc := Nat.lt_trichotomy (window L G i) c
    · rw [if_pos (by omega), if_neg (by omega), if_pos (by omega)]
    · rw [if_neg (by omega), if_pos ⟨h, hc⟩]
    · rw [if_neg (by omega), if_neg (by omega), if_neg (by omega)]
  · rw [place_of_le false h, place_of_le false h, if_neg (by omega)]

/-- At the end of a forward pass all groups that move have moved. -/
theorem place_turn (hG : 0 < G) (hlt : G < L) (i : Nat) :
    place L G true L i = place L G false L i := by
  obtain h | h := Nat.lt_or_ge i G
  · have hwindow := window_lt_layers hG (Nat.le_of_lt hlt) h
    have := offloadedAt_lt_window hG hlt i
    rw [place_forward h, place_backward h, if_pos (by omega), if_pos hwindow]
  · rw [place_of_le true h, place_of_le false h]

namespace Passed

/-- Before the last layer some group is not freed. -/
theorem lt (h : Passed L G k c) (hG : 0 < G) (hle : G ≤ L) (hc : c < L) : k < G := by
  by_contra hk
  have hwindow := h.2.1 (G - 1) (by omega)
  rw [window_last hG hle] at hwindow
  omega

/-- The next group is freed at the first window that is not over. -/
theorem succ (h : Passed L G k c) (hG : 0 < G) (hle : G ≤ L) (hk : k < G)
    (hwindow : window L G k = c) : Passed L G (k + 1) (c + 1) := by
  refine ⟨hk, fun i hi => ?_, fun i hi _ => ?_⟩
  · obtain hi | rfl := Nat.lt_succ_iff_lt_or_eq.mp hi
    · exact Nat.lt_succ_of_lt (h.2.1 i hi)
    · rw [hwindow]
      exact Nat.lt_succ_self c
  · rw [← hwindow]
    exact window_lt hG hle hi

/-- At another layer no group is freed. -/
theorem stay (h : Passed L G k c) (hG : 0 < G) (hle : G ≤ L) (hk : k < G)
    (hwindow : window L G k ≠ c) : Passed L G k (c + 1) := by
  refine ⟨h.1, fun i hi => Nat.lt_succ_of_lt (h.2.1 i hi), fun i hi _ => ?_⟩
  have hfirst := h.2.2 k (Nat.le_refl k) hk
  obtain hlt | rfl := Nat.lt_or_eq_of_le hi
  · have := window_lt hG hle hlt
    omega
  · omega

/-- Then no window is there. -/
theorem window_ne (h : Passed L G k c) (h' : Passed L G k (c + 1)) (hi : i < G) :
    window L G i ≠ c := by
  obtain hik | hik := Nat.lt_or_ge i k
  · exact Nat.ne_of_lt (h.2.1 i hik)
  · exact (Nat.ne_of_lt (h'.2.2 i hik hi)).symm

end Passed

end

/-! ## The calls -/

namespace OffloadHandler

variable {κ α : Type} [DecidableEq κ] {G : Nat} {windows : List Int} {h h' : OffloadHandler κ α}

/-- The first commit. -/
theorem onGroupCommitForward_first (hfirst : h.currentGroup = 0)
    (hoffload : (h.waitStream .d2h .current).bulkOffloadGroup 0 = .ok h') {window : Int}
    (hmap : layerWindow windows h'.offloadedGroupCount = .ok window)
    (hwindow : window ≠ h'.currentGroup) :
    h.onGroupCommitForward G windows =
      .ok { h' with currentGroup := h'.currentGroup + 1, tensorCountCurrentGroup := 0 } := by
  simp only [onGroupCommitForward, synchronizeOnGroupCommitForward, if_pos hfirst, hoffload,
    Py.ok_bind, hmap, if_neg hwindow, Py.pure_eq_ok]

/-- A commit at which a group is freed and the next one is copied. -/
theorem onGroupCommitForward_window (hlater : h.currentGroup ≠ 0)
    (hmap : layerWindow windows h.offloadedGroupCount = .ok (h.currentGroup : Int))
    (hmore : h.offloadedGroupCount + 1 < G)
    (hoffload : h.freed.bulkOffloadGroup (h.offloadedGroupCount + 1) = .ok h') :
    h.onGroupCommitForward G windows = .ok { h' with
      currentGroup := h'.currentGroup + 1
      tensorCountCurrentGroup := 0
      offloadedGroupCount := h'.offloadedGroupCount + 1 } := by
  rw [freed] at hoffload
  simp only [onGroupCommitForward, synchronizeOnGroupCommitForward, if_neg hlater, Py.ok_bind, hmap,
    Py.pure_eq_ok, if_pos, waitStream_offloadedGroupCount, freeGroup_offloadedGroupCount, hmore,
    hoffload]

/-- A commit at which the last group is freed. -/
theorem onGroupCommitForward_last (hlater : h.currentGroup ≠ 0)
    (hmap : layerWindow windows h.offloadedGroupCount = .ok (h.currentGroup : Int))
    (hlast : ¬ h.offloadedGroupCount + 1 < G) :
    h.onGroupCommitForward G windows = .ok { h.freed with
      currentGroup := h.currentGroup + 1
      tensorCountCurrentGroup := 0
      offloadedGroupCount := h.offloadedGroupCount + 1 } := by
  simp only [onGroupCommitForward, synchronizeOnGroupCommitForward, if_neg hlater, Py.ok_bind, hmap,
    Py.pure_eq_ok, waitStream_offloadedGroupCount, freeGroup_offloadedGroupCount, hlast, ↓reduceIte]
  rfl

/-- A commit at which nothing moves. -/
theorem onGroupCommitForward_stay (hlater : h.currentGroup ≠ 0) {window : Int}
    (hmap : layerWindow windows h.offloadedGroupCount = .ok window)
    (hwindow : window ≠ h.currentGroup) :
    h.onGroupCommitForward G windows =
      .ok { h with currentGroup := h.currentGroup + 1, tensorCountCurrentGroup := 0 } := by
  simp only [onGroupCommitForward, synchronizeOnGroupCommitForward, if_neg hlater, Py.ok_bind, hmap,
    if_neg hwindow, Py.pure_eq_ok]

end OffloadHandler

/-! ## The invariant -/

/-- What holds between the calls of the handler. -/
structure OffloadOk {κ α : Type} [DecidableEq κ] (address : κ → κ) (L G : Nat)
    (s : OffloadRun κ α) : Prop where
  tables : HandlerOk address s.graph s.live (place L G s.forward s.handler.currentGroup) s.handler
  le : s.handler.currentGroup ≤ L
  live : s.forward = true → s.live = s.graph
  /-- The next tag is new. -/
  fresh : s.forward = true → ∀ p ∈ s.graph, p.1.1 < s.handler.currentGroup ∨
    p.1.1 = s.handler.currentGroup ∧ p.1.2 < s.handler.tensorCountCurrentGroup
  groups : ∀ p ∈ s.graph, p.1.1 < L
  count : s.forward = true → Passed L G s.handler.offloadedGroupCount s.handler.currentGroup
  countBackward : s.forward = false → if s.handler.currentGroup = 0 then
      s.handler.offloadedGroupCount = 0
    else ∃ k, Passed L G k s.handler.currentGroup ∧ s.handler.offloadedGroupCount = max 1 k
  freed : ∀ i < G, (s.forward = true → window L G i < s.handler.currentGroup) →
    s.handler.seen .current (.offload i) = true
  waited : s.forward = false → ∀ i < G, s.handler.currentGroup ≤ offloadedAt L G i →
    s.handler.seen .current (.reload i) = true
  buffers : ∀ tag tensor, s.handler.tensorTagToBuf.get? tag = some (some tensor) →
    s.forward = true ∧ tag.1 < G ∧ tag.1 ≤ s.handler.currentGroup ∧
      s.handler.currentGroup ≤ window L G tag.1

namespace OffloadOk

section

variable {κ α : Type} [DecidableEq κ] {address : κ → κ} {L G : Nat} {s : OffloadRun κ α}

theorem init : OffloadOk address L G (OffloadRun.init : OffloadRun κ α) where
  tables := by
    have hplace : place L G true 0 = fun _ => .device := by
      funext i
      obtain h | h := Nat.lt_or_ge i G
      · rw [place_forward h, if_neg (Nat.not_lt_zero _)]
      · exact place_of_le true h
    exact hplace ▸ HandlerOk.init
  le := Nat.zero_le L
  live := fun _ => rfl
  fresh := fun _ _ hp => absurd hp List.not_mem_nil
  groups := fun _ hp => absurd hp List.not_mem_nil
  count := fun _ => ⟨Nat.zero_le G, fun _ hi => absurd hi (Nat.not_lt_zero _),
    fun _ _ _ => Nat.zero_le _⟩
  countBackward := fun hforward => by cases hforward
  freed := fun _ _ hpassed => absurd (hpassed rfl) (Nat.not_lt_zero _)
  waited := fun hforward => by cases hforward
  buffers := fun _ _ hget => by cases hget

/-! ## A forward pass -/

/-- A tensor is saved. -/
theorem push (hok : OffloadOk address L G s) (hG : 0 < G) (hlt : G < L)
    (hforward : s.forward = true) (hlayer : s.handler.currentGroup < L)
    (tensor : DeviceTensor κ α) :
    ∃ tag h', s.handler.tensorPush G tensor true = .ok (.tag tag, h') ∧
      tag.1 = s.handler.currentGroup ∧
      OffloadOk address L G { s with
        handler := h'
        graph := s.graph ++ [(tag, tensor)]
        live := s.live ++ [(tag, tensor)] } := by
  have htables := hok.tables
  rw [hok.live hforward, hforward] at htables
  have hnew : (s.handler.currentGroup, s.handler.tensorCountCurrentGroup) ∉
      s.graph.map Prod.fst := by
    intro hmem
    obtain ⟨p, hp, htag⟩ := List.mem_map.mp hmem
    have := hok.fresh hforward p hp
    rw [htag] at this
    omega
  obtain ⟨h', hpush, hok', hgroup, hcount, hoffloaded, hseen, hbuf⟩ :=
    htables.tensorPush G tensor (place_current hG hlt) hnew
  refine ⟨_, h', hpush, rfl, ?_⟩
  constructor
  · simp only [hok.live hforward, hforward, hgroup]
    exact hok'
  · simp only [hgroup]
    exact hok.le
  · exact fun _ => by rw [hok.live hforward]
  · intro _ p hp
    simp only [hgroup, hcount]
    rcases List.mem_append.mp hp with hp | hp
    · have := hok.fresh hforward p hp
      omega
    · obtain rfl := List.mem_singleton.mp hp
      exact .inr ⟨rfl, Nat.lt_succ_self _⟩
  · intro p hp
    rcases List.mem_append.mp hp with hp | hp
    · exact hok.groups p hp
    · obtain rfl := List.mem_singleton.mp hp
      exact hlayer
  · simp only [hgroup, hoffloaded]
    exact hok.count
  · exact fun hbackward => by simp [hforward] at hbackward
  · intro i hi hpassed
    simp only [hgroup] at hpassed
    exact (hseen _ _ (by simp)).trans (hok.freed i hi hpassed)
  · exact fun hbackward => by simp [hforward] at hbackward
  · intro tag kept hget
    simp only [hbuf, hgroup] at hget ⊢
    split at hget
    next hoffload =>
      rw [Py.Dict.get?_set] at hget
      split at hget
      next htag =>
        subst htag
        exact ⟨hforward, hoffload, Nat.le_refl _, Nat.le_of_lt (lt_window hG hlt _)⟩
      · exact hok.buffers tag kept hget
    · exact hok.buffers tag kept hget

/-- A commit, once the handler has moved what it moves there. -/
theorem of_commitForward (hok : OffloadOk address L G s) (hforward : s.forward = true)
    (hlayer : s.handler.currentGroup < L) {h : OffloadHandler κ α}
    (htables : HandlerOk address s.graph s.graph
      (place L G true (s.handler.currentGroup + 1)) h)
    (hcount : Passed L G h.offloadedGroupCount (s.handler.currentGroup + 1))
    (hfreed : ∀ i < G, window L G i < s.handler.currentGroup + 1 →
      h.seen .current (.offload i) = true)
    (hbuffers : ∀ tag tensor, h.tensorTagToBuf.get? tag = some (some tensor) →
      s.handler.tensorTagToBuf.get? tag = some (some tensor) ∧
        window L G tag.1 ≠ s.handler.currentGroup) :
    OffloadOk address L G { s with
      handler := { h with
        currentGroup := s.handler.currentGroup + 1
        tensorCountCurrentGroup := 0 } } where
  tables := by
    simp only [hforward, hok.live hforward]
    exact htables.of_tables rfl rfl rfl htables.safe
  le := hlayer
  live := hok.live
  fresh := fun _ p hp => by
    have := hok.fresh hforward p hp
    exact .inl (show p.1.1 < s.handler.currentGroup + 1 by omega)
  groups := hok.groups
  count := fun _ => hcount
  countBackward := fun hbackward => by simp [hforward] at hbackward
  freed := fun i hi hpassed => hfreed i hi (hpassed hforward)
  waited := fun hbackward => by simp [hforward] at hbackward
  buffers := fun tag tensor hget => by
    obtain ⟨hget, hne⟩ := hbuffers tag tensor hget
    obtain ⟨_, htag, hle, hwindow⟩ := hok.buffers tag tensor hget
    exact ⟨hforward, htag, Nat.le_succ_of_le hle, Nat.lt_of_le_of_ne hwindow hne.symm⟩

/-- The first commit starts the first copy. -/
theorem commitForward_first (hok : OffloadOk address L G s) (hG : 0 < G) (hlt : G < L)
    (hforward : s.forward = true) (hfirst : s.handler.currentGroup = 0) :
    ∃ h', s.handler.onGroupCommitForward G (layerWindowMap L G) = .ok h' ∧
      OffloadOk address L G { s with handler := h' } := by
  have htables := hok.tables
  rw [hok.live hforward, hforward] at htables
  have hcount := hok.count hforward
  have hzero : s.handler.offloadedGroupCount = 0 := by
    by_contra hne
    have := hcount.2.1 0 (Nat.pos_of_ne_zero hne)
    omega
  have hplace : place L G true s.handler.currentGroup 0 = .device := by
    rw [hfirst]
    exact place_current hG hlt
  obtain ⟨h', hoffload, htables', hgroup, htensors, hoffloaded, hbuf, hseen⟩ :=
    (htables.waitStream .d2h .current).bulkOffloadGroup hplace
      fun p hp _ => Seen.wait_self (htables.computed p hp)
  have hwindow := lt_window hG hlt 0
  have hgroup : h'.currentGroup = s.handler.currentGroup := hgroup
  have hoffloaded : h'.offloadedGroupCount = s.handler.offloadedGroupCount := hoffloaded
  have hmap : layerWindow (layerWindowMap L G) h'.offloadedGroupCount = .ok (window L G 0 : Int) := by
    rw [hoffloaded, hzero]
    exact layerWindow_eq hG (Nat.le_of_lt hlt) hG
  have hcommit := OffloadHandler.onGroupCommitForward_first (G := G) hfirst hoffload hmap (by omega)
  rw [hgroup] at hcommit
  refine ⟨_, hcommit, hok.of_commitForward hforward (by omega) ?_ ?_ ?_ ?_⟩
  · convert htables' using 1
    funext i
    rw [place_forward_succ]
    refine if_congr ?_ rfl rfl
    rw [hfirst]
    constructor
    · intro h
      have := le_offloadedAt hG hlt i
      omega
    · rintro rfl
      exact ⟨hG, rfl⟩
  · rw [hoffloaded]
    exact hcount.stay hG (Nat.le_of_lt hlt) (by omega) (by rw [hzero]; omega)
  · intro i _ hi
    have := lt_window hG hlt i
    omega
  · intro tag tensor hget
    rw [hbuf] at hget
    have := lt_window hG hlt tag.1
    exact ⟨hget, by omega⟩

omit [DecidableEq κ] in
/-- The buffers of the group that is freed go. -/
theorem buffers_freed (hG : 0 < G) (hle : G ≤ L)
    (hwindow : window L G s.handler.offloadedGroupCount = s.handler.currentGroup)
    {tag : TensorTag} {tensor : DeviceTensor κ α}
    (hget : s.handler.freed.tensorTagToBuf.get? tag = some (some tensor)) :
    s.handler.tensorTagToBuf.get? tag = some (some tensor) ∧
      window L G tag.1 ≠ s.handler.currentGroup := by
  obtain ⟨buf, hbuf, hkept⟩ :=
    Option.map_eq_some_iff.mp ((Py.Dict.get?_mapEntries _ _ _).symm.trans hget)
  split at hkept
  · cases hkept
  next hne =>
    refine ⟨hbuf.trans (congrArg some hkept), fun heq => hne ?_⟩
    exact window_inj hG hle (heq.trans hwindow.symm)

/-- Freeing the group that was copied is safe. -/
theorem tables_freed (hok : OffloadOk address L G s) (hG : 0 < G) (hlt : G < L)
    (hforward : s.forward = true) (hk : s.handler.offloadedGroupCount < G)
    (hwindow : window L G s.handler.offloadedGroupCount = s.handler.currentGroup) :
    HandlerOk address s.graph s.graph (place L G true s.handler.currentGroup) s.handler.freed ∧
      ∀ i < G, window L G i < s.handler.currentGroup + 1 →
        s.handler.freed.seen .current (.offload i) = true := by
  have htables := hok.tables
  rw [hok.live hforward, hforward] at htables
  have hhost : place L G true s.handler.currentGroup s.handler.offloadedGroupCount = .host := by
    have := offloadedAt_lt_window hG hlt s.handler.offloadedGroupCount
    rw [place_forward hk, if_pos (by omega)]
  have hcopied : ((s.handler.waitStream .d2h .current).waitStream .current .d2h).seen .current
      (.offload s.handler.offloadedGroupCount) = true :=
    Seen.wait_self (Seen.wait_of_seen (htables.copied _ hhost))
  have hwait := (htables.waitStream .d2h .current).waitStream .current .d2h
  have hsafe : s.handler.freed.hazard = false := by
    rw [OffloadHandler.freed, OffloadHandler.freeGroup, hcopied, hwait.safe]
    rfl
  refine ⟨hwait.of_tables rfl rfl rfl hsafe, fun i hi hpassed => ?_⟩
  obtain hpassed | hpassed := Nat.lt_succ_iff_lt_or_eq.mp hpassed
  · exact Seen.wait_of_seen (Seen.wait_of_seen (hok.freed i hi fun _ => hpassed))
  · obtain rfl := window_inj hG (Nat.le_of_lt hlt) (hpassed.trans hwindow.symm)
    exact hcopied

/-- Which group moves when the group `k` is freed. -/
theorem offloadedAt_eq_iff (hG : 0 < G) (hle : G ≤ L) {c k : Nat} (hlater : c ≠ 0)
    (hwindow : window L G k = c) (i : Nat) : offloadedAt L G i = c ↔ i = k + 1 := by
  cases i with
  | zero => exact iff_of_false (Ne.symm hlater) (Nat.succ_ne_zero k).symm
  | succ i =>
      refine Iff.trans ?_ Nat.succ_inj.symm
      constructor
      · exact fun h => window_inj hG hle (h.trans hwindow.symm)
      · rintro rfl
        exact hwindow

/-- The window of the group that is being copied. -/
theorem commitForward_window (hok : OffloadOk address L G s) (hG : 0 < G) (hlt : G < L)
    (hforward : s.forward = true) (hlayer : s.handler.currentGroup < L)
    (hlater : s.handler.currentGroup ≠ 0)
    (hwindow : window L G s.handler.offloadedGroupCount = s.handler.currentGroup) :
    ∃ h', s.handler.onGroupCommitForward G (layerWindowMap L G) = .ok h' ∧
      OffloadOk address L G { s with handler := h' } := by
  have hle := Nat.le_of_lt hlt
  have hcount := hok.count hforward
  have hk := hcount.lt hG hle hlayer
  have hmap := layerWindow_eq hG hle hk
  rw [hwindow] at hmap
  obtain ⟨htables, hfreed⟩ := hok.tables_freed hG hlt hforward hk hwindow
  have hmoves (i : Nat) := offloadedAt_eq_iff hG hle hlater hwindow i
  obtain hmore | hlast := Nat.lt_or_ge (s.handler.offloadedGroupCount + 1) G
  · have hdevice : place L G true s.handler.currentGroup (s.handler.offloadedGroupCount + 1) =
        .device := by
      rw [place_forward hmore, (hmoves _).mpr rfl, if_neg (Nat.lt_irrefl _)]
    have hcomputed : ∀ p ∈ s.graph, p.1.1 = s.handler.offloadedGroupCount + 1 →
        s.handler.freed.seen .d2h (.compute p.1) = true := fun p hp _ =>
      Seen.wait_of_seen (Seen.wait_self (hok.tables.computed p (hok.live hforward ▸ hp)))
    obtain ⟨h', hoffload, htables', hgroup, htensors, hoffloaded, hbuf, hseen⟩ :=
      htables.bulkOffloadGroup hdevice hcomputed
    have hcommit := OffloadHandler.onGroupCommitForward_window hlater hmap hmore hoffload
    have hgroup : h'.currentGroup = s.handler.currentGroup := hgroup
    have hoffloaded : h'.offloadedGroupCount = s.handler.offloadedGroupCount := hoffloaded
    rw [hgroup, hoffloaded] at hcommit
    refine ⟨_, hcommit, hok.of_commitForward (h := { h' with
      offloadedGroupCount := s.handler.offloadedGroupCount + 1 }) hforward hlayer ?_
      (hcount.succ hG hle hk hwindow) ?_ ?_⟩
    · refine HandlerOk.of_tables (h := h') ?_ rfl rfl rfl htables'.safe
      convert htables' using 1
      funext i
      rw [place_forward_succ]
      refine if_congr ?_ rfl rfl
      rw [hmoves]
      constructor
      · exact And.right
      · rintro rfl
        exact ⟨hmore, rfl⟩
    · intro i hi hpassed
      have hne : i ≠ s.handler.offloadedGroupCount + 1 := by
        rintro rfl
        have := window_lt_succ hG hle s.handler.offloadedGroupCount
        omega
      exact (hseen .current i hne).trans (hfreed i hi hpassed)
    · intro tag tensor hget
      exact buffers_freed hG hle hwindow (hbuf ▸ hget)
  · have hcommit := OffloadHandler.onGroupCommitForward_last (G := G) hlater hmap
      (Nat.not_lt_of_le hlast)
    refine ⟨_, hcommit, hok.of_commitForward (h := { s.handler.freed with
      offloadedGroupCount := s.handler.offloadedGroupCount + 1 }) hforward hlayer ?_
      (hcount.succ hG hle hk hwindow) hfreed fun tag tensor hget =>
        buffers_freed hG hle hwindow hget⟩
    refine HandlerOk.of_tables (h := s.handler.freed) ?_ rfl rfl rfl htables.safe
    convert htables using 1
    funext i
    rw [place_forward_succ, if_neg]
    rintro ⟨hi, heq⟩
    rw [hmoves] at heq
    omega

/-- A layer with no window. -/
theorem commitForward_stay (hok : OffloadOk address L G s) (hG : 0 < G) (hlt : G < L)
    (hforward : s.forward = true) (hlayer : s.handler.currentGroup < L)
    (hlater : s.handler.currentGroup ≠ 0)
    (hwindow : window L G s.handler.offloadedGroupCount ≠ s.handler.currentGroup) :
    ∃ h', s.handler.onGroupCommitForward G (layerWindowMap L G) = .ok h' ∧
      OffloadOk address L G { s with handler := h' } := by
  have hle := Nat.le_of_lt hlt
  have hcount := hok.count hforward
  have hk := hcount.lt hG hle hlayer
  have hcount' := hcount.stay hG hle hk hwindow
  have hcommit := OffloadHandler.onGroupCommitForward_stay (G := G) hlater
    (layerWindow_eq hG hle hk) (by omega)
  have htables := hok.tables
  rw [hok.live hforward, hforward] at htables
  refine ⟨_, hcommit, hok.of_commitForward hforward hlayer ?_ hcount' ?_ ?_⟩
  · convert htables using 1
    funext i
    rw [place_forward_succ, if_neg]
    rintro ⟨hi, heq⟩
    cases i with
    | zero => exact hlater heq.symm
    | succ i => exact hcount.window_ne hcount' (by omega : i < G) heq
  · intro i hi hpassed
    obtain hpassed | hpassed := Nat.lt_succ_iff_lt_or_eq.mp hpassed
    · exact hok.freed i hi fun _ => hpassed
    · exact absurd hpassed (hcount.window_ne hcount' hi)
  · intro tag tensor hget
    obtain ⟨-, hi, -⟩ := hok.buffers tag tensor hget
    exact ⟨hget, hcount.window_ne hcount' hi⟩

/-- Every commit of a forward pass. -/
theorem commitForward (hok : OffloadOk address L G s) (hG : 0 < G) (hlt : G < L)
    (hforward : s.forward = true) (hlayer : s.handler.currentGroup < L) :
    ∃ h', s.handler.onGroupCommitForward G (layerWindowMap L G) = .ok h' ∧
      OffloadOk address L G { s with handler := h' } := by
  obtain hfirst | hlater := Nat.eq_zero_or_pos s.handler.currentGroup
  · exact hok.commitForward_first hG hlt hforward hfirst
  · obtain hwindow | hwindow :=
      Decidable.em (window L G s.handler.offloadedGroupCount = s.handler.currentGroup)
    · exact hok.commitForward_window hG hlt hforward hlayer (Nat.ne_of_gt hlater) hwindow
    · exact hok.commitForward_stay hG hlt hforward hlayer (Nat.ne_of_gt hlater) hwindow

end

end OffloadOk

end Verl
