import Verl.ActivationOffload.BackwardPass

/-!
# Whole runs

The invariant holds in every run until a commit of a backward pass fails.  Two tensors of
one group that begin at the same address must have the same elements in the same order,
and then none fails, and the backward pass gets what the forward pass saved.  A transposed
view that is saved beside its base is such a pair with different elements: what comes
back for the later one has the elements of the earlier one.

With one group less than there are layers, the tensors of at most two layers are on the
device.
-/

namespace Verl

open OffloadRun

namespace OffloadOk

variable {κ α : Type} [DecidableEq κ] {address : κ → κ} {L G : Nat} {s s' : OffloadRun κ α}

/-- What the backward pass gets for a tensor that was saved. -/
def returnedFor (address : κ → κ) (G : Nat) (graph : List (TensorTag × DeviceTensor κ α))
    (p : TensorTag × DeviceTensor κ α) : DeviceTensor κ α :=
  if p.1.1 < G then ⟨address p.2.key, p.2.shape, (firstLike graph p).elems⟩ else p.2

/-- A tensor that may be taken is on the device, and the current stream may use it. -/
theorem exists_pop (hok : OffloadOk address L G s) (hG : 0 < G) (hlt : G < L)
    (hbackward : s.forward = false) {p : TensorTag × DeviceTensor κ α} (hp : p ∈ s.live)
    (hle : s.handler.currentGroup ≤ p.1.1) :
    ∃ h', s.handler.tensorPop (.tag p.1) = .ok (returnedFor address G s.graph p, h') ∧
      h'.currentGroup = s.handler.currentGroup ∧ OffloadOk address L G { s with
        handler := h'
        live := s.live.filter fun q => q.1 ≠ p.1 } := by
  have htables := hok.tables
  rw [hbackward] at htables
  have hstate : ∃ writer, stateOf address s.graph p
      (place L G false s.handler.currentGroup p.1.1) =
        .tensor (returnedFor address G s.graph p) writer ∧
      s.handler.seen .current writer = true := by
    obtain hi | hi := Nat.lt_or_ge p.1.1 G
    · have := lt_window hG hlt p.1.1
      rw [place_backward hi, if_neg (by omega), returnedFor, if_pos hi]
      exact ⟨_, rfl, hok.waited hbackward _ hi (hle.trans (le_offloadedAt hG hlt _))⟩
    · rw [place_of_le false hi, returnedFor, if_neg (Nat.not_lt_of_le hi)]
      exact ⟨_, rfl, htables.computed p hp⟩
  obtain ⟨writer, hstate, hseen⟩ := hstate
  obtain ⟨h', hpop, htables', hgroup, hoffloaded, hseen', hbuf⟩ := htables.tensorPop hp hstate hseen
  refine ⟨h', hpop, hgroup, ?_⟩
  constructor
  · simp only [hbackward, hgroup]
    exact htables'
  · exact hgroup ▸ hok.le
  · exact fun hforward => by simp [hbackward] at hforward
  · exact fun hforward => by simp [hbackward] at hforward
  · exact hok.groups
  · exact fun hforward => by simp [hbackward] at hforward
  · simp only [hgroup, hoffloaded]
    exact hok.countBackward
  · simp only [hgroup, hseen']
    exact hok.freed
  · simp only [hgroup, hseen']
    exact hok.waited
  · intro tag tensor hget
    simp only [hbuf, Py.Dict.get?_pop] at hget
    split at hget
    · cases hget
    · have hforward := (hok.buffers tag tensor hget).1
      rw [hbackward] at hforward
      cases hforward

/-- The next forward pass begins with empty tables. -/
theorem restart (hok : OffloadOk address L G s) (hbackward : s.forward = false)
    (hstart : s.handler.currentGroup = 0) (hlive : s.live = []) :
    OffloadOk address L G { s with forward := true, graph := [] } where
  tables := by
    have htables := hok.tables
    have hplace (i : Nat) : place L G true s.handler.currentGroup i = .device := by
      rw [hstart]
      obtain h | h := Nat.lt_or_ge i G
      · rw [place_forward h, if_neg (Nat.not_lt_zero _)]
      · exact place_of_le true h
    constructor
    · rw [htables.entries, hlive]
      rfl
    · exact fun p hp => by simp [hlive] at hp
    · exact fun i hi => by simp [hplace] at hi
    · exact fun p hp => by simp [hlive] at hp
    · exact fun i hi => by simp [hplace] at hi
    · exact fun i hi => by simp [hplace] at hi
    · exact htables.safe
  le := hok.le
  live := fun _ => hlive
  fresh := fun _ p hp => absurd hp List.not_mem_nil
  groups := fun p hp => absurd hp List.not_mem_nil
  count := fun _ => by
    have hcount := hok.countBackward hbackward
    rw [if_pos hstart] at hcount
    simp only [hcount, hstart]
    exact ⟨Nat.zero_le G, fun _ hi => absurd hi (Nat.not_lt_zero _), fun _ _ _ => Nat.zero_le _⟩
  countBackward := fun hfalse => by cases hfalse
  freed := fun i _ hpassed => by
    have hpassed : window L G i < s.handler.currentGroup := hpassed rfl
    rw [hstart] at hpassed
    exact absurd hpassed (Nat.not_lt_zero _)
  waited := fun hfalse => by cases hfalse
  buffers := fun tag tensor hget => by
    have hforward := (hok.buffers tag tensor hget).1
    rw [hbackward] at hforward
    cases hforward

/-! ## One step -/

theorem next_push (hok : OffloadOk address L G s) (hG : 0 < G) (hlt : G < L)
    {tensor : DeviceTensor κ α} (hnext : next address L G s (.push tensor true) = some s') :
    s.forward = true ∧ ∃ tag h', tag.1 = s.handler.currentGroup ∧
      s' = { s with
        handler := h'
        graph := s.graph ++ [(tag, tensor)]
        live := s.live ++ [(tag, tensor)] } ∧
      OffloadOk address L G s' := by
  rw [OffloadRun.next] at hnext
  split at hnext
  next henabled =>
    obtain ⟨-, hforward, hlayer⟩ := henabled
    obtain ⟨tag, h', hpush, hgroup, hok'⟩ := hok.push hG hlt hforward hlayer tensor
    rw [hpush] at hnext
    obtain rfl := Option.some.inj hnext
    exact ⟨hforward, tag, h', hgroup, rfl, hok'⟩
  · cases hnext

theorem next_pushDirect (hok : OffloadOk address L G s) {tensor : DeviceTensor κ α}
    (hnext : next address L G s (.push tensor false) = some s') :
    s' = { s with got := s.got ++ [(tensor, tensor)] } ∧ OffloadOk address L G s' := by
  rw [OffloadRun.next] at hnext
  split at hnext
  · obtain rfl := Option.some.inj hnext
    exact ⟨rfl, hok.tables, hok.le, hok.live, hok.fresh, hok.groups, hok.count, hok.countBackward,
      hok.freed, hok.waited, hok.buffers⟩
  · cases hnext

theorem next_commitForward (hok : OffloadOk address L G s) (hG : 0 < G) (hlt : G < L)
    (hnext : next address L G s .commitForward = some s') :
    s.forward = true ∧ (∃ h', s' = { s with handler := h' }) ∧ OffloadOk address L G s' := by
  rw [OffloadRun.next] at hnext
  split at hnext
  next henabled =>
    obtain ⟨-, hforward, hlayer⟩ := henabled
    obtain ⟨h', hcommit, hok'⟩ := hok.commitForward hG hlt hforward hlayer
    rw [hcommit] at hnext
    obtain rfl := Option.some.inj hnext
    exact ⟨hforward, ⟨h', rfl⟩, hok'⟩
  · cases hnext

/-- A commit of a backward pass fails at most at a view. -/
theorem next_commitBackward (hok : OffloadOk address L G s) (hG : 0 < G) (hlt : G < L)
    (hnext : next address L G s .commitBackward = some s') :
    ((∃ h', h'.currentGroup = s.handler.currentGroup - 1 ∧
        s' = { s with handler := h', forward := false }) ∧ OffloadOk address L G s') ∨
      s' = { s with failed := some (.runtime "shape is invalid for input") } ∧
        ∃ p ∈ s.live, (firstLike s.graph p).elems.length ≠ p.2.shape.prod := by
  rw [OffloadRun.next] at hnext
  obtain ⟨⟨-, henabled⟩, hnext⟩ := Option.ite_none_right_eq_some.mp hnext
  have hback : OffloadOk address L G { s with forward := false } ∧ 0 < s.handler.currentGroup := by
    cases hforward : s.forward with
    | true =>
        rw [hforward, if_pos rfl] at henabled
        exact ⟨hok.turn hG hlt hforward henabled, by omega⟩
    | false =>
        rw [hforward, if_neg Bool.false_ne_true] at henabled
        have hsame : { s with forward := false } = s := by rw [← hforward]
        exact ⟨hsame ▸ hok, henabled⟩
  obtain ⟨hback, hpos⟩ := hback
  obtain ⟨hafter, herror, hfit⟩ := hback.commitBackward hG hlt rfl hpos
  cases hcommit : s.handler.onGroupCommitBackward address G (layerWindowMap L G) with
  | ok h' =>
      rw [hcommit] at hnext
      obtain rfl := Option.some.inj hnext
      exact .inl ⟨⟨h', OffloadHandler.currentGroup_of_onGroupCommitBackward hcommit, rfl⟩,
        hafter h' hcommit⟩
  | error error =>
      rw [hcommit] at hnext
      obtain rfl := Option.some.inj hnext
      obtain rfl := herror error hcommit
      refine .inr ⟨rfl, ?_⟩
      by_contra hnone
      simp only [not_exists, not_and, not_not] at hnone
      obtain ⟨h', hcommit'⟩ := hfit hnone
      exact absurd (hcommit.symm.trans hcommit') (by simp)

theorem next_pop (hok : OffloadOk address L G s) (hG : 0 < G) (hlt : G < L) {tag : TensorTag}
    (hnext : next address L G s (.pop tag) = some s') :
    ∃ tensor h', (tag, tensor) ∈ s.live ∧ s.saved tag = some tensor ∧
      h'.currentGroup = s.handler.currentGroup ∧ s' = { s with
        handler := h'
        live := s.live.filter fun p => p.1 ≠ tag
        got := s.got ++ [(tensor, returnedFor address G s.graph (tag, tensor))] } ∧
      OffloadOk address L G s' := by
  rw [OffloadRun.next] at hnext
  split at hnext
  · cases hnext
  next tensor hsaved =>
    split at hnext
    next henabled =>
      obtain ⟨-, hbackward, hle⟩ := henabled
      rw [Bool.not_eq_true] at hbackward
      obtain ⟨p, hfind, rfl⟩ := Option.map_eq_some_iff.mp hsaved
      have htag : p.1 = tag := by simpa using List.find?_some hfind
      subst htag
      have hmem := List.mem_of_find?_eq_some hfind
      obtain ⟨h', hpop, hgroup, hok'⟩ := hok.exists_pop hG hlt hbackward hmem hle
      rw [hpop] at hnext
      obtain rfl := Option.some.inj hnext
      refine ⟨p.2, h', hmem, hsaved, hgroup, rfl, hok'.tables, hok'.le, hok'.live, hok'.fresh, hok'.groups,
        hok'.count, hok'.countBackward, hok'.freed, hok'.waited, hok'.buffers⟩
    · cases hnext

theorem next_restart (hok : OffloadOk address L G s)
    (hnext : next address L G s .restart = some s') :
    s' = { s with forward := true, graph := [] } ∧ OffloadOk address L G s' := by
  rw [OffloadRun.next] at hnext
  split at hnext
  next henabled =>
    obtain ⟨-, hbackward, hstart, hlive⟩ := henabled
    rw [Bool.not_eq_true] at hbackward
    obtain rfl := Option.some.inj hnext
    exact ⟨rfl, hok.restart hbackward hstart hlive⟩
  · cases hnext

end OffloadOk

section

variable {κ α : Type} [DecidableEq κ]

/-! ## What the backward pass gets -/

/-- A run up to its first failure. -/
structure OffloadReached (address : κ → κ) (L G : Nat) (s : OffloadRun κ α) : Prop where
  ok : s.failed = none → OffloadOk address L G s
  failure : ∀ error, s.failed = some error → error = .runtime "shape is invalid for input"
  safe : s.handler.hazard = false

/-- After a failure nothing happens. -/
theorem failed_of_next {address : κ → κ} {L G : Nat} {s s' : OffloadRun κ α} {a : OffloadAct κ α}
    (hnext : OffloadRun.next address L G s a = some s') : s.failed = none := by
  cases a with
  | push tensor needOffload => exact (Option.ite_none_right_eq_some.mp hnext).1.1
  | commitForward => exact (Option.ite_none_right_eq_some.mp hnext).1.1
  | commitBackward => exact (Option.ite_none_right_eq_some.mp hnext).1.1
  | pop tag =>
      rw [OffloadRun.next] at hnext
      split at hnext
      · cases hnext
      · exact (Option.ite_none_right_eq_some.mp hnext).1.1
  | restart => exact (Option.ite_none_right_eq_some.mp hnext).1.1

theorem OffloadReached.of_ok {address : κ → κ} {L G : Nat} {s : OffloadRun κ α}
    (hok : OffloadOk address L G s) (hfailed : s.failed = none) : OffloadReached address L G s where
  ok := fun _ => hok
  failure := fun error herror => by
    rw [hfailed] at herror
    cases herror
  safe := hok.tables.safe

theorem OffloadReached.next {address : κ → κ} {L G : Nat} {s s' : OffloadRun κ α}
    {a : OffloadAct κ α} (hG : 0 < G) (hlt : G < L) (h : OffloadReached address L G s)
    (hnext : OffloadRun.next address L G s a = some s') : OffloadReached address L G s' := by
  have hfailed := failed_of_next hnext
  have hok := h.ok hfailed
  cases a with
  | push tensor needOffload =>
      cases needOffload with
      | true =>
          obtain ⟨-, tag, h', -, rfl, hok'⟩ := hok.next_push hG hlt hnext
          exact .of_ok hok' hfailed
      | false =>
          obtain ⟨rfl, hok'⟩ := hok.next_pushDirect hnext
          exact .of_ok hok' hfailed
  | commitForward =>
      obtain ⟨-, ⟨h', rfl⟩, hok'⟩ := hok.next_commitForward hG hlt hnext
      exact .of_ok hok' hfailed
  | commitBackward =>
      obtain ⟨⟨h', -, rfl⟩, hok'⟩ | ⟨rfl, -⟩ := hok.next_commitBackward hG hlt hnext
      · exact .of_ok hok' hfailed
      · constructor
        · intro hnone
          cases hnone
        · exact fun error herror => (Option.some.inj herror).symm
        · exact h.safe
  | pop tag =>
      obtain ⟨tensor, h', -, -, -, rfl, hok'⟩ := hok.next_pop hG hlt hnext
      exact .of_ok hok' hfailed
  | restart =>
      obtain ⟨rfl, hok'⟩ := hok.next_restart hnext
      exact .of_ok hok' hfailed

theorem OffloadReached.exec {address : κ → κ} {L G : Nat} (hG : 0 < G) (hlt : G < L)
    {as : List (OffloadAct κ α)} {s : OffloadRun κ α}
    (hrun : Run.exec (OffloadRun.next address L G) OffloadRun.init as = some s) :
    OffloadReached address L G s :=
  Run.exec_invariant (fun _ _ _ h hnext => h.next hG hlt hnext) (.of_ok .init rfl) hrun

/-- In every run the streams wait for all that they need, and a call fails only at a view of a
copy with another number of elements.  The backward pass gets a tensor of the shape that was
saved.  Its elements are those of the first tensor with its key, in its group, and for a group
that is not offloaded its own. -/
theorem offload_first_of_key {address : κ → κ} {L G : Nat} (hG : 0 < G) (hlt : G < L)
    {as : List (OffloadAct κ α)} {s : OffloadRun κ α}
    (hrun : Run.exec (OffloadRun.next address L G) OffloadRun.init as = some s) :
    s.handler.hazard = false ∧
      (∀ error, s.failed = some error → error = .runtime "shape is invalid for input") ∧
      ∀ tag tensor s', s.saved tag = some tensor →
        OffloadRun.next address L G s (.pop tag) = some s' →
        s'.failed = none ∧ ∃ tensor', s'.got = s.got ++ [(tensor, tensor')] ∧
          tensor'.shape = tensor.shape ∧
          tensor'.elems =
            if tag.1 < G then (firstLike s.graph (tag, tensor)).elems else tensor.elems := by
  have hreached := OffloadReached.exec hG hlt hrun
  refine ⟨hreached.safe, hreached.failure, fun tag tensor s' hsaved hnext => ?_⟩
  have hfailed := failed_of_next hnext
  obtain ⟨tensor₁, h', -, hsaved', -, rfl, -⟩ := (hreached.ok hfailed).next_pop hG hlt hnext
  obtain rfl := Option.some.inj (hsaved.symm.trans hsaved')
  refine ⟨hfailed, _, rfl, ?_⟩
  rw [OffloadOk.returnedFor]
  split
  · exact ⟨rfl, rfl⟩
  · exact ⟨rfl, rfl⟩

/-- A transposed view that is saved after its base comes back with the order of the base. -/
theorem offload_first_of_key_transposed :
    ∃ (s s' : OffloadRun Nat Nat) (tensor' : DeviceTensor Nat Nat),
      s.saved (0, 1) = some ⟨1, [2, 2], [1, 3, 2, 4]⟩ ∧
      OffloadRun.next (· + 100) 3 2 s (.pop (0, 1)) = some s' ∧
      s'.got = s.got ++ [(⟨1, [2, 2], [1, 3, 2, 4]⟩, tensor')] ∧ tensor'.elems = [1, 2, 3, 4] := by
  have h : (Run.exec (OffloadRun.next (· + 100) 3 2) OffloadRun.init
      [.push ⟨1, [2, 2], [1, 2, 3, 4]⟩ true, .push ⟨1, [2, 2], [1, 3, 2, 4]⟩ true,
        .commitForward, .commitForward, .commitForward, .commitBackward, .commitBackward,
        .commitBackward]).map (fun s : OffloadRun Nat Nat =>
          (s.saved (0, 1), (OffloadRun.next (· + 100) 3 2 s (.pop (0, 1))).isSome,
            (firstLike s.graph ((0, 1), ⟨1, [2, 2], [1, 3, 2, 4]⟩)).elems)) =
        some (some ⟨1, [2, 2], [1, 3, 2, 4]⟩, true, [1, 2, 3, 4]) := by rfl
  obtain ⟨s, hrun, hfacts⟩ := Option.map_eq_some_iff.mp h
  obtain ⟨hsaved, hrest⟩ := Prod.mk.inj hfacts
  obtain ⟨henabled, hfirst⟩ := Prod.mk.inj hrest
  obtain ⟨s', hnext⟩ := Option.isSome_iff_exists.mp henabled
  obtain ⟨-, -, hpop⟩ := offload_first_of_key (by decide) (by decide) hrun
  obtain ⟨-, tensor', hgot, -, helems⟩ := hpop (0, 1) _ s' hsaved hnext
  exact ⟨s, s', tensor', hsaved, hnext, hgot, helems.trans hfirst⟩

/-- Tensors of one group with one key have the same elements. -/
def KeyFaithful (graph : List (TensorTag × DeviceTensor κ α)) : Prop :=
  ∀ p ∈ graph, p.2.elems.length = p.2.shape.prod ∧
    ∀ q ∈ graph, q.1.1 = p.1.1 → q.2.key = p.2.key → q.2.elems = p.2.elems

/-- The tensor that is pushed keeps it so. -/
def PushFaithful (s : OffloadRun κ α) : OffloadAct κ α → Prop
  | .push tensor true => tensor.elems.length = tensor.shape.prod ∧
      ∀ q ∈ s.graph, q.1.1 = s.handler.currentGroup → q.2.key = tensor.key →
        q.2.elems = tensor.elems
  | _ => True

/-- Whether it does can be checked. -/
instance decidablePushFaithful [DecidableEq α] (s : OffloadRun κ α) :
    (a : OffloadAct κ α) → Decidable (PushFaithful s a)
  | .push _ true => inferInstanceAs (Decidable (_ ∧ _))
  | .push _ false => .isTrue trivial
  | .commitForward => .isTrue trivial
  | .commitBackward => .isTrue trivial
  | .pop _ => .isTrue trivial
  | .restart => .isTrue trivial

omit [DecidableEq κ] in
theorem KeyFaithful.append {graph : List (TensorTag × DeviceTensor κ α)} (h : KeyFaithful graph)
    {tag : TensorTag} {tensor : DeviceTensor κ α} (hlength : tensor.elems.length = tensor.shape.prod)
    (hsame : ∀ q ∈ graph, q.1.1 = tag.1 → q.2.key = tensor.key → q.2.elems = tensor.elems) :
    KeyFaithful (graph ++ [(tag, tensor)]) := by
  intro p hp
  rcases List.mem_append.mp hp with hp | hp
  · refine ⟨(h p hp).1, fun q hq hgroup hkey => ?_⟩
    rcases List.mem_append.mp hq with hq | hq
    · exact (h p hp).2 q hq hgroup hkey
    · obtain rfl := List.mem_singleton.mp hq
      exact (hsame p hp hgroup.symm hkey.symm).symm
  · obtain rfl := List.mem_singleton.mp hp
    refine ⟨hlength, fun q hq hgroup hkey => ?_⟩
    rcases List.mem_append.mp hq with hq | hq
    · exact hsame q hq hgroup hkey
    · rw [List.mem_singleton.mp hq]

theorem KeyFaithful.firstLike {graph : List (TensorTag × DeviceTensor κ α)} (h : KeyFaithful graph)
    {p : TensorTag × DeviceTensor κ α} (hp : p ∈ graph) :
    (firstLike graph p).elems = p.2.elems := by
  obtain ⟨q, hq, hfirst, hgroup, hkey⟩ := exists_firstLike hp
  rw [hfirst]
  exact (h p hp).2 q hq hgroup hkey

/-- If tensors of one layer that begin at one address have the same elements in the same order,
then no call fails, and the backward pass gets every tensor as it was saved. -/
theorem offload_gets_saved {address : κ → κ} {L G : Nat} (hG : 0 < G) (hlt : G < L)
    {as : List (OffloadAct κ α)} {s : OffloadRun κ α}
    (hmeets : Run.Meets (OffloadRun.next address L G) PushFaithful OffloadRun.init as)
    (hrun : Run.exec (OffloadRun.next address L G) OffloadRun.init as = some s) :
    s.failed = none ∧ s.handler.hazard = false ∧
      ∀ p ∈ s.got, p.2.shape = p.1.shape ∧ p.2.elems = p.1.elems := by
  have hinv : s.failed = none ∧ OffloadOk address L G s ∧ KeyFaithful s.graph ∧
      ∀ p ∈ s.got, p.2.shape = p.1.shape ∧ p.2.elems = p.1.elems := by
    refine Run.exec_invariant_of_meets (P := fun s => s.failed = none ∧ OffloadOk address L G s ∧
      KeyFaithful s.graph ∧ ∀ p ∈ s.got, p.2.shape = p.1.shape ∧ p.2.elems = p.1.elems) ?_
      ⟨rfl, .init, fun p hp => absurd hp List.not_mem_nil, fun p hp => absurd hp List.not_mem_nil⟩
      hmeets hrun
    rintro s a s' ⟨hfailed, hok, hgraph, hgot⟩ hguard hnext
    cases a with
    | push tensor needOffload =>
        cases needOffload with
        | true =>
            obtain ⟨-, tag, h', hgroup, rfl, hok'⟩ := hok.next_push hG hlt hnext
            obtain ⟨hlength, hsame⟩ := hguard
            exact ⟨hfailed, hok', hgraph.append hlength (hgroup ▸ hsame), hgot⟩
        | false =>
            obtain ⟨rfl, hok'⟩ := hok.next_pushDirect hnext
            refine ⟨hfailed, hok', hgraph, fun p hp => ?_⟩
            rcases List.mem_append.mp hp with hp | hp
            · exact hgot p hp
            · rw [List.mem_singleton.mp hp]
              exact ⟨rfl, rfl⟩
    | commitForward =>
        obtain ⟨-, ⟨h', rfl⟩, hok'⟩ := hok.next_commitForward hG hlt hnext
        exact ⟨hfailed, hok', hgraph, hgot⟩
    | commitBackward =>
        obtain ⟨⟨h', -, rfl⟩, hok'⟩ | ⟨-, p, hp, hne⟩ := hok.next_commitBackward hG hlt hnext
        · exact ⟨hfailed, hok', hgraph, hgot⟩
        · have hmem := hok.tables.subset p hp
          rw [hgraph.firstLike hmem, (hgraph p hmem).1] at hne
          exact absurd rfl hne
    | pop tag =>
        obtain ⟨tensor, h', hmem, -, -, rfl, hok'⟩ := hok.next_pop hG hlt hnext
        refine ⟨hfailed, hok', hgraph, fun p hp => ?_⟩
        rcases List.mem_append.mp hp with hp | hp
        · exact hgot p hp
        · rw [List.mem_singleton.mp hp, OffloadOk.returnedFor]
          split
          · exact ⟨rfl, hgraph.firstLike (hok.tables.subset _ hmem)⟩
          · exact ⟨rfl, rfl⟩
    | restart =>
        obtain ⟨rfl, hok'⟩ := hok.next_restart hnext
        exact ⟨hfailed, hok', fun p hp => absurd hp List.not_mem_nil, hgot⟩
  exact ⟨hinv.1, hinv.2.1.tables.safe, hinv.2.2.2⟩

theorem offload_gets_saved_two_views :
    ∃ s : OffloadRun Nat Nat, s.failed = none ∧ s.handler.hazard = false ∧
      (∀ p ∈ s.got, p.2.shape = p.1.shape ∧ p.2.elems = p.1.elems) ∧ s.got.length = 3 := by
  have h : (Run.exec (OffloadRun.next (· + 100) 3 2) OffloadRun.init
      [.push ⟨1, [2, 3], [1, 2, 3, 4, 5, 6]⟩ true, .push ⟨1, [6], [1, 2, 3, 4, 5, 6]⟩ true,
        .commitForward, .push ⟨2, [1], [7]⟩ true, .commitForward, .commitForward,
        .commitBackward, .commitBackward, .pop (1, 0), .commitBackward, .pop (0, 1),
        .pop (0, 0)]).map (fun s : OffloadRun Nat Nat => s.got.length) = some 3 := by rfl
  obtain ⟨s, hrun, hlength⟩ := Option.map_eq_some_iff.mp h
  have hmeets : Run.Meets (OffloadRun.next (· + 100) 3 2) PushFaithful
      (OffloadRun.init : OffloadRun Nat Nat)
      [.push ⟨1, [2, 3], [1, 2, 3, 4, 5, 6]⟩ true, .push ⟨1, [6], [1, 2, 3, 4, 5, 6]⟩ true,
        .commitForward, .push ⟨2, [1], [7]⟩ true, .commitForward, .commitForward,
        .commitBackward, .commitBackward, .pop (1, 0), .commitBackward, .pop (0, 1),
        .pop (0, 0)] := by decide +kernel
  obtain ⟨hfailed, hsafe, hgot⟩ := offload_gets_saved (by decide) (by decide) hmeets hrun
  exact ⟨s, hfailed, hsafe, hgot, hlength⟩

/-! ## The memory of the device -/

/-- A group has a tensor on the device. -/
def OnDevice (h : OffloadHandler κ α) (group : Nat) : Prop :=
  ∃ tag : TensorTag, tag.1 = group ∧
    ((∃ tensor writer, h.tensorTagToState.get? tag = some (.tensor tensor writer)) ∨
      ∃ tensor, h.tensorTagToBuf.get? tag = some (some tensor))

/-- The backward pass is done with a layer when it goes on to the layer before. -/
def LayerDone (s : OffloadRun κ α) : OffloadAct κ α → Prop
  | .commitBackward => ∀ p ∈ s.live, p.1.1 < s.handler.currentGroup
  | _ => True

instance decidableLayerDone (s : OffloadRun κ α) :
    (a : OffloadAct κ α) → Decidable (LayerDone s a)
  | .commitBackward => inferInstanceAs (Decidable (∀ p ∈ s.live, p.1.1 < s.handler.currentGroup))
  | .push _ _ => .isTrue trivial
  | .commitForward => .isTrue trivial
  | .pop _ => .isTrue trivial
  | .restart => .isTrue trivial

theorem window_pred {L i : Nat} (hi : i < L - 1) : window L (L - 1) i = i + 1 := by
  have hdiv := Nat.div_add_mod L (L - 1)
  obtain hone | htwo : L = 2 ∨ 3 ≤ L := by omega
  · subst hone
    obtain rfl : i = 0 := by omega
    rfl
  · have hquot : L / (L - 1) = 1 := by
      rw [Nat.div_eq_iff (by omega)]
      omega
    rw [hquot] at hdiv
    rw [window, hquot]
    omega

/-- What is on the device is of the layer that runs, or of the one before it. -/
theorem OffloadOk.onDevice {address : κ → κ} {L : Nat} {s : OffloadRun κ α} (hL : 2 ≤ L)
    (hok : OffloadOk address L (L - 1) s)
    (hdone : s.forward = false → ∀ p ∈ s.live, p.1.1 ≤ s.handler.currentGroup) {group : Nat}
    (h : OnDevice s.handler group) :
    group = s.handler.currentGroup ∨ group + 1 = s.handler.currentGroup := by
  obtain ⟨tag, rfl, ⟨tensor, writer, hstate⟩ | ⟨tensor, hbuf⟩⟩ := h
  · have hmem := Py.Dict.mem_entries_iff.mpr hstate
    rw [hok.tables.entries] at hmem
    obtain ⟨p, hp, heq⟩ := List.mem_map.mp hmem
    obtain ⟨rfl, hplace⟩ := Prod.mk.inj heq
    have hgroup := hok.groups p (hok.tables.subset p hp)
    have hle := hok.le
    cases hforward : s.forward with
    | true =>
        have hfresh := hok.fresh hforward p (hok.tables.subset p hp)
        rw [hforward] at hplace
        obtain hi | hi := Nat.lt_or_ge p.1.1 (L - 1)
        · rw [place_forward hi] at hplace
          split at hplace
          · cases hplace
          next hat =>
            have := lt_window (L := L) (G := L - 1) (by omega) (by omega) p.1.1
            cases hzero : p.1.1 with
            | zero =>
                rw [hzero] at hat hfresh
                simp only [offloadedAt, ↓reduceIte] at hat
                omega
            | succ i =>
                rw [hzero] at hat hfresh hi
                have := window_pred (L := L) (i := i) (by omega)
                simp only [offloadedAt, Nat.succ_ne_zero, ↓reduceIte, Nat.add_sub_cancel] at hat
                omega
        · omega
    | false =>
        have hdone := hdone hforward p hp
        rw [hforward] at hplace
        obtain hi | hi := Nat.lt_or_ge p.1.1 (L - 1)
        · rw [place_backward hi] at hplace
          split at hplace
          · cases hplace
          next hwindow =>
            rw [window_pred hi] at hwindow
            omega
        · omega
  · obtain ⟨-, hi, hgroup, hwindow⟩ := hok.buffers tag tensor hbuf
    rw [window_pred hi] at hwindow
    omega

/-- Tensors of at most two layers are on the device, the one that runs and the one before it, if
the backward pass takes the tensors of a layer before it goes on. -/
theorem offload_two_groups {address : κ → κ} {L : Nat} (hL : 2 ≤ L)
    {as : List (OffloadAct κ α)} {s : OffloadRun κ α}
    (hmeets : Run.Meets (OffloadRun.next address L (L - 1)) LayerDone OffloadRun.init as)
    (hrun : Run.exec (OffloadRun.next address L (L - 1)) OffloadRun.init as = some s)
    (hfailed : s.failed = none) {group : Nat} (h : OnDevice s.handler group) :
    group = s.handler.currentGroup ∨ group + 1 = s.handler.currentGroup := by
  have hG : 0 < L - 1 := by omega
  have hlt : L - 1 < L := by omega
  have hinv : s.failed = none → OffloadOk address L (L - 1) s ∧
      (s.forward = false → ∀ p ∈ s.live, p.1.1 ≤ s.handler.currentGroup) := by
    refine Run.exec_invariant_of_meets (P := fun s => s.failed = none →
      OffloadOk address L (L - 1) s ∧
        (s.forward = false → ∀ p ∈ s.live, p.1.1 ≤ s.handler.currentGroup)) ?_
      (fun _ => ⟨.init, fun hforward => by cases hforward⟩) hmeets hrun
    intro s a s' hinv hguard hnext hfailed'
    obtain ⟨hok, hdone⟩ := hinv (failed_of_next hnext)
    cases a with
    | push tensor needOffload =>
        cases needOffload with
        | true =>
            obtain ⟨hforward, tag, h', -, rfl, hok'⟩ := hok.next_push hG hlt hnext
            exact ⟨hok', fun hbackward => by simp [hforward] at hbackward⟩
        | false =>
            obtain ⟨rfl, hok'⟩ := hok.next_pushDirect hnext
            exact ⟨hok', hdone⟩
    | commitForward =>
        obtain ⟨hforward, ⟨h', rfl⟩, hok'⟩ := hok.next_commitForward hG hlt hnext
        exact ⟨hok', fun hbackward => by simp [hforward] at hbackward⟩
    | commitBackward =>
        obtain ⟨⟨h', hgroup, rfl⟩, hok'⟩ | ⟨rfl, -⟩ := hok.next_commitBackward hG hlt hnext
        · refine ⟨hok', fun _ p hp => ?_⟩
          have := hguard p hp
          simp only [hgroup]
          omega
        · cases hfailed'
    | pop tag =>
        obtain ⟨tensor, h', -, -, hgroup, rfl, hok'⟩ := hok.next_pop hG hlt hnext
        refine ⟨hok', fun hbackward p hp => ?_⟩
        simp only [hgroup]
        exact hdone hbackward p (List.mem_filter.mp hp).1
    | restart =>
        obtain ⟨rfl, hok'⟩ := hok.next_restart hnext
        exact ⟨hok', fun hbackward => by cases hbackward⟩
  obtain ⟨hok, hdone⟩ := hinv hfailed
  exact hok.onDevice hL hdone h

theorem offload_two_groups_four_layers :
    ∃ s : OffloadRun Nat Nat, s.handler.currentGroup = 1 ∧ s.live.length = 2 ∧
      ∀ group, OnDevice s.handler group → group = 1 ∨ group + 1 = 1 := by
  have h : (Run.exec (OffloadRun.next (· + 100) 4 (4 - 1)) OffloadRun.init
      [.push ⟨1, [1], [1]⟩ true, .commitForward, .push ⟨2, [1], [2]⟩ true, .commitForward,
        .push ⟨3, [1], [3]⟩ true, .commitForward, .push ⟨4, [1], [4]⟩ true, .commitForward,
        .commitBackward, .pop (3, 0), .commitBackward, .pop (2, 0), .commitBackward]).map
        (fun s : OffloadRun Nat Nat =>
          (s.handler.currentGroup, s.live.length, s.failed)) = some (1, 2, none) := by rfl
  obtain ⟨s, hrun, hfacts⟩ := Option.map_eq_some_iff.mp h
  obtain ⟨hgroup, hrest⟩ := Prod.mk.inj hfacts
  obtain ⟨hlive, hfailed⟩ := Prod.mk.inj hrest
  have hmeets : Run.Meets (OffloadRun.next (· + 100) 4 (4 - 1)) LayerDone
      (OffloadRun.init : OffloadRun Nat Nat)
      [.push ⟨1, [1], [1]⟩ true, .commitForward, .push ⟨2, [1], [2]⟩ true, .commitForward,
        .push ⟨3, [1], [3]⟩ true, .commitForward, .push ⟨4, [1], [4]⟩ true, .commitForward,
        .commitBackward, .pop (3, 0), .commitBackward, .pop (2, 0), .commitBackward] := by
    decide +kernel
  refine ⟨s, hgroup, hlive, fun group hdevice => ?_⟩
  have hnear := offload_two_groups (by decide) hmeets hrun hfailed hdevice
  rwa [hgroup] at hnear

end

end Verl
