import Mathlib.Data.List.Basic

/-!
# Runs of a partial step function

A system is given by a function `next : σ → α → Option σ`.  An action that is
not enabled in a state gives `none`.  A *run* is a list of actions, and `exec`
is the state it ends in, if every action was enabled when its turn came.

All interleavings of several parties are runs of one `next` whose actions name
the party that moves.  Quantifying over `List α` then quantifies over every
schedule.

*Invariants.*  `exec_invariant` is the induction over a run.  It is used for
every safety property of a reachable state.  `exec_invariant_of_meets` is the
same rule for runs whose steps all meet a guard, a condition on the state
before the step and the action taken.  `forall_prefix_iff_meets` is for a guard
that is exact.

*Simulation.*  `exec_simulates` takes a run of one system to a run of another
one that does the same with less detail.
-/

namespace Run

variable {σ α : Type*}

/-! ## Executions -/

/-- The state a run ends in, `none` once an action is not enabled. -/
def exec (next : σ → α → Option σ) : σ → List α → Option σ
  | s, [] => some s
  | s, a :: as => (next s a).bind fun t => exec next t as

variable {next : σ → α → Option σ} {s t : σ}

@[simp] theorem exec_nil (s : σ) : exec next s [] = some s := rfl

theorem exec_cons (s : σ) (a : α) (as : List α) :
    exec next s (a :: as) = (next s a).bind fun t => exec next t as := rfl

/-- The first step of a run. -/
theorem exec_cons_eq_some {a : α} {as : List α} :
    exec next s (a :: as) = some t ↔ ∃ u, next s a = some u ∧ exec next u as = some t := by
  rw [exec_cons, Option.bind_eq_some_iff]

/-- A run in two parts. -/
theorem exec_append {as bs : List α} {u : σ} (h : exec next s as = some u) :
    exec next s (as ++ bs) = exec next u bs := by
  induction as generalizing s with
  | nil =>
      rw [exec_nil, Option.some.injEq] at h
      rw [List.nil_append, h]
  | cons a as ih =>
      obtain ⟨v, hv, hrest⟩ := exec_cons_eq_some.mp h
      rw [List.cons_append, exec_cons, hv]
      exact ih hrest

/-- A run of a part of the actions. -/
theorem exec_map {β : Type*} (f : β → α) (bs : List β) :
    exec next s (bs.map f) = exec (fun s b => next s (f b)) s bs := by
  induction bs generalizing s with
  | nil => rfl
  | cons b bs ih =>
      rw [List.map_cons, exec_cons, exec_cons]
      cases next s (f b) with
      | none => rfl
      | some t => exact ih

/-! ## Invariants -/

/-- What every step preserves holds at the end of every run. -/
theorem exec_invariant {P : σ → Prop} (hstep : ∀ s a t, P s → next s a = some t → P t)
    {as : List α} (hs : P s) (h : exec next s as = some t) : P t := by
  induction as generalizing s with
  | nil =>
      rw [exec_nil, Option.some.injEq] at h
      exact h ▸ hs
  | cons a as ih =>
      obtain ⟨u, hu, hrest⟩ := exec_cons_eq_some.mp h
      exact ih (hstep s a u hs hu) hrest

/-- The same rule for runs whose actions are all of one kind. -/
theorem exec_invariant_of_forall {P : σ → Prop} {A : α → Prop}
    (hstep : ∀ s a t, P s → A a → next s a = some t → P t) {as : List α} (hs : P s)
    (has : ∀ a ∈ as, A a) (h : exec next s as = some t) : P t := by
  induction as generalizing s with
  | nil =>
      rw [exec_nil, Option.some.injEq] at h
      exact h ▸ hs
  | cons a as ih =>
      obtain ⟨u, hu, hrest⟩ := exec_cons_eq_some.mp h
      refine ih (hstep s a u hs (has a List.mem_cons_self) hu) ?_ hrest
      exact fun b hb => has b (List.mem_cons_of_mem a hb)

/-- A run is no longer than a measure that every step lowers. -/
theorem length_le_of_exec {μ : σ → Nat} (hstep : ∀ s a t, next s a = some t → μ t < μ s)
    {as : List α} (h : exec next s as = some t) : as.length + μ t ≤ μ s := by
  induction as generalizing s with
  | nil =>
      rw [exec_nil, Option.some.injEq] at h
      exact Nat.le_of_eq (by rw [h, List.length_nil, Nat.zero_add])
  | cons a as ih =>
      obtain ⟨u, hu, hrest⟩ := exec_cons_eq_some.mp h
      have := hstep s a u hu
      have := ih hrest
      rw [List.length_cons]
      omega

/-- With such a measure some run cannot go on. -/
theorem exists_stuck {μ : σ → Nat} (hstep : ∀ s a t, next s a = some t → μ t < μ s) (s : σ) :
    ∃ as t, exec next s as = some t ∧ ∀ a, next t a = none := by
  by_cases hstuck : ∀ a, next s a = none
  · exact ⟨[], s, rfl, hstuck⟩
  · obtain ⟨a, ha⟩ := not_forall.mp hstuck
    obtain ⟨u, hu⟩ := Option.ne_none_iff_exists'.mp ha
    have hlt := hstep s a u hu
    obtain ⟨as, t, hrun, hend⟩ := exists_stuck hstep u
    exact ⟨a :: as, t, exec_cons_eq_some.mpr ⟨u, hu, hrun⟩, hend⟩
termination_by μ s

/-! ## Runs whose steps meet a guard -/

/-- Every step that the run takes meets the guard `G`, a condition on the state
before the step and the action. -/
def Meets (next : σ → α → Option σ) (G : σ → α → Prop) : σ → List α → Prop
  | _, [] => True
  | s, a :: as => G s a ∧ ∀ t, next s a = some t → Meets next G t as

theorem meets_cons_of_none {G : σ → α → Prop} {a : α} {as : List α} (h : next s a = none) :
    Meets next G s (a :: as) ↔ G s a := by
  constructor
  · exact And.left
  · intro hguard
    refine ⟨hguard, fun t ht => ?_⟩
    rw [h] at ht
    cases ht

theorem meets_cons_of_some {G : σ → α → Prop} {a : α} {as : List α} (h : next s a = some t) :
    Meets next G s (a :: as) ↔ G s a ∧ Meets next G t as := by
  constructor
  · intro ⟨hguard, hlater⟩
    exact ⟨hguard, hlater t h⟩
  · intro ⟨hguard, hlater⟩
    refine ⟨hguard, fun u hu => ?_⟩
    rw [h, Option.some.injEq] at hu
    exact hu ▸ hlater

/-- Whether a run meets a decidable guard is found by running it. -/
instance decidableMeets (next : σ → α → Option σ) (G : σ → α → Prop)
    [∀ s a, Decidable (G s a)] : (s : σ) → (as : List α) → Decidable (Meets next G s as)
  | _, [] => .isTrue trivial
  | s, a :: as =>
      match h : next s a with
      | none => decidable_of_iff _ (meets_cons_of_none h).symm
      | some t =>
          have := decidableMeets next G t as
          decidable_of_iff _ (meets_cons_of_some h).symm

/-- What every step that meets the guard preserves holds at the end of every run
whose steps all meet it. -/
theorem exec_invariant_of_meets {P : σ → Prop} {G : σ → α → Prop}
    (hstep : ∀ s a t, P s → G s a → next s a = some t → P t) {as : List α} (hs : P s)
    (hmeets : Meets next G s as) (h : exec next s as = some t) : P t := by
  induction as generalizing s with
  | nil =>
      rw [exec_nil, Option.some.injEq] at h
      exact h ▸ hs
  | cons a as ih =>
      obtain ⟨u, hu, hrest⟩ := exec_cons_eq_some.mp h
      obtain ⟨hguard, hlater⟩ := hmeets
      exact ih (hstep s a u hs hguard hu) (hlater u hu) hrest

/-- A guard that says exactly which steps keep `P`: all states of a run have `P`
if and only if all its steps meet the guard. -/
theorem forall_prefix_iff_meets {P : σ → Prop} {G : σ → α → Prop}
    (hstep : ∀ s a t, P s → next s a = some t → (P t ↔ G s a)) {as : List α} (hs : P s)
    (h : exec next s as = some t) :
    (∀ bs u, bs <+: as → exec next s bs = some u → P u) ↔ Meets next G s as := by
  induction as generalizing s with
  | nil =>
      refine iff_of_true (fun bs u hbs hu => ?_) trivial
      rw [List.prefix_nil.mp hbs, exec_nil, Option.some.injEq] at hu
      exact hu ▸ hs
  | cons a as ih =>
      obtain ⟨v, hv, hrest⟩ := exec_cons_eq_some.mp h
      rw [meets_cons_of_some hv, ← hstep s a v hs hv]
      constructor
      · intro hall
        have hPv : P v := by
          refine hall [a] v (List.prefix_append [a] as) ?_
          rw [exec_cons, hv]
          rfl
        refine ⟨hPv, (ih hPv hrest).mp fun bs u hbs hu => ?_⟩
        refine hall (a :: bs) u (List.cons_prefix_cons.mpr ⟨rfl, hbs⟩) ?_
        rw [exec_cons, hv]
        exact hu
      · intro ⟨hPv, hmeets⟩ bs u hbs hu
        cases bs with
        | nil =>
            rw [exec_nil, Option.some.injEq] at hu
            exact hu ▸ hs
        | cons b bs =>
            obtain ⟨rfl, hprefix⟩ := List.cons_prefix_cons.mp hbs
            rw [exec_cons, hv] at hu
            exact (ih hPv hrest).mpr hmeets bs u hprefix hu

/-! ## Simulation -/

/-- A system whose every step is matched by steps of another one: each of its
runs is matched by a run. -/
theorem exec_simulates {τ β : Type*} {next' : τ → β → Option τ} {R : σ → τ → Prop}
    (hstep : ∀ s a s' t, R s t → next s a = some s' →
      ∃ bs t', exec next' t bs = some t' ∧ R s' t')
    {as : List α} {s' : σ} {t : τ} (hs : R s t) (h : exec next s as = some s') :
    ∃ bs t', exec next' t bs = some t' ∧ R s' t' := by
  induction as generalizing s t with
  | nil =>
      rw [exec_nil, Option.some.injEq] at h
      exact ⟨[], t, rfl, h ▸ hs⟩
  | cons a as ih =>
      obtain ⟨u, hu, hrest⟩ := exec_cons_eq_some.mp h
      obtain ⟨bs, v, hbs, hv⟩ := hstep s a u t hs hu
      obtain ⟨cs, w, hcs, hw⟩ := ih hv hrest
      exact ⟨bs ++ cs, w, (exec_append hbs).trans hcs, hw⟩

end Run
