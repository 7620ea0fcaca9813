import Mathlib.Data.List.Nodup

/-!
# First come

A loop over entries with a key that passes over every key it has seen.  It does what a loop
over the first entries of each key does (`foldl_unseen`), and the first entry of a key is the
one that is found by it (`mem_firsts`).
-/

namespace FirstCome

variable {α κ σ : Type} [DecidableEq κ]

/-- The first entry of each key that is not among `seen`. -/
def firsts (seen : List κ) : List (α × κ) → List (α × κ)
  | [] => []
  | e :: es => if e.2 ∈ seen then firsts seen es else e :: firsts (e.2 :: seen) es

theorem mem_firsts {seen : List κ} {es : List (α × κ)} {e : α × κ} :
    e ∈ firsts seen es ↔ e.2 ∉ seen ∧ es.find? (fun e' => decide (e'.2 = e.2)) = some e := by
  induction es generalizing seen with
  | nil =>
      rw [firsts, List.find?_nil]
      exact iff_of_false List.not_mem_nil fun h => nomatch h.2
  | cons e' es ih =>
      rw [firsts, List.find?_cons]
      by_cases hkey : e'.2 = e.2
      · rw [decide_eq_true hkey]
        by_cases hseen : e'.2 ∈ seen
        · rw [if_pos hseen, ih]
          rw [hkey] at hseen
          exact iff_of_false (fun h => h.1 hseen) fun h => h.1 hseen
        · rw [if_neg hseen, List.mem_cons, ih, hkey]
          rw [hkey] at hseen
          constructor
          · rintro (rfl | ⟨hnot, -⟩)
            · exact ⟨hseen, rfl⟩
            · exact absurd List.mem_cons_self hnot
          · rintro ⟨-, heq⟩
            exact .inl (Option.some.inj heq).symm
      · rw [decide_eq_false hkey]
        by_cases hseen : e'.2 ∈ seen
        · rw [if_pos hseen, ih]
        · rw [if_neg hseen, List.mem_cons, ih, List.mem_cons, not_or]
          constructor
          · rintro (rfl | ⟨⟨-, hnot⟩, hfind⟩)
            · exact absurd rfl hkey
            · exact ⟨hnot, hfind⟩
          · rintro ⟨hnot, hfind⟩
            exact .inr ⟨⟨Ne.symm hkey, hnot⟩, hfind⟩

theorem nodup_firsts (seen : List κ) (es : List (α × κ)) :
    ((firsts seen es).map Prod.snd).Nodup := by
  induction es generalizing seen with
  | nil => exact List.nodup_nil
  | cons e es ih =>
      rw [firsts]
      split
      · exact ih seen
      · rw [List.map_cons, List.nodup_cons]
        refine ⟨fun hmem => ?_, ih _⟩
        obtain ⟨e', he', heq⟩ := List.mem_map.mp hmem
        exact (mem_firsts.mp he').1 (heq ▸ List.mem_cons_self)

/-- A loop that passes over the keys it has seen. -/
theorem foldl_unseen (step : σ → α × κ → σ) (es : List (α × κ)) (seen : List κ) (s : σ) :
    (es.foldl (fun st e => if e.2 ∈ st.1 then st else (e.2 :: st.1, step st.2 e)) (seen, s)).2 =
      (firsts seen es).foldl step s := by
  induction es generalizing seen s with
  | nil => rfl
  | cons e es ih =>
      rw [List.foldl_cons, firsts]
      by_cases hseen : e.2 ∈ seen
      · rw [if_pos hseen, if_pos hseen, ih]
      · rw [if_neg hseen, if_neg hseen, ih, List.foldl_cons]

end FirstCome
