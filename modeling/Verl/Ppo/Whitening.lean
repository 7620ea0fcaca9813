import Mathlib.Algebra.Order.BigOperators.Group.List
import Verl.Ppo.AdvantageGroups

/-!
# Whitening with a mask

The mean and the variance of `masked_whiten` are sums over the unmasked entries.
So neither the padding of a row nor a row without an unmasked token changes the
whitened values of the others.
-/

namespace Verl

variable {S : SquareRoot} {rows : List AdvRow}

/-! ## Unmasked entries -/

/-- The entries with a mask that is not 0. -/
def liveEntries (entries : List (ℚ × ℚ)) : List (ℚ × ℚ) := entries.filter fun e => e.2 ≠ 0

theorem sum_map_liveEntries {f : ℚ × ℚ → ℚ} (hf : ∀ e, e.2 = 0 → f e = 0)
    (entries : List (ℚ × ℚ)) : ((liveEntries entries).map f).sum = (entries.map f).sum := by
  induction entries with
  | nil => rfl
  | cons e entries ih =>
      rw [liveEntries] at ih ⊢
      rw [List.map_cons, List.sum_cons, ← ih]
      by_cases he : e.2 = 0
      · rw [List.filter_cons_of_neg (by rwa [decide_eq_true_eq, not_not]), hf e he, zero_add]
      · rw [List.filter_cons_of_pos (by rwa [decide_eq_true_eq]), List.map_cons, List.sum_cons]

theorem maskedMean_liveEntries (entries : List (ℚ × ℚ)) :
    maskedMean (liveEntries entries) = maskedMean entries := by
  rw [maskedMean, maskedMean, maskedSum_eq, maskedSum_eq, sum_map_liveEntries fun e he => he,
    sum_map_liveEntries fun e he => by rw [he, mul_zero]]

theorem liveEntries_map (f : ℚ × ℚ → ℚ) (entries : List (ℚ × ℚ)) :
    liveEntries (entries.map fun e => (f e, e.2)) =
      (liveEntries entries).map fun e => (f e, e.2) := by
  rw [liveEntries, liveEntries, List.filter_map]
  rfl

theorem maskedVar_liveEntries (entries : List (ℚ × ℚ)) :
    maskedVar (liveEntries entries) = maskedVar entries := by
  rw [maskedVar, maskedVar, maskedMean_liveEntries, ← liveEntries_map, maskedMean_liveEntries,
    sum_map_liveEntries fun e he => he]

theorem liveEntries_append (entries entries' : List (ℚ × ℚ)) :
    liveEntries (entries ++ entries') = liveEntries entries ++ liveEntries entries' :=
  List.filter_append entries entries'

theorem liveEntries_flatten (xss : List (List (ℚ × ℚ))) :
    liveEntries xss.flatten = (xss.map liveEntries).flatten := List.filter_flatten

theorem liveEntries_zip_replicate (k : Nat) :
    liveEntries ((List.replicate k 0).zip (List.replicate k 0)) = [] := by
  rw [List.zip_replicate', liveEntries, List.filter_eq_nil_iff]
  intro e he
  rw [List.eq_of_mem_replicate he, decide_eq_true_eq, not_not]

/-- The padding of a row is masked. -/
theorem liveEntries_padTo {width : Nat} {values mask : List ℚ}
    (hlength : values.length = mask.length)
    (hwidth : mask.length ≤ width) :
    liveEntries ((padTo width values).zip (padTo width mask)) = liveEntries (values.zip mask) := by
  rw [padTo_of_le hwidth, padTo_of_le (hlength ▸ hwidth), List.zip_append hlength,
    liveEntries_append, hlength, liveEntries_zip_replicate, List.append_nil]

/-! ## The variance -/

theorem maskedMean_nonneg {entries : List (ℚ × ℚ)} (hvalue : ∀ e ∈ entries, 0 ≤ e.1)
    (hmask : ∀ e ∈ entries, 0 ≤ e.2) : 0 ≤ maskedMean entries := by
  rw [maskedMean, maskedSum_eq]
  refine div_nonneg (List.sum_nonneg ?_) (add_nonneg (List.sum_nonneg ?_) ?_)
  · intro x hx
    obtain ⟨e, he, rfl⟩ := List.mem_map.mp hx
    exact mul_nonneg (hvalue e he) (hmask e he)
  · intro x hx
    obtain ⟨e, he, rfl⟩ := List.mem_map.mp hx
    exact hmask e he
  · exact div_nonneg zero_le_one (pow_nonneg (by decide) 8)

/-- A sum of masks of 0 and 1 is a number of tokens. -/
theorem exists_natCast_sum {mask : List ℚ} (h : ∀ m ∈ mask, m = 0 ∨ m = 1) :
    ∃ n : Nat, mask.sum = n := by
  induction mask with
  | nil => exact ⟨0, by rw [List.sum_nil, Nat.cast_zero]⟩
  | cons m mask ih =>
      obtain ⟨n, hn⟩ := ih fun m' hm' => h m' (List.mem_cons_of_mem m hm')
      rcases h m List.mem_cons_self with hm | hm
      · exact ⟨n, by rw [List.sum_cons, hm, hn, zero_add]⟩
      · exact ⟨n + 1, by rw [List.sum_cons, hm, hn, Nat.cast_add, Nat.cast_one, add_comm]⟩

theorem maskedVar_nonneg {entries : List (ℚ × ℚ)} {var : ℚ}
    (hmask : ∀ e ∈ entries, e.2 = 0 ∨ e.2 = 1) (h : maskedVar entries = .ok var) : 0 ≤ var := by
  have hmaskNonneg : ∀ e ∈ entries, 0 ≤ e.2 := by
    intro e he
    rcases hmask e he with h | h
    · rw [h]
    · rw [h]
      exact zero_le_one
  obtain ⟨n, hn⟩ := @exists_natCast_sum (entries.map Prod.snd) (by
    intro m hm
    obtain ⟨e, he, rfl⟩ := List.mem_map.mp hm
    exact hmask e he)
  rw [maskedVar, hn] at h
  split at h
  · cases h
  next hzero =>
    split at h
    · cases h
    next hone =>
      obtain rfl := Except.ok.inj h
      have hn2 : 2 ≤ n := by
        have h0 : n ≠ 0 := fun h0 => hzero (by rw [h0, Nat.cast_zero])
        have h1 : n ≠ 1 := fun h1 => hone (by rw [h1, Nat.cast_one])
        omega
      refine mul_nonneg (maskedMean_nonneg ?_ ?_) (div_nonneg (Nat.cast_nonneg n) ?_)
      · intro e he
        obtain ⟨e', _, rfl⟩ := List.mem_map.mp he
        exact sq_nonneg _
      · intro e he
        obtain ⟨e', he', rfl⟩ := List.mem_map.mp he
        exact hmaskNonneg e' he'
      · rw [sub_nonneg, ← Nat.cast_one, Nat.cast_le]
        omega

/-! ## Whitened rows -/

/-- A whitened value. -/
def whitenValue (S : SquareRoot) (mean var v : ℚ) : Num :=
  (numDiv 1 (S.sqrt (var + 1 / 10 ^ 8))).map ((v - mean) * ·)

theorem whitenValue_defined {mean var v : ℚ} (h : 0 ≤ var) :
    ∃ x, whitenValue S mean var v = some x := by
  have hpos : 0 < S.sqrt (var + 1 / 10 ^ 8) :=
    S.sqrt_pos _ (add_pos_of_nonneg_of_pos h (div_pos one_pos (pow_pos (by decide) 8)))
  exact ⟨_, by rw [whitenValue, numDiv, if_neg hpos.ne', Option.map_some]⟩

/-- The entries of the rows. -/
def entriesOf (values mask : List (List ℚ)) : List (ℚ × ℚ) :=
  (List.zipWith List.zip values mask).flatten

/-- The whitened values times the mask, row by row. -/
def whitenedRows (S : SquareRoot) (values mask : List (List ℚ)) :
    Except Py.Error (List (List Num)) :=
  do
  let whitened ← maskedWhiten S values mask
  return mulMask whitened mask

/-- A whitened row times its mask. -/
def whitenedRow (S : SquareRoot) (mean var : ℚ) (values mask : List ℚ) : List Num :=
  List.zipWith (fun v m => (whitenValue S mean var v).map (· * m)) values mask

theorem whitenedRows_eq (values mask : List (List ℚ)) :
    whitenedRows S values mask = (do
      let var ← maskedVar (entriesOf values mask)
      return List.zipWith (whitenedRow S (maskedMean (entriesOf values mask)) var)
        values mask) := by
  rw [whitenedRows, maskedWhiten, entriesOf]
  cases maskedVar (List.zipWith List.zip values mask).flatten with
  | error e => rfl
  | ok var =>
      rw [Py.ok_bind, Py.ok_bind, Py.pure_eq_ok, Py.ok_bind, mulMask, List.zipWith_map_left]
      congr 2
      funext row mask
      rw [List.zipWith_map_left]
      rfl

/-- Whitening depends on the unmasked entries only. -/
theorem maskedMean_congr {entries entries' : List (ℚ × ℚ)}
    (h : liveEntries entries = liveEntries entries') :
    maskedMean entries = maskedMean entries' := by
  rw [← maskedMean_liveEntries, h, maskedMean_liveEntries]

theorem maskedVar_congr {entries entries' : List (ℚ × ℚ)}
    (h : liveEntries entries = liveEntries entries') : maskedVar entries = maskedVar entries' := by
  rw [← maskedVar_liveEntries, h, maskedVar_liveEntries]

/-- The width of the batch does not show in the nested whitened rows. -/
theorem whitenedRows_padTo {values : AdvRow → List ℚ} {width : Nat}
    (hlength : ∀ row ∈ rows, (values row).length = row.mask.length)
    (hwidth : ∀ row ∈ rows, row.mask.length ≤ width) :
    (do
      let advantages ← whitenedRows S (rows.map fun row => padTo width (values row))
        (rows.map fun row => padTo width row.mask)
      return responseToNested rows advantages) =
      whitenedRows S (rows.map values) (rows.map AdvRow.mask) := by
  have hentries : liveEntries (entriesOf (rows.map fun row => padTo width (values row))
      (rows.map fun row => padTo width row.mask)) =
        liveEntries (entriesOf (rows.map values) (rows.map AdvRow.mask)) := by
    rw [entriesOf, entriesOf, List.zipWith_map, List.zipWith_map, List.zipWith_self,
      List.zipWith_self, liveEntries_flatten, liveEntries_flatten, List.map_map, List.map_map]
    refine congrArg List.flatten (List.map_congr_left fun row hrow => ?_)
    exact liveEntries_padTo (hlength row hrow) (hwidth row hrow)
  rw [whitenedRows_eq, whitenedRows_eq, maskedMean_congr hentries, maskedVar_congr hentries]
  cases maskedVar (entriesOf (rows.map values) (rows.map AdvRow.mask)) with
  | error e => rfl
  | ok var =>
      rw [Py.ok_bind, Py.ok_bind, Py.pure_eq_ok, Py.ok_bind, List.zipWith_map, List.zipWith_map,
        List.zipWith_self, List.zipWith_self, responseToNested_map]
      refine congrArg Except.ok (List.map_congr_left fun row hrow => ?_)
      rw [whitenedRow, List.take_zipWith, take_padTo (hwidth row hrow), ← hlength row hrow,
        take_padTo ((hlength row hrow).trans_le (hwidth row hrow))]
      rfl

/-- Masked rows of one column do not change the others, and are whitened to 0. -/
theorem whitenedRows_append {values mask : List (List ℚ)} (hrows : values.length = mask.length)
    (hmask : ∀ e ∈ entriesOf values mask, e.2 = 0 ∨ e.2 = 1) (p : Nat) :
    whitenedRows S (values ++ List.replicate p [0]) (mask ++ List.replicate p [0]) = (do
      let advantages ← whitenedRows S values mask
      return advantages ++ List.replicate p [some 0]) := by
  have hentries : liveEntries (entriesOf (values ++ List.replicate p [0])
      (mask ++ List.replicate p [0])) = liveEntries (entriesOf values mask) := by
    have hzeros : liveEntries (List.replicate p [((0 : ℚ), (0 : ℚ))]).flatten = [] := by
      rw [liveEntries_flatten, List.map_replicate]
      exact List.flatten_replicate_nil
    rw [entriesOf, List.zipWith_append hrows, List.flatten_append, liveEntries_append,
      List.zipWith_replicate', entriesOf]
    exact (congrArg _ hzeros).trans (List.append_nil _)
  rw [whitenedRows_eq, whitenedRows_eq, maskedMean_congr hentries, maskedVar_congr hentries]
  cases hvar : maskedVar (entriesOf values mask) with
  | error e => rfl
  | ok var =>
      obtain ⟨x, hx⟩ := @whitenValue_defined S (maskedMean (entriesOf values mask)) var 0
        (maskedVar_nonneg hmask hvar)
      have hpad : whitenedRow S (maskedMean (entriesOf values mask)) var [0] [0] = [some 0] := by
        rw [whitenedRow, List.zipWith_cons_cons, hx, Option.map_some, mul_zero]
        rfl
      rw [Py.ok_bind, Py.ok_bind, Py.pure_eq_ok, Py.pure_eq_ok, Py.ok_bind,
        List.zipWith_append hrows, List.zipWith_replicate', hpad]
      rfl

end Verl
