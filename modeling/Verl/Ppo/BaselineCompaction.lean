import Verl.Ppo.OptimalTokenBaseline

/-!
# Baselines of compacted rows

Both optimal token baselines are the same function of the unmasked tokens of the rows of a
group (`groupBaseline`).  So the one for several turns gives every unmasked token what the
one for one turn gives it in the batch of the rows packed to the left.
-/

namespace Verl.Otb

open XRat
open Py (groupBy valuesOf)

variable {K : Type} {width : Nat}

/-! ## Unmasked tokens -/

/-- The unmasked tokens of a row. -/
def live (tokens : List Token) : List Token := tokens.filter fun t => t.mask ≠ 0

theorem live_cons_masked {t : Token} (h : t.mask = 0) (tokens : List Token) :
    live (t :: tokens) = live tokens :=
  List.filter_cons_of_neg (by rwa [decide_eq_true_eq, not_not])

theorem live_cons_live {t : Token} (h : t.mask = 1) (tokens : List Token) :
    live (t :: tokens) = t :: live tokens :=
  List.filter_cons_of_pos (by rw [decide_eq_true_eq, h]; exact one_ne_zero)

theorem mask_of_mem_live {tokens : List Token} : ∀ t ∈ live tokens, t.mask = 1 := by
  intro t ht
  exact t.mask_zero_or_one.resolve_left (of_decide_eq_true (List.mem_filter.mp ht).2)

theorem responseLength_eq (tokens : List Token) :
    responseLength tokens = (live tokens).length := by
  have hsum : (responseMask tokens).sum = ((live tokens).length : ℚ) := by
    induction tokens with
    | nil => rfl
    | cons t tokens ih =>
        rw [responseMask] at ih ⊢
        rw [List.map_cons, List.sum_cons, ih]
        rcases t.mask_zero_or_one with ht | ht
        · rw [live_cons_masked ht, ht, zero_add]
        · rw [live_cons_live ht, ht, List.length_cons, Nat.cast_add, Nat.cast_one, add_comm]
  rw [responseLength, hsum, Int.floor_natCast, Int.toNat_natCast]

/-! ## Sums over the tokens -/

theorem length_cumsum (total : ℚ) (xs : List ℚ) : (cumsum total xs).length = xs.length := by
  induction xs generalizing total with
  | nil => rfl
  | cons x xs ih => rw [cumsum, List.length_cons, List.length_cons, ih]

theorem cumsum_append (total : ℚ) (xs ys : List ℚ) :
    cumsum total (xs ++ ys) = cumsum total xs ++ cumsum (total + xs.sum) ys := by
  induction xs generalizing total with
  | nil => rw [List.nil_append, List.sum_nil, add_zero]; rfl
  | cons x xs ih =>
      rw [List.cons_append, cumsum, cumsum, ih, List.sum_cons, List.cons_append, add_assoc]

/-- Masked tokens add nothing. -/
theorem sum_live (f : Token → ℚ) (tokens : List Token) :
    ((live tokens).map fun t => f t * t.mask).sum = (tokens.map fun t => f t * t.mask).sum := by
  induction tokens with
  | nil => rfl
  | cons t tokens ih =>
      rcases t.mask_zero_or_one with ht | ht
      · rw [live_cons_masked ht, ih, List.map_cons, List.sum_cons, ht, mul_zero, zero_add]
      · rw [live_cons_live ht, List.map_cons, List.map_cons, List.sum_cons, List.sum_cons, ih]

theorem tokenReturns_cons (t : Token) (tokens : List Token) :
    tokenReturns (t :: tokens) =
      ((t :: tokens).map fun t => t.reward * t.mask).sum :: tokenReturns tokens := by
  have hsum : (tokens.map fun t => t.reward * t.mask).reverse.sum =
      (tokens.map fun t => t.reward * t.mask).sum := List.sum_reverse _
  rw [tokenReturns, List.map_cons, List.reverse_cons, cumsum_append, List.reverse_append,
    tokenReturns, hsum, List.sum_cons]
  rw [zero_add, add_comm]
  rfl

theorem length_tokenReturns (tokens : List Token) :
    (tokenReturns tokens).length = tokens.length := by
  rw [tokenReturns, List.length_reverse, length_cumsum, List.length_reverse, List.length_map]

theorem length_wCumulative (weighted : Bool) (tokens : List Token) :
    (wCumulative weighted tokens).length = tokens.length := by
  rw [wCumulative, length_cumsum, List.length_map]

/-- The returns of the unmasked tokens are those of the row without the masked ones. -/
theorem atLive_tokenReturns (tokens : List Token) :
    atLive (responseMask tokens) (tokenReturns tokens) = tokenReturns (live tokens) := by
  induction tokens with
  | nil => rfl
  | cons t tokens ih =>
      rw [responseMask] at ih ⊢
      rw [tokenReturns_cons, List.map_cons]
      rcases t.mask_zero_or_one with ht | ht
      · rw [ht, atLive_cons_masked, live_cons_masked ht, ih]
      · rw [atLive_cons_live (by rw [ht]; exact one_ne_zero), live_cons_live ht,
          tokenReturns_cons, ih, ← live_cons_live ht, sum_live]

theorem atLive_wCumulative (weighted : Bool) (tokens : List Token) :
    atLive (responseMask tokens) (wCumulative weighted tokens) =
      wCumulative weighted (live tokens) := by
  rw [wCumulative, wCumulative]
  generalize (0 : ℚ) = total
  induction tokens generalizing total with
  | nil => rfl
  | cons t tokens ih =>
      rw [responseMask] at ih ⊢
      rw [List.map_cons, List.map_cons, cumsum]
      rcases t.mask_zero_or_one with ht | ht
      · rw [ht, atLive_cons_masked, live_cons_masked ht, mul_zero, add_zero, ih]
      · rw [atLive_cons_live (by rw [ht]; exact one_ne_zero), live_cons_live ht, List.map_cons,
          cumsum, ih]

/-! ## Entries of a row -/

/-- A row of unmasked tokens followed by masked ones. -/
structure Packed (front tokens : List Token) : Prop where
  front_mask : ∀ t ∈ front, t.mask = 1
  rest : ∃ rest, tokens = front ++ rest ∧ ∀ t ∈ rest, t.mask = 0

theorem live_eq_nil {rest : List Token} (h : ∀ t ∈ rest, t.mask = 0) : live rest = [] :=
  List.filter_eq_nil_iff.mpr fun t ht => by rw [decide_eq_true_eq, not_not]; exact h t ht

theorem Packed.live_eq {front tokens : List Token} (h : Packed front tokens) :
    live tokens = front := by
  obtain ⟨rest, rfl, hrest⟩ := h.rest
  have hfront : live front = front := List.filter_eq_self.mpr fun t ht => by
    rw [decide_eq_true_eq, h.front_mask t ht]
    exact one_ne_zero
  rw [live, List.filter_append, ← live, ← live, hfront, live_eq_nil hrest, List.append_nil]

/-- The entries at the unmasked tokens of a packed row are the first ones. -/
theorem Packed.atLive_eq {α : Type} {front tokens : List Token} (h : Packed front tokens)
    {xs : List α} (hlength : xs.length = tokens.length) :
    atLive (responseMask tokens) xs = xs.take front.length := by
  obtain ⟨rest, rfl, hrest⟩ := h.rest
  have hfront := h.front_mask
  clear h
  induction front generalizing xs with
  | nil =>
      rw [atLive, List.map_eq_nil_iff.mpr, List.length_nil, List.take_zero]
      refine List.filter_eq_nil_iff.mpr fun e he => ?_
      obtain ⟨t, ht, hmask⟩ := List.mem_map.mp (List.of_mem_zip he).1
      rw [decide_eq_true_eq, not_not, ← hmask]
      exact hrest t ht
  | cons t front ih =>
      cases xs with
      | nil => cases hlength
      | cons x xs =>
          have ht : t.mask ≠ 0 := by rw [hfront t List.mem_cons_self]; exact one_ne_zero
          rw [List.cons_append, responseMask, List.map_cons, atLive_cons_live ht, ← responseMask,
            ih (Nat.succ.inj hlength) fun t' ht' => hfront t' (List.mem_cons_of_mem t ht'),
            List.length_cons, List.take_succ_cons]

theorem responseMask_getD (tokens : List Token) (j : Nat) :
    (responseMask tokens).getD j 0 = 0 ∨ (responseMask tokens).getD j 0 = 1 := by
  rw [responseMask, List.getD_eq_getElem?_getD, List.getElem?_map]
  cases tokens[j]? with
  | none => exact .inl rfl
  | some t => exact t.mask_zero_or_one

/-- A masked entry of a packed row. -/
theorem Packed.getD_mul_mask {front tokens : List Token} (h : Packed front tokens)
    {xs : List ℚ} (hlength : xs.length = tokens.length) (j : Nat) :
    xs.getD j 0 * (responseMask tokens).getD j 0 = (atLive (responseMask tokens) xs).getD j 0 := by
  rw [h.atLive_eq hlength]
  obtain ⟨rest, rfl, hrest⟩ := h.rest
  rw [responseMask, List.getD_eq_getElem?_getD (l := (front ++ rest).map Token.mask),
    List.getElem?_map]
  obtain hj | hj := Nat.lt_or_ge j front.length
  · rw [List.getElem?_append_left hj, List.getElem?_eq_getElem hj, Option.map_some,
      Option.getD_some, h.front_mask _ (List.getElem_mem hj), mul_one,
      List.getD_eq_getElem?_getD, List.getD_eq_getElem?_getD, List.getElem?_take_of_lt hj]
  · have hzero : ((rest[j - front.length]?).map Token.mask).getD 0 = 0 := by
      cases hget : rest[j - front.length]? with
      | none => rfl
      | some t => exact hrest t (List.mem_of_getElem? hget)
    rw [List.getElem?_append_right hj, hzero, mul_zero, List.getD_eq_getElem?_getD,
      List.getElem?_take_eq_none hj]
    rfl

/-- An entry of a gathered row. -/
theorem getD_gather (maxLength : Nat) (tokens : List Token) (values : List ℚ) (j : Nat) :
    (gather maxLength tokens values).getD j 0 =
      (atLive (responseMask tokens) values).getD j 0 := by
  rw [gather, List.getD_eq_getElem?_getD, List.getD_eq_getElem?_getD]
  obtain hj | hj := Nat.lt_or_ge j (atLive (responseMask tokens) values).length
  · rw [List.getElem?_append_left hj]
  · rw [List.getElem?_append_right hj, List.getElem?_eq_none hj, List.getElem?_replicate]
    split <;> rfl

/-! ## The baseline of a group -/

/-- What the baseline of a group takes from a row: the returns and the cumulative weights
of its unmasked tokens. -/
structure Member where
  returns : List ℚ
  w : List ℚ

def Member.length (member : Member) : Nat := member.returns.length

/-- The row as a member of its group. -/
def member (weighted : Bool) (tokens : List Token) : Member where
  returns := tokenReturns (live tokens)
  w := wCumulative weighted (live tokens)

theorem length_member (weighted : Bool) (tokens : List Token) :
    (member weighted tokens).length = responseLength tokens := by
  rw [Member.length, member, length_tokenReturns, responseLength_eq]

/-- `B_t* = E[G_t * W_t] / E[W_t]` -/
def optimalBaseline (epsilon : ℚ) (group : List Member) (j : Nat) : XRat :=
  fin (group.map fun member => member.returns.getD j 0 * member.w.getD j 0).sum /
    fin ((group.map fun member => member.w.getD j 0).sum + epsilon)

/-- The step is after the second longest row of the group, in the only longest one. -/
def InTail (lengths : List Nat) (length j : Nat) : Prop :=
  ((maxLengthIdx lengths).length = 1 ∧ sortedLength lengths 1 < sortedLength lengths 0) ∧
    length = sortedLength lengths 0 ∧ sortedLength lengths 1 ≤ j

instance (lengths : List Nat) (length j : Nat) : Decidable (InTail lengths length j) :=
  inferInstanceAs (Decidable (_ ∧ _))

/-- The baseline of a row with this number of unmasked tokens at a step. -/
def groupBaseline (handleZeroTail : Bool) (epsilon : ℚ) (group : List Member) (length j : Nat) :
    XRat :=
  if group.length = 1 then 0
  else if handleZeroTail = true ∧ InTail (group.map Member.length) length j then 0
  else optimalBaseline epsilon group j

/-! ## The tail of the longest row -/

theorem mem_maxLengthIdx {lengths : List Nat} {p : Nat} :
    p ∈ maxLengthIdx lengths ↔
      p < lengths.length ∧ lengths.getD p 0 = sortedLength lengths 0 := by
  rw [maxLengthIdx, List.mem_filter, List.mem_range, decide_eq_true_eq]

theorem getD_map_length {trajectoryIndices : List Nat} {len : Nat → Nat} {p : Nat}
    (hp : p < trajectoryIndices.length) :
    (trajectoryIndices.map len).getD p 0 = len (trajectoryIndices.getD p 0) := by
  rw [List.getD_eq_getElem?_getD, List.getElem?_map, List.getD_eq_getElem?_getD,
    List.getElem?_eq_getElem hp]
  rfl

theorem zeroTail_of_not_mem {lengths trajectoryIndices : List Nat} {i : Nat}
    (hlength : lengths.length = trajectoryIndices.length) (hi : i ∉ trajectoryIndices)
    (baselines : Nat → List XRat) :
    zeroTail lengths trajectoryIndices baselines i = baselines i := by
  rw [zeroTail]
  split
  next hunique =>
    obtain ⟨p, hp⟩ := List.length_eq_one_iff.mp hunique.1
    have hlt : p < trajectoryIndices.length := by
      rw [← hlength]
      exact (mem_maxLengthIdx.mp (hp ▸ List.mem_singleton_self p)).1
    refine if_neg fun heq => hi ?_
    rw [heq, hp, List.headD_cons, List.getD_eq_getElem?_getD, List.getElem?_eq_getElem hlt]
    exact List.getElem_mem hlt
  · rfl

theorem zeroTail_getD {trajectoryIndices : List Nat} {len : Nat → Nat} {i : Nat}
    (hi : i ∈ trajectoryIndices) (baselines : Nat → List XRat) (j : Nat) :
    (zeroTail (trajectoryIndices.map len) trajectoryIndices baselines i).getD j 0 =
      if InTail (trajectoryIndices.map len) (len i) j then 0 else (baselines i).getD j 0 := by
  rw [zeroTail]
  split
  next hunique =>
    obtain ⟨p, hp⟩ := List.length_eq_one_iff.mp hunique.1
    have hmax := mem_maxLengthIdx.mp (hp ▸ List.mem_singleton_self p)
    have hlt : p < trajectoryIndices.length := by
      rw [← List.length_map len]
      exact hmax.1
    have hlongest : i = trajectoryIndices.getD p 0 ↔
        len i = sortedLength (trajectoryIndices.map len) 0 := by
      constructor
      · rintro rfl
        rw [← hmax.2, getD_map_length hlt]
      · intro hlen
        obtain ⟨q, hq, rfl⟩ := List.getElem_of_mem hi
        have hget : trajectoryIndices.getD q 0 = trajectoryIndices[q] := by
          rw [List.getD_eq_getElem?_getD, List.getElem?_eq_getElem hq, Option.getD_some]
        have hmem : q ∈ maxLengthIdx (trajectoryIndices.map len) := by
          rw [mem_maxLengthIdx, List.length_map, getD_map_length hq, hget]
          exact ⟨hq, hlen⟩
        rw [hp, List.mem_singleton] at hmem
        rw [← hmem, hget]
    rw [hp, List.headD_cons, zeroFrom]
    by_cases heq : i = trajectoryIndices.getD p 0
    · rw [if_pos heq]
      have hlen := hlongest.mp heq
      obtain hj | hj := Nat.lt_or_ge j (sortedLength (trajectoryIndices.map len) 1)
      · rw [if_neg fun htail => Nat.not_lt_of_le htail.2.2 hj]
        rw [List.getD_eq_getElem?_getD, List.getD_eq_getElem?_getD]
        obtain hin | hout := Nat.lt_or_ge j (baselines i).length
        · rw [List.getElem?_append_left (by rw [List.length_take]; omega),
            List.getElem?_take_of_lt hj]
        · rw [List.getElem?_eq_none hout, List.getElem?_eq_none]
          rw [List.length_append, List.length_take, List.length_replicate]
          omega
      · rw [if_pos ⟨hunique, hlen, hj⟩, List.getD_eq_getElem?_getD,
          List.getElem?_append_right (by rw [List.length_take]; omega), List.getElem?_replicate]
        split <;> rfl
    · rw [if_neg heq, if_neg fun htail => heq (hlongest.mpr htail.2.1)]
  next hshared => rw [if_neg fun htail => hshared htail.1]

/-! ## One group -/

/-- The tokens of row `i`. -/
def tokensAt (rows : List (Row K width)) (i : Nat) : List Token :=
  (rows.map Row.tokens).getD i []

/-- Row `i` as a member of its group. -/
def memberAt (weighted : Bool) (rows : List (Row K width)) (i : Nat) : Member :=
  member weighted (tokensAt rows i)

variable {weighted handleZeroTail : Bool} {epsilon : ℚ} {rows : List (Row K width)}
  {trajectoryIndices : List Nat} {baselines : Nat → List XRat} {i j : Nat}

theorem tokensAt_of_mem {row : Row K width} (h : (row, i) ∈ rows.zipIdx) :
    tokensAt rows i = row.tokens := by
  rw [List.mk_mem_zipIdx_iff_getElem?] at h
  rw [tokensAt, List.getD_eq_getElem?_getD, List.getElem?_map, h]
  rfl

theorem entry_map (f : List Token → List ℚ) (hi : i < rows.length) (j : Nat) :
    entry (rows.map fun row => f row.tokens) i j = (f (tokensAt rows i)).getD j 0 := by
  rw [entry, tokensAt, List.getD_eq_getElem?_getD (l := rows.map _), List.getElem?_map,
    List.getD_eq_getElem?_getD (l := rows.map Row.tokens), List.getElem?_map,
    List.getElem?_eq_getElem hi]
  rfl

theorem lengths_getD (hi : i < rows.length) :
    (rows.map fun row => responseLength row.tokens).getD i 0 =
      (memberAt weighted rows i).length := by
  rw [memberAt, length_member, tokensAt, List.getD_eq_getElem?_getD, List.getElem?_map,
    List.getD_eq_getElem?_getD, List.getElem?_map, List.getElem?_eq_getElem hi]
  rfl

theorem lengths_map (h : ∀ i ∈ trajectoryIndices, i < rows.length) :
    (trajectoryIndices.map fun i =>
      (rows.map fun row => responseLength row.tokens).getD i 0) =
      trajectoryIndices.map fun i => (memberAt weighted rows i).length :=
  List.map_congr_left fun i hi => lengths_getD (h i hi)

/-- The baselines of a group with its tail, from the row that all its members get. -/
theorem assigned_getD (group : List XRat) (hi : i ∈ trajectoryIndices)
    (hrows : ∀ i ∈ trajectoryIndices, i < rows.length)
    (hgroup : group.getD j 0 =
      optimalBaseline epsilon (trajectoryIndices.map (memberAt weighted rows)) j)
    (hne : trajectoryIndices.length ≠ 1) :
    ((if handleZeroTail then
        zeroTail (trajectoryIndices.map fun i =>
          (rows.map fun row => responseLength row.tokens).getD i 0) trajectoryIndices
          (assignRows baselines trajectoryIndices group)
      else assignRows baselines trajectoryIndices group) i).getD j 0 =
      groupBaseline handleZeroTail epsilon (trajectoryIndices.map (memberAt weighted rows))
        (responseLength (tokensAt rows i)) j := by
  have hassigned : assignRows baselines trajectoryIndices group i = group := if_pos hi
  have hlength : (memberAt weighted rows i).length = responseLength (tokensAt rows i) :=
    length_member weighted _
  have hlengths : (trajectoryIndices.map (memberAt weighted rows)).map Member.length =
      trajectoryIndices.map fun i => (memberAt weighted rows i).length := List.map_map
  rw [groupBaseline, List.length_map, if_neg hne, hlengths]
  cases handleZeroTail with
  | false =>
      rw [if_neg Bool.false_ne_true, if_neg fun h => Bool.false_ne_true h.1, hassigned, hgroup]
  | true =>
      rw [if_pos rfl, @lengths_map _ _ weighted _ _ hrows, zeroTail_getD hi, hassigned, hgroup,
        hlength]
      simp only [true_and]

theorem groupStep_of_not_mem (hi : i ∉ trajectoryIndices) :
    groupStep weighted handleZeroTail epsilon rows baselines trajectoryIndices i =
      baselines i := by
  rw [groupStep]
  split
  · rfl
  · cases handleZeroTail with
    | false => exact if_neg hi
    | true =>
        simp only [if_true]
        rw [zeroTail_of_not_mem (List.length_map _) hi]
        exact if_neg hi

theorem multiTurnGroupStep_of_not_mem (hi : i ∉ trajectoryIndices) :
    multiTurnGroupStep weighted handleZeroTail epsilon rows baselines trajectoryIndices i =
      baselines i := by
  rw [multiTurnGroupStep]
  split
  · exact if_neg fun hmem => hi (List.mem_of_mem_take hmem)
  · cases handleZeroTail with
    | false => exact if_neg hi
    | true =>
        simp only [if_true]
        rw [zeroTail_of_not_mem (List.length_map _) hi]
        exact if_neg hi

/-- The entries of a packed row in the sums of a group. -/
theorem packed_entries (hi : i < rows.length)
    (hpacked : ∀ row ∈ rows, Packed (live row.tokens) row.tokens) (j : Nat) :
    entry (rows.map fun row => wCumulative weighted row.tokens) i j *
        entry (rows.map fun row => responseMask row.tokens) i j =
      (memberAt weighted rows i).w.getD j 0 ∧
    entry (rows.map fun row => tokenReturns row.tokens) i j *
        entry (rows.map fun row => wCumulative weighted row.tokens) i j *
        entry (rows.map fun row => responseMask row.tokens) i j =
      (memberAt weighted rows i).returns.getD j 0 * (memberAt weighted rows i).w.getD j 0 := by
  have hrow : Packed (live (tokensAt rows i)) (tokensAt rows i) := by
    have hmem : (rows[i], i) ∈ rows.zipIdx := by
      rw [List.mk_mem_zipIdx_iff_getElem?, List.getElem?_eq_getElem hi]
    rw [tokensAt_of_mem hmem]
    exact hpacked _ (List.getElem_mem hi)
  have hw := hrow.getD_mul_mask (length_wCumulative weighted _) j
  have hreturns := hrow.getD_mul_mask (length_tokenReturns _) j
  rw [atLive_wCumulative] at hw
  rw [atLive_tokenReturns] at hreturns
  rw [entry_map (wCumulative weighted) hi, entry_map responseMask hi, entry_map tokenReturns hi,
    memberAt, member]
  refine ⟨hw, ?_⟩
  simp only
  rw [← hw, ← hreturns]
  rcases responseMask_getD (tokensAt rows i) j with hmask | hmask
  · rw [hmask, mul_zero, mul_zero, mul_zero, mul_zero]
  · rw [hmask, mul_one, mul_one, mul_one]

/-- What a group gives a member, with rows that are packed to the left. -/
theorem groupStep_getD (hpacked : ∀ row ∈ rows, Packed (live row.tokens) row.tokens)
    (hi : i ∈ trajectoryIndices) (hrows : ∀ i ∈ trajectoryIndices, i < rows.length)
    (hzero : baselines i = List.replicate width 0) (hj : j < width) :
    (groupStep weighted handleZeroTail epsilon rows baselines trajectoryIndices i).getD j 0 =
      groupBaseline handleZeroTail epsilon (trajectoryIndices.map (memberAt weighted rows))
        (responseLength (tokensAt rows i)) j := by
  rw [groupStep]
  split
  next hone =>
    rw [groupBaseline, List.length_map, if_pos hone, hzero, List.getD_eq_getElem?_getD,
      List.getElem?_replicate_of_lt hj]
    rfl
  next hne =>
    refine assigned_getD _ hi hrows ?_ hne
    have hentries := fun i hi => @packed_entries _ _ weighted _ _ (hrows i hi) hpacked j
    rw [baselinePerStep, List.getD_eq_getElem?_getD, List.getElem?_map, List.getElem?_range hj,
      Option.map_some, Option.getD_some, optimalBaseline, List.map_map, List.map_map,
      List.map_congr_left fun i hi => (hentries i hi).1,
      List.map_congr_left fun i hi => (hentries i hi).2]
    rfl

/-- What a group gives a member, counted by the unmasked tokens. -/
theorem multiTurnGroupStep_getD (hi : i ∈ trajectoryIndices)
    (hrows : ∀ i ∈ trajectoryIndices, i < rows.length) (hj : j < maxResponseLength rows) :
    (multiTurnGroupStep weighted handleZeroTail epsilon rows baselines trajectoryIndices i).getD
        j 0 =
      groupBaseline handleZeroTail epsilon (trajectoryIndices.map (memberAt weighted rows))
        (responseLength (tokensAt rows i)) j := by
  rw [multiTurnGroupStep]
  split
  next hone =>
    have hassigned : assignRows baselines (trajectoryIndices.take 1)
        (List.replicate (maxResponseLength rows) 0) i =
        List.replicate (maxResponseLength rows) 0 := by
      rw [assignRows, List.take_of_length_le (Nat.le_of_eq hone), if_pos hi]
    rw [groupBaseline, List.length_map, if_pos hone, hassigned, List.getD_eq_getElem?_getD,
      List.getElem?_replicate_of_lt hj]
    rfl
  next hne =>
    refine assigned_getD _ hi hrows ?_ hne
    have hw : ∀ i ∈ trajectoryIndices, entry (allWValues weighted rows) i j =
        (memberAt weighted rows i).w.getD j 0 := by
      intro i hi
      rw [allWValues, entry_map (fun tokens => gather _ tokens (wCumulative weighted tokens))
        (hrows i hi), getD_gather, atLive_wCumulative]
      rfl
    have hreturns : ∀ i ∈ trajectoryIndices, entry (allReturns rows) i j =
        (memberAt weighted rows i).returns.getD j 0 := by
      intro i hi
      rw [allReturns, entry_map (fun tokens => gather _ tokens (tokenReturns tokens)) (hrows i hi),
        getD_gather, atLive_tokenReturns]
      rfl
    have hproducts : ∀ i ∈ trajectoryIndices,
        entry (allReturns rows) i j * entry (allWValues weighted rows) i j =
          (memberAt weighted rows i).returns.getD j 0 * (memberAt weighted rows i).w.getD j 0 :=
      fun i hi => by rw [hw i hi, hreturns i hi]
    rw [bStar, List.getD_eq_getElem?_getD, List.getElem?_map, List.getElem?_range hj,
      Option.map_some, Option.getD_some, optimalBaseline, List.map_map, List.map_map,
      List.map_congr_left hw, List.map_congr_left hproducts]
    rfl

/-! ## The advantages of a row -/

theorem responseLength_le (tokens : List Token) : responseLength tokens ≤ tokens.length := by
  rw [responseLength_eq]
  exact List.length_filter_le _ _

theorem responseLength_le_max {row : Row K width} (h : row ∈ rows) :
    responseLength row.tokens ≤ maxResponseLength rows :=
  List.le_max?_getD_of_mem (List.mem_map_of_mem h)

theorem Packed.mask_getD {tokens : List Token} (h : Packed (live tokens) tokens) {j : Nat}
    (hj : j < responseLength tokens) : (responseMask tokens).getD j 0 = 1 := by
  rw [responseLength_eq] at hj
  obtain ⟨rest, heq, -⟩ := h.rest
  have hget : tokens[j]? = some (live tokens)[j] := by
    have happend := @List.getElem?_append_left _ (live tokens) rest j hj
    rwa [← heq, List.getElem?_eq_getElem hj] at happend
  rw [responseMask, List.getD_eq_getElem?_getD, List.getElem?_map, hget, Option.map_some,
    Option.getD_some, h.front_mask _ (List.getElem_mem hj)]

theorem Packed.returns_getD {tokens : List Token} (h : Packed (live tokens) tokens) {j : Nat}
    (hj : j < responseLength tokens) :
    (tokenReturns tokens).getD j 0 = (member weighted tokens).returns.getD j 0 := by
  have hreturns := h.getD_mul_mask (length_tokenReturns tokens) j
  rwa [h.mask_getD hj, mul_one, atLive_tokenReturns] at hreturns

/-- The scattered values are at the unmasked tokens. -/
theorem atLive_scatter {tokens : List Token} {values : List XRat}
    (h : values.length = responseLength tokens) :
    atLive (responseMask tokens) (List.zipWith (fun advantage m => advantage * fin m)
      (scatter (responseMask tokens) values) (responseMask tokens)) = values := by
  rw [responseLength_eq] at h
  induction tokens generalizing values with
  | nil => rw [List.length_eq_zero_iff.mp h]; rfl
  | cons t tokens ih =>
      rw [responseMask] at ih ⊢
      rw [List.map_cons, scatter]
      rcases t.mask_zero_or_one with ht | ht
      · rw [live_cons_masked ht] at h
        rw [if_pos ht, List.zipWith_cons_cons, ht, atLive_cons_masked, ih h]
      · rw [live_cons_live ht] at h
        obtain ⟨value, values, rfl⟩ := List.exists_cons_of_length_eq_add_one h
        have hne : t.mask ≠ 0 := by rw [ht]; exact one_ne_zero
        rw [if_neg hne, List.zipWith_cons_cons, atLive_cons_live hne, List.headD_cons,
          List.tail_cons, ih (Nat.succ.inj h), ht, mul_fin_one]

/-- Masked tokens get 0. -/
theorem zip_scatter_masked (mask : List ℚ) (values : List XRat) :
    ∀ e ∈ mask.zip (List.zipWith (fun advantage m => advantage * fin m) (scatter mask values)
      mask), e.1 = 0 → e.2 = 0 := by
  induction mask generalizing values with
  | nil => exact fun e he => absurd he List.not_mem_nil
  | cons m mask ih =>
      intro e he hzero
      rw [scatter] at he
      split at he
      next hm =>
        rw [List.zipWith_cons_cons, List.zip_cons_cons, List.mem_cons] at he
        rcases he with rfl | he
        · exact congrArg fin (zero_mul m)
        · exact ih _ e he hzero
      next hm =>
        rw [List.zipWith_cons_cons, List.zip_cons_cons, List.mem_cons] at he
        rcases he with rfl | he
        · exact absurd hzero hm
        · exact ih _ e he hzero

theorem length_scatter (mask : List ℚ) (values : List XRat) :
    (scatter mask values).length = mask.length := by
  induction mask generalizing values with
  | nil => rfl
  | cons m mask ih =>
      rw [scatter]
      split
      · rw [List.length_cons, List.length_cons, ih]
      · rw [List.length_cons, List.length_cons, ih]

theorem scatter_of_masked {mask : List ℚ} (h : ∀ m ∈ mask, m = 0) (values : List XRat) :
    scatter mask values = List.replicate mask.length 0 := by
  induction mask with
  | nil => rfl
  | cons m mask ih =>
      rw [scatter, if_pos (h m List.mem_cons_self),
        ih fun m' hm' => h m' (List.mem_cons_of_mem m hm')]
      rfl

/-- A row without unmasked tokens. -/
theorem scatter_of_not_live (row : Row K width) (h : responseLength row.tokens = 0)
    (values : List XRat) :
    scatter (responseMask row.tokens) values = List.replicate width 0 := by
  rw [responseLength_eq, List.length_eq_zero_iff] at h
  rw [scatter_of_masked, responseMask, List.length_map, row.length_eq]
  intro m hm
  obtain ⟨t, ht, rfl⟩ := List.mem_map.mp hm
  by_contra hne
  exact List.filter_eq_nil_iff.mp h t ht (decide_eq_true hne)

/-! ## All groups -/

theorem filter_zipIdx_map_fst (rows : List (Row K width)) (p : Row K width → Bool) :
    (rows.zipIdx.filter fun e => p e.1).map Prod.fst = rows.filter p := by
  have hfst := @List.filter_map _ _ Prod.fst p rows.zipIdx
  rw [List.zipIdx_map_fst] at hfst
  rw [hfst]
  rfl

variable [DecidableEq K]

/-- The members of the group of a prompt. -/
def membersOf (weighted : Bool) (rows : List (Row K width)) (index : K) : List Member :=
  (rows.filter fun row => row.index = index).map fun row => member weighted row.tokens

/-- What the unmasked tokens of a row get. -/
def liveAdvantages (weighted handleZeroTail : Bool) (epsilon : ℚ) (group : List Member)
    (tokens : List Token) : List XRat :=
  (List.range (responseLength tokens)).map fun j =>
    fin ((member weighted tokens).returns.getD j 0) -
      groupBaseline handleZeroTail epsilon group (responseLength tokens) j

/-- The members of a group, found by the row numbers of the loop. -/
theorem map_memberAt_valuesOf {xs : List (Row K width × Nat)} (hxs : ∀ p ∈ xs, p ∈ rows.zipIdx)
    (index : K) :
    (valuesOf index (xs.map fun p => (p.1.index, p.2))).map (memberAt weighted rows) =
      membersOf weighted (xs.map Prod.fst) index := by
  rw [Py.valuesOf_map index (fun p : Row K width × Nat => p.1.index) Prod.snd, membersOf,
    List.filter_map, List.map_map, List.map_map]
  refine List.map_congr_left fun p hp => ?_
  rw [Function.comp_apply, memberAt, tokensAt_of_mem (hxs p (List.mem_of_mem_filter hp))]
  rfl

/-- The loop over the groups of some of the rows, for a body that gives every member of its
group a baseline. -/
theorem foldl_groups_getD {xs : List (Row K width × Nat)} (hxs : ∀ p ∈ xs, p ∈ rows.zipIdx)
    {step : (Nat → List XRat) → List Nat → Nat → List XRat} {init : List XRat} {bound : Nat}
    (hframe : ∀ b vs v, v ∉ vs → step b vs v = b v)
    (hstep : ∀ b vs v j, v ∈ vs → (∀ i ∈ vs, i < rows.length) → b v = init → j < bound →
      (step b vs v).getD j 0 = groupBaseline handleZeroTail epsilon
        (vs.map (memberAt weighted rows)) (responseLength (tokensAt rows v)) j)
    {row : Row K width} (hmem : (row, i) ∈ xs) (hj : j < bound) :
    ((groupBy (xs.map fun p => (p.1.index, p.2))).entries.foldl (fun b e => step b e.2)
        (fun _ => init) i).getD j 0 =
      groupBaseline handleZeroTail epsilon (membersOf weighted (xs.map Prod.fst) row.index)
        (responseLength row.tokens) j := by
  have hentry : (row.index, i) ∈ xs.map fun p => (p.1.index, p.2) :=
    List.mem_map.mpr ⟨(row, i), hmem, rfl⟩
  have honly : ∀ k, (k, i) ∈ xs.map (fun p => (p.1.index, p.2)) → k = row.index := by
    intro k hk
    obtain ⟨⟨row', i'⟩, hmem', heq⟩ := List.mem_map.mp hk
    obtain ⟨rfl, rfl⟩ := Prod.mk.inj heq
    have hrow' := List.mk_mem_zipIdx_iff_getElem?.mp (hxs _ hmem')
    have hrow := List.mk_mem_zipIdx_iff_getElem?.mp (hxs _ hmem)
    rw [hrow] at hrow'
    rw [Option.some.inj hrow']
  obtain ⟨b, hb, hfold⟩ := Py.foldl_groupBy hframe hentry honly fun _ => init
  have hrows : ∀ v ∈ valuesOf row.index (xs.map fun p => (p.1.index, p.2)), v < rows.length := by
    intro v hv
    rw [Py.valuesOf_map row.index (fun p : Row K width × Nat => p.1.index) Prod.snd] at hv
    obtain ⟨⟨row', v'⟩, hp, rfl⟩ := List.mem_map.mp hv
    have hrow' := List.mk_mem_zipIdx_iff_getElem?.mp (hxs _ (List.mem_of_mem_filter hp))
    exact (List.getElem?_eq_some_iff.mp hrow').1
  rw [hfold, hstep b _ i j (Py.mem_valuesOf hentry) hrows hb hj, map_memberAt_valuesOf hxs,
    tokensAt_of_mem (hxs _ hmem)]

/-! ## Compaction -/

/-- What an unmasked token gets from the function for one turn, on packed rows. -/
theorem atLive_computeOptimalTokenBaselineAdvantage
    (hpacked : ∀ row ∈ rows, Packed (live row.tokens) row.tokens) {row : Row K width}
    (hmem : (row, i) ∈ rows.zipIdx) :
    atLive (responseMask row.tokens) ((List.range width).map fun j =>
      (fin ((tokenReturns row.tokens).getD j 0) -
        ((promptGroups rows).entries.foldl (fun baselines group =>
          groupStep weighted handleZeroTail epsilon rows baselines group.2)
          (fun _ => List.replicate width 0) i).getD j 0) *
        fin ((responseMask row.tokens).getD j 0)) =
      liveAdvantages weighted handleZeroTail epsilon (membersOf weighted rows row.index)
        row.tokens := by
  have hrow := hpacked row (List.mem_of_getElem? (List.mk_mem_zipIdx_iff_getElem?.mp hmem))
  have hwidth : responseLength row.tokens ≤ width :=
    Nat.le_trans (responseLength_le _) (Nat.le_of_eq row.length_eq)
  rw [hrow.atLive_eq (by rw [List.length_map, List.length_range, row.length_eq]),
    ← responseLength_eq, ← List.map_take, List.take_range, Nat.min_eq_left hwidth,
    liveAdvantages]
  refine List.map_congr_left fun j hj => ?_
  rw [List.mem_range] at hj
  have hbaseline := foldl_groups_getD (fun p hp => hp)
    (fun b vs v hv => @groupStep_of_not_mem _ _ weighted handleZeroTail epsilon rows vs b v hv)
    (fun b vs v j hv hrows hzero hj => groupStep_getD hpacked hv hrows hzero hj) hmem
    (Nat.lt_of_lt_of_le hj hwidth)
  rw [List.zipIdx_map_fst] at hbaseline
  rw [hrow.mask_getD hj, mul_fin_one, @Packed.returns_getD weighted _ hrow _ hj, promptGroups,
    hbaseline]

/-- What an unmasked token gets from the function for several turns. -/
theorem allAdvantages_take {row : Row K width} (hmem : (row, i) ∈ rows.zipIdx)
    (hlive : responseLength row.tokens ≠ 0) :
    ((List.range (maxResponseLength rows)).map fun j => fin (entry (allReturns rows) i j) -
      ((multiTurnPromptGroups rows).entries.foldl (fun baselines group =>
        multiTurnGroupStep weighted handleZeroTail epsilon rows baselines group.2)
        (fun _ => List.replicate (maxResponseLength rows) 0) i).getD j 0).take
        (responseLength row.tokens) =
      liveAdvantages weighted handleZeroTail epsilon
        (membersOf weighted (rows.filter fun row => responseLength row.tokens ≠ 0) row.index)
        row.tokens := by
  have hget := List.mk_mem_zipIdx_iff_getElem?.mp hmem
  have hmax := responseLength_le_max (List.mem_of_getElem? hget)
  have hi := (List.getElem?_eq_some_iff.mp hget).1
  have hfilter : (row, i) ∈ rows.zipIdx.filter fun p => responseLength p.1.tokens ≠ 0 :=
    List.mem_filter.mpr ⟨hmem, decide_eq_true hlive⟩
  rw [← List.map_take, List.take_range, Nat.min_eq_left hmax, liveAdvantages]
  refine List.map_congr_left fun j hj => ?_
  rw [List.mem_range] at hj
  have hbaseline := foldl_groups_getD (fun p hp => List.mem_of_mem_filter hp)
    (fun b vs v hv =>
      @multiTurnGroupStep_of_not_mem _ _ weighted handleZeroTail epsilon rows vs b v hv)
    (fun b vs v j hv hrows (_ : b v = List.replicate (maxResponseLength rows) 0) hj =>
      multiTurnGroupStep_getD hv hrows hj) hfilter (Nat.lt_of_lt_of_le hj hmax)
  rw [filter_zipIdx_map_fst rows fun row => decide (responseLength row.tokens ≠ 0)] at hbaseline
  rw [multiTurnPromptGroups, hbaseline, allReturns,
    entry_map (fun tokens => gather _ tokens (tokenReturns tokens)) hi, getD_gather,
    atLive_tokenReturns, tokensAt_of_mem hmem]
  rfl

/-- The rows with unmasked tokens, with these packed to the left.  The masked tokens and the
width of the packed rows are arbitrary. -/
def LeftPacks {width' : Nat} (rows : List (Row K width)) (packed : List (Row K width')) : Prop :=
  List.Forall₂ (fun row row' => row'.index = row.index ∧ Packed (live row.tokens) row'.tokens)
    (rows.filter fun row => responseLength row.tokens ≠ 0) packed

section Compaction

variable {width' : Nat} {packed : List (Row K width')}

omit [DecidableEq K] in
/-- What depends on the prompt and the unmasked tokens only is the same for the packed
rows. -/
theorem LeftPacks.map_eq {β : Type} (h : LeftPacks rows packed) {f : Row K width → β}
    {g : Row K width' → β}
    (hfg : ∀ row row', row'.index = row.index → live row'.tokens = live row.tokens →
      f row = g row') :
    (rows.filter fun row => responseLength row.tokens ≠ 0).map f = packed.map g := by
  rw [LeftPacks] at h
  generalize rows.filter (fun row => decide (responseLength row.tokens ≠ 0)) = kept at h ⊢
  induction h with
  | nil => rfl
  | cons hrow _ ih => rw [List.map_cons, List.map_cons, hfg _ _ hrow.1 hrow.2.live_eq, ih]

theorem LeftPacks.membersOf_eq (h : LeftPacks rows packed) (index : K) :
    membersOf weighted (rows.filter fun row => responseLength row.tokens ≠ 0) index =
      membersOf weighted packed index := by
  rw [LeftPacks] at h
  rw [membersOf, membersOf]
  generalize rows.filter (fun row => decide (responseLength row.tokens ≠ 0)) = kept at h ⊢
  induction h with
  | nil => rfl
  | @cons row row' kept packed hrow _ ih =>
      have hmember : member weighted row.tokens = member weighted row'.tokens := by
        rw [member, member, hrow.2.live_eq]
      rw [List.filter_cons, List.filter_cons, hrow.1]
      split
      · rw [List.map_cons, List.map_cons, ih, hmember]
      · exact ih

omit [DecidableEq K] in
theorem LeftPacks.packed_tokens (h : LeftPacks rows packed) :
    ∀ row ∈ packed, Packed (live row.tokens) row.tokens := by
  rw [LeftPacks] at h
  generalize rows.filter (fun row => decide (responseLength row.tokens ≠ 0)) = kept at h
  induction h with
  | nil => exact fun row hrow => absurd hrow List.not_mem_nil
  | cons hrow _ ih =>
      intro row hmem
      rcases List.mem_cons.mp hmem with rfl | hmem
      · rw [hrow.2.live_eq]
        exact hrow.2
      · exact ih row hmem

omit [DecidableEq K] in
/-- Every packed row has an unmasked token. -/
theorem LeftPacks.filter_eq (h : LeftPacks rows packed) :
    (packed.filter fun row => responseLength row.tokens ≠ 0) = packed := by
  have hlive : ∀ row ∈ rows.filter fun row => responseLength row.tokens ≠ 0,
      responseLength row.tokens ≠ 0 := fun row hrow => of_decide_eq_true (List.mem_filter.mp hrow).2
  rw [LeftPacks] at h
  generalize rows.filter (fun row => decide (responseLength row.tokens ≠ 0)) = kept at h hlive
  induction h with
  | nil => rfl
  | @cons row row' kept packed hrow _ ih =>
      have hne : responseLength row'.tokens ≠ 0 := by
        rw [responseLength_eq, hrow.2.live_eq, ← responseLength_eq]
        exact hlive row List.mem_cons_self
      rw [List.filter_cons, if_pos (decide_eq_true hne),
        ih fun row hrow => hlive row (List.mem_cons_of_mem _ hrow)]

end Compaction

/-- The entries at the unmasked tokens, row by row. -/
def liveEntries {α : Type} (rows : List (Row K width)) (tensor : List (List α)) :
    List (List α) :=
  ((rows.zip tensor).filter fun p => responseLength p.1.tokens ≠ 0).map fun p =>
    atLive (responseMask p.1.tokens) p.2

omit [DecidableEq K] in
theorem zip_zipIdx_map {α : Type} (rows : List (Row K width)) (f : Row K width × Nat → α) :
    rows.zip (rows.zipIdx.map f) = rows.zipIdx.map fun p => (p.1, f p) := by
  have hmap := @List.zip_map' _ _ _ Prod.fst f rows.zipIdx
  rwa [List.zipIdx_map_fst] at hmap

omit [DecidableEq K] in
theorem liveEntries_map {α : Type} (rows : List (Row K width)) (f : Row K width × Nat → List α)
    {g : Row K width → List α}
    (hfg : ∀ row i, (row, i) ∈ rows.zipIdx → responseLength row.tokens ≠ 0 →
      atLive (responseMask row.tokens) (f (row, i)) = g row) :
    liveEntries rows (rows.zipIdx.map f) =
      (rows.filter fun row => responseLength row.tokens ≠ 0).map g := by
  rw [liveEntries, zip_zipIdx_map, List.filter_map, List.map_map,
    ← filter_zipIdx_map_fst rows fun row => decide (responseLength row.tokens ≠ 0), List.map_map]
  refine List.map_congr_left fun p hp => ?_
  obtain ⟨hmem, hlive⟩ := List.mem_filter.mp hp
  exact hfg p.1 p.2 hmem (of_decide_eq_true hlive)

theorem liveEntries_multiTurn (weighted handleZeroTail : Bool) (epsilon : ℚ)
    (rows : List (Row K width)) :
    liveEntries rows
      (computeMultiTurnOptimalTokenBaselineAdvantage weighted handleZeroTail epsilon rows).1 =
      (rows.filter fun row => responseLength row.tokens ≠ 0).map fun row =>
        liveAdvantages weighted handleZeroTail epsilon
          (membersOf weighted (rows.filter fun row => responseLength row.tokens ≠ 0) row.index)
          row.tokens := by
  refine liveEntries_map rows _ fun row i hmem hlive => ?_
  simp only
  rw [if_neg hlive, allAdvantages_take hmem hlive, atLive_scatter]
  rw [liveAdvantages, List.length_map, List.length_range]

theorem liveEntries_oneTurn (weighted handleZeroTail : Bool) (epsilon : ℚ)
    (hpacked : ∀ row ∈ rows, Packed (live row.tokens) row.tokens) :
    liveEntries rows
      (computeOptimalTokenBaselineAdvantage weighted handleZeroTail epsilon rows).1 =
      (rows.filter fun row => responseLength row.tokens ≠ 0).map fun row =>
        liveAdvantages weighted handleZeroTail epsilon (membersOf weighted rows row.index)
          row.tokens :=
  liveEntries_map rows _ fun _ _ hmem _ => atLive_computeOptimalTokenBaselineAdvantage hpacked hmem

omit [DecidableEq K] in
theorem liveEntries_returns (rows : List (Row K width)) :
    liveEntries rows (rows.map fun row => tokenReturns row.tokens) =
      (rows.filter fun row => responseLength row.tokens ≠ 0).map fun row =>
        tokenReturns (live row.tokens) := by
  have hreturns := @liveEntries_map _ _ _ rows (fun p => tokenReturns p.1.tokens) _
    fun row _ _ _ => atLive_tokenReturns row.tokens
  have hrows := @List.map_map _ _ _ (fun row : Row K width => tokenReturns row.tokens) Prod.fst
    rows.zipIdx
  rw [List.zipIdx_map_fst] at hrows
  rwa [hrows]

/-- The baseline for several turns is the one for one turn on the packed rows: unmasked
tokens get the same advantages and returns, and masked ones the advantage 0. -/
theorem computeMultiTurn_eq_packed {width' : Nat} {packed : List (Row K width')}
    (weighted handleZeroTail : Bool) (epsilon : ℚ) (h : LeftPacks rows packed) :
    let advantages :=
      computeMultiTurnOptimalTokenBaselineAdvantage weighted handleZeroTail epsilon rows
    let packedAdvantages :=
      computeOptimalTokenBaselineAdvantage weighted handleZeroTail epsilon packed
    liveEntries rows advantages.1 = liveEntries packed packedAdvantages.1 ∧
      liveEntries rows advantages.2 = liveEntries packed packedAdvantages.2 ∧
      advantages.1.length = rows.length ∧
      ∀ p ∈ rows.zip advantages.1, p.2.length = width ∧
        ∀ e ∈ (responseMask p.1.tokens).zip p.2, e.1 = 0 → e.2 = 0 := by
  refine ⟨?_, ?_, ?_, fun p hp => ?_⟩
  · rw [liveEntries_multiTurn, liveEntries_oneTurn _ _ _ h.packed_tokens, h.filter_eq]
    refine h.map_eq fun row row' hindex hlive => ?_
    have hlength : responseLength row'.tokens = responseLength row.tokens := by
      rw [responseLength_eq, hlive, ← responseLength_eq]
    rw [liveAdvantages, liveAdvantages, h.membersOf_eq, hindex, hlength, member, member, hlive]
  · exact (liveEntries_returns rows).trans <| by
      rw [h.map_eq fun row row' _ hlive => congrArg tokenReturns hlive.symm]
      exact (h.filter_eq ▸ liveEntries_returns packed).symm
  · exact (List.length_map _).trans List.length_zipIdx
  · have hp := zip_zipIdx_map rows _ ▸ hp
    obtain ⟨⟨row, i⟩, -, rfl⟩ := List.mem_map.mp hp
    have hwidth : (responseMask row.tokens).length = width := by
      rw [responseMask, List.length_map, row.length_eq]
    by_cases hlive : responseLength row.tokens = 0
    · simp only [if_pos hlive]
      rw [← scatter_of_not_live row hlive []]
      refine ⟨?_, zip_scatter_masked _ _⟩
      rw [List.length_zipWith, length_scatter, Nat.min_self, hwidth]
    · simp only [if_neg hlive]
      refine ⟨?_, zip_scatter_masked _ _⟩
      rw [List.length_zipWith, length_scatter, Nat.min_self, hwidth]

theorem zero_mask : (0 : ℚ) = 0 ∨ (0 : ℚ) = 1 := .inl rfl

theorem one_mask : (1 : ℚ) = 0 ∨ (1 : ℚ) = 1 := .inr rfl

/-- A row with a gap and a row that begins masked, of one prompt. -/
def gapRows : List (Row Nat 3) :=
  [⟨7, [⟨1, 1, 1 / 2, 1 / 2, 1, one_mask⟩, ⟨3, 0, 1 / 2, 1 / 2, 1, zero_mask⟩,
      ⟨2, 1, 1 / 4, 1 / 2, 1, one_mask⟩], rfl⟩,
    ⟨7, [⟨5, 0, 1 / 2, 1 / 2, 1, zero_mask⟩, ⟨4, 1, 1 / 3, 1 / 2, 1, one_mask⟩,
      ⟨0, 0, 1 / 2, 1 / 2, 1, zero_mask⟩], rfl⟩]

/-- The rows packed to the left. -/
def gapRowsPacked : List (Row Nat 2) :=
  [⟨7, [⟨1, 1, 1 / 2, 1 / 2, 1, one_mask⟩, ⟨2, 1, 1 / 4, 1 / 2, 1, one_mask⟩], rfl⟩,
    ⟨7, [⟨4, 1, 1 / 3, 1 / 2, 1, one_mask⟩, ⟨0, 0, 0, 0, 0, zero_mask⟩], rfl⟩]

theorem computeMultiTurn_eq_packed_gapRows :
    let advantages := computeMultiTurnOptimalTokenBaselineAdvantage false true (1 / 100) gapRows
    let packedAdvantages :=
      computeOptimalTokenBaselineAdvantage false true (1 / 100) gapRowsPacked
    liveEntries gapRows advantages.1 = liveEntries gapRowsPacked packedAdvantages.1 ∧
      liveEntries gapRows advantages.2 = liveEntries gapRowsPacked packedAdvantages.2 ∧
      advantages.1.length = gapRows.length ∧
      ∀ p ∈ gapRows.zip advantages.1, p.2.length = 3 ∧
        ∀ e ∈ (responseMask p.1.tokens).zip p.2, e.1 = 0 → e.2 = 0 := by
  refine computeMultiTurn_eq_packed false true (1 / 100) ?_
  have hfilter : (gapRows.filter fun row => responseLength row.tokens ≠ 0) = gapRows := by
    refine List.filter_eq_self.mpr ?_
    simp only [responseLength_eq]
    decide
  rw [LeftPacks, hfilter]
  refine .cons ⟨rfl, mask_of_mem_live, [], rfl, fun t ht => absurd ht List.not_mem_nil⟩
    (.cons ⟨rfl, mask_of_mem_live, [⟨0, 0, 0, 0, 0, zero_mask⟩], rfl, fun t ht => ?_⟩ .nil)
  rw [List.mem_singleton.mp ht]

end Verl.Otb
