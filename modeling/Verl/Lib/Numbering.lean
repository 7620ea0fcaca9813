import Mathlib.Data.Finset.Card
import Mathlib.Data.List.Dedup

/-!
# Numbering the groups of a list

A list of forms tells labels apart when two positions have the same form exactly when their
labels are the same.  A numbering uses the numbers from 0 on.  How many numbers there are
follows from the labels (`length_dedup_eq`, `InitialSegment.eq_length_dedup`).  A numbering may
be read in another form (`numbering_congr`), and an index into the distinct labels is one
(`tellsApart_of_index`, `initialSegment_of_index`).
-/

namespace Numbering

variable {α β γ δ : Type}

/-- Two positions have the same form when their labels are the same. -/
structure TellsApart (same : α → α → Prop) (labels : List α) (forms : List β) : Prop where
  length_eq : forms.length = labels.length
  eq_iff : ∀ {i j : Nat} {l l' : α} {y y' : β}, labels[i]? = some l → labels[j]? = some l' →
    forms[i]? = some y → forms[j]? = some y' → (y = y' ↔ same l l')

/-- The forms are the first `count` numbers. -/
def InitialSegment (ofNat : Nat → β) (count : Nat) (forms : List β) : Prop :=
  ∀ y, y ∈ forms ↔ ∃ k < count, y = ofNat k

variable {same : α → α → Prop} {labels : List α} {forms : List β}

theorem getElem?_of_length_eq (h : forms.length = labels.length) {i : Nat} {y : β}
    (hy : forms[i]? = some y) : ∃ l, labels[i]? = some l := by
  obtain ⟨hi, -⟩ := List.getElem?_eq_some_iff.mp hy
  rw [h] at hi
  exact ⟨labels[i], List.getElem?_eq_getElem hi⟩

/-! ## The number of groups -/

/-- Lists that tell the same positions apart have as many different entries. -/
theorem length_dedup_eq [DecidableEq α] [DecidableEq β] (hlength : forms.length = labels.length)
    (h : ∀ {i j : Nat} {l l' : α} {y y' : β}, labels[i]? = some l → labels[j]? = some l' →
      forms[i]? = some y → forms[j]? = some y' → (y = y' ↔ l = l')) :
    labels.dedup.length = forms.dedup.length := by
  have hpairs : ∀ p ∈ labels.zip forms, ∀ p' ∈ labels.zip forms, p.2 = p'.2 ↔ p.1 = p'.1 := by
    intro p hp p' hp'
    obtain ⟨i, hi⟩ := List.mem_iff_getElem?.mp hp
    obtain ⟨j, hj⟩ := List.mem_iff_getElem?.mp hp'
    rw [List.getElem?_zip_eq_some] at hi hj
    exact h hi.1 hj.1 hi.2 hj.2
  have hfst : (labels.zip forms).toFinset.image Prod.fst = labels.toFinset := by
    ext l
    rw [Finset.mem_image, List.mem_toFinset]
    simp only [List.mem_toFinset]
    rw [← List.mem_map, List.map_fst_zip (Nat.le_of_eq hlength.symm)]
  have hsnd : (labels.zip forms).toFinset.image Prod.snd = forms.toFinset := by
    ext y
    rw [Finset.mem_image, List.mem_toFinset]
    simp only [List.mem_toFinset]
    rw [← List.mem_map, List.map_snd_zip (Nat.le_of_eq hlength)]
  rw [← List.card_toFinset, ← List.card_toFinset, ← hfst, ← hsnd, Finset.card_image_of_injOn,
    Finset.card_image_of_injOn]
  · intro p hp p' hp' heq
    rw [List.coe_toFinset] at hp hp'
    exact Prod.ext ((hpairs p hp p' hp').mp heq) heq
  · intro p hp p' hp' heq
    rw [List.coe_toFinset] at hp hp'
    exact Prod.ext heq ((hpairs p hp p' hp').mpr heq)

theorem InitialSegment.eq_length_dedup [DecidableEq β] {ofNat : Nat → β} {count : Nat}
    (h : InitialSegment ofNat count forms) (hinj : Function.Injective ofNat) :
    count = forms.dedup.length := by
  have himage : forms.toFinset = (Finset.range count).image ofNat := by
    ext y
    rw [List.mem_toFinset, h, Finset.mem_image]
    simp only [Finset.mem_range, eq_comm]
  rw [← List.card_toFinset, himage, Finset.card_image_of_injective _ hinj, Finset.card_range]

theorem InitialSegment.le_length [DecidableEq β] {ofNat : Nat → β} {count : Nat}
    (h : InitialSegment ofNat count forms) (hinj : Function.Injective ofNat) :
    count ≤ forms.length := by
  rw [h.eq_length_dedup hinj]
  exact (List.dedup_sublist forms).length_le

/-! ## Changing the forms -/

/-- Forms that are the same at the same positions tell the same labels apart. -/
theorem tellsApart_congr {forms' : List γ} (h : TellsApart Eq forms forms') :
    TellsApart same labels forms' ↔ TellsApart same labels forms := by
  constructor
  · intro h'
    refine ⟨h.length_eq.symm.trans h'.length_eq, fun hl hl' hy hy' => ?_⟩
    obtain ⟨z, hz⟩ := getElem?_of_length_eq h.length_eq.symm hy
    obtain ⟨z', hz'⟩ := getElem?_of_length_eq h.length_eq.symm hy'
    rw [← h.eq_iff hy hy' hz hz']
    exact h'.eq_iff hl hl' hz hz'
  · intro h'
    refine ⟨h.length_eq.trans h'.length_eq, fun hl hl' hz hz' => ?_⟩
    obtain ⟨y, hy⟩ := getElem?_of_length_eq h.length_eq hz
    obtain ⟨y', hy'⟩ := getElem?_of_length_eq h.length_eq hz'
    rw [h.eq_iff hy hy' hz hz']
    exact h'.eq_iff hl hl' hy hy'

theorem tellsApart_map_map {xs : List α} {f : α → β} {g : α → γ}
    (h : ∀ x ∈ xs, ∀ x' ∈ xs, g x = g x' ↔ f x = f x') :
    TellsApart Eq (xs.map g) (xs.map f) := by
  refine ⟨by rw [List.length_map, List.length_map], fun hl hl' hy hy' => ?_⟩
  rw [List.getElem?_map, Option.map_eq_some_iff] at hl hl'
  obtain ⟨x, hx, rfl⟩ := hl
  obtain ⟨x', hx', rfl⟩ := hl'
  rw [List.getElem?_map, hx] at hy
  rw [List.getElem?_map, hx'] at hy'
  rw [← Option.some.inj hy, ← Option.some.inj hy']
  exact (h x (List.mem_of_getElem? hx) x' (List.mem_of_getElem? hx')).symm

/-- Two forms of the entries that are a number together. -/
theorem initialSegment_congr {xs : List α} {f : α → β} {g : α → γ} {ofNat : Nat → β}
    {ofNat' : Nat → γ} {count : Nat}
    (h : ∀ x ∈ xs, ∀ k < count, f x = ofNat k ↔ g x = ofNat' k)
    (hf : InitialSegment ofNat count (xs.map f)) :
    InitialSegment ofNat' count (xs.map g) ∧ ∀ x ∈ xs, ∀ x' ∈ xs, f x = f x' ↔ g x = g x' := by
  have hnumber : ∀ x ∈ xs, ∃ k < count, f x = ofNat k :=
    fun x hx => (hf (f x)).mp (List.mem_map_of_mem hx)
  constructor
  · intro z
    rw [List.mem_map]
    constructor
    · rintro ⟨x, hx, rfl⟩
      obtain ⟨k, hk, heq⟩ := hnumber x hx
      exact ⟨k, hk, (h x hx k hk).mp heq⟩
    · rintro ⟨k, hk, rfl⟩
      obtain ⟨x, hx, heq⟩ := List.mem_map.mp ((hf (ofNat k)).mpr ⟨k, hk, rfl⟩)
      exact ⟨x, hx, (h x hx k hk).mp heq⟩
  · intro x hx x' hx'
    obtain ⟨k, hk, heq⟩ := hnumber x hx
    rw [heq, (h x hx k hk).mp heq, eq_comm, h x' hx' k hk, eq_comm]

/-- A numbering and the forms it comes from. -/
theorem numbering_congr [DecidableEq β] [DecidableEq γ] {labels : List δ}
    {same : δ → δ → Prop} {xs : List α} {f : α → β} {g : α → γ} {ofNat : Nat → β}
    {ofNat' : Nat → γ} (hinj : Function.Injective ofNat) (hinj' : Function.Injective ofNat')
    (h : ∀ x ∈ xs, ∀ k < xs.length, f x = ofNat k ↔ g x = ofNat' k) :
    (TellsApart same labels (xs.map f) ∧ ∃ count, InitialSegment ofNat count (xs.map f)) ↔
      TellsApart same labels (xs.map g) ∧ ∃ count, InitialSegment ofNat' count (xs.map g) := by
  constructor
  · rintro ⟨htell, count, hinitial⟩
    have hle := hinitial.le_length hinj
    rw [List.length_map] at hle
    obtain ⟨hinitial', hsame⟩ :=
      initialSegment_congr (fun x hx k hk => h x hx k (Nat.lt_of_lt_of_le hk hle)) hinitial
    refine ⟨(tellsApart_congr (tellsApart_map_map fun x hx x' hx' => ?_)).mp htell, count,
      hinitial'⟩
    exact (hsame x hx x' hx').symm
  · rintro ⟨htell, count, hinitial⟩
    have hle := hinitial.le_length hinj'
    rw [List.length_map] at hle
    obtain ⟨hinitial', hsame⟩ :=
      initialSegment_congr (fun x hx k hk => (h x hx k (Nat.lt_of_lt_of_le hk hle)).symm) hinitial
    refine ⟨(tellsApart_congr (tellsApart_map_map fun x hx x' hx' => ?_)).mp htell, count,
      hinitial'⟩
    exact (hsame x hx x' hx').symm

/-! ## An index into the distinct labels -/

section Index

variable {distinct : List α} {index : List Nat} (hnodup : distinct.Nodup)
  (hlength : index.length = labels.length)
  (hindex : ∀ {i : Nat} {l : α} {k : Nat}, labels[i]? = some l → index[i]? = some k →
    distinct[k]? = some l)

include hnodup hlength hindex

theorem tellsApart_of_index {ofNat : Nat → β} (hinj : Function.Injective ofNat) :
    TellsApart Eq labels (index.map ofNat) := by
  refine ⟨by rw [List.length_map, hlength], fun hl hl' hy hy' => ?_⟩
  rw [List.getElem?_map, Option.map_eq_some_iff] at hy hy'
  obtain ⟨k, hk, rfl⟩ := hy
  obtain ⟨k', hk', rfl⟩ := hy'
  have hdistinct := hindex hl hk
  have hdistinct' := hindex hl' hk'
  constructor
  · intro heq
    obtain rfl := hinj heq
    exact Option.some.inj (hdistinct.symm.trans hdistinct')
  · rintro rfl
    exact congrArg ofNat ((List.getElem?_inj (List.getElem?_eq_some_iff.mp hdistinct).1 hnodup).mp
      (hdistinct.trans hdistinct'.symm))

theorem initialSegment_of_index (ofNat : Nat → β) (hmem : ∀ l ∈ distinct, l ∈ labels) :
    InitialSegment ofNat distinct.length (index.map ofNat) := by
  intro y
  rw [List.mem_map]
  constructor
  · rintro ⟨k, hk, rfl⟩
    obtain ⟨i, hi⟩ := List.mem_iff_getElem?.mp hk
    obtain ⟨l, hl⟩ := getElem?_of_length_eq hlength hi
    exact ⟨k, (List.getElem?_eq_some_iff.mp (hindex hl hi)).1, rfl⟩
  · rintro ⟨k, hk, rfl⟩
    obtain ⟨i, hi⟩ := List.mem_iff_getElem?.mp (hmem _ (List.getElem_mem hk))
    obtain ⟨k', hk'⟩ := getElem?_of_length_eq hlength.symm hi
    have hsame := (hindex hi hk').trans (List.getElem?_eq_getElem hk).symm
    have hlt := (List.getElem?_eq_some_iff.mp (hindex hi hk')).1
    obtain rfl := (List.getElem?_inj hlt hnodup).mp hsame
    exact ⟨k', List.mem_of_getElem? hk', rfl⟩

end Index

end Numbering
