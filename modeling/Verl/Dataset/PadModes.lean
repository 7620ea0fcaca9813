import Verl.Dataset.MultiTurnSft
import Verl.Lib.Jagged

/-!
# The two padding modes

Both modes start from the same assembled conversation.  They differ in one case:
without padding a conversation that is too long keeps its first tokens, also when
`truncation` is `left`.  The loss mask is 0 on the generation prompt of an assistant
message, except that the first message still has the system prompt in front of it.
-/

namespace Verl

open Jagged (select)

/-- The positions with attention mask 1. -/
def PaddedItem.restrict (item : PaddedItem) : UnpaddedItem where
  inputIds := select item.attentionMask item.inputIds
  positionIds := select item.attentionMask item.positionIds
  lossMask := select item.attentionMask item.lossMask

/-- Loss mask 1 stands at flagged positions only. -/
def LossOnlyAt (lossMask : List Nat) (flags : List Bool) : Prop :=
  ∀ p : Nat, lossMask[p]? = some 1 → flags[p]? = some true

namespace SftDataset

variable {M Tools : Type} (ds : SftDataset M Tools)

/-! ## The tokens with a loss -/

/-- The length of the prompt in front of the text of an assistant message.  The
first message keeps a system prompt that the template puts in front. -/
def promptLength (index : Nat) (ids : List Int) : Nat :=
  if index = 0 ∧ (ds.systemPrompt ++ ds.generationPrompt) <+: ids then
    ds.systemPrompt.length + ds.generationPrompt.length
  else ds.generationPrompt.length

/-- The tokens of a message that belong to an assistant after its prompt. -/
def bodyFlags (index : Nat) (message : M) (ids : List Int) : List Bool :=
  (List.range (ds.removeSystemPrompt index message ids).length).map fun p =>
    decide (ds.role message = "assistant" ∧ ds.promptLength index ids ≤ p)

/-- The tokens of a conversation that belong to an assistant after its prompt. -/
def assistantBody (messages : List M) (tools : Option Tools) (enableThinking : Option Bool) :
    Except Py.Error (List Bool) := do
  let parts ← messages.zipIdx.mapM fun (message, i) => do
    let ids ← ds.applyChatTemplate message (if i = 0 then tools else none) enableThinking
    return ds.bodyFlags i message ids
  return parts.flatten

/-- The two modes give the same training sequence. -/
structure PadModesAgree (messages : List M) (tools : Option Tools) (enableThinking : Option Bool) :
    Prop where
  raises_iff : (∃ e, ds.getItemNoPadding messages tools enableThinking = .error e) ↔
    ∃ e, ds.getItemRight messages tools enableThinking = .error e
  restrict_eq : ∀ x y, ds.getItemNoPadding messages tools enableThinking = .ok x →
    ds.getItemRight messages tools enableThinking = .ok y → x = y.restrict
  loss_only : ∀ x flags, ds.getItemNoPadding messages tools enableThinking = .ok x →
    ds.assistantBody messages tools enableThinking = .ok flags → LossOnlyAt x.lossMask flags

/-- An assistant message at the beginning has no system prompt in front of it, or
nothing is kept after the first tokens, as many as the generation prompt has. -/
def FirstPromptMasked (messages : List M) (tools : Option Tools) (enableThinking : Option Bool) :
    Prop :=
  ∀ message ids, messages.head? = some message → ds.role message = "assistant" →
    ds.applyChatTemplate message tools enableThinking = .ok ids →
    (ds.systemPrompt ++ ds.generationPrompt) <+: ids →
    ds.systemPrompt = [] ∨ ds.maxLength ≤ ds.generationPrompt.length

/-- The conversation of a length is not cut on the left, and it is refused or its
first prompt is masked. -/
structure TailsMatch (messages : List M) (tools : Option Tools) (enableThinking : Option Bool)
    (sequenceLength : Nat) : Prop where
  fits : sequenceLength ≤ ds.maxLength ∨ ds.truncation ≠ .left
  prompt : ds.maxLength < sequenceLength ∧ ds.truncation = .error ∨
    ds.FirstPromptMasked messages tools enableThinking

variable {ds}

/-! ## The loss mask of a message -/

theorem length_messageLossMask (message : M) (n : Nat) :
    (ds.messageLossMask message n).length = n := by
  rw [messageLossMask]
  split
  · rw [List.length_append, List.length_replicate, List.length_replicate]
    omega
  · rw [List.length_replicate]

theorem getElem?_messageLossMask {message : M} {n p : Nat} :
    (ds.messageLossMask message n)[p]? = some 1 ↔
      p < n ∧ ds.role message = "assistant" ∧ ds.generationPrompt.length ≤ p := by
  rw [messageLossMask]
  split
  next hrole =>
    rw [List.getElem?_append, List.length_replicate, List.getElem?_replicate,
      List.getElem?_replicate]
    split
    next hp =>
      refine iff_of_false (by decide) ?_
      omega
    next hp =>
      split
      next hbody => exact iff_of_true rfl ⟨by omega, hrole, by omega⟩
      next hbody =>
        refine iff_of_false (by decide) ?_
        omega
  next hrole =>
    rw [List.getElem?_replicate]
    split
    · simp [hrole]
    · simp [hrole]

theorem getElem?_bodyFlags {index : Nat} {message : M} {ids : List Int} {p : Nat} :
    (ds.bodyFlags index message ids)[p]? = some true ↔
      p < (ds.removeSystemPrompt index message ids).length ∧ ds.role message = "assistant" ∧
        ds.promptLength index ids ≤ p := by
  rw [bodyFlags, List.getElem?_map]
  by_cases hp : p < (ds.removeSystemPrompt index message ids).length
  · rw [List.getElem?_range hp, Option.map_some, Option.some.injEq, decide_eq_true_eq,
      and_iff_right hp]
  · rw [List.getElem?_eq_none (by rw [List.length_range]; omega), Option.map_none]
    exact iff_of_false (by decide) fun h => hp h.1

/-! ## The parts of a conversation -/

theorem mapM_bind_pure {α β γ : Type} (r : α → Except Py.Error β) (g : α → β → γ) (xs : List α) :
    (xs.mapM fun x => do
      let y ← r x
      return g x y) = (do
      let ys ← xs.mapM r
      return List.zipWith g xs ys) := by
  induction xs with
  | nil => rfl
  | cons x xs ih =>
      rw [List.mapM_cons, List.mapM_cons, ih]
      cases r x with
      | error e => rfl
      | ok y =>
          cases xs.mapM r with
          | error e => rfl
          | ok ys => rfl

/-- The tokens of each message, as the template renders it alone. -/
def renderings (ds : SftDataset M Tools) (messages : List M) (tools : Option Tools)
    (enableThinking : Option Bool) : Except Py.Error (List (List Int)) :=
  messages.zipIdx.mapM fun e =>
    ds.applyChatTemplate e.1 (if e.2 = 0 then tools else none) enableThinking

/-- The tensors of a message from its tokens. -/
def partOf (ds : SftDataset M Tools) (e : M × Nat) (ids : List Int) : SftTensors :=
  let inputIds := ds.removeSystemPrompt e.2 e.1 ids
  { inputIds := inputIds
    lossMask := ds.messageLossMask e.1 inputIds.length
    attentionMask := List.replicate inputIds.length 1 }

theorem assistantBody_eq (messages : List M) (tools : Option Tools)
    (enableThinking : Option Bool) :
    ds.assistantBody messages tools enableThinking = (do
      let rs ← ds.renderings messages tools enableThinking
      return (List.zipWith (fun e ids => ds.bodyFlags e.2 e.1 ids) messages.zipIdx
        rs).flatten) := by
  rw [assistantBody, renderings]
  have h := mapM_bind_pure
    (fun e : M × Nat => ds.applyChatTemplate e.1 (if e.2 = 0 then tools else none) enableThinking)
    (fun e ids => ds.bodyFlags e.2 e.1 ids) messages.zipIdx
  rw [h]
  cases messages.zipIdx.mapM fun e : M × Nat =>
      ds.applyChatTemplate e.1 (if e.2 = 0 then tools else none) enableThinking with
  | error e => rfl
  | ok rs => rfl

/-- What an assembled conversation consists of. -/
theorem assemble_spec {messages : List M} {tools : Option Tools} {enableThinking : Option Bool}
    {item : SftTensors} (h : ds.assemble messages tools enableThinking = .ok item) :
    ∃ rs, ds.renderings messages tools enableThinking = .ok rs ∧ messages ≠ [] ∧
      item.inputIds = (List.zipWith ds.partOf messages.zipIdx rs).flatMap SftTensors.inputIds ∧
      item.lossMask = (List.zipWith ds.partOf messages.zipIdx rs).flatMap SftTensors.lossMask ∧
      item.attentionMask =
        (List.zipWith ds.partOf messages.zipIdx rs).flatMap SftTensors.attentionMask := by
  rw [assemble] at h
  have hparts := mapM_bind_pure
    (fun e : M × Nat => ds.applyChatTemplate e.1 (if e.2 = 0 then tools else none) enableThinking)
    ds.partOf messages.zipIdx
  obtain ⟨parts, hmapM, h⟩ := Py.bind_eq_ok.mp h
  obtain ⟨rs, hrs, hzip⟩ := Py.bind_eq_ok.mp (hparts.symm.trans hmapM)
  obtain rfl := Except.ok.inj hzip
  split at h
  · cases h
  next hempty =>
    obtain ⟨_, _, h⟩ := Py.bind_eq_ok.mp h
    obtain ⟨_, _, h⟩ := Py.bind_eq_ok.mp h
    obtain rfl := Except.ok.inj h
    refine ⟨rs, hrs, ?_, rfl, rfl, rfl⟩
    rintro rfl
    exact hempty rfl

theorem length_bodyFlags (index : Nat) (message : M) (ids : List Int) :
    (ds.bodyFlags index message ids).length = (ds.removeSystemPrompt index message ids).length := by
  rw [bodyFlags, List.length_map, List.length_range]

/-- The masks of the parts are as long as the tokens, and the attention mask is full. -/
theorem length_zipWith_partOf (es : List (M × Nat)) (rs : List (List Int)) :
    ((List.zipWith ds.partOf es rs).flatMap SftTensors.lossMask).length =
        ((List.zipWith ds.partOf es rs).flatMap SftTensors.inputIds).length ∧
      (List.zipWith ds.partOf es rs).flatMap SftTensors.attentionMask =
        List.replicate ((List.zipWith ds.partOf es rs).flatMap SftTensors.inputIds).length 1 := by
  induction es generalizing rs with
  | nil => exact ⟨rfl, rfl⟩
  | cons e es ih =>
      cases rs with
      | nil => exact ⟨rfl, rfl⟩
      | cons ids rs =>
          obtain ⟨hloss, hattention⟩ := ih rs
          rw [List.zipWith_cons_cons, List.flatMap_cons, List.flatMap_cons, List.flatMap_cons,
            List.length_append, List.length_append, hloss, hattention]
          refine ⟨?_, List.replicate_append_replicate⟩
          rw [partOf, length_messageLossMask]

end SftDataset

/-! ## Loss masks part by part -/

theorem lossOnlyAt_append {loss loss' : List Nat} {flags flags' : List Bool}
    (hlength : loss.length = flags.length) (h : LossOnlyAt loss flags)
    (h' : LossOnlyAt loss' flags') : LossOnlyAt (loss ++ loss') (flags ++ flags') := by
  intro p hp
  rw [List.getElem?_append] at hp ⊢
  rw [← hlength]
  split at hp
  next hlt => exact (if_pos hlt).trans (h p hp)
  next hge => exact (if_neg hge).trans (h' _ hp)

/-- Of a mask that is cut off, only the first part can stand at a wrong position. -/
theorem lossOnlyAt_take_append {loss loss' : List Nat} {flags flags' : List Bool} {n : Nat}
    (hlength : loss.length = flags.length) (h' : LossOnlyAt loss' flags') :
    LossOnlyAt ((loss ++ loss').take n) (flags ++ flags') ↔ LossOnlyAt (loss.take n) flags := by
  constructor
  · intro h p hp
    rw [List.getElem?_take] at hp
    split at hp
    next hn =>
      obtain ⟨hlt, _⟩ := List.getElem?_eq_some_iff.mp hp
      have hflag := h p (by rw [List.getElem?_take, if_pos hn, List.getElem?_append_left hlt, hp])
      rwa [List.getElem?_append_left (hlength ▸ hlt)] at hflag
    · cases hp
  · intro h
    rw [List.take_append]
    intro p hp
    rw [List.getElem?_append] at hp ⊢
    rw [List.length_take] at hp
    split at hp
    next hlt =>
      have hflag := h p hp
      rwa [if_pos (by omega)]
    next hge =>
      rw [List.getElem?_take] at hp
      split at hp
      next hn =>
        have hlt : loss.length ≤ p := by
          by_contra hlt
          omega
        rw [if_neg (by omega), ← hlength]
        have hindex : p - min n loss.length = p - loss.length := by omega
        rw [hindex] at hp
        exact h' _ hp
      · cases hp

namespace SftDataset

variable {M Tools : Type} {ds : SftDataset M Tools}

/-- After the first message the loss mask stands on the text of assistant messages. -/
theorem lossOnlyAt_part {e : M × Nat} (ids : List Int) (h : e.2 ≠ 0) :
    LossOnlyAt (ds.partOf e ids).lossMask (ds.bodyFlags e.2 e.1 ids) := by
  intro p hp
  rw [partOf, getElem?_messageLossMask] at hp
  rw [getElem?_bodyFlags, promptLength, if_neg fun hfirst => h hfirst.1]
  exact hp

theorem lossOnlyAt_parts {es : List (M × Nat)} (rs : List (List Int)) (h : ∀ e ∈ es, e.2 ≠ 0) :
    LossOnlyAt ((List.zipWith ds.partOf es rs).flatMap SftTensors.lossMask)
      (List.zipWith (fun e ids => ds.bodyFlags e.2 e.1 ids) es rs).flatten := by
  induction es generalizing rs with
  | nil => exact fun p hp => nomatch hp
  | cons e es ih =>
      cases rs with
      | nil => exact fun p hp => nomatch hp
      | cons ids rs =>
          rw [List.zipWith_cons_cons, List.flatMap_cons, List.zipWith_cons_cons, List.flatten_cons]
          refine lossOnlyAt_append ?_ (lossOnlyAt_part ids (h e List.mem_cons_self))
            (ih rs fun e' he' => h e' (List.mem_cons_of_mem e he'))
          rw [partOf, length_messageLossMask, length_bodyFlags]

/-- The first message has loss mask 1 on the end of its prompt, when it is an
assistant message with the system prompt in front and enough tokens are kept. -/
theorem lossOnlyAt_first_iff {message : M} {ids : List Int} :
    LossOnlyAt ((ds.partOf (message, 0) ids).lossMask.take ds.maxLength)
        (ds.bodyFlags 0 message ids) ↔
      (ds.role message = "assistant" → (ds.systemPrompt ++ ds.generationPrompt) <+: ids →
        ds.systemPrompt = [] ∨ ds.maxLength ≤ ds.generationPrompt.length) := by
  have hremove : ds.removeSystemPrompt 0 message ids = ids := if_neg fun h => h.1 rfl
  have hmask : ∀ p, ((ds.partOf (message, 0) ids).lossMask.take ds.maxLength)[p]? = some 1 ↔
      p < ds.maxLength ∧ p < ids.length ∧ ds.role message = "assistant" ∧
        ds.generationPrompt.length ≤ p := by
    intro p
    rw [List.getElem?_take, partOf]
    dsimp only
    rw [hremove]
    split
    next hp => rw [getElem?_messageLossMask, and_iff_right hp]
    next hp => exact iff_of_false (by decide) fun h => hp h.1
  constructor
  · intro h hrole hprefix
    by_contra hcut
    rw [not_or, Nat.not_le] at hcut
    obtain ⟨hsystem, hlt⟩ := hcut
    have hpos := List.length_pos_of_ne_nil hsystem
    have hlength := hprefix.length_le
    rw [List.length_append] at hlength
    have hflag := h ds.generationPrompt.length
      ((hmask _).mpr ⟨hlt, by omega, hrole, Nat.le_refl _⟩)
    rw [getElem?_bodyFlags, promptLength, if_pos ⟨rfl, hprefix⟩] at hflag
    omega
  · intro h p hp
    obtain ⟨hp, hids, hrole, hprompt⟩ := (hmask p).mp hp
    rw [getElem?_bodyFlags, hremove, promptLength]
    refine ⟨hids, hrole, ?_⟩
    split
    next hfirst =>
      rcases h hrole hfirst.2 with hnil | hle
      · rw [hnil, List.length_nil]
        omega
      · omega
    · exact hprompt

variable {messages : List M} {tools : Option Tools} {enableThinking : Option Bool}
  {item : SftTensors}

/-- The kept loss mask of an assembled conversation. -/
theorem lossOnlyAt_assemble_iff (h : ds.assemble messages tools enableThinking = .ok item)
    {flags : List Bool} (hflags : ds.assistantBody messages tools enableThinking = .ok flags) :
    LossOnlyAt (item.lossMask.take ds.maxLength) flags ↔
      ds.FirstPromptMasked messages tools enableThinking := by
  obtain ⟨rs, hrs, hne, _, hloss, _⟩ := assemble_spec h
  rw [assistantBody_eq, hrs] at hflags
  obtain rfl := Except.ok.inj hflags
  cases messages with
  | nil => exact absurd rfl hne
  | cons message rest =>
      rw [renderings, List.zipIdx_cons, List.mapM_cons] at hrs
      obtain ⟨ids, hids, hrs⟩ := Py.bind_eq_ok.mp hrs
      obtain ⟨rs', hrs', hrs⟩ := Py.bind_eq_ok.mp hrs
      obtain rfl := Except.ok.inj hrs
      have hindex : ∀ e ∈ rest.zipIdx (0 + 1), e.2 ≠ 0 := by
        intro e he
        have hle := List.le_snd_of_mem_zipIdx he
        omega
      rw [hloss, List.zipIdx_cons, List.zipWith_cons_cons, List.flatMap_cons,
        List.zipWith_cons_cons, List.flatten_cons,
        lossOnlyAt_take_append (by rw [partOf, length_messageLossMask, length_bodyFlags])
          (lossOnlyAt_parts rs' hindex),
        lossOnlyAt_first_iff]
      constructor
      · intro hfirst message' ids' hhead hrole hids' hprefix
        obtain rfl := Option.some.inj hhead
        obtain rfl := Except.ok.inj (hids.symm.trans hids')
        exact hfirst hrole hprefix
      · exact fun hfirst hrole hprefix => hfirst message ids rfl hrole hids hprefix

theorem exists_assistantBody (h : ds.assemble messages tools enableThinking = .ok item) :
    ∃ flags, ds.assistantBody messages tools enableThinking = .ok flags := by
  obtain ⟨rs, hrs, _⟩ := assemble_spec h
  rw [assistantBody_eq, hrs]
  exact ⟨_, rfl⟩

/-! ## The two tails -/

/-- Without padding the first tokens are kept. -/
theorem getItemNoPadding_eq (h : ds.assemble messages tools enableThinking = .ok item) :
    ds.getItemNoPadding messages tools enableThinking =
      if item.inputIds.length > ds.maxLength ∧ ds.truncation = .error then
        .error (ds.tooLong item.inputIds.length)
      else .ok ⟨item.inputIds.take ds.maxLength,
        (List.range item.inputIds.length).take ds.maxLength, item.lossMask.take ds.maxLength⟩ := by
  obtain ⟨rs, _, _, hinput, hloss, _⟩ := assemble_spec h
  have hlength : item.lossMask.length = item.inputIds.length := by
    rw [hinput, hloss, (length_zipWith_partOf _ _).1]
  rw [getItemNoPadding, h, Py.ok_bind]
  dsimp only
  split
  · rfl
  · split
    · rfl
    next hle =>
      rw [List.take_of_length_le (by omega),
        List.take_of_length_le (by rw [List.length_range]; omega),
        List.take_of_length_le (by omega)]
      rfl

theorem select_padded {α : Type} {xs : List α} {n : Nat} (h : xs.length = n) (pad : α) (k : Nat) :
    select (List.replicate n 1 ++ List.replicate k 0) (xs ++ List.replicate k pad) = xs := by
  rw [← h, Jagged.select_append List.length_replicate, Jagged.select_ones, Jagged.select_zeros,
    List.append_nil]

theorem select_replicate {α : Type} {xs : List α} {n : Nat} (h : xs.length = n) :
    select (List.replicate n 1) xs = xs := by
  rw [← h, Jagged.select_ones]

/-- The right-padding mode, on the positions with attention mask 1. -/
theorem getItemRight_spec (h : ds.assemble messages tools enableThinking = .ok item) :
    (item.inputIds.length ≤ ds.maxLength ∨ ds.truncation = .right →
      ∃ y, ds.getItemRight messages tools enableThinking = .ok y ∧
        y.restrict = ⟨item.inputIds.take ds.maxLength,
          (List.range item.inputIds.length).take ds.maxLength,
          item.lossMask.take ds.maxLength⟩) ∧
    (item.inputIds.length > ds.maxLength → ds.truncation = .error →
      ds.getItemRight messages tools enableThinking =
        .error (ds.tooLong item.inputIds.length)) ∧
    (item.inputIds.length > ds.maxLength → ds.truncation = .left →
      ∃ y, ds.getItemRight messages tools enableThinking = .ok y ∧
        y.restrict.positionIds = ds.lastTokens (List.range item.inputIds.length)) := by
  obtain ⟨rs, _, _, hinput, hloss, hattention⟩ := assemble_spec h
  have hlength : item.lossMask.length = item.inputIds.length := by
    rw [hinput, hloss, (length_zipWith_partOf _ _).1]
  have hones : item.attentionMask = List.replicate item.inputIds.length 1 := by
    rw [hinput, hattention, (length_zipWith_partOf _ _).2]
  obtain ⟨n, hn⟩ : ∃ n, n = item.inputIds.length := ⟨_, rfl⟩
  rw [getItemRight, h, Py.ok_bind, hones]
  rw [← hn] at hlength ⊢
  refine ⟨fun hfits => ?_, fun hlong herror => ?_, fun hlong hleft => ?_⟩
  · by_cases hle : n ≤ ds.maxLength
    · have htake : (⟨item.inputIds.take ds.maxLength, (List.range n).take ds.maxLength,
          item.lossMask.take ds.maxLength⟩ : UnpaddedItem) =
            ⟨item.inputIds, List.range n, item.lossMask⟩ := by
        rw [List.take_of_length_le (hn ▸ hle), List.take_of_length_le (by rwa [List.length_range]),
          List.take_of_length_le (hlength.symm ▸ hle)]
      rw [htake]
      by_cases hlt : n < ds.maxLength
      · rw [if_pos hlt]
        refine ⟨_, rfl, ?_⟩
        rw [PaddedItem.restrict, select_padded hn.symm, select_padded List.length_range,
          select_padded hlength]
      · rw [if_neg hlt, if_neg (by omega)]
        refine ⟨_, rfl, ?_⟩
        rw [PaddedItem.restrict, select_replicate hn.symm, select_replicate List.length_range,
          select_replicate hlength]
    · rw [if_neg (by omega), if_pos (by omega), hfits.resolve_left hle]
      refine ⟨_, rfl, ?_⟩
      have hmin : min ds.maxLength n = ds.maxLength := by omega
      rw [PaddedItem.restrict, List.take_replicate, hmin,
        select_replicate (by rw [List.length_take, ← hn, hmin]),
        select_replicate (by rw [List.length_take, List.length_range, hmin]),
        select_replicate (by rw [List.length_take, hlength, hmin])]
  · rw [if_neg (by omega), if_pos hlong, herror]
  · rw [if_neg (by omega), if_pos hlong, hleft]
    refine ⟨_, rfl, ?_⟩
    have hlast : n - (n - ds.maxLength) = ds.maxLength := by omega
    rw [PaddedItem.restrict]
    dsimp only
    rw [lastTokens, lastTokens, List.length_replicate, List.drop_replicate, hlast,
      List.length_range]
    exact select_replicate (by rw [List.length_drop, List.length_range, hlast])

/-! ## The modes -/

/-- The first positions of a sequence that is too long are not its last ones. -/
theorem take_range_ne_lastTokens {n : Nat} (hmax : 1 ≤ ds.maxLength) (h : n > ds.maxLength) :
    (List.range n).take ds.maxLength ≠ ds.lastTokens (List.range n) := by
  intro heq
  have hhead := congrArg (fun xs : List Nat => xs[0]?) heq
  rw [lastTokens, List.length_range] at hhead
  simp only [List.getElem?_take, List.getElem?_drop] at hhead
  rw [if_pos (by omega), List.getElem?_range (by omega), List.getElem?_range (by omega)] at hhead
  have := Option.some.inj hhead
  omega

theorem getItem_error {e : Py.Error} (h : ds.assemble messages tools enableThinking = .error e) :
    ds.getItemNoPadding messages tools enableThinking = .error e ∧
      ds.getItemRight messages tools enableThinking = .error e := by
  rw [getItemNoPadding, getItemRight, h]
  exact ⟨rfl, rfl⟩

/-- A message is a role and the tokens of its text.  The template puts the system
prompt in front, and a token for the role before each text. -/
def roleTokens (systemPrompt : List Int) (maxLength : Nat) :
    SftDataset (String × List Int) Unit where
  template messages _ _ := .ok (systemPrompt ++
    messages.flatMap fun m => (if m.1 = "assistant" then 1 else 2) :: m.2)
  role := Prod.fst
  dummyUser := ("user", [])
  systemPrompt := systemPrompt
  generationPrompt := [1]
  padTokenId := some 0
  maxLength := maxLength
  truncation := .left
  ignoreInputIdsMismatch := false

end SftDataset

end Verl
