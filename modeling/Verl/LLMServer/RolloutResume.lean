import Verl.LLMServer.PartialRollout

/-!
# An interrupted generation is resumed without a trace

`ServerOk` is what a server with a fixed next-token function returns: a part of
the continuation of the prompt within the limit, all of it unless the answer is
aborted, and a row of `routed_experts` for every token or for every token but
the last.  `Generation.Ok` is the invariant of the loop.
-/

namespace Verl.LLMServer

open Decoding (Continues Complete)
open Py (Dict)

variable {L R : Type}

/-! ## The server -/

/-- How many of the last tokens have no row. -/
def rowGap (dropLast : Bool) : Nat := if dropLast then 1 else 0

/-- The answer `output` to `request`. -/
structure ServerOk (next : List Int → Option (Int × L)) (dropLast : Bool)
    (request : GenerateRequest) (output : TokenOutput L R) (text : List (Int × L)) : Prop where
  tokenIds : output.tokenIds = text.map Prod.fst
  logProbs : output.logProbs = some (text.map Prod.snd)
  continues : Continues next request.promptIds text
  limit : ∀ n, tokenLimit request.samplingParams = some n → (text.length : Int) ≤ n
  complete : output.aborted = false →
    Complete next (tokenLimit request.samplingParams) request.promptIds text
  rows : ∃ rows, output.routedExperts = some rows ∧
    rows.length = request.promptIds.length + text.length - rowGap dropLast
  version : ∃ version, output.globalSteps = some version

/-- Every answer to a request that asks for a token or more is as it should. -/
def Serves (next : List Int → Option (Int × L)) (dropLast : Bool)
    (server : Nat → GenerateRequest → TokenOutput L R) : Prop :=
  ∀ i request, (∀ n, tokenLimit request.samplingParams = some n → 1 ≤ n) →
    ∃ text, ServerOk next dropLast request (server i request) text

/-- The limit in the dictionary is written by the call alone. -/
def KeepsLimit (shared : Nat → SamplingParams → SamplingParams) : Prop :=
  ∀ i samplingParams, ∀ key ∈ ["max_tokens", "max_new_tokens"],
    (shared i samplingParams).get? key = samplingParams.get? key

/-! ## The limit in the dictionary -/

theorem limitKey_congr {d e : SamplingParams}
    (h : ∀ key ∈ ["max_tokens", "max_new_tokens"], d.get? key = e.get? key) :
    limitKey d = limitKey e := by
  have hmem (key : String) (hkey : key ∈ ["max_tokens", "max_new_tokens"]) :
      key ∈ d.keys ↔ key ∈ e.keys := by
    rw [← not_iff_not, ← Dict.get?_eq_none_iff, ← Dict.get?_eq_none_iff, h key hkey]
  rw [limitKey, limitKey]
  simp only [hmem "max_tokens" (by decide), hmem "max_new_tokens" (by decide)]

theorem limitKey_mem {d : SamplingParams} {key : String} (h : limitKey d = some key) :
    key ∈ ["max_tokens", "max_new_tokens"] := by
  rw [limitKey] at h
  split at h
  · rw [← Option.some.inj h]
    decide
  · split at h
    · rw [← Option.some.inj h]
      decide
    · cases h

theorem mem_keys_of_limitKey {d : SamplingParams} {key : String} (h : limitKey d = some key) :
    key ∈ d.keys := by
  rw [limitKey] at h
  split at h
  next hmem => exact Option.some.inj h ▸ hmem
  · split at h
    next hmem => exact Option.some.inj h ▸ hmem
    · cases h

theorem tokenLimit_congr {d e : SamplingParams}
    (h : ∀ key ∈ ["max_tokens", "max_new_tokens"], d.get? key = e.get? key) :
    tokenLimit d = tokenLimit e := by
  rw [tokenLimit, tokenLimit, limitKey_congr h]
  cases hkey : limitKey e with
  | none => rfl
  | some key => rw [Option.bind_some, Option.bind_some, h key (limitKey_mem hkey)]

/-- Writing to the entry of the limit changes the limit and not its key. -/
theorem limitKey_set {d : SamplingParams} {key : String} (h : limitKey d = some key)
    (n : Option Int) : limitKey (d.set key n) = some key := by
  have hmem (k : String) : k ∈ (d.set key n).keys ↔ k ∈ d.keys := by
    rw [Dict.mem_keys_set, or_iff_right_iff_imp]
    rintro rfl
    exact mem_keys_of_limitKey h
  rw [← h, limitKey, limitKey]
  simp only [hmem]

theorem tokenLimit_set {d : SamplingParams} {key : String} (h : limitKey d = some key)
    (n : Option Int) : tokenLimit (d.set key n) = n := by
  rw [tokenLimit, limitKey_set h, Option.bind_some, Dict.get?_set, if_pos rfl, Option.join_some]

/-! ## The calls -/

/-- The tokens of all answers, in order. -/
def produced (calls : List (GenerateRequest × TokenOutput L R)) : List Int :=
  calls.flatMap fun call => call.2.tokenIds

theorem produced_concat (calls : List (GenerateRequest × TokenOutput L R))
    (call : GenerateRequest × TokenOutput L R) :
    produced (calls ++ [call]) = produced calls ++ call.2.tokenIds := by
  rw [produced, produced, List.flatMap_append, List.flatMap_singleton]

/-- What is left of the limit. -/
def remaining (limit : Option Int) (tokens : List Int) : Option Int :=
  limit.map fun n => n - tokens.length

/-- Every request is the prompt with all tokens so far, and what is left of the
limit. -/
def RequestsOk (promptIds : List Int) (limit : Option Int)
    (calls : List (GenerateRequest × TokenOutput L R)) : Prop :=
  ∀ k call, calls[k]? = some call →
    call.1.promptIds = promptIds ++ produced (calls.take k) ∧
      tokenLimit call.1.samplingParams = remaining limit (produced (calls.take k))

theorem RequestsOk.concat {promptIds : List Int} {limit : Option Int}
    {calls : List (GenerateRequest × TokenOutput L R)} (h : RequestsOk promptIds limit calls)
    {call : GenerateRequest × TokenOutput L R}
    (hprompt : call.1.promptIds = promptIds ++ produced calls)
    (hlimit : tokenLimit call.1.samplingParams = remaining limit (produced calls)) :
    RequestsOk promptIds limit (calls ++ [call]) := by
  intro k call' hget
  rcases Nat.lt_trichotomy k calls.length with hk | rfl | hk
  · rw [List.getElem?_append_left hk] at hget
    rw [List.take_append_of_le_length (Nat.le_of_lt hk)]
    exact h k call' hget
  · rw [List.getElem?_concat_length, Option.some.injEq] at hget
    subst hget
    rw [List.take_left]
    exact ⟨hprompt, hlimit⟩
  · rw [List.getElem?_eq_none (by rw [List.length_append, List.length_singleton]; omega)] at hget
    cases hget

/-- The row of position `p` is the row of that position in the answer that
generated the token at `p + gap`, the first answer with tokens if `p + gap` is in
the prompt. -/
def RowSource (gap promptLen : Nat) (calls : List (GenerateRequest × TokenOutput L R)) (p : Nat)
    (row : R) : Prop :=
  ∃ call ∈ calls, call.2.tokenIds ≠ [] ∧ call.1.promptIds.length ≤ max (p + gap) promptLen ∧
    p + gap < call.1.promptIds.length + call.2.tokenIds.length ∧
    ∃ rows, call.2.routedExperts = some rows ∧ rows[p]? = some row

/-- One row for every token but the last `gap`. -/
structure RowsOk (gap promptLen : Nat) (calls : List (GenerateRequest × TokenOutput L R))
    (routedExperts : Option (List R)) : Prop where
  absent : produced calls = [] → routedExperts = none
  present : produced calls ≠ [] → routedExperts ≠ none
  length : ∀ rows, routedExperts = some rows →
    rows.length = promptLen + (produced calls).length - gap
  source : ∀ rows, routedExperts = some rows → ∀ p row, rows[p]? = some row →
    RowSource gap promptLen calls p row

theorem RowSource.concat {gap promptLen : Nat}
    {calls : List (GenerateRequest × TokenOutput L R)} {p : Nat} {row : R}
    (h : RowSource gap promptLen calls p row) (call : GenerateRequest × TokenOutput L R) :
    RowSource gap promptLen (calls ++ [call]) p row := by
  obtain ⟨call', hmem, hsource⟩ := h
  exact ⟨call', List.mem_append_left _ hmem, hsource⟩

/-- An answer is merged. -/
theorem RowsOk.concat {gap promptLen : Nat} {calls : List (GenerateRequest × TokenOutput L R)}
    {finalOutput : TokenOutput L R} (hgap : gap ≤ 1)
    (h : RowsOk gap promptLen calls finalOutput.routedExperts)
    {call : GenerateRequest × TokenOutput L R}
    (hprompt : call.1.promptIds.length = promptLen + (produced calls).length) {rows : List R}
    (hrows : call.2.routedExperts = some rows)
    (hlength : rows.length = call.1.promptIds.length + call.2.tokenIds.length - gap) :
    RowsOk gap promptLen (calls ++ [call]) (finalOutput.mergeRoutedExperts call.2) := by
  have hproduced := produced_concat calls call
  rw [TokenOutput.mergeRoutedExperts, hrows]
  dsimp only
  by_cases hempty : call.2.tokenIds = []
  · -- an answer without tokens changes nothing
    rw [hempty, List.append_nil] at hproduced
    rw [hempty, List.length_nil, if_neg (Nat.lt_irrefl 0)]
    exact ⟨hproduced ▸ h.absent, hproduced ▸ h.present, hproduced ▸ h.length,
      fun rows' hrows' p row hrow => (h.source rows' hrows' p row hrow).concat call⟩
  have hpos : 0 < call.2.tokenIds.length := List.length_pos_iff.mpr hempty
  have hne : produced (calls ++ [call]) ≠ [] := by
    rw [hproduced]
    exact List.append_ne_nil_of_right_ne_nil _ hempty
  have hlen : (produced (calls ++ [call])).length =
      (produced calls).length + call.2.tokenIds.length := by
    rw [hproduced, List.length_append]
  have hsource (p : Nat) (row : R) (hle : call.1.promptIds.length ≤ max (p + gap) promptLen)
      (hrow : rows[p]? = some row) : RowSource gap promptLen (calls ++ [call]) p row := by
    obtain ⟨hp, _⟩ := List.getElem?_eq_some_iff.mp hrow
    exact ⟨call, List.mem_append_right _ (List.mem_singleton.mpr rfl), hempty, hle, by omega, rows,
      hrows, hrow⟩
  rw [if_pos hpos]
  cases hkept : finalOutput.routedExperts with
  | none =>
      -- the first answer with tokens
      have hnil : produced calls = [] := by
        by_contra hcalls
        exact h.present hcalls hkept
      rw [hnil, List.length_nil] at hprompt hlen
      refine ⟨fun h => (hne h).elim, fun _ => Option.some_ne_none _, ?_, ?_⟩
      · intro rows' hrows'
        rw [← Option.some.inj hrows', hlength, hprompt, hlen, Nat.zero_add, Nat.add_zero]
      · intro rows' hrows' p row hrow
        rw [← Option.some.inj hrows'] at hrow
        exact hsource p row (by omega) hrow
  | some kept =>
      have hkeptLength := h.length kept hkept
      have hcalls : 0 < (produced calls).length := by
        rw [List.length_pos_iff]
        intro hnil
        rw [h.absent hnil] at hkept
        cases hkept
      have htake : Py.takeEnd rows call.2.tokenIds.length =
          rows.drop (promptLen + (produced calls).length - gap) := by
        rw [Py.takeEnd, if_neg hpos.ne']
        congr 1
        omega
      refine ⟨fun h => (hne h).elim, fun _ => Option.some_ne_none _, ?_, ?_⟩
      · intro rows' hrows'
        rw [← Option.some.inj hrows', htake, List.length_append, List.length_drop, hlen]
        omega
      · intro rows' hrows' p row hrow
        rw [← Option.some.inj hrows', htake] at hrow
        rcases Nat.lt_or_ge p kept.length with hp | hp
        · rw [List.getElem?_append_left hp] at hrow
          exact (h.source kept hkept p row hrow).concat call
        · rw [List.getElem?_append_right hp, List.getElem?_drop] at hrow
          refine hsource p row (by omega) ?_
          rw [← hrow]
          congr 1
          omega

/-! ## The invariant of the loop -/

namespace Generation

/-- The variables after some calls whose tokens, with their log-probabilities,
are `text`. -/
structure Ok (next : List Int → Option (Int × L)) (dropLast : Bool) (promptIds : List Int)
    (samplingParams : SamplingParams) (g : Generation L R) (text : List (Int × L)) : Prop where
  tokenIds : g.finalOutput.tokenIds = text.map Prod.fst
  logProbs : g.finalOutput.logProbs = some (text.map Prod.snd)
  continues : Continues next promptIds text
  produced : produced g.calls = text.map Prod.fst
  limit : ∀ n, tokenLimit samplingParams = some n → (text.length : Int) ≤ n
  key : limitKey g.samplingParams = limitKey samplingParams
  left : tokenLimit g.samplingParams = remaining (tokenLimit samplingParams) (text.map Prod.fst)
  requests : RequestsOk promptIds (tokenLimit samplingParams) g.calls
  rows : RowsOk (rowGap dropLast) promptIds.length g.calls g.finalOutput.routedExperts
  versions : ∀ call ∈ g.calls, ∃ version, call.2.globalSteps = some version
  minVersion : g.minGlobalSteps = g.calls.head?.bind fun call => call.2.globalSteps
  maxVersion : g.maxGlobalSteps = g.calls.getLast?.bind fun call => call.2.globalSteps

variable {next : List Int → Option (Int × L)} {dropLast : Bool} {promptIds : List Int}
  {samplingParams : SamplingParams} {g : Generation L R} {text seg : List (Int × L)}

theorem rowGap_le (dropLast : Bool) : rowGap dropLast ≤ 1 := by
  cases dropLast <;> decide

/-- Before the first call. -/
theorem Ok.start (hlimit : ∀ n, tokenLimit samplingParams = some n → 1 ≤ n) :
    Ok next dropLast promptIds samplingParams
      (⟨samplingParams, .empty, none, none, none, []⟩ : Generation L R) [] where
  tokenIds := rfl
  logProbs := rfl
  continues := trivial
  produced := rfl
  limit n hn := Int.le_trans Int.one_nonneg (hlimit n hn)
  key := rfl
  left := by
    rw [remaining, List.map_nil, List.length_nil]
    simp
  requests k call hget := by
    rw [List.getElem?_nil] at hget
    cases hget
  rows := ⟨fun _ => rfl, fun h => (h rfl).elim, nofun, nofun⟩
  versions := nofun
  minVersion := rfl
  maxVersion := rfl

/-- The client of a call with this prompt and these sampling parameters. -/
structure ClientOk (next : List Int → Option (Int × L)) (dropLast : Bool) (promptIds : List Int)
    (samplingParams : SamplingParams) (c : Client L R) : Prop where
  prompt : c.promptIds = promptIds
  key : c.limitKey = limitKey samplingParams
  limit : c.originalMaxTokens = tokenLimit samplingParams
  shared : KeepsLimit c.shared
  serves : Serves next dropLast c.server

variable {c : Client L R}

/-- The limit of the next request is what is left. -/
theorem Ok.tokenLimit_request (h : Ok next dropLast promptIds samplingParams g text)
    (hshared : KeepsLimit c.shared) :
    tokenLimit (g.request c).samplingParams =
      remaining (tokenLimit samplingParams) (text.map Prod.fst) := by
  rw [request, tokenLimit_congr (hshared g.calls.length g.samplingParams), h.left]

/-- What is complete for the rest of the limit completes the text. -/
theorem complete_append {limit : Option Int} (hcomplete : Complete next
      (remaining limit (text.map Prod.fst)) (promptIds ++ text.map Prod.fst) seg) :
    Complete next limit promptIds (text ++ seg) := by
  rw [Complete] at hcomplete ⊢
  rw [List.map_append, ← List.append_assoc]
  refine hcomplete.imp id fun hfull => ?_
  obtain ⟨n, hn, hlen⟩ := Option.map_eq_some_iff.mp hfull
  rw [hn, Option.some.injEq, List.length_append]
  rw [List.length_map] at hlen
  omega

/-- Only the dictionary is written. -/
theorem updateLimit_eq (c : Client L R) (g : Generation L R) :
    g.updateLimit c = { g with samplingParams := (g.updateLimit c).samplingParams } := by
  rw [updateLimit]
  split
  · rfl
  · rfl

/-- The dictionary after the limit is updated. -/
theorem updateLimit_left (hc : ClientOk next dropLast promptIds samplingParams c)
    (hkey : limitKey g.samplingParams = limitKey samplingParams)
    (hnone : tokenLimit samplingParams = none → tokenLimit g.samplingParams = none) :
    limitKey (g.updateLimit c).samplingParams =
        limitKey samplingParams ∧
      tokenLimit (g.updateLimit c).samplingParams =
        remaining (tokenLimit samplingParams) g.finalOutput.tokenIds := by
  rw [updateLimit, hc.key, hc.limit]
  split
  next key limit hk hl =>
    rw [hk] at hkey
    rw [hk, hl]
    exact ⟨limitKey_set hkey _, tokenLimit_set hkey _⟩
  next hnot =>
    have hl : tokenLimit samplingParams = none := by
      cases hk : limitKey samplingParams with
      | none => rw [tokenLimit, hk, Option.bind_none]
      | some key =>
          cases hl : tokenLimit samplingParams with
          | none => rfl
          | some limit => exact (hnot key limit hk hl).elim
    rw [hl]
    exact ⟨hkey, hnone hl⟩

/-- An answer is merged into what was there. -/
theorem Ok.receive (h : Ok next dropLast promptIds samplingParams g text)
    (hc : ClientOk next dropLast promptIds samplingParams c)
    (hseg : ServerOk next dropLast (g.request c) (c.server g.calls.length (g.request c)) seg) :
    Ok next dropLast promptIds samplingParams ((g.receive c).updateLimit c) (text ++ seg) := by
  have hprompt : (g.request c).promptIds = promptIds ++ text.map Prod.fst := by
    rw [request, hc.prompt, h.tokenIds]
  have hlimit := h.tokenLimit_request hc.shared
  have hids : (g.receive c).finalOutput.tokenIds = (text ++ seg).map Prod.fst := by
    rw [List.map_append, ← h.tokenIds, ← hseg.tokenIds]
    rfl
  have hkey : limitKey (g.receive c).samplingParams = limitKey samplingParams := by
    rw [← h.key]
    exact limitKey_congr (hc.shared g.calls.length g.samplingParams)
  obtain ⟨hkey', hleft⟩ := updateLimit_left hc hkey fun hnone => by
    have : tokenLimit (g.receive c).samplingParams = _ := hlimit
    rw [this, hnone]
    rfl
  rw [hids] at hleft
  obtain ⟨rows, hrows, hrowsLength⟩ := hseg.rows
  rw [updateLimit_eq]
  exact {
    tokenIds := hids
    logProbs := by
      have hmerge : (g.finalOutput.merge (g.output c)).logProbs =
          some (text.map Prod.snd ++ seg.map Prod.snd) := by
        have houtput : (g.output c).logProbs = some (seg.map Prod.snd) := hseg.logProbs
        rw [TokenOutput.merge, houtput, h.logProbs]
        rfl
      rw [List.map_append]
      exact hmerge
    continues := Decoding.continues_append.mpr ⟨h.continues, hprompt ▸ hseg.continues⟩
    produced := by
      rw [List.map_append, ← h.produced, ← hseg.tokenIds]
      exact produced_concat g.calls _
    limit := by
      intro n hn
      have := hseg.limit (n - text.length) (by
        rw [hlimit, hn, remaining, Option.map_some, List.length_map])
      rw [List.length_append]
      omega
    key := hkey'
    left := hleft
    requests := by
      refine h.requests.concat ?_ ?_
      · rw [h.produced]
        exact hprompt
      · rw [h.produced]
        exact hlimit
    rows := by
      refine h.rows.concat (rowGap_le dropLast) ?_ hrows ?_
      · rw [hprompt, h.produced, List.length_append]
      · rw [hrowsLength]
        exact congrArg (fun n => (g.request c).promptIds.length + n - rowGap dropLast)
          (by rw [← List.length_map (f := Prod.fst), ← hseg.tokenIds]; rfl)
    versions := by
      intro call hcall
      rcases List.mem_append.mp hcall with hcall | hcall
      · exact h.versions call hcall
      · rw [List.mem_singleton.mp hcall]
        exact hseg.version
    minVersion := by
      have hmin : (g.receive c).minGlobalSteps = g.minGlobalSteps.or (g.output c).globalSteps := rfl
      rw [hmin, h.minVersion]
      show _ = (g.calls ++ [_]).head?.bind _
      cases hcalls : g.calls with
      | nil => rfl
      | cons call calls =>
          obtain ⟨version, hversion⟩ := h.versions call (hcalls ▸ List.mem_cons_self)
          rw [List.cons_append, List.head?_cons, List.head?_cons, Option.bind_some, hversion]
          rfl
    maxVersion := by
      show _ = (g.calls ++ [_]).getLast?.bind _
      rw [List.getLast?_concat]
      rfl }

/-! ## The loop -/

/-- A call returned with all there is to generate. -/
def Returned (next : List Int → Option (Int × L)) (dropLast : Bool) (promptIds : List Int)
    (samplingParams : SamplingParams) (result : Option (Generation L R)) : Prop :=
  ∃ t text stopReason, Ok next dropLast promptIds samplingParams t text ∧
    Complete next (tokenLimit samplingParams) promptIds text ∧
    result = some
      { t.finish with finalOutput := { t.finish.finalOutput with stopReason := stopReason } }

/-- Every request but the last is aborted below the limit, and the loop goes on
with one abort less to come. -/
theorem Ok.loop {K fuel : Nat} (h : Ok next dropLast promptIds samplingParams g text)
    (hc : ClientOk next dropLast promptIds samplingParams c) (hretry : shouldRetry c = true)
    (hfinite : ∀ i ≥ K, ∀ request, (c.server i request).aborted = false)
    (hroom : ∀ n, tokenLimit samplingParams = some n → (text.length : Int) < n)
    (hfuel : K < g.calls.length + fuel) (hcalls : g.calls.length ≤ K) :
    Returned next dropLast promptIds samplingParams (g.loop c fuel) := by
  induction fuel generalizing g text with
  | zero => omega
  | succ fuel ih =>
      have hpositive : ∀ n, tokenLimit (g.request c).samplingParams = some n → 1 ≤ n := by
        rw [h.tokenLimit_request hc.shared, remaining]
        intro n hn
        obtain ⟨limit, hlimit, hleft⟩ := Option.map_eq_some_iff.mp hn
        rw [List.length_map] at hleft
        have := hroom limit hlimit
        omega
      obtain ⟨seg, hseg⟩ := hc.serves g.calls.length (g.request c) hpositive
      have hprompt : (g.request c).promptIds = promptIds ++ text.map Prod.fst := by
        rw [request, hc.prompt, h.tokenIds]
      have ht := h.receive hc hseg
      have hlength : ((g.receive c).updateLimit c).finalOutput.tokenIds.length =
          (text ++ seg).length := by
        rw [ht.tokenIds, List.length_map]
      rw [loop]
      split
      next hreached =>
        -- the limit is reached
        rw [limitReached, hc.limit] at hreached
        cases hl : tokenLimit samplingParams with
        | none =>
            rw [hl] at hreached
            cases hreached
        | some n =>
            rw [hl] at hreached
            have hle := of_decide_eq_true hreached
            have hge := ht.limit n hl
            refine ⟨_, _, some "length", ht, .inr ?_, rfl⟩
            rw [hl, Option.some.injEq]
            omega
      next hbelow =>
        split
        next habort =>
          refine ih ht ?_ ?_ ?_
          · intro n hn
            rw [limitReached, hc.limit, hn] at hbelow
            have := of_decide_eq_false (eq_false_of_ne_true hbelow)
            omega
          · rw [updateLimit_eq]
            show K < (g.calls ++ [_]).length + fuel
            rw [List.length_append, List.length_singleton]
            omega
          · rw [updateLimit_eq]
            show (g.calls ++ [_]).length ≤ K
            rw [List.length_append, List.length_singleton]
            by_contra hover
            have hend := hfinite g.calls.length (by omega) (g.request c)
            have habort' : (c.server g.calls.length (g.request c)).aborted = true := habort.1
            rw [hend] at habort'
            cases habort'
        next hstop =>
          have hend : (c.server g.calls.length (g.request c)).aborted = false := by
            rw [← Bool.not_eq_true]
            exact fun habort => hstop ⟨habort, hretry⟩
          refine ⟨_, _, _, ht, ?_, rfl⟩
          have hcomplete := hseg.complete hend
          rw [h.tokenLimit_request hc.shared, hprompt] at hcomplete
          exact complete_append hcomplete

end Generation

/-! ## The result -/

/-- What the caller sees of a call whose loop ended with `g`, where `full` is
the answer to one request without aborts. -/
structure Invisible (dropLast : Bool) (promptIds : List Int) (samplingParams : SamplingParams)
    (full : TokenOutput L R) (g : Generation L R) : Prop where
  tokenIds : g.finalOutput.tokenIds = full.tokenIds
  logProbs : g.finalOutput.logProbs = full.logProbs
  limit : ∀ n, tokenLimit samplingParams = some n → (g.finalOutput.tokenIds.length : Int) ≤ n
  produced : g.finalOutput.tokenIds = produced g.calls
  requests : RequestsOk promptIds (tokenLimit samplingParams) g.calls
  rows : RowsOk (rowGap dropLast) promptIds.length g.calls g.finalOutput.routedExperts
  minGlobalSteps :
    g.finalOutput.minGlobalSteps = g.calls.head?.bind fun call => call.2.globalSteps
  maxGlobalSteps :
    g.finalOutput.maxGlobalSteps = g.calls.getLast?.bind fun call => call.2.globalSteps

variable {next : List Int → Option (Int × L)} {dropLast : Bool}
  {server : Nat → GenerateRequest → TokenOutput L R}
  {shared : Nat → SamplingParams → SamplingParams} {partialRollout : Option Bool} {K : Nat}

theorem generate_invisible (hserver : Serves next dropLast server) (hshared : KeepsLimit shared)
    (hretry : partialRollout ≠ some false)
    (hfinite : ∀ i ≥ K, ∀ request, (server i request).aborted = false)
    (promptIds : List Int) (samplingParams : SamplingParams)
    (hlimit : ∀ n, tokenLimit samplingParams = some n → 1 ≤ n) {full : TokenOutput L R}
    {text : List (Int × L)} (hfull : ServerOk next dropLast ⟨promptIds, samplingParams⟩ full text)
    (hend : full.aborted = false) {fuel : Nat} (hfuel : K < fuel) :
    ∃ g, generate server shared partialRollout promptIds samplingParams fuel = some g ∧
      Invisible dropLast promptIds samplingParams full g := by
  obtain ⟨t, text', stopReason, ht, hcomplete, hresult⟩ :=
    (Generation.Ok.start hlimit).loop (R := R)
      (c := ⟨server, shared, partialRollout, promptIds, limitKey samplingParams,
        tokenLimit samplingParams⟩)
      ⟨rfl, rfl, rfl, hshared, hserver⟩ (decide_eq_true hretry) hfinite
      (fun n hn => Int.lt_of_lt_of_le Int.one_pos (hlimit n hn))
      ((Nat.zero_add fuel).symm ▸ hfuel) (Nat.zero_le K)
  obtain rfl : text' = text :=
    ht.continues.eq_of_complete hfull.continues hcomplete (hfull.complete hend) ht.limit hfull.limit
  refine ⟨_, hresult, ?_, ?_, ?_, ?_, ht.requests, ht.rows, ht.minVersion, ht.maxVersion⟩
  · exact ht.tokenIds.trans hfull.tokenIds.symm
  · exact ht.logProbs.trans hfull.logProbs.symm
  · intro n hn
    have := ht.limit n hn
    have hlength : t.finalOutput.tokenIds.length = text'.length := by
      rw [ht.tokenIds, List.length_map]
    exact hlength ▸ this
  · exact ht.tokenIds.trans ht.produced.symm

/-! ## A server of two tokens -/

/-- The prompt `[0]` is followed by 7 and 8. -/
def sevenEight (context : List Int) : Option (Int × Int) :=
  if context = [0] then some (7, 70) else if context = [0, 7] then some (8, 80) else none

/-- What follows the prompt, up to `n` tokens. -/
def textOf (context : List Int) (n : Nat) : List (Int × Int) :=
  if context = [0] then [(7, 70), (8, 80)].take n
  else if context = [0, 7] then [(8, 80)].take n
  else []

/-- The first answer is aborted after one token.  A row is the number of the
call and the position. -/
def twoCalls (dropLast : Bool) (i : Nat) (request : GenerateRequest) :
    TokenOutput Int (Nat × Nat) :=
  let text := textOf request.promptIds
    (if i = 0 then 1 else ((tokenLimit request.samplingParams).getD 2).toNat)
  { tokenIds := text.map Prod.fst
    logProbs := some (text.map Prod.snd)
    routedExperts := some ((List.range (request.promptIds.length + text.length -
      rowGap dropLast)).map fun p => (i, p))
    stopReason := if i = 0 then some "abort" else some "completed"
    numPreempted := none
    globalSteps := some i
    minGlobalSteps := none
    maxGlobalSteps := none }

theorem textOf_ok (context : List Int) (n : Nat) :
    Continues sevenEight context (textOf context n) ∧ (textOf context n).length ≤ n ∧
      (2 ≤ n ∨ (textOf context n).length ≠ n →
        sevenEight (context ++ (textOf context n).map Prod.fst) = none) := by
  rw [textOf]
  split
  next h =>
    subst h
    match n with
    | 0 => exact ⟨trivial, Nat.le_refl 0, by decide⟩
    | 1 => exact ⟨⟨rfl, trivial⟩, Nat.le_refl 1, by decide⟩
    | n + 2 =>
        rw [List.take_succ_cons, List.take_succ_cons, List.take_nil]
        exact ⟨⟨rfl, rfl, trivial⟩, Nat.le_add_left 2 n, fun _ => rfl⟩
  next h0 =>
    split
    next h =>
      subst h
      match n with
      | 0 => exact ⟨trivial, Nat.le_refl 0, by decide⟩
      | n + 1 =>
          rw [List.take_succ_cons, List.take_nil]
          exact ⟨⟨rfl, trivial⟩, Nat.le_add_left 1 n, fun _ => rfl⟩
    next h =>
      refine ⟨trivial, Nat.zero_le n, fun _ => ?_⟩
      rw [List.map_nil, List.append_nil, sevenEight, if_neg h0, if_neg h]

theorem twoCalls_serves (dropLast : Bool) : Serves sevenEight dropLast (twoCalls dropLast) := by
  intro i request hpositive
  refine ⟨_, rfl, rfl, (textOf_ok _ _).1, ?_, ?_, ⟨_, rfl, ?_⟩, i, rfl⟩
  · intro n hn
    have hle := (textOf_ok request.promptIds
      (if i = 0 then 1 else ((tokenLimit request.samplingParams).getD 2).toNat)).2.1
    have := hpositive n hn
    rw [hn, Option.getD_some] at hle ⊢
    have : (if i = 0 then 1 else n.toNat) ≤ n.toNat := by
      split
      · omega
      · exact Nat.le_refl _
    omega
  · intro habort
    have hi : i ≠ 0 := by
      rintro rfl
      cases habort
    rw [if_neg hi, Complete]
    cases hl : tokenLimit request.samplingParams with
    | none => exact .inl ((textOf_ok _ 2).2.2 (.inl (Nat.le_refl 2)))
    | some n =>
        rw [Option.getD_some]
        have hn := hpositive n hl
        by_cases hlength : (textOf request.promptIds n.toNat).length = n.toNat
        · right
          rw [hlength, Int.toNat_of_nonneg (by omega)]
        · exact .inl ((textOf_ok _ _).2.2 (.inr hlength))
  · rw [List.length_map, List.length_range]

/-- A limit of `n` tokens. -/
def maxTokens (n : Int) : SamplingParams := ⟨[("max_tokens", some n)], List.nodup_singleton _⟩

/-- The answer without aborts. -/
def sevenEightFull : TokenOutput Int (Nat × Nat) := twoCalls true 1 ⟨[0], maxTokens 3⟩

theorem generate_invisible_two :
    ∃ g, generate (twoCalls true) (fun _ d => d) none [0] (maxTokens 3) 2 = some g ∧
      Invisible true [0] (maxTokens 3) sevenEightFull g := by
  have hpositive : ∀ n, tokenLimit (maxTokens 3) = some n → 1 ≤ n := by
    intro n hn
    rw [← Option.some.inj hn]
    decide
  have hfinite : ∀ i ≥ 1, ∀ request, (twoCalls true i request).aborted = false := by
    intro i hi request
    simp only [TokenOutput.aborted, twoCalls, if_neg (Nat.pos_iff_ne_zero.mp hi)]
    decide
  obtain ⟨text, hfull⟩ := twoCalls_serves true 1 ⟨[0], maxTokens 3⟩ hpositive
  exact generate_invisible (twoCalls_serves true) (fun _ _ _ _ => rfl)
    (Option.some_ne_none _).symm hfinite [0] (maxTokens 3) hpositive hfull rfl (Nat.lt_succ_self 1)

/-- With no row for the last token, the row of the 7 is not from the answer that
generated it.  And where another call that shares the dictionary has one token
left, the second request asks for one token of the two that are left. -/
theorem not_generate_invisible :
    (∃ g, generate (twoCalls true) (fun _ d => d) none [0] (maxTokens 3) 2 = some g ∧
      g.finalOutput.tokenIds = [7, 8] ∧ g.finalOutput.routedExperts = some [(0, 0), (1, 1)] ∧
      ¬ RowSource 0 1 g.calls 1 (1, 1)) ∧
    ∃ g, generate (twoCalls true) (fun i d => if i = 1 then d.set "max_tokens" (some 1) else d) none
        [0] (maxTokens 3) 2 = some g ∧
      ¬ RequestsOk [0] (some 3) g.calls := by
  refine ⟨⟨_, rfl, rfl, rfl, ?_⟩, ⟨_, rfl, ?_⟩⟩
  · rintro ⟨call, hmem, _, hle, hlt, rows, hrows, hrow⟩
    rcases List.mem_cons.mp hmem with rfl | hmem
    · obtain rfl := Option.some.inj hrows
      cases hrow
    · rcases List.mem_singleton.mp hmem with rfl
      exact absurd hle (by decide)
  · intro h
    exact absurd (h 1 _ rfl).2 (by decide)

end Verl.LLMServer
