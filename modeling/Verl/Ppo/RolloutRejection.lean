import Mathlib.Algebra.Order.Field.Basic
import Mathlib.Algebra.Order.BigOperators.Group.List
import Mathlib.Algebra.Order.Ring.Rat
import Mathlib.Algebra.Field.Rat
import Verl.Lib.Dict
import Verl.Lib.Strings

/-!
# Rejection masks

`compute_rollout_rejection_mask` of `rollout_corr_helper.py`, with the parser of its
thresholds.  The masks of the options are multiplied one after the other, and each of them
is computed from `response_mask` as it was passed, so the result is the product of the
masks of the options alone (`RejectionChain.mask_eq`).

Numbers are those of an ordered field.  `exp`, `log`, `float` and `str` are parameters.
Of the metrics only the error for a batch without a valid token is kept.
-/

namespace Verl.RolloutRejection

/-! ## Options and thresholds -/

/-- The estimators of the divergence of a token. -/
inductive Estimator where
  | k1
  | k2
  | k3
  deriving DecidableEq

/-- `SUPPORTED_ROLLOUT_RS_OPTIONS` -/
inductive RsOption where
  | token (estimator : Estimator)
  | seqSum (estimator : Estimator)
  | seqMean (estimator : Estimator)
  | seqMaxK2
  | seqMaxK3
  deriving DecidableEq

/-- The name of an estimator. -/
def Estimator.name : Estimator → List Char
  | k1 => ['k', '1']
  | k2 => ['k', '2']
  | k3 => ['k', '3']

namespace RsOption

/-- The name of an option. -/
def name : RsOption → List Char
  | token k => "token_".toList ++ k.name
  | seqSum k => "seq_sum_".toList ++ k.name
  | seqMean k => "seq_mean_".toList ++ k.name
  | seqMaxK2 => "seq_max_k2".toList
  | seqMaxK3 => "seq_max_k3".toList

def supported : List RsOption :=
  [token .k1, token .k2, token .k3, seqSum .k1, seqSum .k2, seqSum .k3, seqMean .k1, seqMean .k2,
    seqMean .k3, seqMaxK2, seqMaxK3]

/-- The option of a name. -/
def ofName (opt : List Char) : Option RsOption := supported.find? fun option => option.name = opt

/-- `option.endswith("k1")` -/
def isK1 : RsOption → Bool
  | token .k1 => true
  | seqSum .k1 => true
  | seqMean .k1 => true
  | _ => false

/-- `option_name not in TOKEN_LEVEL_ROLLOUT_RS_OPTIONS` -/
def isSequence : RsOption → Bool
  | token _ => false
  | _ => true

end RsOption

/-- `rollout_rs_threshold`: nothing, the text of a number, or a text. -/
inductive ThresholdSpec where
  | none
  | number (text : List Char)
  | text (spec : List Char)

/-- An entry of the dictionary of thresholds. -/
structure Thresholds (F : Type) where
  lower : Option F
  upper : F
  deriving DecidableEq

/-- The functions that are not computed here. -/
structure Functions (F : Type) where
  exp : F → F
  log : F → F
  /-- `float(text)`, if the text is a number -/
  float : List Char → Option F
  str : F → List Char

/-- A token of the batch: `log_ratio` and `response_mask`. -/
structure Token (F : Type) where
  logRatio : F
  responseMask : F

variable {F : Type} [Field F]

/-! ## Matrices -/

/-- A matrix with an entry for every token. -/
def matrix (entry : List (Token F) → Token F → F) (batch : List (List (Token F))) :
    List (List F) :=
  batch.map fun row => row.map (entry row)

/-- The product of two matrices, entry by entry. -/
def mulMasks (a b : List (List F)) : List (List F) := List.zipWith (List.zipWith (· * ·)) a b

omit [Field F] in
theorem matrix_congr {α : Type} {a b : List (Token F) → Token F → α} {batch : List (List (Token F))}
    (h : ∀ row ∈ batch, ∀ token ∈ row, a row token = b row token) :
    (batch.map fun row => row.map (a row)) = batch.map fun row => row.map (b row) :=
  List.map_congr_left fun row hrow => List.map_congr_left (h row hrow)

theorem mulMasks_matrix (a b : List (Token F) → Token F → F) (batch : List (List (Token F))) :
    mulMasks (matrix a batch) (matrix b batch) =
      matrix (fun row token => a row token * b row token) batch := by
  rw [mulMasks, matrix, matrix, matrix, List.zipWith_map, List.zipWith_self]
  simp only [List.zipWith_map, List.zipWith_self]

theorem foldl_mulMasks_matrix {ι : Type} (c : List (Token F) → Token F → F)
    (entry : ι → List (Token F) → Token F → F) (xs : List ι) (batch : List (List (Token F))) :
    (xs.map fun x => matrix (entry x) batch).foldl mulMasks (matrix c batch) =
      matrix (fun row token => c row token * (xs.map fun x => entry x row token).prod) batch := by
  induction xs generalizing c with
  | nil =>
      simp only [List.map_nil, List.foldl_nil, List.prod_nil, mul_one]
  | cons x xs ih =>
      rw [List.map_cons, List.foldl_cons, mulMasks_matrix, ih]
      simp only [List.map_cons, List.prod_cons, mul_assoc]

theorem prod_zero_or_one {xs : List F} (h : ∀ x ∈ xs, x = 0 ∨ x = 1) :
    xs.prod = 0 ∨ xs.prod = 1 := by
  induction xs with
  | nil => exact .inr List.prod_nil
  | cons x xs ih =>
      rw [List.prod_cons]
      rcases h x List.mem_cons_self with rfl | rfl
      · exact .inl (zero_mul _)
      · rw [one_mul]
        exact ih fun y hy => h y (List.mem_cons_of_mem _ hy)

/-- A factor of 0 or 1 that comes with every entry comes once. -/
theorem prod_map_mul_mask {mask : F} (hmask : mask = 0 ∨ mask = 1) (x : F) (xs : List F) :
    mask * x * (xs.map (mask * ·)).prod = mask * (x :: xs).prod := by
  rcases hmask with rfl | rfl
  · rw [zero_mul, zero_mul, zero_mul]
  · simp only [one_mul, List.map_id', List.prod_cons]

variable [LinearOrder F] (fns : Functions F)

/-! ## The parser of the thresholds -/

/-- `float(text)`, with the message of its exception. -/
def toFloat (text : List Char) (message : String) : Except Py.Error F :=
  match fns.float text with
  | some value => .ok value
  | none => .error (.value message)

/-- `lower_str` and `upper_str` -/
def boundTexts (spec : List Char) : Except Py.Error (List Char × List Char) :=
  match Py.splitFirst '_' spec with
  | some parts => .ok parts
  | none => do
      let text := String.ofList spec
      let upper ← toFloat fns spec s!"could not convert string to float: '{text}'"
      if upper = 0 then .error .zeroDivision
      else .ok (fns.str (1 / upper), spec)

/-- The thresholds of one option. -/
def parseThreshold (option : RsOption) (spec : List Char) : Except Py.Error (Thresholds F) := do
  let name := String.ofList option.name
  let text := String.ofList spec
  let invalid := s!"Invalid numeric threshold '{text}' for option '{name}'."
  if option.isK1 then
    let (lowerStr, upperStr) ← boundTexts fns spec
    let lower ← toFloat fns lowerStr invalid
    let upper ← toFloat fns upperStr invalid
    if lower ≤ 0 ∨ upper ≤ 0 then
      .error (.value s!"Thresholds for option '{name}' must be positive, got {text}.")
    else .ok ⟨some lower, upper⟩
  else if '_' ∈ spec then
    .error (.value (s!"rollout_rs_threshold for option '{name}' must provide a single upper " ++
      s!"bound without '_'. Received '{text}'."))
  else do
    let upper ← toFloat fns spec invalid
    if upper ≤ 0 then
      .error (.value s!"Threshold for option '{name}' must be positive, got {text}.")
    else .ok ⟨none, upper⟩

/-- `raw_specs`, before a single one is shared. -/
def rawSpecs : ThresholdSpec → List (List Char)
  | .none => []
  | .number text => [text]
  | .text spec => Py.commaParts spec

/-- The loop of the parser. -/
def parseAll : Py.Dict RsOption (Thresholds F) → List (RsOption × List Char) →
    Except Py.Error (Py.Dict RsOption (Thresholds F))
  | thresholds, [] => .ok thresholds
  | thresholds, (option, spec) :: rest => do
      let info ← parseThreshold fns option spec
      parseAll (thresholds.set option info) rest

/-- `_parse_rollout_rs_thresholds`, once `raw_specs` is there. -/
def parseSpecs (options : List RsOption) (specs : List (List Char)) :
    Except Py.Error (Py.Dict RsOption (Thresholds F)) :=
  if specs = [] then
    .error (.value "rollout_rs_threshold must contain at least one threshold value.")
  else if specs.length ≠ 1 ∧ specs.length ≠ options.length then
    .error (.value ("rollout_rs_threshold expects either one threshold shared by all options " ++
      s!"or exactly {options.length} thresholds to match the provided rollout_rs options."))
  else
    parseAll fns .empty (options.zip (
      if specs.length = 1 ∧ 1 < options.length then
        (List.replicate options.length specs).flatten
      else specs))

/-- `_parse_rollout_rs_thresholds` -/
def parseRolloutRsThresholds (options : List RsOption) (spec : ThresholdSpec) :
    Except Py.Error (Py.Dict RsOption (Thresholds F)) :=
  match spec with
  | .none => .error (.value "rollout_rs_threshold must be provided for rejection sampling.")
  | _ => parseSpecs fns options (rawSpecs spec)

/-! ## The mask -/

/-- `SAFETY_BOUND` -/
def safetyBound : F := 20

/-- `log_ratio_safe` -/
def logRatioSafe (token : Token F) : F := min (max token.logRatio (-safetyBound)) safetyBound

/-- `token_k1`, `token_k2` and `token_k3` -/
def Estimator.value (estimator : Estimator) (token : Token F) : F :=
  match estimator with
  | k1 => -logRatioSafe token
  | k2 => 1 / 2 * logRatioSafe token ^ 2
  | k3 => fns.exp (logRatioSafe token) - 1 - logRatioSafe token

/-- `masked_sum` of a row. -/
def maskedSum (values : Token F → F) (row : List (Token F)) : F :=
  (row.map fun token =>
    (if token.responseMask ≠ 0 then values token else 0) * token.responseMask).sum

/-- `masked_mean` of a row. -/
def maskedMean (values : Token F → F) (row : List (Token F)) : F :=
  maskedSum values row / ((row.map Token.responseMask).sum + 1 / 10 ^ 8)

/-- `_sequence_max`: 0 for a row without a valid token. -/
def sequenceMax (values : Token F → F) (row : List (Token F)) : F :=
  (((row.filter fun token => token.responseMask ≠ 0).map values).max?).getD 0

/-- The bounds that a statistic is compared with. -/
def bounds (option : RsOption) (info : Thresholds F) : Except Py.Error (Option F × F) :=
  if option.isK1 then
    match info.lower with
    | none =>
        let name := String.ofList option.name
        .error (.value
          s!"rollout_rs_threshold for option '{name}' must specify both lower and upper bounds.")
    | some lower => .ok (some (fns.log lower), fns.log info.upper)
  else .ok (none, info.upper)

/-- The comparison with the bounds. -/
def keeps (bounds : Option F × F) (statistic : F) : Bool :=
  (match bounds.1 with
    | some lower => decide (lower ≤ statistic)
    | none => true) && decide (statistic ≤ bounds.2)

/-- The statistic of an option, for a token of a row. -/
def statistic (option : RsOption) (row : List (Token F)) (token : Token F) : F :=
  match option with
  | .token k => k.value fns token
  | .seqSum k => maskedSum (k.value fns) row
  | .seqMean k => maskedMean (k.value fns) row
  | .seqMaxK2 => sequenceMax (Estimator.k2.value fns) row
  | .seqMaxK3 => sequenceMax (Estimator.k3.value fns) row

/-- `token_keep_mask` -/
def tokenKeepMask (option : RsOption) (bounds : Option F × F) (batch : List (List (Token F))) :
    List (List F) :=
  matrix (fun row token => if keeps bounds (statistic fns option row token) then 1 else 0) batch

/-- The loop that drops an option that comes again. -/
def normalizeOptions : List RsOption → List (List Char) → Except Py.Error (List RsOption)
  | seen, [] => .ok seen
  | seen, opt :: rest =>
      match RsOption.ofName opt with
      | none =>
          let name := String.ofList opt
          .error (.value (s!"Invalid rollout_rs option: {name}. Must be one of " ++
            "['seq_max_k2', 'seq_max_k3', 'seq_mean_k1', 'seq_mean_k2', 'seq_mean_k3', " ++
            "'seq_sum_k1', 'seq_sum_k2', 'seq_sum_k3', 'token_k1', 'token_k2', 'token_k3']."))
      | some option => normalizeOptions (if option ∈ seen then seen else seen ++ [option]) rest

/-- The loop over the options. -/
def combineMasks (batch : List (List (Token F))) (specs : Py.Dict RsOption (Thresholds F)) :
    List (List F) → List RsOption → Except Py.Error (List (List F))
  | combinedMask, [] => .ok combinedMask
  | combinedMask, option :: rest =>
      match specs.get? option with
      | none => .error .key
      | some info => do
          let b ← bounds fns option info
          let combinedMask := mulMasks combinedMask (tokenKeepMask fns option b batch)
          -- `compute_rs_metrics`
          if ∀ row ∈ batch, ∀ token ∈ row, token.responseMask = 0 then
            .error (.value "response_mask must contain at least one valid token (1).")
          else combineMasks batch specs combinedMask rest

/-- `compute_rollout_rejection_mask` -/
def computeRolloutRejectionMask (batch : List (List (Token F))) (rolloutRs : List Char)
    (rolloutRsThreshold : ThresholdSpec) : Except Py.Error (List (List F)) :=
  match rolloutRsThreshold with
  | .none => .error (.value "rollout_rs_threshold must be provided for rejection sampling.")
  | _ =>
    if batch = [] then .ok (matrix (fun _ token => token.responseMask) batch)
    else if Py.commaParts rolloutRs = [] then
      .error (.value "rollout_rs must contain at least one valid option.")
    else do
      let normalizedOptions ← normalizeOptions [] (Py.commaParts rolloutRs)
      let thresholdSpecs ← parseRolloutRsThresholds fns normalizedOptions rolloutRsThreshold
      let combinedMask ← combineMasks fns batch thresholdSpecs (matrix (fun _ _ => 1) batch)
        normalizedOptions
      return mulMasks (matrix (fun _ token => token.responseMask) batch) combinedMask

/-! ## What the texts say -/

/-- The texts of a call name these options, each with the text of its threshold. -/
structure Writes (pairs : List (RsOption × List Char)) (rolloutRs : List Char)
    (spec : ThresholdSpec) : Prop where
  options : Py.commaParts rolloutRs = pairs.map fun p => p.1.name
  specs : rawSpecs spec = pairs.map Prod.snd ∨
    ∃ shared, rawSpecs spec = [shared] ∧ ∀ p ∈ pairs, p.2 = shared

theorem commaParts_name (option : RsOption) : Py.commaParts option.name = [option.name] := by
  cases option with
  | token k => cases k with | k1 => decide | k2 => decide | k3 => decide
  | seqSum k => cases k with | k1 => decide | k2 => decide | k3 => decide
  | seqMean k => cases k with | k1 => decide | k2 => decide | k3 => decide
  | seqMaxK2 => decide
  | seqMaxK3 => decide

/-- An option alone is written by its name and the text of its threshold. -/
theorem Writes.alone {pairs : List (RsOption × List Char)} {rolloutRs text : List Char}
    (h : Writes pairs rolloutRs (.text text)) :
    ∀ p ∈ pairs, Writes [p] p.1.name (.text p.2) := by
  intro p hp
  refine ⟨commaParts_name p.1, .inl ?_⟩
  have hmem : p.2 ∈ Py.commaParts text := by
    rcases h.specs with hspecs | ⟨shared, hspecs, hshared⟩
    · exact (show Py.commaParts text = _ from hspecs) ▸ List.mem_map_of_mem hp
    · rw [show Py.commaParts text = [shared] from hspecs, hshared p hp]
      exact List.mem_cons_self
  exact Py.commaParts_of_mem hmem

/-- Pairs are written with commas between them. -/
theorem writes_intercalate {pairs : List (RsOption × List Char)}
    (h : ∀ p ∈ pairs, Py.commaParts p.2 = [p.2]) :
    Writes pairs ([','].intercalate (pairs.map fun p => p.1.name))
      (.text ([','].intercalate (pairs.map Prod.snd))) where
  options := Py.commaParts_intercalate fun part hpart => by
    obtain ⟨p, -, rfl⟩ := List.mem_map.mp hpart
    exact commaParts_name p.1
  specs := .inl (Py.commaParts_intercalate fun part hpart => by
    obtain ⟨p, hp, rfl⟩ := List.mem_map.mp hpart
    exact h p hp)

/-- The thresholds of the options are valid. -/
def Valid (pairs : List (RsOption × List Char)) : Prop :=
  ∀ p ∈ pairs, ∃ info, parseThreshold fns p.1 p.2 = .ok info

/-- The thresholds of a pair. -/
def thresholdsOf (p : RsOption × List Char) : Thresholds F :=
  match parseThreshold fns p.1 p.2 with
  | .ok info => info
  | .error _ => ⟨none, 0⟩

/-- The bounds of a pair. -/
def boundsOf (p : RsOption × List Char) : Option F × F :=
  match bounds fns p.1 (thresholdsOf fns p) with
  | .ok b => b
  | .error _ => (none, 0)

/-- The entry of the mask of a pair. -/
def keepEntry (p : RsOption × List Char) (row : List (Token F)) (token : Token F) : F :=
  if keeps (boundsOf fns p) (statistic fns p.1 row token) then 1 else 0

/-- The mask that a call returns. -/
def chainedMask (pairs : List (RsOption × List Char)) (batch : List (List (Token F))) :
    List (List F) :=
  matrix (fun row token =>
    token.responseMask * (pairs.map fun p => keepEntry fns p row token).prod) batch

theorem RsOption.ofName_name (option : RsOption) : ofName option.name = some option := by
  cases option with
  | token k => cases k with | k1 => decide | k2 => decide | k3 => decide
  | seqSum k => cases k with | k1 => decide | k2 => decide | k3 => decide
  | seqMean k => cases k with | k1 => decide | k2 => decide | k3 => decide
  | seqMaxK2 => decide
  | seqMaxK3 => decide

/-- Different options stay as they are. -/
theorem normalizeOptions_names {seen options : List RsOption} (h : (seen ++ options).Nodup) :
    normalizeOptions seen (options.map RsOption.name) = .ok (seen ++ options) := by
  induction options generalizing seen with
  | nil => rw [List.map_nil, normalizeOptions, List.append_nil]
  | cons option options ih =>
      have hnew : option ∉ seen := fun hmem =>
        (List.nodup_append.mp h).2.2 option hmem option List.mem_cons_self rfl
      rw [List.append_cons] at h
      rw [List.map_cons, normalizeOptions, RsOption.ofName_name]
      simp only [if_neg hnew]
      rw [ih h]
      exact congrArg Except.ok (List.append_cons seen option options).symm

section Calls

variable {fns}

theorem thresholdsOf_eq {p : RsOption × List Char} {info : Thresholds F}
    (h : parseThreshold fns p.1 p.2 = .ok info) : thresholdsOf fns p = info := by
  rw [thresholdsOf, h]

/-- The dictionary has the thresholds of every pair. -/
theorem parseAll_spec {pairs : List (RsOption × List Char)} (hvalid : Valid fns pairs)
    (hnodup : (pairs.map Prod.fst).Nodup) (thresholds : Py.Dict RsOption (Thresholds F)) :
    ∃ specs, parseAll fns thresholds pairs = .ok specs ∧
      (∀ p ∈ pairs, specs.get? p.1 = some (thresholdsOf fns p)) ∧
      ∀ option ∉ pairs.map Prod.fst, specs.get? option = thresholds.get? option := by
  induction pairs generalizing thresholds with
  | nil => exact ⟨thresholds, rfl, fun _ h => absurd h List.not_mem_nil, fun _ _ => rfl⟩
  | cons p pairs ih =>
      rw [List.map_cons, List.nodup_cons] at hnodup
      obtain ⟨info, hinfo⟩ := hvalid p List.mem_cons_self
      obtain ⟨specs, hrun, hpairs, hothers⟩ :=
        ih (fun q hq => hvalid q (List.mem_cons_of_mem p hq)) hnodup.2 (thresholds.set p.1 info)
      refine ⟨specs, ?_, ?_, fun option hoption => ?_⟩
      · obtain ⟨option, spec⟩ := p
        rw [parseAll, hinfo, Py.ok_bind]
        exact hrun
      · rintro q (_ | ⟨_, hq⟩)
        · rw [hothers p.1 hnodup.1, Py.Dict.get?_set, if_pos rfl, thresholdsOf_eq hinfo]
        · exact hpairs q hq
      · rw [List.map_cons, List.mem_cons, not_or] at hoption
        rw [hothers option hoption.2, Py.Dict.get?_set, if_neg hoption.1]

/-- The parser pairs the options with their thresholds. -/
theorem parseSpecs_eq {pairs : List (RsOption × List Char)} {specs : List (List Char)}
    (hspecs : specs = pairs.map Prod.snd ∨ ∃ shared, specs = [shared] ∧ ∀ p ∈ pairs, p.2 = shared)
    (hne : pairs ≠ []) :
    parseSpecs fns (pairs.map Prod.fst) specs = parseAll fns .empty pairs := by
  have hpos := List.length_pos_iff.mpr hne
  have hzip : (pairs.map Prod.fst).zip (pairs.map Prod.snd) = pairs := by
    rw [List.zip_map', List.map_id']
  rw [parseSpecs]
  rcases hspecs with rfl | ⟨shared, rfl, hshared⟩
  · rw [if_neg fun h => hne (List.map_eq_nil_iff.mp h), List.length_map, List.length_map,
      if_neg fun h => h.2 rfl, if_neg (by omega), hzip]
  · have hsnd : pairs.map Prod.snd = List.replicate pairs.length shared :=
      List.map_eq_replicate_iff.mpr hshared
    rw [if_neg (List.cons_ne_nil _ _), if_neg fun h => h.1 rfl, List.length_map,
      List.length_singleton]
    by_cases hone : 1 < pairs.length
    · rw [if_pos ⟨rfl, hone⟩, List.flatten_replicate_singleton, ← hsnd, hzip]
    · have hlen : pairs.length = 1 := by omega
      rw [hlen] at hsnd
      rw [if_neg fun h => hone h.2]
      exact congrArg (parseAll fns .empty) ((congrArg _ hsnd.symm).trans hzip)

theorem parseRolloutRsThresholds_eq {pairs : List (RsOption × List Char)} {rolloutRs : List Char}
    {spec : ThresholdSpec} (hwrites : Writes pairs rolloutRs spec) (hne : pairs ≠ []) :
    parseRolloutRsThresholds fns (pairs.map Prod.fst) spec = parseAll fns .empty pairs := by
  cases spec with
  | none =>
      rcases hwrites.specs with hspecs | ⟨shared, hspecs, -⟩
      · exact absurd (List.map_eq_nil_iff.mp hspecs.symm) hne
      · cases hspecs
  | number text => exact parseSpecs_eq hwrites.specs hne
  | text spec => exact parseSpecs_eq hwrites.specs hne

/-! ## The loop over the options -/

/-- The parser gives an option of `k1` its lower bound. -/
theorem exists_lower {option : RsOption} {spec : List Char} {info : Thresholds F}
    (h : parseThreshold fns option spec = .ok info) (hk1 : option.isK1 = true) :
    ∃ lower, info.lower = some lower := by
  simp only [parseThreshold, if_pos hk1] at h
  obtain ⟨parts, -, h⟩ := Py.bind_eq_ok.mp h
  obtain ⟨lower, -, h⟩ := Py.bind_eq_ok.mp h
  obtain ⟨upper, -, h⟩ := Py.bind_eq_ok.mp h
  split at h
  next => cases h
  next =>
    obtain rfl := Except.ok.inj h
    exact ⟨lower, rfl⟩

theorem boundsOf_eq {p : RsOption × List Char} {info : Thresholds F}
    (h : parseThreshold fns p.1 p.2 = .ok info) :
    bounds fns p.1 info = .ok (boundsOf fns p) := by
  have hok : ∃ b, bounds fns p.1 info = .ok b := by
    rw [bounds]
    split
    next hk1 =>
      obtain ⟨lower, hlower⟩ := exists_lower h hk1
      rw [hlower]
      exact ⟨_, rfl⟩
    next => exact ⟨_, rfl⟩
  obtain ⟨b, hb⟩ := hok
  rw [boundsOf, thresholdsOf_eq h, hb]

/-- The combined mask has the product of the entries of all options. -/
theorem combineMasks_eq {pairs : List (RsOption × List Char)} {batch : List (List (Token F))}
    {specs : Py.Dict RsOption (Thresholds F)} (hvalid : Valid fns pairs)
    (hspecs : ∀ p ∈ pairs, specs.get? p.1 = some (thresholdsOf fns p))
    (htoken : ∃ row ∈ batch, ∃ token ∈ row, token.responseMask ≠ 0) (combinedMask : List (List F)) :
    combineMasks fns batch specs combinedMask (pairs.map Prod.fst) =
      .ok ((pairs.map fun p => matrix (keepEntry fns p) batch).foldl mulMasks combinedMask) := by
  have hany : ¬ ∀ row ∈ batch, ∀ token ∈ row, token.responseMask = 0 := by
    obtain ⟨row, hrow, token, htoken, hne⟩ := htoken
    exact fun hall => hne (hall row hrow token htoken)
  induction pairs generalizing combinedMask with
  | nil => rfl
  | cons p pairs ih =>
      obtain ⟨info, hinfo⟩ := hvalid p List.mem_cons_self
      have hbounds := boundsOf_eq hinfo
      have hget := hspecs p List.mem_cons_self
      rw [thresholdsOf_eq hinfo] at hget
      rw [List.map_cons, combineMasks, hget]
      simp only [hbounds, Py.ok_bind, if_neg hany]
      exact ih (fun q hq => hvalid q (List.mem_cons_of_mem p hq))
        (fun q hq => hspecs q (List.mem_cons_of_mem p hq)) _

/-- The mask of a call with different options and valid thresholds. -/
theorem computeRolloutRejectionMask_eq {pairs : List (RsOption × List Char)}
    {batch : List (List (Token F))} {rolloutRs : List Char} {spec : ThresholdSpec}
    (hwrites : Writes pairs rolloutRs spec) (hne : pairs ≠ [])
    (hdistinct : (pairs.map Prod.fst).Nodup) (hvalid : Valid fns pairs)
    (htoken : ∃ row ∈ batch, ∃ token ∈ row, token.responseMask ≠ 0) :
    computeRolloutRejectionMask fns batch rolloutRs spec = .ok (chainedMask fns pairs batch) := by
  have hbatch : batch ≠ [] := by
    obtain ⟨row, hrow, -⟩ := htoken
    exact List.ne_nil_of_mem hrow
  have hnames : pairs.map (fun p => p.1.name) = (pairs.map Prod.fst).map RsOption.name := by
    rw [List.map_map]
    rfl
  have hoptions : Py.commaParts rolloutRs ≠ [] := by
    rw [hwrites.options]
    exact fun h => hne (List.map_eq_nil_iff.mp h)
  have hnormalize : normalizeOptions [] (Py.commaParts rolloutRs) = .ok (pairs.map Prod.fst) := by
    rw [hwrites.options, hnames]
    exact normalizeOptions_names hdistinct
  obtain ⟨specs, hparse, hspecs, -⟩ := parseAll_spec hvalid hdistinct .empty
  have hcombine := combineMasks_eq hvalid hspecs htoken (matrix (fun _ _ => (1 : F)) batch)
  rw [foldl_mulMasks_matrix] at hcombine
  have hrun : (do
      let normalizedOptions ← normalizeOptions [] (Py.commaParts rolloutRs)
      let thresholdSpecs ← parseRolloutRsThresholds fns normalizedOptions spec
      let combinedMask ← combineMasks fns batch thresholdSpecs (matrix (fun _ _ => 1) batch)
        normalizedOptions
      return mulMasks (matrix (fun _ token => token.responseMask) batch) combinedMask) =
      Except.ok (ε := Py.Error) (chainedMask fns pairs batch) := by
    rw [hnormalize, Py.ok_bind, parseRolloutRsThresholds_eq hwrites hne, hparse, Py.ok_bind,
      hcombine, Py.ok_bind, mulMasks_matrix, chainedMask]
    simp only [one_mul]
    rfl
  cases spec with
  | none =>
      rcases hwrites.specs with hspecs | ⟨shared, hspecs, -⟩
      · exact absurd (List.map_eq_nil_iff.mp hspecs.symm) hne
      · cases hspecs
  | number text =>
      simp only [computeRolloutRejectionMask, if_neg hbatch, if_neg hoptions]
      exact hrun
  | text spec =>
      simp only [computeRolloutRejectionMask, if_neg hbatch, if_neg hoptions]
      exact hrun

/-! ## Chains of options -/

/-- The product of masks, entry by entry. -/
def productMasks : List (List (List F)) → List (List F)
  | [] => []
  | mask :: masks => masks.foldl mulMasks mask

/-- A row is kept whole, or zeroed whole. -/
def WholeRow (row : List (Token F)) (mask : List F) : Prop :=
  mask = row.map Token.responseMask ∨ mask = row.map fun _ => 0

theorem keepEntry_zero_or_one (p : RsOption × List Char) (row : List (Token F)) (token : Token F) :
    keepEntry fns p row token = 0 ∨ keepEntry fns p row token = 1 := by
  rw [keepEntry]
  split
  · exact .inr rfl
  · exact .inl rfl

theorem prod_keepEntry (pairs : List (RsOption × List Char)) (row : List (Token F))
    (token : Token F) :
    (pairs.map fun p => keepEntry fns p row token).prod = 0 ∨
      (pairs.map fun p => keepEntry fns p row token).prod = 1 := by
  refine prod_zero_or_one fun x hx => ?_
  obtain ⟨p, -, rfl⟩ := List.mem_map.mp hx
  exact keepEntry_zero_or_one p row token

/-- The product of the masks of the options alone. -/
theorem productMasks_eq {pairs : List (RsOption × List Char)} {batch : List (List (Token F))}
    (hne : pairs ≠ [])
    (hmask : ∀ row ∈ batch, ∀ token ∈ row, token.responseMask = 0 ∨ token.responseMask = 1) :
    productMasks (pairs.map fun p => chainedMask fns [p] batch) = chainedMask fns pairs batch := by
  obtain ⟨p, pairs, rfl⟩ := List.exists_cons_of_ne_nil hne
  have hsingle : ∀ q, chainedMask fns [q] batch =
      matrix (fun row token => token.responseMask * keepEntry fns q row token) batch := by
    intro q
    rw [chainedMask]
    simp only [List.map_cons, List.map_nil, List.prod_singleton]
  simp only [hsingle]
  rw [List.map_cons, productMasks, foldl_mulMasks_matrix, chainedMask]
  refine matrix_congr fun row hrow token htoken => ?_
  have hprod := prod_map_mul_mask (hmask row hrow token htoken) (keepEntry fns p row token)
    (pairs.map fun q => keepEntry fns q row token)
  rw [List.map_map] at hprod
  exact hprod

/-- The order of the options does not matter. -/
theorem chainedMask_perm {pairs pairs' : List (RsOption × List Char)} (h : pairs'.Perm pairs)
    (batch : List (List (Token F))) : chainedMask fns pairs' batch = chainedMask fns pairs batch :=
  matrix_congr fun row _ token _ =>
    congrArg (token.responseMask * ·) (h.map fun p => keepEntry fns p row token).prod_eq

/-- The statistic of a sequence option is the same for all tokens of a row. -/
theorem keepEntry_of_isSequence {p : RsOption × List Char} (h : p.1.isSequence = true)
    (row : List (Token F)) (token token' : Token F) :
    keepEntry fns p row token = keepEntry fns p row token' := by
  obtain ⟨option, spec⟩ := p
  cases option with
  | token k => cases h
  | seqSum k => rfl
  | seqMean k => rfl
  | seqMaxK2 => rfl
  | seqMaxK3 => rfl

theorem wholeRow_chainedMask {pairs : List (RsOption × List Char)}
    (h : ∀ p ∈ pairs, p.1.isSequence = true) (row : List (Token F)) :
    WholeRow row (row.map fun token =>
      token.responseMask * (pairs.map fun p => keepEntry fns p row token).prod) := by
  obtain ⟨product, hproduct⟩ : ∃ product, (product = 0 ∨ product = 1) ∧ ∀ token ∈ row,
      (pairs.map fun p => keepEntry fns p row token).prod = product := by
    cases row with
    | nil => exact ⟨0, .inl rfl, fun _ h => absurd h List.not_mem_nil⟩
    | cons first rest =>
        refine ⟨_, @prod_keepEntry F _ _ fns pairs (first :: rest) first, fun token _ => ?_⟩
        exact congrArg List.prod (List.map_congr_left fun p hp =>
          keepEntry_of_isSequence (h p hp) (first :: rest) token first)
  have hrow : row.map (fun token =>
      token.responseMask * (pairs.map fun p => keepEntry fns p row token).prod) =
      row.map fun token => token.responseMask * product :=
    List.map_congr_left fun token htoken => by rw [hproduct.2 token htoken]
  rw [hrow]
  rcases hproduct.1 with rfl | rfl
  · simp only [mul_zero]
    exact .inr rfl
  · simp only [mul_one]
    exact .inl rfl

/-- No entry is larger than that of `response_mask`. -/
theorem chainedMask_le [IsStrictOrderedRing F] {batch : List (List (Token F))}
    (hmask : ∀ row ∈ batch, ∀ token ∈ row, token.responseMask = 0 ∨ token.responseMask = 1)
    (pairs : List (RsOption × List Char)) :
    List.Forall₂ (List.Forall₂ fun token m => m ≤ token.responseMask) batch
      (chainedMask fns pairs batch) := by
  rw [chainedMask, matrix, List.forall₂_map_right_iff, List.forall₂_same]
  intro row hrow
  rw [List.forall₂_map_right_iff, List.forall₂_same]
  intro token htoken
  have hnonneg : 0 ≤ token.responseMask := by
    rcases hmask row hrow token htoken with h | h
    · rw [h]
    · rw [h]
      exact zero_le_one
  rcases prod_keepEntry pairs row token with h | h
  · rw [h, mul_zero]
    exact hnonneg
  · rw [h, mul_one]

/-- The call with all options returns the product of the masks of the calls with one option
each, in whatever order the pairs of an option and a threshold are written. -/
theorem rejectionMask_conjunction [IsStrictOrderedRing F]
    {pairs : List (RsOption × List Char)} {batch : List (List (Token F))} {rolloutRs : List Char}
    {spec : ThresholdSpec} {alone : RsOption × List Char → List Char × ThresholdSpec}
    (hmask : ∀ row ∈ batch, ∀ token ∈ row, token.responseMask = 0 ∨ token.responseMask = 1)
    (htoken : ∃ row ∈ batch, ∃ token ∈ row, token.responseMask ≠ 0) (hne : pairs ≠ [])
    (hdistinct : (pairs.map Prod.fst).Nodup) (hvalid : Valid fns pairs)
    (hwrites : Writes pairs rolloutRs spec)
    (halone : ∀ p ∈ pairs, Writes [p] (alone p).1 (alone p).2) :
    ∃ mask masks, computeRolloutRejectionMask fns batch rolloutRs spec = .ok mask ∧
      pairs.mapM (fun p => computeRolloutRejectionMask fns batch (alone p).1 (alone p).2) =
        .ok masks ∧
      mask = productMasks masks ∧
      (∀ pairs' rolloutRs' spec', pairs'.Perm pairs → Writes pairs' rolloutRs' spec' →
        computeRolloutRejectionMask fns batch rolloutRs' spec' = .ok mask) ∧
      List.Forall₂ (List.Forall₂ fun token m => m ≤ token.responseMask) batch mask ∧
      ((∀ p ∈ pairs, p.1.isSequence = true) → List.Forall₂ WholeRow batch mask) := by
  refine ⟨chainedMask fns pairs batch, pairs.map fun p => chainedMask fns [p] batch,
    computeRolloutRejectionMask_eq hwrites hne hdistinct hvalid htoken, ?_,
    (productMasks_eq hne hmask).symm, fun pairs' rolloutRs' spec' hperm hwrites' => ?_,
    chainedMask_le hmask pairs, fun hsequence => ?_⟩
  · refine Py.mapM_eq_ok fun p hp => ?_
    refine computeRolloutRejectionMask_eq (halone p hp) (List.cons_ne_nil _ _)
      (List.nodup_singleton _) (fun q hq => ?_) htoken
    rw [List.mem_singleton.mp hq]
    exact hvalid p hp
  · have hne' : pairs' ≠ [] := fun hnil => hne (List.Perm.eq_nil (hnil ▸ hperm.symm))
    have hdistinct' : (pairs'.map Prod.fst).Nodup := (hperm.map Prod.fst).nodup_iff.mpr hdistinct
    rw [computeRolloutRejectionMask_eq hwrites' hne' hdistinct'
      (fun p hp => hvalid p (hperm.mem_iff.mp hp)) htoken, chainedMask_perm hperm]
  · rw [chainedMask, matrix, List.forall₂_map_right_iff, List.forall₂_same]
    exact fun row _ => wholeRow_chainedMask hsequence row

end Calls

/-- The functions at the arguments of the calls below. -/
def fewValues : Functions ℚ where
  exp x := 1 + x
  log x := x - 1
  float text := if text = ['1'] then some 1 else none
  str _ := ['1', '.', '0']

/-- Two options, each with its own threshold. -/
def twoOptions : List (RsOption × List Char) :=
  [(.token .k1, ['1', '_', '1']), (.seqMean .k3, ['1'])]

theorem rejectionMask_conjunction_twoOptions :
    ∃ mask masks,
      computeRolloutRejectionMask fewValues [[⟨0, 1⟩, ⟨1, 1⟩], [⟨0, 1⟩, ⟨0, 0⟩]]
        ([','].intercalate (twoOptions.map fun p => p.1.name))
        (.text ([','].intercalate (twoOptions.map Prod.snd))) = .ok mask ∧
      twoOptions.mapM (fun p => computeRolloutRejectionMask fewValues
        [[⟨0, 1⟩, ⟨1, 1⟩], [⟨0, 1⟩, ⟨0, 0⟩]] p.1.name (.text p.2)) = .ok masks ∧
      mask = productMasks masks := by
  have hwrites := @writes_intercalate twoOptions (by decide)
  have hvalid : Valid fewValues twoOptions := by
    intro p hp
    rcases List.mem_pair.mp hp with rfl | rfl
    · exact ⟨⟨some 1, 1⟩, by decide +kernel⟩
    · exact ⟨⟨none, 1⟩, by decide +kernel⟩
  obtain ⟨mask, masks, hrun, halone, hproduct, -⟩ :=
    @rejectionMask_conjunction ℚ _ _ fewValues _ twoOptions
      [[⟨0, 1⟩, ⟨1, 1⟩], [⟨0, 1⟩, ⟨0, 0⟩]] _ _ (fun p => (p.1.name, .text p.2))
      (by decide +kernel) (by decide +kernel) (List.cons_ne_nil _ _) (by decide) hvalid hwrites
      hwrites.alone
  exact ⟨mask, masks, hrun, halone, hproduct⟩

end Verl.RolloutRejection
