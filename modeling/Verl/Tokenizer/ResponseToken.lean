import Mathlib.Algebra.Ring.Int.Defs
import Mathlib.Data.List.TakeWhile

/-!
# Response tokens and their origin

A response is made of tokens that the model generated and of tokens that were
added between its turns.  From the origin of a token follow its entry in the
response mask and its log-prob.
-/

namespace Verl

/-- A token of a response. -/
inductive ResponseToken (V : Type) where
  /-- A model-generated token, with the log-prob it was generated with. -/
  | generated (token : Int) (logprob : V)
  /-- A boundary, tool, user or system token. -/
  | other (token : Int)
deriving DecidableEq, Repr

namespace ResponseToken

variable {V : Type}

def token : ResponseToken V → Int
  | generated token _ => token
  | other token => token

def mask : ResponseToken V → Nat
  | generated _ _ => 1
  | other _ => 0

def logprob [Zero V] : ResponseToken V → V
  | generated _ logprob => logprob
  | other _ => 0

def isOther : ResponseToken V → Bool
  | generated _ _ => false
  | other _ => true

theorem mask_eq_zero {t : ResponseToken V} : t.mask = 0 ↔ t.isOther = true := by
  cases t with
  | generated token logprob => exact iff_of_false Nat.one_ne_zero Bool.false_ne_true
  | other token => exact iff_of_true rfl rfl

theorem logprob_of_isOther [Zero V] {t : ResponseToken V} (h : t.isOther = true) :
    t.logprob = 0 := by
  cases t with
  | generated token logprob => cases h
  | other token => rfl

/-- One output of the model. -/
def ofOutput (ids : List Int) (logprobs : List V) : List (ResponseToken V) :=
  List.zipWith .generated ids logprobs

/-- Tokens that no model generated. -/
def ofOther (ids : List Int) : List (ResponseToken V) := ids.map .other

section Output

variable {ids : List Int} {logprobs : List V}

theorem length_ofOutput (h : logprobs.length = ids.length) :
    (ofOutput ids logprobs).length = ids.length := by
  rw [ofOutput, List.length_zipWith, h, Nat.min_self]

theorem map_token_ofOutput (h : logprobs.length = ids.length) :
    (ofOutput ids logprobs).map token = ids := by
  rw [ofOutput, List.map_zipWith]
  show List.zipWith (fun id _ => id) ids logprobs = ids
  rw [← List.map_uncurry_zip_eq_zipWith]
  exact List.map_fst_zip (Nat.le_of_eq h.symm)

theorem map_logprob_ofOutput [Zero V] (h : logprobs.length = ids.length) :
    (ofOutput ids logprobs).map logprob = logprobs := by
  rw [ofOutput, List.map_zipWith]
  show List.zipWith (fun _ logprob => logprob) ids logprobs = logprobs
  rw [← List.map_uncurry_zip_eq_zipWith]
  exact List.map_snd_zip (Nat.le_of_eq h)

theorem isOther_of_mem_ofOutput {t : ResponseToken V} (h : t ∈ ofOutput ids logprobs) :
    t.isOther = false := by
  rw [ofOutput, ← List.map_uncurry_zip_eq_zipWith] at h
  obtain ⟨pair, -, rfl⟩ := List.mem_map.mp h
  rfl

theorem map_mask_ofOutput (h : logprobs.length = ids.length) :
    (ofOutput ids logprobs).map mask = List.replicate ids.length 1 := by
  rw [List.eq_replicate_iff]
  refine ⟨by rw [List.length_map, length_ofOutput h], fun m hm => ?_⟩
  obtain ⟨t, ht, rfl⟩ := List.mem_map.mp hm
  cases t with
  | generated token logprob => rfl
  | other token => cases isOther_of_mem_ofOutput ht

end Output

theorem map_token_ofOther (ids : List Int) :
    (ofOther ids : List (ResponseToken V)).map token = ids := by
  rw [ofOther, List.map_map]
  exact List.map_id ids

theorem map_mask_ofOther (ids : List Int) :
    (ofOther ids : List (ResponseToken V)).map mask = List.replicate ids.length 0 := by
  rw [ofOther, List.map_map]
  exact List.map_const' ..

theorem map_logprob_ofOther [Zero V] (ids : List Int) :
    (ofOther ids : List (ResponseToken V)).map logprob = List.replicate ids.length 0 := by
  rw [ofOther, List.map_map]
  exact List.map_const' ..

theorem isOther_of_mem_ofOther {ids : List Int} {t : ResponseToken V} (h : t ∈ ofOther ids) :
    t.isOther = true := by
  obtain ⟨id, -, rfl⟩ := List.mem_map.mp h
  rfl

/-- Without generated tokens nothing is left after the leading others. -/
theorem dropWhile_ofOther (ids : List Int) :
    (ofOther ids : List (ResponseToken V)).dropWhile isOther = [] := by
  rw [List.dropWhile_eq_nil_iff]
  exact fun t => isOther_of_mem_ofOther

/-- An output of the model starts with a generated token. -/
theorem dropWhile_ofOutput (ids : List Int) (logprobs : List V) :
    (ofOutput ids logprobs).dropWhile isOther = ofOutput ids logprobs := by
  cases houtput : ofOutput ids logprobs with
  | nil => rfl
  | cons t ts =>
      have ht : t.isOther = false :=
        isOther_of_mem_ofOutput (houtput ▸ List.mem_cons_self : t ∈ ofOutput ids logprobs)
      rw [List.dropWhile_cons_of_neg (by rw [ht]; exact Bool.false_ne_true)]

end ResponseToken

end Verl
