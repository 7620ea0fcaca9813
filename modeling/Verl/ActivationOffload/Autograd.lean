import Verl.ActivationOffload.Handler
import Verl.Lib.Run
import Mathlib.Order.Monotone.Basic

/-!
# Forward and backward passes over the handler

A forward pass saves tensors and commits after each layer.  The backward pass goes
through the layers in the other direction: first it commits the group of a layer, and
from then on it gets the tensors of that group, in any order.  The next forward pass
begins when all tensors have been taken.

`L` is the number of layers, and the tensors of the first `G` of them are offloaded.
-/

namespace Verl

variable {κ α : Type}

structure OffloadRun (κ α : Type) where
  handler : OffloadHandler κ α
  forward : Bool
  /-- What this forward pass has saved. -/
  graph : List (TensorTag × DeviceTensor κ α)
  /-- What of it the backward pass has not taken. -/
  live : List (TensorTag × DeviceTensor κ α)
  /-- The saved tensors with those that the backward pass got for them. -/
  got : List (DeviceTensor κ α × DeviceTensor κ α)
  failed : Option Py.Error

inductive OffloadAct (κ α : Type) where
  | push (tensor : DeviceTensor κ α) (needOffload : Bool)
  | commitForward
  | commitBackward
  | pop (tag : TensorTag)
  /-- The next forward pass begins. -/
  | restart

namespace OffloadRun

def init : OffloadRun κ α := ⟨.init, true, [], [], [], none⟩

/-- The outcome of a call of the handler. -/
def result {β : Type} (s : OffloadRun κ α) (r : Except Py.Error β)
    (after : β → OffloadRun κ α) : OffloadRun κ α :=
  match r with
  | .ok value => after value
  | .error error => { s with failed := some error }

/-- The tensor of a tag that was pushed. -/
def saved (s : OffloadRun κ α) (tag : TensorTag) : Option (DeviceTensor κ α) :=
  (s.live.find? fun p => p.1 = tag).map Prod.snd

/-- One step of a pass.  `address` is where a copy is put on the device. -/
def next [DecidableEq κ] (address : κ → κ) (L G : Nat) (s : OffloadRun κ α) :
    OffloadAct κ α → Option (OffloadRun κ α)
  | .push tensor needOffload =>
      if s.failed = none ∧ s.forward ∧ s.handler.currentGroup < L then
        some (s.result (s.handler.tensorPush G tensor needOffload) fun
          | (.tag tag, h) =>
              { s with
                handler := h
                graph := s.graph ++ [(tag, tensor)]
                live := s.live ++ [(tag, tensor)] }
          | (.direct tensor', h) => { s with handler := h, got := s.got ++ [(tensor, tensor')] })
      else none
  | .commitForward =>
      if s.failed = none ∧ s.forward ∧ s.handler.currentGroup < L then
        some (s.result (s.handler.onGroupCommitForward G (layerWindowMap L G)) fun h =>
          { s with handler := h })
      else none
  | .commitBackward =>
      if s.failed = none ∧ (if s.forward then s.handler.currentGroup = L
          else 0 < s.handler.currentGroup) then
        some (s.result (s.handler.onGroupCommitBackward address G (layerWindowMap L G)) fun h =>
          { s with handler := h, forward := false })
      else none
  | .pop tag =>
      match s.saved tag with
      | none => none
      | some tensor =>
          if s.failed = none ∧ ¬ s.forward ∧ s.handler.currentGroup ≤ tag.1 then
            some (s.result (s.handler.tensorPop (.tag tag)) fun (tensor', h) =>
              { s with
                handler := h
                live := s.live.filter fun p => p.1 ≠ tag
                got := s.got ++ [(tensor, tensor')] })
          else none
  | .restart =>
      if s.failed = none ∧ ¬ s.forward ∧ s.handler.currentGroup = 0 ∧ s.live = [] then
        some { s with forward := true, graph := [] }
      else none

end OffloadRun

/-! ## The windows -/

/-- After which layer a group is freed. -/
def window (L G i : Nat) : Nat := L / G * (i + 1) - 1 + min (i + 1) (L % G)

section

variable {L G i : Nat}

theorem foldl_addWindow (hG : 0 < G) (hle : G ≤ L) (n : Nat) :
    (List.range n).foldl (addWindow L G) ([], 0) =
      ((List.range n).map fun i => (window L G i : Int), ((min n (L % G) : Nat) : Int)) := by
  have hq : 0 < L / G := Nat.div_pos hle hG
  induction n with
  | zero => rfl
  | succ n ih =>
      have hpos : 0 < L / G * (n + 1) := Nat.mul_pos hq (Nat.succ_pos n)
      have hcast : ((L / G : Nat) : Int) * ((n : Int) + 1) - 1 =
          ((L / G * (n + 1) - 1 : Nat) : Int) := by
        rw [Int.natCast_sub hpos]
        push_cast
        rfl
      have hwindow : (window L G n : Int) =
          ((L / G : Nat) : Int) * ((n : Int) + 1) - 1 + ((min (n + 1) (L % G) : Nat) : Int) := by
        rw [hcast, ← Int.natCast_add]
        rfl
      rw [List.range_succ, List.foldl_append, ih, List.map_append, List.foldl_cons, List.foldl_nil,
        List.map_singleton, hwindow]
      by_cases hlt : n < L % G
      · have hmin : min (n + 1) (L % G) = n + 1 := Nat.min_eq_left hlt
        simp only [addWindow, if_pos hlt, hmin]
        push_cast
        rfl
      · have hmin : min (n + 1) (L % G) = L % G := Nat.min_eq_right (by omega)
        have hmin' : min n (L % G) = L % G := Nat.min_eq_right (by omega)
        simp only [addWindow, if_neg hlt, hmin, hmin']

/-- The loop spreads the groups over the layers. -/
theorem layerWindowMap_eq (hG : 0 < G) (hle : G ≤ L) :
    layerWindowMap L G = (List.range G).map fun i => (window L G i : Int) := by
  rw [layerWindowMap, foldl_addWindow hG hle]

theorem layerWindow_eq (hG : 0 < G) (hle : G ≤ L) (hi : i < G) :
    layerWindow (layerWindowMap L G) i = .ok (window L G i : Int) := by
  rw [layerWindow, if_neg (by omega), layerWindowMap_eq hG hle]
  simp [hi]

/-- A group is freed at a later layer. -/
theorem lt_window (hG : 0 < G) (hlt : G < L) (i : Nat) : i < window L G i := by
  have hq : 0 < L / G := Nat.div_pos (Nat.le_of_lt hlt) hG
  rw [window]
  obtain hone | htwo : L / G = 1 ∨ 2 ≤ L / G := by omega
  · have hmod := Nat.div_add_mod L G
    rw [hone] at hmod ⊢
    omega
  · have hmul : 2 * (i + 1) ≤ L / G * (i + 1) := Nat.mul_le_mul_right _ htwo
    omega

theorem window_lt_succ (hG : 0 < G) (hle : G ≤ L) (i : Nat) :
    window L G i < window L G (i + 1) := by
  have hq : 0 < L / G := Nat.div_pos hle hG
  rw [window, window, Nat.mul_add _ (i + 1) 1, Nat.mul_one]
  have hpos : 0 < L / G * (i + 1) := Nat.mul_pos hq (Nat.succ_pos i)
  omega

theorem window_lt (hG : 0 < G) (hle : G ≤ L) {i j : Nat} (h : i < j) :
    window L G i < window L G j :=
  strictMono_nat_of_lt_succ (window_lt_succ hG hle) h

/-- The last group is freed at the last layer. -/
theorem window_last (hG : 0 < G) (hle : G ≤ L) : window L G (G - 1) = L - 1 := by
  have hq : 0 < L / G := Nat.div_pos hle hG
  have hmod := Nat.div_add_mod L G
  have hlt := Nat.mod_lt L hG
  have hpos : 0 < L / G * G := Nat.mul_pos hq hG
  rw [window, Nat.sub_add_cancel hG, Nat.min_eq_right (Nat.le_of_lt hlt)]
  rw [Nat.mul_comm] at hmod
  omega

theorem window_lt_layers (hG : 0 < G) (hle : G ≤ L) (hi : i < G) : window L G i < L := by
  obtain hlt | heq : i < G - 1 ∨ i = G - 1 := by omega
  · have := window_lt hG hle hlt
    rw [window_last hG hle] at this
    omega
  · rw [heq, window_last hG hle]
    omega

end

end Verl
