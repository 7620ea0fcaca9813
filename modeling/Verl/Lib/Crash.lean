import Mathlib.Data.List.Basic

/-!
# Procedures that can be cut off

A procedure is given by the worlds it goes through, one after each effect, and by the
result it ends with.  A crash cuts it off at one of these worlds, so what is to survive
a crash has to hold at all of them.

`Triple P p Q C` is the Hoare triple with a crash condition: from a world with `P` the
procedure ends in a world with `Q`, and `C` holds after each of its effects.
-/

namespace Crash

universe u

variable {W α β : Type u}

/-- How a procedure ends, and the worlds it has gone through. -/
structure Outcome (W α : Type u) where
  value : α
  world : W
  passed : List W

/-- A procedure over worlds of type `W`. -/
def Proc (W α : Type u) := W → Outcome W α

namespace Proc

/-- One effect.  It takes place at once or not at all. -/
def effect (f : W → W) : Proc W PUnit.{u + 1} := fun w => ⟨⟨⟩, f w, [f w]⟩

/-- The present world. -/
def get : Proc W W := fun w => ⟨w, w, []⟩

instance : Monad (Proc W) where
  pure a w := ⟨a, w, []⟩
  bind p f w :=
    let first := p w
    let second := f first.value first.world
    ⟨second.value, second.world, first.passed ++ second.passed⟩

/-- The worlds in which a crash can leave the procedure. -/
def moments (p : Proc W α) (w : W) : List W := w :: (p w).passed

end Proc

/-- From `P` the procedure ends in `Q`, with `C` after each effect. -/
def Triple (P : W → Prop) (p : Proc W α) (Q : α → W → Prop) (C : W → Prop) : Prop :=
  ∀ w, P w → Q (p w).value (p w).world ∧ ∀ w' ∈ (p w).passed, C w'

variable {P P' : W → Prop} {C : W → Prop} {Q Q' : α → W → Prop} {p : Proc W α}

theorem Triple.moments (h : Triple P p Q C) {w : W} (hw : P w) (hc : C w) :
    ∀ w' ∈ p.moments w, C w' := by
  intro w' hw'
  rcases List.mem_cons.mp hw' with rfl | hw'
  · exact hc
  · exact (h w hw).2 w' hw'

theorem Triple.pre (h : Triple P p Q C) (himp : ∀ w, P' w → P w) : Triple P' p Q C :=
  fun w hw => h w (himp w hw)

theorem triple_pure {a : α} (h : ∀ w, P w → Q a w) : Triple P (pure a : Proc W α) Q C :=
  fun w hw => ⟨h w hw, fun _ hw' => absurd hw' List.not_mem_nil⟩

theorem triple_effect {f : W → W} {Q : PUnit → W → Prop} (hq : ∀ w, P w → Q ⟨⟩ (f w))
    (hc : ∀ w, P w → C (f w)) : Triple P (Proc.effect f) Q C := by
  intro w hw
  refine ⟨hq w hw, fun w' hw' => ?_⟩
  obtain rfl := List.mem_singleton.mp hw'
  exact hc w hw

theorem triple_bind {f : α → Proc W β} {R : β → W → Prop} (hp : Triple P p Q C)
    (hf : ∀ a, Triple (Q a) (f a) R C) : Triple P (p >>= f) R C := by
  intro w hw
  obtain ⟨hq, hpassed⟩ := hp w hw
  obtain ⟨hr, hpassed'⟩ := hf _ _ hq
  refine ⟨hr, fun w' hw' => ?_⟩
  rcases List.mem_append.mp hw' with hw' | hw'
  · exact hpassed w' hw'
  · exact hpassed' w' hw'

/-- Reading the world. -/
theorem triple_get {f : W → Proc W β} {R : β → W → Prop}
    (h : ∀ w, P w → Triple (fun w' => w' = w) (f w) R C) :
    Triple P ((Proc.get : Proc W W) >>= f) R C := by
  intro w hw
  exact h w hw w rfl

end Crash
