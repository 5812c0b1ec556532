import Mathlib.Logic.Relation

/-!
# One system runs as another does

A system runs as another one does, along a relation between their states, when from related
states what the first does in one step the second does in none, in one or in several, and the
states are related again. Then every run of the first has a run of the second beside it, and
what is true of all states that the second reaches is true of those related to them.
-/

open Relation

variable {σ τ : Type*}

/-- Steps from `a` are matched by steps from `b` when `R` relates `a` and `b`, and `I`, that
the steps of the second system keep, holds of `b`. -/
structure Simulates (step : σ → σ → Prop) (step' : τ → τ → Prop) (I : τ → Prop)
    (R : σ → τ → Prop) : Prop where
  keeps : ∀ {b b'}, I b → step' b b' → I b'
  steps : ∀ {a a' b}, I b → R a b → step a a' → ∃ b', ReflTransGen step' b b' ∧ R a' b'

namespace Simulates

variable {step : σ → σ → Prop} {step' : τ → τ → Prop} {I : τ → Prop} {R : σ → τ → Prop}
  {a a' : σ} {b b' : τ}

/-- What the steps keep, runs keep. -/
theorem keeps_run (h : Simulates step step' I R) (hb : I b) (hrun : ReflTransGen step' b b') :
  I b'
  := by
  induction hrun with
  | refl => apply hb
  | tail _ hstep ih => apply h.keeps ih hstep

/-- A run of the first system has one of the second beside it. -/
theorem run (h : Simulates step step' I R) (hb : I b) (hR : R a b)
    (hrun : ReflTransGen step a a') :
  ∃ b', ReflTransGen step' b b' ∧ I b' ∧ R a' b'
  := by
  induction hrun with
  | refl => exact ⟨b, ReflTransGen.refl, hb, hR⟩
  | tail _ hstep ih =>
    obtain ⟨b₁, hrun₁, hb₁, hR₁⟩ := ih
    obtain ⟨b₂, hrun₂, hR₂⟩ := h.steps hb₁ hR₁ hstep
    exact ⟨b₂, hrun₁.trans hrun₂, h.keeps_run hb₁ hrun₂, hR₂⟩

end Simulates
