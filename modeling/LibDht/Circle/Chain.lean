import Mathlib.Data.List.Chain

/-!
# Chains with a measure that goes down

A chain of steps each of which brings down a measure never comes to the same point twice,
and it is no longer than the measure of its first point.
-/

section

variable {α : Type*} {R : α → α → Prop} {l : List α}

/-- The measures of the points of a chain go down all along it. -/
theorem List.IsChain.pairwise_measure (h : l.IsChain R) {f : α → ℕ}
    (hf : ∀ a ∈ l, ∀ b, R a b → f b < f a) :
  l.Pairwise fun a b => f b < f a
  := by
  have htrans : Trans (fun a b => f b < f a) (fun a b => f b < f a) (fun a b => f b < f a) := by
    constructor
    intro a b c hab hbc
    exact hbc.trans hab
  apply List.IsChain.pairwise
  exact h.imp_of_mem_imp fun a b ha _ => hf a ha b

/-- Points of one chain whose measures go down differ in whatever the measure depends on. -/
theorem List.IsChain.nodup_map (h : l.IsChain R) {β : Type*} (g : α → β) {f : β → ℕ}
    (hf : ∀ a ∈ l, ∀ b, R a b → f (g b) < f (g a)) :
  (l.map g).Nodup
  := by
  have hpairwise := h.pairwise_measure (f := f ∘ g) hf
  apply List.pairwise_map.mpr
  apply hpairwise.imp
  intro a b hlt heq
  rw [Function.comp_apply, Function.comp_apply, heq] at hlt
  exact lt_irrefl _ hlt

/-- A chain makes no more steps than the measure of its first point. -/
theorem List.IsChain.length_le_measure {a : α} (h : (a :: l).IsChain R) {f : α → ℕ}
    (hf : ∀ b ∈ a :: l, ∀ c, R b c → f c < f b) :
  l.length ≤ f a
  := by
  induction l generalizing a with
  | nil => exact Nat.zero_le _
  | cons b l ih =>
    obtain ⟨hab, htail⟩ := List.isChain_cons_cons.mp h
    have hlt := hf a List.mem_cons_self b hab
    have hle := ih htail fun c hc => hf c (List.mem_cons_of_mem a hc)
    rw [List.length_cons]
    omega

end
