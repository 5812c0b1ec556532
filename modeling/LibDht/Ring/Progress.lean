import LibDht.Circle.Chain
import LibDht.Ring.Stable

/-!
# Every forward makes progress

Nothing is asked here of what the tables of the nodes contain, but that no finger in use
carries the identifier of its own node. A forwarded lookup comes closer to its identifier
with every hop, and so it never comes to a node twice, even when the tables change
arbitrarily between the hops. That some successor entry is in use does not matter for this:
what a search that finds none reads is treated as an entry like any other.
-/

open Circle

/-- No finger in use carries the node's own identifier. -/
def NodeSelf.FingersElsewhere (s : NodeSelf) : Prop :=
  ∀ k, NullFinger (s.fingerTable k) ∨ (s.fingerTable k).id ≠ s.self.id

namespace Overlay

/-- A node that asks another one in a lookup of `id` is not the one looked for, has no
answer, and asks the closest preceding node. -/
theorem asked_iff {s : NodeSelf} {id : HashType} {cb : FoundCb} (hcb : cb.Passive)
    {n : NodeInfo} :
  n ∈ (hop s id cb).1 ↔ s.self.id ≠ id ∧ ¬ s.Answers id ∧ n = nodeClosestPrecedingNode s id
  := by
  by_cases hid : s.self.id = id
  · subst hid
    obtain ⟨rest, hrest⟩ := hop_self s hcb
    simp [hrest]
  · by_cases hans : s.Answers id
    · simp [hop_answer hcb hid hans, hans]
    · simp [hop_forward cb hid hans, hid, hans]

/-- A node in the state `s` forwards a lookup of `id` to the node whose state is `t` when the
lookup gets there. -/
def Forwards (id : HashType) (s t : NodeSelf) : Prop :=
  ∃ cb : FoundCb, cb.Passive ∧ ∃ n ∈ (hop s id cb).1, n.id = t.self.id

/-- A node that is asked in a lookup is closer to the identifier than the asking node. -/
theorem asked_closer {s : NodeSelf} (hs : s.FingersElsewhere) {id : HashType} {cb : FoundCb}
    (hcb : cb.Passive) {n : NodeInfo} (hn : n ∈ (hop s id cb).1) :
  clockwise n.id id < clockwise s.self.id id
  := by
  obtain ⟨-, hans, rfl⟩ := (asked_iff hcb).mp hn
  apply nodeClosestPrecedingNode_closer _ hans
  intro f hf
  obtain ⟨⟨k, rfl⟩, hnull, -⟩ := closestFinger_spec hf
  apply (hs k).resolve_left hnull

theorem Forwards.closer {id : HashType} {s t : NodeSelf} (h : Forwards id s t)
    (hs : s.FingersElsewhere) :
  clockwise t.self.id id < clockwise s.self.id id
  := by
  obtain ⟨cb, hcb, n, hn, heq⟩ := h
  rw [← heq]
  apply asked_closer hs hcb hn

/-- A node that forwards a lookup of an identifier not its own forwards it to one that is
closer to the identifier. A chain of forwards, with whatever state each node is in when the
lookup reaches it, comes to no identifier twice, and makes no more forwards than there are
identifiers from its first node to the one looked for. -/
theorem forward_progress :
  (∀ (s : NodeSelf) (id : HashType) (cb : FoundCb), cb.Passive → s.FingersElsewhere →
      id ≠ s.self.id → ∀ n ∈ (hop s id cb).1, (id - n.id).toNat < (id - s.self.id).toNat)
    ∧ ∀ (id : HashType) (s : NodeSelf) (rest : List NodeSelf),
      (∀ t ∈ s :: rest, t.FingersElsewhere) → (s :: rest).IsChain (Forwards id) →
        ((s :: rest).map (·.self.id)).Nodup ∧ rest.length ≤ (id - s.self.id).toNat
  := by
  constructor
  · intro s id cb hcb hs _ n hn
    apply asked_closer hs hcb hn
  · intro id s rest hfingers hchain
    constructor
    · apply hchain.nodup_map (·.self.id) (f := fun i => clockwise i id)
      intro t ht u htu
      apply htu.closer (hfingers t ht)
    · apply hchain.length_le_measure (f := fun t => clockwise t.self.id id)
      intro t ht u htu
      apply htu.closer (hfingers t ht)

theorem knowing_fingersElsewhere (i j : HashType) :
  (knowing i j).FingersElsewhere
  := fun _ => Or.inl (Or.inl rfl)

theorem knowing_asks {i j id : HashType} {cb : FoundCb} (hcb : cb.Passive) (hid : i ≠ id)
    (hij : i ≠ j) (h : ¬ nodeIdInRange id i j = true) :
  { id := j, IP := 1, port := 1 } ∈ (hop (knowing i j) id cb).1
  := by
  have hsucc : (knowing i j).firstSucc = { id := j, IP := 1, port := 1 } :=
    firstSucc_of_alive_zero (s := knowing i j) (by decide : (1 : UInt32) ≠ 0)
  apply (asked_iff hcb).mpr
  refine ⟨hid, ?_, ?_⟩
  · rw [NodeSelf.Answers, hsucc]
    exact not_or.mpr ⟨h, hij⟩
  · rcases nodeClosestPrecedingNode_cases (knowing i j) id with hf | hf
    · obtain ⟨⟨k, hk⟩, hnull, -⟩ := closestFinger_spec hf
      rw [← hk] at hnull
      exact absurd (Or.inl rfl) hnull
    · rw [hf, hsucc]

/-- Across `0`, a lookup of `100` goes from the node `4000000000` to the node `10`. -/
theorem forward_progress_across_zero :
  ((100 : HashType) - 10).toNat < ((100 : HashType) - 4000000000).toNat
    ∧ ([knowing 4000000000 10, knowing 10 20].map (·.self.id)).Nodup
  := by
  have hasked : { id := 10, IP := 1, port := 1 } ∈ (hop (knowing 4000000000 10) 100 (.app 0)).1 :=
    knowing_asks trivial (by decide) (by decide) (by decide)
  have hne : (100 : HashType) ≠ (knowing 4000000000 10).self.id := by decide
  constructor
  · apply forward_progress.1 (knowing 4000000000 10) 100 (.app 0) trivial
      (knowing_fingersElsewhere _ _) hne { id := 10, IP := 1, port := 1 } hasked
  · apply (forward_progress.2 100 (knowing 4000000000 10) [knowing 10 20] _ _).1
    · intro t ht
      simp only [List.mem_cons, List.not_mem_nil, or_false] at ht
      rcases ht with rfl | rfl
      · apply knowing_fingersElsewhere
      · apply knowing_fingersElsewhere
    · apply List.isChain_cons_cons.mpr
      use ⟨.app 0, trivial, _, hasked, rfl⟩
      apply List.isChain_singleton

end Overlay
