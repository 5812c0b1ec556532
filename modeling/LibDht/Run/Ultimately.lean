import Mathlib.Order.Filter.AtTopBot.Basic
import Mathlib.Order.Filter.Finite
import Mathlib.Order.OrderIsoNat

/-!
# What holds in the end

Statements about the states `0`, `1`, `2`, … of an infinite run. A number that no step brings
up is constant in the end, and it is `0` in the end when it is brought down again and again
as long as it is not. A property that no step takes away and that some step brings about
holds in the end.
-/

open Filter

namespace Ultimately

/-- A number that in the end no step brings up is in the end constant. -/
theorem const_of_step_le {f : ℕ → ℕ} (h : ∀ᶠ n in atTop, f (n + 1) ≤ f n) :
  ∃ v, ∀ᶠ n in atTop, f n = v
  := by
  obtain ⟨T, hT⟩ := eventually_atTop.mp h
  have hanti : Antitone fun n => f (T + n) :=
    antitone_nat_of_succ_le fun n => hT (T + n) (Nat.le_add_right T n)
  obtain ⟨m, hm⟩ := WellFoundedGT.monotone_chain_condition (α := ℕᵒᵈ) ⟨_, hanti.dual_right⟩
  use f (T + m)
  rw [eventually_atTop]
  use T + m
  intro n hn
  obtain ⟨d, rfl⟩ := Nat.exists_eq_add_of_le hn
  have hd := hm (m + d) (Nat.le_add_right m d)
  rw [Nat.add_assoc]
  exact (congrArg OrderDual.ofDual hd).symm

/-- Finitely many numbers that no step brings up are in the end all constant. -/
theorem const_of_forall_step_le {ι : Type*} [Finite ι] {f : ι → ℕ → ℕ}
    (h : ∀ i, ∀ᶠ n in atTop, f i (n + 1) ≤ f i n) :
  ∃ v : ι → ℕ, ∀ᶠ n in atTop, ∀ i, f i n = v i
  := by
  choose v hv using fun i => const_of_step_le (h i)
  exact ⟨v, eventually_all.mpr hv⟩

/-- A number that no step brings up, and that is brought down again and again as long as it
is not `0`, is in the end `0`. -/
theorem eq_zero_of_step_le {f : ℕ → ℕ} (hle : ∀ᶠ n in atTop, f (n + 1) ≤ f n)
    (hlt : ∀ᶠ n in atTop, 0 < f n → ∃ m ≥ n, f (m + 1) < f m) :
  ∀ᶠ n in atTop, f n = 0
  := by
  obtain ⟨v, hv⟩ := const_of_step_le hle
  obtain ⟨T, hT⟩ := eventually_atTop.mp (hv.and hlt)
  have hzero : v = 0 := by
    by_contra hne
    obtain ⟨hT', hdown⟩ := hT T le_rfl
    have hpos : 0 < f T := by omega
    obtain ⟨m, hm, hlt⟩ := hdown hpos
    have h₁ := (hT m hm).1
    have h₂ := (hT (m + 1) (Nat.le_succ_of_le hm)).1
    omega
  rw [hzero] at hv
  exact hv

/-- A property that in the end no step takes away, and that holds at some later state of every
one, holds in the end. -/
theorem of_step {P : ℕ → Prop} (hstep : ∀ᶠ n in atTop, P n → P (n + 1))
    (hsome : ∃ᶠ n in atTop, P n) :
  ∀ᶠ n in atTop, P n
  := by
  obtain ⟨T, hT⟩ := eventually_atTop.mp hstep
  obtain ⟨n, hn, hP⟩ := frequently_atTop.mp hsome T
  rw [eventually_atTop]
  use n
  intro m hm
  induction m, hm using Nat.le_induction with
  | base => exact hP
  | succ m hm ih => exact hT m (le_trans hn hm) ih

/-- What in the end no step takes away from the state of any `i`, and what every `i` that is there
has at some later time of every one, holds of all of them in the end. -/
theorem forall_of_step {ι α : Type*} [Finite ι] (here : ℕ → ι → α → Prop) {P : ι → α → Prop}
    {J : Set ι} (huniq : ∀ n i a b, here n i a → here n i b → a = b)
    (hmem : ∀ᶠ n in atTop, ∀ i a, here n i a → i ∈ J)
    (hstep : ∀ᶠ n in atTop, ∀ i a, here n i a → P i a → ∃ b, here (n + 1) i b ∧ P i b)
    (hsome : ∀ i ∈ J, ∀ N, ∃ n ≥ N, ∃ a, here n i a ∧ P i a) :
  ∀ᶠ n in atTop, ∀ i a, here n i a → P i a
  := by
  have hone : ∀ i, ∀ᶠ n in atTop, i ∈ J → ∃ a, here n i a ∧ P i a := by
    intro i
    by_cases hi : i ∈ J
    · apply (of_step (P := fun n => ∃ a, here n i a ∧ P i a) _ _).mono
      · exact fun n hn _ => hn
      · apply hstep.mono
        rintro n hn ⟨a, ha, hP⟩
        exact hn i a ha hP
      · rw [frequently_atTop]
        exact hsome i hi
    · exact Eventually.of_forall fun n hi' => absurd hi' hi
  apply ((eventually_all.mpr hone).and hmem).mono
  rintro n ⟨hn, hJ⟩ i a ha
  obtain ⟨b, hb, hP⟩ := hn i (hJ i a ha)
  rw [huniq n i a b ha hb]
  exact hP

end Ultimately
