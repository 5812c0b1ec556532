import LibDht.Circle.Distance
import Mathlib.Data.Nat.Log
import Mathlib.Tactic.Ring

/-!
# Going round a circle in halving steps

One goes from point to point of a set towards a point `x` of the circle, and never past the
last point of the set on the way. What is left to go is `remaining`: the distance to `x`, or
one more than the distance to that last point, whichever is less. When every step covers the
highest power of two, up to `2 ^ m`, in the distance to the last point, then `hopRank` goes
down with every step: below `2 ^ (m + 1)` it is a logarithm, and beyond it two steps more are
enough.
-/

namespace Circle

variable {α : Type*} {n : ℕ} [OnCircle α n]

/-- When `x` is met from `p` no later than from `a`, then `p` lies on the way from `a` to
`x`. -/
theorem clockwise_add_of_le_right {a p x : α} (h : clockwise p x ≤ clockwise a x) :
  clockwise a p + clockwise p x = clockwise a x
  := by
  have ha := (OnCircle.position a : Fin n).isLt
  have hp := (OnCircle.position p : Fin n).isLt
  have hx := (OnCircle.position x : Fin n).isLt
  rcases clockwise_cases a x with h₁ | h₁ <;> rcases clockwise_cases a p with h₂ | h₂ <;>
    rcases clockwise_cases p x with h₃ | h₃ <;> omega

/-! ### The last point of a set -/

/-- The point of `S` that is met last on the way to `x`, `x` itself included. -/
structure Latest (S : Set α) (x p : α) : Prop where
  mem : p ∈ S
  le : ∀ y ∈ S, clockwise p x ≤ clockwise y x

theorem exists_latest {S : Set α} (hS : S.Nonempty) (x : α) :
  ∃ p, Latest S x p
  := by
  obtain ⟨p, hp, hle⟩ := WellFounded.has_min (measure (clockwise · x)).wf S hS
  use p
  constructor
  · apply hp
  · intro y hy
    apply not_lt.mp (hle y hy)

/-- The last point lies on the way from every point of the set. -/
theorem Latest.clockwise_add {S : Set α} {x p i : α} (h : Latest S x p) (hi : i ∈ S) :
  clockwise i p + clockwise p x = clockwise i x
  := clockwise_add_of_le_right (h.le i hi)

/-- A point of the set that is not past `x` is not past the last point. -/
theorem Latest.le_of_le {S : Set α} {x p i y : α} (h : Latest S x p) (hi : i ∈ S) (hy : y ∈ S)
    (hle : clockwise i y ≤ clockwise i x) :
  clockwise i y ≤ clockwise i p
  := by
  have hyx := clockwise_add_of_le hle
  have hip := h.clockwise_add hi
  have hpx := h.le y hy
  omega

/-- Every point of a set with others comes next after some point. -/
theorem exists_next_eq {S : Set α} {x : α} (hx : x ∈ S) (hne : ∃ y ∈ S, y ≠ x) :
  ∃ p ∈ S, Next S p x
  := by
  obtain ⟨y, hy, hyx⟩ := hne
  obtain ⟨p, hp⟩ := exists_latest (S := S \ {x}) ⟨y, hy, hyx⟩ x
  obtain ⟨hmem, hpx⟩ := hp.mem
  refine ⟨p, hmem, hx, ?_⟩
  intro z hz hzp
  refine ⟨Ne.symm hpx, ?_⟩
  by_cases hzx : z = x
  · rw [hzx]
  · by_contra hlt
    have hle := hp.le z ⟨hz, hzx⟩
    have hadd := clockwise_add_of_le (not_le.mp hlt).le
    have hpos := clockwise_pos (Ne.symm hzp)
    omega

/-- What is left to go from `i` to `x`, when `p` is the last point on the way. -/
def remaining (x p i : α) : ℕ :=
  min (clockwise i x) (clockwise i p + 1)

/-- A step to a point of the set on the way takes its length off what is left. -/
theorem Latest.remaining_add {S : Set α} {x p i y : α} (h : Latest S x p) (hi : i ∈ S)
    (hy : y ∈ S) (hle : clockwise i y ≤ clockwise i x) :
  remaining x p y + clockwise i y = remaining x p i
  := by
  have hyx := clockwise_add_of_le hle
  have hyp := clockwise_add_of_le (h.le_of_le hi hy hle)
  simp only [remaining]
  omega

/-- What is left is the distance to the last point, or one more. -/
theorem Latest.remaining_cases {S : Set α} {x p i : α} (h : Latest S x p) (hi : i ∈ S) :
  remaining x p i = clockwise i p ∨ remaining x p i = clockwise i p + 1
  := by
  have hip := h.clockwise_add hi
  simp only [remaining]
  omega

theorem remaining_lt (x p i : α) :
  remaining x p i < n
  := lt_of_le_of_lt (min_le_left _ _) (clockwise_lt i x)

/-! ### How many steps -/

/-- How many halving steps there are when `c` is left and a step covers `2 ^ m` at most. -/
def hopRank (m c : ℕ) : ℕ :=
  if c < 2 ^ (m + 1) then Nat.log 2 c
  else if c < 3 * 2 ^ m then m + 1
  else m + 2

theorem hopRank_le (m c : ℕ) :
  hopRank m c ≤ m + 2
  := by
  rw [hopRank]
  split_ifs with h₁ h₂
  · have hlog : Nat.log 2 c < m + 1 := Nat.log_lt_of_lt_pow' (Nat.succ_ne_zero m) h₁
    omega
  · omega
  · exact le_rfl

theorem hopRank_le_of_lt {m c j : ℕ} (hj : j ≠ 0) (hjm : j ≤ m + 1) (h : c < 2 ^ j) :
  hopRank m c < j
  := by
  have hpow : 2 ^ j ≤ 2 ^ (m + 1) := Nat.pow_le_pow_right (by omega) hjm
  rw [hopRank, if_pos (by omega)]
  exact Nat.log_lt_of_lt_pow' hj h

/-- A step that covers the highest power of two, up to `2 ^ m`, in the distance `e` brings the
rank of what is left down. -/
theorem hopRank_lt {m e c c' j : ℕ} (hc : c = e ∨ c = e + 1) (htwo : 2 ≤ c)
    (hcm : c < 2 ^ (m + 2)) (hj : j ≤ m) (hje : 2 ^ j ≤ e) (htop : j = m ∨ e < 2 ^ (j + 1))
    (hstep : c' + 2 ^ j ≤ c) :
  hopRank m c' < hopRank m c
  := by
  have hm : 2 ^ (m + 1) = 2 * 2 ^ m := by ring
  have hm' : 2 ^ (m + 2) = 4 * 2 ^ m := by ring
  have hj' : 2 ^ (j + 1) = 2 * 2 ^ j := by ring
  by_cases hsmall : c < 2 ^ (m + 1)
  · have he : e < 2 ^ (j + 1) := by
      rcases htop with rfl | htop
      · omega
      · exact htop
    have hrank : hopRank m c = Nat.log 2 c := by rw [hopRank, if_pos hsmall]
    rw [hrank]
    by_cases hfull : c < 2 ^ (j + 1)
    · have hj0 : j ≠ 0 := by
        rintro rfl
        omega
      have hle : j ≤ Nat.log 2 c := Nat.le_log_of_pow_le (by omega) (by omega)
      exact lt_of_lt_of_le (hopRank_le_of_lt hj0 (by omega) (by omega)) hle
    · have hle : j + 1 ≤ Nat.log 2 c := Nat.le_log_of_pow_le (by omega) (by omega)
      exact lt_of_lt_of_le (hopRank_le_of_lt (Nat.succ_ne_zero j) (by omega) (by omega)) hle
  · -- beyond the highest power a step covers `2 ^ m`
    obtain rfl : j = m := by
      rcases htop with htop | htop
      · exact htop
      · by_contra hne
        have : 2 ^ (j + 1) ≤ 2 ^ m := Nat.pow_le_pow_right (by omega) (by omega)
        omega
    by_cases hmid : c < 3 * 2 ^ j
    · rw [show hopRank j c = j + 1 by rw [hopRank, if_neg hsmall, if_pos hmid]]
      exact hopRank_le_of_lt (Nat.succ_ne_zero j) le_rfl (by omega)
    · rw [show hopRank j c = j + 2 by rw [hopRank, if_neg hsmall, if_neg hmid]]
      rw [hopRank]
      split_ifs with h₁ h₂
      · have hlog : Nat.log 2 c' < j + 1 := Nat.log_lt_of_lt_pow' (Nat.succ_ne_zero j) h₁
        omega
      · omega
      · omega

end Circle
