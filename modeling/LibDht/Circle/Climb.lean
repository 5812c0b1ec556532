import LibDht.Circle.Distance
import Mathlib.Dynamics.PeriodicPts.Defs
import Mathlib.Order.Interval.Set.Defs

/-!
# Climbing functions

A function `f` on a set `S` climbs to the root `c` when every application either arrives
at `c` or increases a bounded height. Then every point of `S` is led to `c`, and the one
cycle of `f` in `S` is the one through `c`: it starts at `c` and climbs at every step until
it is back at `c`. When `f` is moreover injective on `S`, the cycle is all of `S`, and `f`
takes every point to the next higher one. On a circle, with the distance from `c` as the
height, that is the point met next.
-/

open Function

/-- Every application of `f` to a point of `S` gives a point of `S`, which is the root `c`
or higher than the point. -/
structure Climbs {α : Type*} (S : Set α) (f : α → α) (c : α) (height : α → ℕ) : Prop where
  root_mem : c ∈ S
  mapsTo : ∀ x ∈ S, f x ∈ S
  step : ∀ x ∈ S, f x = c ∨ height x < height (f x)
  bounded : ∃ N, ∀ x ∈ S, height x < N

namespace Climbs

variable {α : Type*} {S : Set α} {f : α → α} {c : α} {height : α → ℕ}

theorem iterate_mem (h : Climbs S f c height) {x : α} (hx : x ∈ S) (k : ℕ) :
  f^[k] x ∈ S
  := by
  induction k with
  | zero => apply hx
  | succ k ih =>
    rw [iterate_succ_apply']
    apply h.mapsTo _ ih

/-- Every point is led to the root, in at least one step. -/
theorem reaches_root (h : Climbs S f c height) {x : α} (hx : x ∈ S) :
  ∃ k, f^[k + 1] x = c
  := by
  obtain ⟨N, hN⟩ := h.bounded
  -- the induction is on how far the height is from its bound
  induction hm : N - height x using Nat.strong_induction_on generalizing x with
  | _ m ih =>
    rcases h.step x hx with hroot | hlt
    · use 0
      apply hroot
    · have hfx := h.mapsTo x hx
      have hN' := hN (f x) hfx
      obtain ⟨k, hk⟩ := ih (N - height (f x)) (by omega) hfx rfl
      use k + 1
      rw [iterate_succ_apply]
      apply hk

theorem period_pos (h : Climbs S f c height) :
  0 < minimalPeriod f c
  := by
  obtain ⟨k, hk⟩ := h.reaches_root h.root_mem
  apply IsPeriodicPt.minimalPeriod_pos (Nat.succ_pos k) hk

/-- Round the cycle through the root the heights increase strictly. -/
theorem strictMonoOn_height (h : Climbs S f c height) :
  StrictMonoOn (fun i => height (f^[i] c)) (Set.Iio (minimalPeriod f c))
  := by
  intro i _ j hj hij
  -- the induction is on `j`, one application of `f` at a time
  induction j with
  | zero => omega
  | succ j ih =>
    have hroot : f^[j + 1] c ≠ c :=
      not_isPeriodicPt_of_pos_of_lt_minimalPeriod (Nat.succ_ne_zero j) hj
    rw [iterate_succ_apply'] at hroot
    have hstep := (h.step _ (h.iterate_mem h.root_mem j)).resolve_left hroot
    rw [← iterate_succ_apply' f j c] at hstep
    rcases Nat.lt_succ_iff_lt_or_eq.mp hij with hlt | rfl
    · apply lt_trans (ih (Set.mem_Iio.mpr (lt_trans (Nat.lt_succ_self j) hj)) hlt) hstep
    · apply hstep

/-- A point that some iterate of the root is, is one before the cycle closes. -/
theorem exists_lt_period (h : Climbs S f c height) {x : α} {k : ℕ} (hk : f^[k] c = x) :
  ∃ i < minimalPeriod f c, f^[i] c = x
  := by
  use k % minimalPeriod f c
  constructor
  · apply Nat.mod_lt _ h.period_pos
  · rw [iterate_mod_minimalPeriod_eq, hk]

/-- Every cycle of `f` in `S` is the one through the root. -/
theorem mem_cycle_of_periodic (h : Climbs S f c height) {x : α} (hx : x ∈ S) {k : ℕ}
    (hk : 0 < k) (hp : f^[k] x = x) :
  ∃ i < minimalPeriod f c, f^[i] c = x
  := by
  obtain ⟨m, hm⟩ := h.reaches_root hx
  -- going round often enough to have passed the root on the way
  have hround : f^[k * (m + 1)] x = x := IsPeriodicPt.mul_const hp (m + 1)
  have hle : m + 1 ≤ k * (m + 1) := Nat.le_mul_of_pos_left (m + 1) hk
  apply h.exists_lt_period (k := k * (m + 1) - (m + 1))
  rw [← hm, ← iterate_add_apply, Nat.sub_add_cancel hle, hround]

/-- The root is met again and again. -/
theorem exists_iterate_root (h : Climbs S f c height) (k : ℕ) :
  ∃ j, f^[k + j] c = c
  := by
  obtain ⟨m, hm⟩ := h.reaches_root (h.iterate_mem h.root_mem k)
  use m + 1
  rw [Nat.add_comm, iterate_add_apply, hm]

/-- When `f` is injective on `S`, all of `S` lies on the cycle through the root. -/
theorem mem_cycle_of_injOn (h : Climbs S f c height) (hinj : Set.InjOn f S) {x : α}
    (hx : x ∈ S) :
  ∃ i < minimalPeriod f c, f^[i] c = x
  := by
  obtain ⟨m, hm⟩ := h.reaches_root hx
  obtain ⟨j, hj⟩ := h.exists_iterate_root (m + 1)
  apply h.exists_lt_period (k := j)
  have hback : ∀ k (y z : α), y ∈ S → z ∈ S → f^[k] y = f^[k] z → y = z := by
    intro k
    induction k with
    | zero =>
      intro y z _ _ hyz
      apply hyz
    | succ k ih =>
      intro y z hy hz hyz
      apply hinj hy hz
      apply ih _ _ (h.mapsTo y hy) (h.mapsTo z hz)
      rw [← iterate_succ_apply, ← iterate_succ_apply, hyz]
  apply hback (m + 1) _ _ (h.iterate_mem h.root_mem j) hx
  rw [← iterate_add_apply, hj, hm]

/-- When `f` is injective on `S`, every point of `S` is taken to by one. -/
theorem exists_preimage_of_injOn (h : Climbs S f c height) (hinj : Set.InjOn f S) {x : α}
    (hx : x ∈ S) :
  ∃ y ∈ S, f y = x
  := by
  obtain ⟨i, -, rfl⟩ := h.mem_cycle_of_injOn hinj hx
  have hpos := h.period_pos
  use f^[i + minimalPeriod f c - 1] c, h.iterate_mem h.root_mem _
  rw [← iterate_succ_apply' f, show (i + minimalPeriod f c - 1).succ = i + minimalPeriod f c by omega,
    iterate_add_minimalPeriod_eq]

/-- When `f` is injective on `S`, no point of `S` is strictly between a point and its image:
what is higher than `x` is at least as high as `f x`, unless `x` is the highest, which is
taken to the root. -/
theorem step_le_of_injOn (h : Climbs S f c height) (hinj : Set.InjOn f S) {x y : α}
    (hx : x ∈ S) (hy : y ∈ S) (hxy : height x < height y) :
  f x ≠ c ∧ height (f x) ≤ height y
  := by
  obtain ⟨i, hi, rfl⟩ := h.mem_cycle_of_injOn hinj hx
  obtain ⟨j, hj, rfl⟩ := h.mem_cycle_of_injOn hinj hy
  have hij : i < j := (h.strictMonoOn_height.lt_iff_lt hi hj).mp hxy
  rw [← iterate_succ_apply' f i c]
  constructor
  · apply not_isPeriodicPt_of_pos_of_lt_minimalPeriod (Nat.succ_ne_zero i)
    apply lt_of_le_of_lt hij hj
  · apply h.strictMonoOn_height.monotoneOn (Set.mem_Iio.mpr (lt_of_le_of_lt hij hj)) hj hij

/-- On a circle, an injective function that climbs takes every point to the one that is met
next. -/
theorem next_of_injOn {α : Type*} {n : ℕ} [OnCircle α n] {S : Set α} {f : α → α} {c x : α}
    (h : Climbs S f c (Circle.clockwise c)) (hinj : Set.InjOn f S) (hx : x ∈ S) :
  Circle.Next S x (f x)
  := by
  constructor
  · apply h.mapsTo x hx
  · intro y hy hyx
    have hc := (OnCircle.position c : Fin n).isLt
    rcases lt_trichotomy (Circle.clockwise c x) (Circle.clockwise c y) with hlt | heq | hgt
    · -- `y` is higher, so that `f x` is between
      obtain ⟨hne, hle⟩ := h.step_le_of_injOn hinj hx hy hlt
      have hup := (h.step x hx).resolve_left hne
      constructor
      · intro hfx
        rw [hfx] at hup
        apply lt_irrefl _ hup
      · rcases Circle.clockwise_cases c x with h₁ | h₁ <;>
          rcases Circle.clockwise_cases c y with h₂ | h₂ <;>
          rcases Circle.clockwise_cases c (f x) with h₃ | h₃ <;>
          rcases Circle.clockwise_cases x y with h₄ | h₄ <;>
          rcases Circle.clockwise_cases x (f x) with h₅ | h₅ <;> omega
    · exact absurd (Circle.clockwise_injective c heq).symm hyx
    · -- `y` is lower, and `f x` is the root or higher than `x`
      have hxc : x ≠ c := by
        rintro rfl
        rw [Circle.clockwise_self] at hgt
        omega
      rcases h.step x hx with hroot | hup
      · rw [hroot]
        use Ne.symm hxc
        rcases Circle.clockwise_cases c x with h₁ | h₁ <;>
          rcases Circle.clockwise_cases c y with h₂ | h₂ <;>
          rcases Circle.clockwise_cases x c with h₃ | h₃ <;>
          rcases Circle.clockwise_cases x y with h₄ | h₄ <;> omega
      · constructor
        · intro hfx
          rw [hfx] at hup
          apply lt_irrefl _ hup
        · rcases Circle.clockwise_cases c x with h₁ | h₁ <;>
            rcases Circle.clockwise_cases c y with h₂ | h₂ <;>
            rcases Circle.clockwise_cases c (f x) with h₃ | h₃ <;>
            rcases Circle.clockwise_cases x y with h₄ | h₄ <;>
            rcases Circle.clockwise_cases x (f x) with h₅ | h₅ <;> omega

end Climbs
