import Mathlib.Data.Fin.Basic
import Mathlib.Data.Set.Finite.Basic
import Mathlib.Order.WellFounded

/-!
# Clockwise distance on a circle

The points of a type `α` lie on a circle of `n` positions, each point on a position of
its own. `clockwise a b` is the number of positions from `a` on to `b`, turning one way
round. Which of several points is met first, and which points lie on the arc from one
point to another, are statements about these numbers.

`Past c x r` says that on the way from `x` to `r` the point `c` is not passed: the arc
from `x`, exclusive, to `r`, inclusive, holds `c` at its end only.
-/

/-- The points of `α` lie on a circle of `n` positions, no two of them on the same one. -/
class OnCircle (α : Type*) (n : outParam ℕ) where
  position : α → Fin n
  position_injective : Function.Injective position

namespace Circle

variable {α : Type*} {n : ℕ} [OnCircle α n]

open OnCircle

/-- The number of positions from `a` on to `b`, clockwise. -/
def clockwise (a b : α) : ℕ := (position b - position a : Fin n).val

theorem clockwise_lt (a b : α) :
  clockwise a b < n
  := (position b - position a : Fin n).isLt

/-- A clockwise distance is the difference of the positions, or that difference and a full
turn. -/
theorem clockwise_cases (a b : α) :
  (position a : Fin n).val ≤ (position b : Fin n).val
      ∧ clockwise a b + (position a : Fin n).val = (position b : Fin n).val
    ∨ (position b : Fin n).val < (position a : Fin n).val
      ∧ clockwise a b + (position a : Fin n).val = (position b : Fin n).val + n
  := by
  have ha := (position a : Fin n).isLt
  have hb := (position b : Fin n).isLt
  rcases le_or_gt (position a : Fin n).val (position b : Fin n).val with h | h
  · left
    have hmod : (n - (position a : Fin n).val + (position b : Fin n).val) % n
        = (position b : Fin n).val - (position a : Fin n).val := by
      rw [show n - (position a : Fin n).val + (position b : Fin n).val
        = (position b : Fin n).val - (position a : Fin n).val + n by omega]
      rw [Nat.add_mod_right, Nat.mod_eq_of_lt (by omega)]
    rw [clockwise, Fin.val_sub, hmod]
    omega
  · right
    rw [clockwise, Fin.val_sub, Nat.mod_eq_of_lt (by omega)]
    omega

theorem position_val_inj {a b : α} (h : (position a : Fin n).val = (position b : Fin n).val) :
  a = b
  := position_injective (Fin.ext h)

@[simp]
theorem clockwise_self (a : α) :
  clockwise a a = 0
  := by
  rcases clockwise_cases a a with ⟨-, h⟩ | ⟨h, -⟩
  · omega
  · omega

/-- Only `a` itself is at distance `0` from `a`. -/
theorem clockwise_eq_zero_iff {a b : α} :
  clockwise a b = 0 ↔ a = b
  := by
  constructor
  · intro h
    have hb := (position a : Fin n).isLt
    apply position_val_inj
    rcases clockwise_cases a b with ⟨-, hd⟩ | ⟨-, hd⟩
    · omega
    · omega
  · rintro rfl
    apply clockwise_self

theorem clockwise_pos {a b : α} (h : a ≠ b) :
  0 < clockwise a b
  := Nat.pos_of_ne_zero (fun h' => h (clockwise_eq_zero_iff.mp h'))

/-- Points at the same distance from `a` are the same. -/
theorem clockwise_injective (a : α) :
  Function.Injective (clockwise a)
  := by
  intro b c h
  have hb := (position b : Fin n).isLt
  have hc := (position c : Fin n).isLt
  apply position_val_inj
  rcases clockwise_cases a b with ⟨-, hd⟩ | ⟨-, hd⟩
  · rcases clockwise_cases a c with ⟨-, he⟩ | ⟨-, he⟩
    · omega
    · omega
  · rcases clockwise_cases a c with ⟨-, he⟩ | ⟨-, he⟩
    · omega
    · omega

/-- Distances along the arc from `a` to `b` add up. -/
theorem clockwise_add_of_le {a b x : α} (h : clockwise a x ≤ clockwise a b) :
  clockwise a x + clockwise x b = clockwise a b
  := by
  have ha := (position a : Fin n).isLt
  have hb := (position b : Fin n).isLt
  have hx := (position x : Fin n).isLt
  rcases clockwise_cases a x with h₁ | h₁ <;> rcases clockwise_cases a b with h₂ | h₂ <;>
    rcases clockwise_cases x b with h₃ | h₃ <;> omega

/-- Going on past a point of the arc from `a` to `b` brings one closer to `b`. -/
theorem clockwise_lt_of_between {a b x : α} (hx : a ≠ x)
    (h : clockwise a x ≤ clockwise a b) :
  clockwise x b < clockwise a b
  := by
  have hadd := clockwise_add_of_le h
  have hpos := clockwise_pos hx
  omega

/-- From a point beyond the arc from `a` to `b`, one meets `a` before `b`. -/
theorem clockwise_le_of_lt {a b x : α} (h : clockwise a b < clockwise a x) :
  clockwise x a ≤ clockwise x b
  := by
  have ha := (position a : Fin n).isLt
  rcases clockwise_cases a b with h₁ | h₁ <;> rcases clockwise_cases a x with h₂ | h₂ <;>
    rcases clockwise_cases x a with h₃ | h₃ <;> rcases clockwise_cases x b with h₄ | h₄ <;> omega

/-! ### The nearest point of a set -/

/-- The point of `S` that is met first from `p` on, `p` itself included. -/
structure Nearest (S : Set α) (p m : α) : Prop where
  mem : m ∈ S
  le : ∀ x ∈ S, clockwise p m ≤ clockwise p x

theorem Nearest.unique {S : Set α} {p m m' : α} (h : Nearest S p m) (h' : Nearest S p m') :
  m = m'
  := clockwise_injective p (le_antisymm (h.le m' h'.mem) (h'.le m h.mem))

/-- A set with a point in it has a nearest one. -/
theorem exists_nearest {S : Set α} (hS : S.Nonempty) (p : α) :
  ∃ m, Nearest S p m
  := by
  obtain ⟨m, hm, hle⟩ := WellFounded.has_min (measure (clockwise p)).wf S hS
  use m
  constructor
  · apply hm
  · intro x hx
    apply not_lt.mp (hle x hx)

/-- The point of `S` that is met first after `p`; it is `p` itself when `S` holds no
other. -/
structure Next (S : Set α) (p m : α) : Prop where
  mem : m ∈ S
  le : ∀ x ∈ S, x ≠ p → m ≠ p ∧ clockwise p m ≤ clockwise p x

theorem Next.unique {S : Set α} {p m m' : α} (h : Next S p m) (h' : Next S p m') :
  m = m'
  := by
  by_cases hm : m = p
  · by_contra hne
    exact (h.le m' h'.mem fun heq => hne (hm.trans heq.symm)).1 hm
  · obtain ⟨hm', hle'⟩ := h'.le m h.mem hm
    exact clockwise_injective p (le_antisymm (h.le m' h'.mem hm').2 hle')

/-- In a set with a point in it, some point comes after `p`. -/
theorem exists_next {S : Set α} (hS : S.Nonempty) (p : α) :
  ∃ m, Next S p m
  := by
  by_cases hother : (S \ {p}).Nonempty
  · obtain ⟨m, hm⟩ := exists_nearest hother p
    use m, hm.mem.1
    intro x hx hxp
    exact ⟨hm.mem.2, hm.le x ⟨hx, hxp⟩⟩
  · obtain ⟨m, hm⟩ := hS
    have hall : ∀ x ∈ S, x = p := by
      intro x hx
      by_contra hxp
      exact hother ⟨x, hx, hxp⟩
    use m, hm
    intro x hx hxp
    exact absurd (hall x hx) hxp

/-- Seen from a point `o` of the set, what comes after `p` is farther than `p`, unless it is
`o` itself. -/
theorem Next.lt_of_mem {S : Set α} {p m o : α} (h : Next S p m) (ho : o ∈ S) (hmo : m ≠ o) :
  clockwise o p < clockwise o m
  := by
  by_cases hop : o = p
  · subst hop
    rw [clockwise_self]
    exact clockwise_pos (Ne.symm hmo)
  · obtain ⟨hmp, hle⟩ := h.le o ho hop
    have hmo' : (position m : Fin n).val ≠ (position o : Fin n).val :=
      fun heq => hmo (position_val_inj heq)
    have hmp' : (position m : Fin n).val ≠ (position p : Fin n).val :=
      fun heq => hmp (position_val_inj heq)
    rcases clockwise_cases p m with h₁ | h₁ <;> rcases clockwise_cases p o with h₂ | h₂ <;>
      rcases clockwise_cases o p with h₃ | h₃ <;> rcases clockwise_cases o m with h₄ | h₄ <;> omega

/-- Seen from any point `o`, what comes after `p` is not farther than the points of the set
that are farther than `p`. -/
theorem Next.le_of_lt {S : Set α} {p m o x : α} (h : Next S p m) (hx : x ∈ S)
    (hlt : clockwise o p < clockwise o x) :
  clockwise o m ≤ clockwise o x
  := by
  have hxp : x ≠ p := by
    rintro rfl
    exact lt_irrefl _ hlt
  have hle := (h.le x hx hxp).2
  have hadd := clockwise_add_of_le hlt.le
  rcases clockwise_cases o p with h₁ | h₁ <;> rcases clockwise_cases p m with h₂ | h₂ <;>
    rcases clockwise_cases o m with h₃ | h₃ <;> omega

/-- What comes after `p` is not the point `o` when a point of the set is farther from `o` than
`p`. -/
theorem Next.ne_of_lt {S : Set α} {p m o x : α} (h : Next S p m) (hx : x ∈ S)
    (hlt : clockwise o p < clockwise o x) :
  m ≠ o
  := by
  have hxp : x ≠ p := by
    rintro rfl
    exact lt_irrefl _ hlt
  rintro rfl
  obtain ⟨hmp, hle⟩ := h.le x hx hxp
  have hadd := clockwise_add_of_le hlt.le
  have hpos := clockwise_pos hmp
  rcases clockwise_cases m p with h₁ | h₁ <;> rcases clockwise_cases p m with h₂ | h₂ <;>
    rcases clockwise_cases m x with h₃ | h₃ <;> omega

/-- The point after `p` is the nearest one to every point between them. -/
theorem Next.nearest {S : Set α} {p m x : α} (h : Next S p m) (hx : p ≠ x)
    (hle : clockwise p x ≤ clockwise p m) :
  Nearest S x m
  := by
  constructor
  · apply h.mem
  · intro y hy
    have hp := (position p : Fin n).isLt
    have hpx := clockwise_pos hx
    have hmle := clockwise_add_of_le hle
    by_cases hyp : y = p
    · subst hyp
      rcases clockwise_cases y x with h₁ | h₁ <;> rcases clockwise_cases x m with h₂ | h₂ <;>
        rcases clockwise_cases y m with h₃ | h₃ <;> rcases clockwise_cases x y with h₄ | h₄ <;>
          omega
    · have hxy := clockwise_add_of_le (hle.trans (h.le y hy hyp).2)
      have := (h.le y hy hyp).2
      omega

/-- In a set with `p` and nothing else in it, `p` is the nearest point to every point. -/
theorem Next.nearest_of_eq {S : Set α} {p x : α} (h : Next S p p) :
  Nearest S x p
  := by
  constructor
  · apply h.mem
  · intro y hy
    by_cases hyp : y = p
    · rw [hyp]
    · exact absurd rfl (h.le y hy hyp).1

/-- The point of `S` that was met last on the way to `p`; it is `p` itself when `S` holds no
other. -/
structure Previous (S : Set α) (p m : α) : Prop where
  mem : m ∈ S
  le : ∀ x ∈ S, x ≠ p → m ≠ p ∧ clockwise m p ≤ clockwise x p

theorem Previous.unique {S : Set α} {p m m' : α} (h : Previous S p m) (h' : Previous S p m') :
  m = m'
  := by
  by_cases hm : m = p
  · by_contra hne
    exact (h.le m' h'.mem fun heq => hne (hm.trans heq.symm)).1 hm
  · obtain ⟨hm', hle'⟩ := h'.le m h.mem hm
    have hle := (h.le m' h'.mem hm').2
    have heq := le_antisymm hle hle'
    apply position_val_inj
    rcases clockwise_cases m p with h₁ | h₁ <;> rcases clockwise_cases m' p with h₂ | h₂ <;> omega

/-- The point `p` comes after the one before it. -/
theorem Previous.next {S : Set α} {p m : α} (h : Previous S p m) (hp : p ∈ S) :
  Next S m p
  := by
  constructor
  · apply hp
  · intro x hx hxm
    have hpm : p ≠ m := by
      rintro rfl
      exact (h.le x hx hxm).1 rfl
    use hpm
    by_cases hxp : x = p
    · rw [hxp]
    · by_contra hlt
      have hle := (h.le x hx hxp).2
      have hadd := clockwise_add_of_le (not_le.mp hlt).le
      have hpos := clockwise_pos (Ne.symm hxm)
      omega

/-- The point that `p` comes after is the one before `p`. -/
theorem Next.previous {S : Set α} {p m : α} (h : Next S m p) (hm : m ∈ S) :
  Previous S p m
  := by
  constructor
  · apply hm
  · intro x hx hxp
    have hmp : m ≠ p := by
      rintro rfl
      exact absurd rfl (h.le x hx hxp).1
    use hmp
    by_cases hxm : x = m
    · rw [hxm]
    · obtain ⟨-, hle⟩ := h.le x hx hxm
      have hadd := clockwise_add_of_le hle
      have hm := (position m : Fin n).isLt
      have hlt : clockwise m p < clockwise m x := by
        apply lt_of_le_of_ne hle
        intro heq
        apply hxp (clockwise_injective m heq).symm
      rcases clockwise_cases m p with h₁ | h₁ <;> rcases clockwise_cases m x with h₂ | h₂ <;>
        rcases clockwise_cases x p with h₃ | h₃ <;> omega

/-! ### Not passing a point -/

/-- Going clockwise from `x` to `r`, the point `c` is not passed: either `r` is `c`, or `r`
is met after `x` by one who starts at `c`. -/
def Past (c x r : α) : Prop :=
  r = c ∨ clockwise c x < clockwise c r

/-- From `c` itself nothing passes `c`. -/
theorem past_self (c r : α) :
  Past c c r
  := by
  by_cases h : r = c
  · left
    apply h
  · right
    rw [clockwise_self]
    apply clockwise_pos (Ne.symm h)

/-- A point of the arc from `m` to `s` is followed by `s` with no `c` between, when `m`
is. -/
theorem Past.shrink_left {c m x s : α} (h : Past c m s)
    (hle : clockwise m x ≤ clockwise m s) (hxs : x ≠ s) :
  Past c x s
  := by
  rcases h with h | h
  · left
    apply h
  · right
    have hlt : clockwise m x < clockwise m s := by
      apply lt_of_le_of_ne hle
      intro heq
      apply hxs (clockwise_injective m heq)
    have hc := (position c : Fin n).isLt
    have hx := (position x : Fin n).isLt
    rcases clockwise_cases c m with h₁ | h₁ <;> rcases clockwise_cases c s with h₂ | h₂ <;>
      rcases clockwise_cases m x with h₃ | h₃ <;> rcases clockwise_cases m s with h₄ | h₄ <;>
        rcases clockwise_cases c x with h₅ | h₅ <;> omega

/-- A point of the arc from `x` to `s` comes after `x` with no `c` between, when `s`
does. -/
theorem Past.shrink_right {c x p s : α} (h : Past c x s) (hxp : x ≠ p)
    (hle : clockwise x p ≤ clockwise x s) :
  Past c x p
  := by
  by_cases hpc : p = c
  · left
    apply hpc
  · right
    have hpos := clockwise_pos hxp
    have hcp := clockwise_pos (Ne.symm hpc)
    have hc := (position c : Fin n).isLt
    have hp := (position p : Fin n).isLt
    rcases h with rfl | h
    · rcases clockwise_cases s x with h₁ | h₁ <;> rcases clockwise_cases s p with h₂ | h₂ <;>
        rcases clockwise_cases x p with h₃ | h₃ <;> rcases clockwise_cases x s with h₄ | h₄ <;>
          omega
    · rcases clockwise_cases c x with h₁ | h₁ <;> rcases clockwise_cases c s with h₂ | h₂ <;>
        rcases clockwise_cases x p with h₃ | h₃ <;> rcases clockwise_cases x s with h₄ | h₄ <;>
          rcases clockwise_cases c p with h₅ | h₅ <;> omega

/-! ### Full turns -/

/-- The number of positions from `a` on to `b`, clockwise, when coming back to `a` takes a
full turn. -/
def lap (a b : α) : ℕ := if clockwise a b = 0 then n else clockwise a b

@[simp]
theorem lap_self (a : α) :
  lap a a = n
  := if_pos (clockwise_self a)

theorem lap_of_ne {a b : α} (h : a ≠ b) :
  lap a b = clockwise a b
  := if_neg (mt clockwise_eq_zero_iff.mp h)

theorem lap_lt_iff {a b : α} :
  lap a b < n ↔ a ≠ b
  := by
  constructor
  · rintro h rfl
    rw [lap_self] at h
    exact lt_irrefl _ h
  · intro h
    rw [lap_of_ne h]
    apply clockwise_lt

/-- No point is farther than a full turn. -/
theorem lap_le (a b : α) :
  lap a b ≤ n
  := by
  by_cases h : a = b
  · rw [h, lap_self]
  · exact (lap_lt_iff.mpr h).le

/-- Points from which it is equally far to `b` are the same. -/
theorem lap_injective (b : α) :
  Function.Injective fun a : α => lap a b
  := by
  intro a a' h
  dsimp only at h
  by_cases ha : a = b
  · by_contra hne
    have hlt := lap_lt_iff.mpr (ha ▸ Ne.symm hne : a' ≠ b)
    rw [← h, ha, lap_self] at hlt
    exact lt_irrefl _ hlt
  · have ha' : a' ≠ b := by
      rw [← lap_lt_iff, ← h]
      exact lap_lt_iff.mpr ha
    rw [lap_of_ne ha, lap_of_ne ha'] at h
    apply position_val_inj
    have hlt := (position a : Fin n).isLt
    have hlt' := (position a' : Fin n).isLt
    rcases clockwise_cases a b with h₁ | h₁ <;> rcases clockwise_cases a' b with h₂ | h₂ <;> omega

/-- A point lies on the arc from `a` to `b` when it is `b` or not farther from `b` than `a`
is. -/
theorem clockwise_le_iff_lap {a b x : α} (hab : a ≠ b) :
  clockwise a x ≤ clockwise a b ↔ x = b ∨ lap x b ≤ lap a b
  := by
  by_cases hxb : x = b
  · simp [hxb]
  · rw [lap_of_ne hab, lap_of_ne hxb, or_iff_right hxb]
    constructor
    · intro h
      have hadd := clockwise_add_of_le h
      omega
    · intro h
      by_contra hlt
      have hle := clockwise_le_of_lt (not_le.mp hlt)
      have hadd := clockwise_add_of_le hle
      have hpos := clockwise_pos (a := x) (b := a) (by rintro rfl; simp at hlt)
      omega

/-- The point of a list from which it is not farther to `o` than from any other of them, from
`o` itself being a full turn. -/
structure Closest (o : α) (l : List α) (m : α) : Prop where
  mem : m ∈ l
  le : ∀ x ∈ l, lap m o ≤ lap x o

namespace Closest

variable {o m m' x : α} {l l' : List α}

theorem unique (h : Closest o l m) (h' : Closest o l m') :
  m = m'
  := lap_injective o (le_antisymm (h.le m' h'.mem) (h'.le m h.mem))

theorem perm (h : Closest o l m) (hl : l.Perm l') :
  Closest o l' m
  := ⟨hl.mem_iff.mp h.mem, fun x hx => h.le x (hl.mem_iff.mpr hx)⟩

theorem singleton (o x : α) :
  Closest o [x] x
  := ⟨List.mem_singleton_self x, fun y hy => by rw [List.mem_singleton.mp hy]⟩

/-- One more point is the closest when it is not farther than the closest so far. -/
theorem append_of_le (h : Closest o l m) (hle : lap x o ≤ lap m o) :
  Closest o (l ++ [x]) x
  := by
  constructor
  · simp
  · intro y hy
    rcases List.mem_append.mp hy with hy | hy
    · exact hle.trans (h.le y hy)
    · rw [List.mem_singleton.mp hy]

/-- One more point that is farther than the closest so far changes nothing. -/
theorem append_of_lt (h : Closest o l m) (hlt : lap m o < lap x o) :
  Closest o (l ++ [x]) m
  := by
  constructor
  · apply List.mem_append_left _ h.mem
  · intro y hy
    rcases List.mem_append.mp hy with hy | hy
    · exact h.le y hy
    · rw [List.mem_singleton.mp hy]
      exact hlt.le

end Closest

end Circle
