import LibDht.Circle.Distance
import Mathlib.Tactic.Basic

/-!
# Node identifiers

A node is known to its peers by a `NodeInfo`: its identifier, the address it is reached at
and the port it listens on. Identifiers are the 32-bit hashes of `get_id`, compared as
numbers by `nodeIdCompare` and, on the circle they lie on, by `nodeIdInRange`, whose
interval is closed at both ends and may run past `0`.
-/

/-- An identifier of a node, or of a key. -/
abbrev HashType := UInt32

/-- The identifiers lie on a circle of `2^32` positions. -/
instance : OnCircle HashType UInt32.size where
  position := UInt32.toFin
  position_injective _ _ h := UInt32.toFin_inj.mp h

theorem position_val (a : HashType) :
  (OnCircle.position a : Fin UInt32.size).val = a.toNat
  := rfl

/-- What a node knows of another one: `struct node_info`. -/
structure NodeInfo where
  id : HashType
  IP : UInt32
  port : UInt16
  deriving DecidableEq, Repr

/-- The `node_info` of no node, all zero. -/
def nullNode : NodeInfo := ⟨0, 0, 0⟩

/-- The number of entries of a successor array. -/
abbrev numOfSuccs : ℕ := 8

instance : @NeZero ℕ Zero.ofOfNat0 numOfSuccs := ⟨Nat.succ_ne_zero 7⟩

/-- The number of bits of an identifier, and of entries of a finger table. -/
abbrev idBits : ℕ := 32

/-- `0`, `-1` or `1` as the first identifier equals, is below or is above the second. -/
def nodeIdCompare (id1 id2 : HashType) : ℤ :=
  if id1 = id2 then 0
  else if id1 < id2 then -1
  else 1

/-- Whether `id` is in the range from `min` to `max`, inclusive at both ends. -/
def nodeIdInRange (id min max : HashType) : Bool :=
  if max > min then id ≥ min && id ≤ max
  else if max < min then id ≥ min || id ≤ max
  else id == max

@[simp]
theorem nodeIdCompare_eq_zero {a b : HashType} :
  nodeIdCompare a b = 0 ↔ a = b
  := by
  rw [nodeIdCompare]
  split_ifs with h₁ h₂
  · simp [h₁]
  · simp [h₁]
  · simp [h₁]

/-- The range test is the comparison of clockwise distances from the lower end. -/
theorem nodeIdInRange_iff {id min max : HashType} :
  nodeIdInRange id min max = true ↔ Circle.clockwise min id ≤ Circle.clockwise min max
  := by
  have hid := id.toNat_lt
  have hmax := max.toNat_lt
  have hmin := min.toNat_lt
  have h₁ := Circle.clockwise_cases min id
  have h₂ := Circle.clockwise_cases min max
  simp only [position_val, UInt32.size] at h₁ h₂
  rw [nodeIdInRange]
  split_ifs with hlt hgt
  · simp only [gt_iff_lt, UInt32.lt_iff_toNat_lt] at hlt
    simp only [ge_iff_le, Bool.and_eq_true, decide_eq_true_eq, UInt32.le_iff_toNat_le]
    omega
  · simp only [UInt32.lt_iff_toNat_lt] at hgt
    simp only [ge_iff_le, Bool.or_eq_true, decide_eq_true_eq, UInt32.le_iff_toNat_le]
    omega
  · simp only [gt_iff_lt, UInt32.lt_iff_toNat_lt] at hlt hgt
    simp only [beq_iff_eq, ← UInt32.toNat_inj]
    omega

/-- The lower end is in every range. -/
theorem nodeIdInRange_left (min max : HashType) :
  nodeIdInRange min min max = true
  := by
  apply nodeIdInRange_iff.mpr
  simp

/-- The range that starts just after `a` is the range from `a` with `a` left out, as long as
its upper end is not `a`. -/
theorem nodeIdInRange_succ_iff {a b x : HashType} (hab : a ≠ b) :
  nodeIdInRange x (a + 1) b = true
    ↔ x ≠ a ∧ Circle.clockwise a x ≤ Circle.clockwise a b
  := by
  rw [nodeIdInRange_iff]
  have ha := a.toNat_lt
  have hb := b.toNat_lt
  have hx := x.toNat_lt
  have hab' : a.toNat ≠ b.toNat := fun h => hab (UInt32.toNat_inj.mp h)
  have h₁ := Circle.clockwise_cases (a + 1) x
  have h₂ := Circle.clockwise_cases (a + 1) b
  have h₃ := Circle.clockwise_cases a x
  have h₄ := Circle.clockwise_cases a b
  have hsucc : (a + 1).toNat = (a.toNat + 1) % 2 ^ 32 := by
    simp [UInt32.toNat_add]
  simp only [position_val, UInt32.size] at h₁ h₂ h₃ h₄
  rw [ne_eq, ← UInt32.toNat_inj]
  omega
