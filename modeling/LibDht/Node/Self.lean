import LibDht.Node.Info
import Mathlib.Algebra.Group.Int.Defs
import Mathlib.Data.Fin.Tuple.Basic
import Mathlib.Logic.Function.Basic

/-!
# The state of a node

`NodeSelf` is the part of `struct node_self` the protocol reads and writes: the node's own
`NodeInfo`, its successor array, its predecessor, its finger table, and the application's
handler for messages. The functions here are those that look at this state, or change it, and
do nothing else.

A search of the successor array may fail, and its callers index the array with whatever it
returns. `NodeSelf.successorAt` reads at any index: outside the array it gives what the
memory there holds, which `outside` stands for.
-/

/-- The state of a node. A callback of the application is a number. The field `nofinger` tells
whether the library was built with `NOFINGER`; `outside` is what reading `successor` out of its
bounds finds. -/
structure NodeSelf where
  self : NodeInfo
  successor : Fin numOfSuccs → NodeInfo
  predecessor : NodeInfo
  hasPred : Bool
  fingerTable : Fin idBits → NodeInfo
  msgCb : ℕ
  msgCbArg : ℕ
  nofinger : Bool
  outside : ℤ → NodeInfo

namespace NodeSelf

/-- A node whose memory is all zero. -/
def blank : NodeSelf where
  self := nullNode
  successor _ := nullNode
  predecessor := nullNode
  hasPred := false
  fingerTable _ := nullNode
  msgCb := 0
  msgCbArg := 0
  nofinger := false
  outside _ := nullNode

/-- The index of a successor array, when it is one. -/
def succSlot (i : ℤ) : Option (Fin numOfSuccs) :=
  if h : 0 ≤ i ∧ i < numOfSuccs then some ⟨i.toNat, by omega⟩ else none

@[simp]
theorem succSlot_coe (k : Fin numOfSuccs) :
  succSlot (k.val : ℤ) = some k
  := by
  have hk := k.isLt
  rw [succSlot]
  rw [dif_pos (by omega)]
  simp

theorem succSlot_eq_some_iff {i : ℤ} {k : Fin numOfSuccs} :
  succSlot i = some k ↔ i = k.val
  := by
  constructor
  · rw [succSlot]
    split_ifs with h
    · intro hk
      rw [← Option.some.inj hk]
      simp only
      omega
    · intro hk
      cases hk
  · rintro rfl
    apply succSlot_coe

/-- `successor[i]`, read at any index. -/
def successorAt (s : NodeSelf) (i : ℤ) : NodeInfo :=
  match succSlot i with
  | some k => s.successor k
  | none => s.outside i

/-- `successor[i] = n`. Out of bounds the write hits memory that is not part of the state
kept here. -/
def setSuccessor (s : NodeSelf) (i : ℤ) (n : NodeInfo) : NodeSelf :=
  match succSlot i with
  | some k => { s with successor := Function.update s.successor k n }
  | none => s

@[simp]
theorem successorAt_coe (s : NodeSelf) (k : Fin numOfSuccs) :
  s.successorAt (k.val : ℤ) = s.successor k
  := by
  simp [successorAt]

theorem setSuccessor_coe (s : NodeSelf) (k : Fin numOfSuccs) (n : NodeInfo) :
  s.setSuccessor (k.val : ℤ) n = { s with successor := Function.update s.successor k n }
  := by
  simp [setSuccessor]

@[simp]
theorem setSuccessor_zero (s : NodeSelf) (n : NodeInfo) :
  s.setSuccessor 0 n = { s with successor := Function.update s.successor 0 n }
  := s.setSuccessor_coe 0 n

@[simp]
theorem setSuccessor_self (s : NodeSelf) (i : ℤ) (n : NodeInfo) :
  (s.setSuccessor i n).self = s.self
  := by
  rw [setSuccessor]
  split <;> rfl

/-- A write leaves every other entry as it is. -/
theorem setSuccessor_successor_of_ne (s : NodeSelf) {i : ℤ} {k : Fin numOfSuccs} (n : NodeInfo)
    (h : i ≠ k.val) :
  (s.setSuccessor i n).successor k = s.successor k
  := by
  rw [setSuccessor]
  split
  · rename_i j hj
    apply Function.update_of_ne
    rintro rfl
    apply h (succSlot_eq_some_iff.mp hj)
  · rfl

/-- The entries after a write. -/
theorem setSuccessor_successor (s : NodeSelf) (i : ℤ) (n : NodeInfo) (k : Fin numOfSuccs) :
  (s.setSuccessor i n).successor k = if i = k.val then n else s.successor k
  := by
  by_cases h : i = k.val
  · subst h
    rw [if_pos rfl, setSuccessor_coe]
    apply Function.update_self
  · rw [if_neg h, setSuccessor_successor_of_ne s n h]

/-- A write to the successor array leaves the predecessor as it is. -/
theorem setSuccessor_predecessor (s : NodeSelf) (i : ℤ) (n : NodeInfo) :
  (s.setSuccessor i n).predecessor = s.predecessor ∧ (s.setSuccessor i n).hasPred = s.hasPred
  := by
  rw [setSuccessor]
  split
  · exact ⟨rfl, rfl⟩
  · exact ⟨rfl, rfl⟩

/-- Whether the entry `k` of the successor array is in use. -/
def Alive (s : NodeSelf) (k : Fin numOfSuccs) : Prop :=
  (s.successor k).IP ≠ 0

instance (s : NodeSelf) (k : Fin numOfSuccs) : Decidable (s.Alive k) :=
  inferInstanceAs (Decidable ((s.successor k).IP ≠ 0))

end NodeSelf

/-- The index of the first successor entry in use, `-1` when there is none. -/
@[irreducible]
def nodeFirstAliveSucc (self : NodeSelf) : ℤ :=
  match Fin.find? (fun i => (self.successor i).IP != 0) with
  | some i => i.val
  | none => -1

/-- What the code reads at the index of the first successor entry in use. -/
def NodeSelf.firstSucc (self : NodeSelf) : NodeInfo :=
  self.successorAt (nodeFirstAliveSucc self)

/-- The finger that the loop of `nodeClosestPrecedingNode` stops at: the one with the
highest number above `0` that is not null and lies in the range from the node to `id`. A
library built with `NOFINGER` has no such loop. -/
@[irreducible]
def closestFinger (self : NodeSelf) (id : HashType) : Option NodeInfo :=
  let stop (i : Fin idBits) : Bool :=
    let n := self.fingerTable i
    i.val > 0 && ((n.IP != 0 && n.port != 0 && n.id != 0)
      && nodeIdInRange n.id self.self.id id)
  if self.nofinger then none
  else (Fin.findRev? stop).map self.fingerTable

/-- The highest known predecessor of `id`: a finger, or else the first successor in use. -/
def nodeClosestPrecedingNode (self : NodeSelf) (id : HashType) : NodeInfo :=
  match closestFinger self id with
  | some n => n
  | none => self.firstSucc

/-- A finger entry that `nodeClosestPrecedingNode` passes over. -/
def NullFinger (e : NodeInfo) : Prop :=
  e.IP = 0 ∨ e.port = 0 ∨ e.id = 0

instance (e : NodeInfo) : Decidable (NullFinger e) :=
  inferInstanceAs (Decidable (_ ∨ _))

/-- `2 ^ n`, for positive `n`. -/
def twoToTheN (n : ℤ) : ℤ :=
  if n < 1 then 1 else 2 * 2 ^ (n - 1).toNat

/-- A notification that `node` believes itself to be the predecessor. -/
def nodeNotified (self : NodeSelf) (node : NodeInfo) : NodeSelf :=
  if !self.hasPred
      || nodeIdInRange node.id self.predecessor.id self.self.id
      || nodeIdCompare self.predecessor.id self.self.id == 0 then
    { self with predecessor := node, hasPred := true }
  else self

/-- The state after `node_create`, whose malloc found `mem`: `has_pred`, the finger table and
the handler for messages are left as they were. The identifier is `get_id` of the node's name. -/
def nodeCreate (mem : NodeSelf) (id : HashType) (listenPort : UInt16) : NodeSelf :=
  { mem with
    self := { id := id, IP := 0x7F000001, port := listenPort }
    predecessor := nullNode
    successor := fun _ => nullNode }

/-! ### The first successor in use -/

section FirstAlive

variable {s : NodeSelf}

theorem nodeFirstAliveSucc_eq_coe_iff {k : Fin numOfSuccs} :
  nodeFirstAliveSucc s = k.val ↔ s.Alive k ∧ ∀ j < k, ¬ s.Alive j
  := by
  unfold nodeFirstAliveSucc NodeSelf.Alive
  split
  · rename_i i hi
    obtain ⟨halive, hdead⟩ := Fin.find?_eq_some_iff.mp hi
    constructor
    · intro h
      obtain rfl : i = k := Fin.ext (by omega)
      simpa using And.intro halive hdead
    · rintro ⟨hk, hlt⟩
      have hki : ¬ k < i := by
        intro h
        simpa [hk] using hdead k h
      have hik : ¬ i < k := by
        intro h
        simp [hlt i h] at halive
      have : i = k := le_antisymm (not_lt.mp hki) (not_lt.mp hik)
      rw [this]
  · rename_i hnone
    constructor
    · intro h
      omega
    · rintro ⟨hk, -⟩
      have := Fin.find?_eq_none_iff.mp hnone k
      simp [hk] at this

theorem nodeFirstAliveSucc_eq_neg_one_iff :
  nodeFirstAliveSucc s = -1 ↔ ∀ k, ¬ s.Alive k
  := by
  unfold nodeFirstAliveSucc NodeSelf.Alive
  split
  · rename_i i hi
    constructor
    · intro h
      omega
    · intro h
      have := (Fin.find?_eq_some_iff.mp hi).1
      simp [not_not.mp (h i)] at this
  · rename_i hnone
    simpa using Fin.find?_eq_none_iff.mp hnone

/-- The search gives `-1` or an index of the array whose entry is in use. -/
theorem nodeFirstAliveSucc_cases (s : NodeSelf) :
  nodeFirstAliveSucc s = -1 ∧ (∀ k, ¬ s.Alive k)
    ∨ ∃ k : Fin numOfSuccs, nodeFirstAliveSucc s = k.val ∧ s.Alive k
  := by
  by_cases h : nodeFirstAliveSucc s = -1
  · left
    use h, nodeFirstAliveSucc_eq_neg_one_iff.mp h
  · right
    unfold nodeFirstAliveSucc at h ⊢
    split at h
    · rename_i i hi
      use i, rfl
      simpa [NodeSelf.Alive] using (Fin.find?_eq_some_iff.mp hi).1
    · exact absurd rfl h

/-- When the entry `0` is in use it is the first one. -/
theorem nodeFirstAliveSucc_of_alive_zero (h : s.Alive 0) :
  nodeFirstAliveSucc s = 0
  := by
  apply (nodeFirstAliveSucc_eq_coe_iff (k := 0)).mpr
  constructor
  · apply h
  · intro j hj
    exact absurd hj (Fin.not_lt_zero j)

theorem firstSucc_of_alive_zero (h : s.Alive 0) :
  s.firstSucc = s.successor 0
  := by
  rw [NodeSelf.firstSucc, nodeFirstAliveSucc_of_alive_zero h]
  apply s.successorAt_coe 0

/-- The search looks at the successor array only. -/
theorem nodeFirstAliveSucc_congr {s' : NodeSelf} (h : s'.successor = s.successor) :
  nodeFirstAliveSucc s' = nodeFirstAliveSucc s
  := by
  unfold nodeFirstAliveSucc
  rw [h]

theorem firstSucc_congr {s' : NodeSelf} (h : s'.successor = s.successor)
    (hout : s'.outside = s.outside) :
  s'.firstSucc = s.firstSucc
  := by
  rw [NodeSelf.firstSucc, nodeFirstAliveSucc_congr h, NodeSelf.firstSucc, NodeSelf.successorAt, h,
    hout]
  rfl

end FirstAlive

/-! ### The closest preceding node -/

/-- A finger chosen for `id` is not null and lies in the range from the node to `id`. -/
theorem closestFinger_spec {s : NodeSelf} {id : HashType} {n : NodeInfo}
    (h : closestFinger s id = some n) :
  (∃ i, s.fingerTable i = n) ∧ ¬ NullFinger n ∧ nodeIdInRange n.id s.self.id id = true
  := by
  unfold closestFinger at h
  split at h
  · cases h
  · obtain ⟨i, hi, rfl⟩ := Option.map_eq_some_iff.mp h
    have hstop := Fin.eq_true_of_findRev?_eq_some hi
    simp only [Bool.and_eq_true, bne_iff_ne, ne_eq] at hstop
    obtain ⟨-, ⟨⟨hIP, hport⟩, hid⟩, hrange⟩ := hstop
    refine ⟨⟨i, rfl⟩, ?_, hrange⟩
    rintro (h' | h' | h') <;> contradiction

/-- When a finger is in use and in the range from the node to `id`, the loop stops at it or
at one with a higher number. -/
theorem closestFinger_of_usable {s : NodeSelf} {id : HashType} (hbuilt : s.nofinger = false)
    {k : Fin idBits} (hk : k ≠ 0) (hnull : ¬ NullFinger (s.fingerTable k))
    (hrange : nodeIdInRange (s.fingerTable k).id s.self.id id = true) :
  ∃ j, k ≤ j ∧ closestFinger s id = some (s.fingerTable j)
    ∧ ¬ NullFinger (s.fingerTable j) ∧ nodeIdInRange (s.fingerTable j).id s.self.id id = true
  := by
  have hpos : 0 < k.val := Nat.pos_of_ne_zero fun h => hk (Fin.ext h)
  obtain ⟨hIP, hrest⟩ := not_or.mp hnull
  obtain ⟨hport, hid⟩ := not_or.mp hrest
  unfold closestFinger
  simp only [hbuilt, Bool.false_eq_true, if_false]
  cases hfind : Fin.findRev? fun i : Fin idBits => decide (i.val > 0)
      && (((s.fingerTable i).IP != 0 && (s.fingerTable i).port != 0 && (s.fingerTable i).id != 0)
        && nodeIdInRange (s.fingerTable i).id s.self.id id) with
  | none =>
    have hstop := Fin.findRev?_eq_none_iff.mp hfind k
    simp [hpos, hIP, hport, hid, hrange] at hstop
  | some j =>
    obtain ⟨hstop, habove⟩ := Fin.findRev?_eq_some_iff.mp hfind
    have hkj : k ≤ j := by
      apply not_lt.mp
      intro hlt
      have := habove k hlt
      simp [hpos, hIP, hport, hid, hrange] at this
    simp only [Bool.and_eq_true, bne_iff_ne, ne_eq] at hstop
    obtain ⟨-, ⟨⟨hIP', hport'⟩, hid'⟩, hrange'⟩ := hstop
    use j, hkj, rfl
    constructor
    · rintro (h | h | h) <;> contradiction
    · exact hrange'

/-- The node to ask is a finger in the range from the node to `id`, or the first successor
in use. -/
theorem nodeClosestPrecedingNode_cases (s : NodeSelf) (id : HashType) :
  closestFinger s id = some (nodeClosestPrecedingNode s id)
    ∨ nodeClosestPrecedingNode s id = s.firstSucc
  := by
  rw [nodeClosestPrecedingNode]
  cases hf : closestFinger s id with
  | none =>
    right
    rfl
  | some n =>
    left
    rfl
