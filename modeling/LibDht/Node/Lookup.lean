import LibDht.Node.Process
import Mathlib.Algebra.Group.Nat.Defs

/-!
# What one call of `node_find_successor` does

A node that is asked for the successor of an identifier other than its own either hands its
first successor to the callback, once, or asks one other node. That node is never the
asked one, and it is closer to the identifier: both its fingers in range and its first
successor lie on the arc from the node to the identifier. A node asked for its own
identifier hands itself to the callback, and then its first successor as well.
-/

/-- The first successor in use is the answer to a lookup of `id`: it is not met before `id`,
or the node knows of itself only. -/
def NodeSelf.Answers (s : NodeSelf) (id : HashType) : Prop :=
  nodeIdInRange id s.self.id s.firstSucc.id = true ∨ s.self.id = s.firstSucc.id

instance (s : NodeSelf) (id : HashType) : Decidable (s.Answers id) :=
  inferInstanceAs (Decidable (_ ∨ _))

/-- The argument of a callback that has been called is freed, or the callback may be called
again. -/
theorem FoundCb.called_cases (cb : FoundCb) :
  cb.called = .freed ∨ cb.called = cb
  := by
  cases cb with
  | fingerUpdate k => exact Or.inl rfl
  | successorFoundForRemote d => exact Or.inl rfl
  | _ => exact Or.inr rfl

section

variable {ν : Type} [Remote ν]

/-! ### Callbacks keep the node's own entry -/

@[simp]
theorem nodeFindSuccessorRemote_node (p : Process ν) (n : NodeInfo) (id : HashType)
    (cb : FoundCb) :
  (nodeFindSuccessorRemote p n id cb).2.node = p.node
  := rfl

@[simp]
theorem nodeUpdateSucc_node (p : Process ν) (succNum : ℤ) :
  (nodeUpdateSucc p succNum).node = p.node
  := by
  unfold nodeUpdateSucc
  dsimp only
  split <;> rfl

theorem nodeUpdateSuccsFound_node (p : Process ν) (found : NodeInfo) (succNum : ℤ) :
  (nodeUpdateSuccsFound p found succNum).node = p.node.setSuccessor succNum found
  := by
  unfold nodeUpdateSuccsFound
  dsimp only
  split
  · simp
  · simp

theorem nodeStabilizeSpFound_self (p : Process ν) (newSucc : NodeInfo) :
  (nodeStabilizeSpFound p newSucc).node.self = p.node.self
  := by
  rw [nodeStabilizeSpFound, nodeNotifyNode]
  dsimp only
  split_ifs <;> simp

/-- Handing a node to a callback leaves the node's own entry as it is. -/
@[simp]
theorem nodeFound_self (p : Process ν) (data : NodeFoundCbData) :
  (nodeFound p data).node.self = p.node.self
  := by
  unfold nodeFound
  dsimp only
  split
  · unfold nodeNetworkJoinSuccFound
    dsimp only
    split_ifs <;> simp
  · simp [nodeStabilizeSpFound_self]
  · simp [nodeUpdateSuccsFound_node]
  · rfl
  · rfl
  · rfl
  · rfl

/-! ### The three ways a lookup goes -/

/-- A lookup that the first successor in use is the answer to. -/
theorem nodeFindSuccessor_answer {p : Process ν} {id : HashType} (cb : FoundCb)
    (hne : p.node.self.id ≠ id) (h : p.node.Answers id) :
  nodeFindSuccessor p id cb
    = (0, (nodeFound (p.lock.touch (nodeFirstAliveSucc p.node))
        { cb := cb, node := p.node.firstSucc, hops := 0 }).unlock)
  := by
  rw [nodeFindSuccessor]
  have hcmp : ¬ (nodeIdCompare p.node.self.id id == 0) = true := by simp [hne]
  simp only [if_neg hcmp, Process.lock_node, Process.touch_node]
  rw [if_pos]
  · rfl
  · simpa [NodeSelf.Answers, NodeSelf.firstSucc] using h

/-- A lookup that another node has to be asked for, with what it does to the process. -/
theorem nodeFindSuccessor_forward_eq {p : Process ν} {id : HashType} (cb : FoundCb)
    (hne : p.node.self.id ≠ id) (h : ¬ p.node.Answers id) :
  nodeFindSuccessor p id cb
    = nodeFindSuccessorRemote
      (if (closestFinger p.node id).isNone = true then
        ((p.lock.touch (nodeFirstAliveSucc p.node)).unlock).touch (nodeFirstAliveSucc p.node)
      else (p.lock.touch (nodeFirstAliveSucc p.node)).unlock)
      (nodeClosestPrecedingNode p.node id) id cb
  := by
  rw [nodeFindSuccessor]
  have hcmp : ¬ (nodeIdCompare p.node.self.id id == 0) = true := by simp [hne]
  simp only [if_neg hcmp, Process.lock_node, Process.touch_node, Process.unlock_node]
  rw [if_neg]
  simpa [NodeSelf.Answers, NodeSelf.firstSucc] using h

/-- A lookup that another node has to be asked for. -/
theorem nodeFindSuccessor_forward {p : Process ν} {id : HashType} (cb : FoundCb)
    (hne : p.node.self.id ≠ id) (h : ¬ p.node.Answers id) :
  ∃ q : Process ν, q.node = p.node ∧ q.net = p.net
    ∧ (∃ us, q.log = p.log ++ us ∧ ∀ e ∈ us, e.Reads [nodeFirstAliveSucc p.node])
    ∧ nodeFindSuccessor p id cb
      = nodeFindSuccessorRemote q (nodeClosestPrecedingNode p.node id) id cb
  := by
  rw [nodeFindSuccessor_forward_eq cb hne h]
  refine ⟨_, ?_, ?_, ?_, rfl⟩
  · split_ifs <;> rfl
  · split_ifs <;> rfl
  · split_ifs
    · exact ⟨_, by simp; rfl, by simp [Event.Reads]⟩
    · exact ⟨_, by simp; rfl, by simp [Event.Reads]⟩

/-- A lookup of the node's own identifier: the node itself is handed to the callback, and
its first successor in use too, to the callback that has been called. -/
theorem nodeFindSuccessor_self {p : Process ν} {id : HashType} (cb : FoundCb)
    (heq : p.node.self.id = id) :
  let q := nodeFound p { cb := cb, node := p.node.self, hops := 0 }
  nodeFindSuccessor p id cb
    = (0, (nodeFound (q.touch (nodeFirstAliveSucc q.node))
        { cb := cb.called, node := q.node.firstSucc, hops := 0 }).unlock)
  := by
  subst heq
  rw [nodeFindSuccessor]
  have hcmp : (nodeIdCompare p.node.self.id p.node.self.id == 0) = true := by simp
  simp only [if_pos hcmp, Process.touch_node, nodeFound_self]
  rw [if_pos]
  · rfl
  · simp [nodeIdInRange_left]

end

/-! ### Progress of a lookup -/

/-- The node that a lookup of `id` is forwarded to is closer to `id` than the forwarding
node, when no finger carries the node's own identifier. -/
theorem nodeClosestPrecedingNode_closer {s : NodeSelf} {id : HashType}
    (hfinger : ∀ n, closestFinger s id = some n → n.id ≠ s.self.id)
    (h : ¬ s.Answers id) :
  Circle.clockwise (nodeClosestPrecedingNode s id).id id < Circle.clockwise s.self.id id
  := by
  rcases nodeClosestPrecedingNode_cases s id with hf | hf
  · obtain ⟨-, -, hrange⟩ := closestFinger_spec hf
    apply Circle.clockwise_lt_of_between (Ne.symm (hfinger _ hf))
    apply nodeIdInRange_iff.mp hrange
  · obtain ⟨hrange, hne⟩ := not_or.mp h
    rw [hf]
    apply Circle.clockwise_lt_of_between hne
    apply le_of_lt
    apply not_le.mp
    intro hle
    apply hrange (nodeIdInRange_iff.mpr hle)

/-! ### The identifiers of fingers -/

theorem twoToTheN_toNat (k : Fin idBits) (hk : k ≠ 0) :
  (twoToTheN ((k.val : ℤ) - 1)).toNat = 2 ^ (k.val - 1)
  := by
  have hpos : 0 < k.val := Nat.pos_of_ne_zero fun h => hk (Fin.ext h)
  rw [twoToTheN]
  split_ifs with hlt
  · rw [show k.val - 1 = 0 by omega]
    rfl
  · obtain ⟨j, hj⟩ : ∃ j, k.val = j + 2 := ⟨k.val - 2, by omega⟩
    rw [hj, show ((j + 2 : ℕ) : ℤ) - 1 - 1 = (j : ℤ) by omega, Int.toNat_natCast,
      show j + 2 - 1 = j + 1 by omega, pow_succ, mul_comm]
    exact Int.toNat_natCast (2 ^ j * 2)

/-- The finger number is added to the identifier as a power of two that is not a multiple of
the size of the circle. -/
theorem add_twoToTheN_ne (i : HashType) (k : Fin idBits) (hk : k ≠ 0) :
  i + (twoToTheN ((k.val : ℤ) - 1)).toNat.toUInt32 ≠ i
  := by
  have hlt : k.val < 32 := k.isLt
  have hpow : 2 ^ (k.val - 1) < 2 ^ 32 := Nat.pow_lt_pow_right (by omega) (by omega)
  have hpos : 0 < 2 ^ (k.val - 1) := Nat.two_pow_pos _
  rw [twoToTheN_toNat k hk]
  intro heq
  have hzero : (2 ^ (k.val - 1)).toUInt32 = 0 := by
    rwa [← UInt32.add_zero i, UInt32.add_assoc, UInt32.add_right_inj, UInt32.zero_add] at heq
  have hnat := congrArg UInt32.toNat hzero
  rw [Nat.toUInt32, UInt32.toNat_ofNat', Nat.mod_eq_of_lt hpow, UInt32.toNat_zero] at hnat
  omega

/-- No node looks itself up for a finger. -/
theorem fingerId_ne (i : HashType) {fingerNum : ℤ} (h : ¬ (fingerNum ≥ idBits ∨ fingerNum ≤ 0)) :
  i + (twoToTheN (fingerNum - 1)).toNat.toUInt32 ≠ i
  := by
  obtain ⟨k, rfl⟩ : ∃ k : Fin idBits, fingerNum = k.val := ⟨⟨fingerNum.toNat, by omega⟩, by simp; omega⟩
  apply add_twoToTheN_ne
  rintro rfl
  apply h
  right
  simp
