import LibDht.Node.Process

/-!
# The two rules of stabilisation

A node that is told the predecessor of its first successor adopts it as its first successor
when it lies between the two, or when the node is its own first successor. A node that is
notified adopts the notifying node as its predecessor when it lies between the predecessor
and the node, or when there is no other predecessor.
-/

open Circle Function

/-- The rule by which a node adopts the predecessor of its first successor as its first
successor. -/
def Adopts (s : NodeSelf) (n : NodeInfo) : Prop :=
  (n.port ≠ 0 ∨ n.IP ≠ 0)
    ∧ (nodeIdCompare s.self.id s.firstSucc.id = 0
      ∨ nodeIdInRange n.id (s.self.id + 1) s.firstSucc.id = true)

instance (s : NodeSelf) (n : NodeInfo) : Decidable (Adopts s n) :=
  inferInstanceAs (Decidable (_ ∧ _))

/-- The state of a node that has been told the predecessor of its first successor. -/
def adopted (s : NodeSelf) (n : NodeInfo) : NodeSelf :=
  if Adopts s n then { s with successor := update s.successor 0 n } else s

section Rules

variable {s : NodeSelf} {n : NodeInfo}

/-- What is adopted lies strictly after the node and not after its first successor, unless
the node is its own first successor. -/
theorem adopts_iff :
  Adopts s n ↔ (n.port ≠ 0 ∨ n.IP ≠ 0)
    ∧ (s.self.id = s.firstSucc.id
      ∨ n.id ≠ s.self.id ∧ clockwise s.self.id n.id ≤ clockwise s.self.id s.firstSucc.id)
  := by
  rw [Adopts, nodeIdCompare_eq_zero]
  by_cases heq : s.self.id = s.firstSucc.id
  · simp [heq]
  · rw [nodeIdInRange_succ_iff heq]

theorem adopted_firstSucc_of_adopts (hn : n.IP ≠ 0) (h : Adopts s n) :
  (adopted s n).firstSucc = n
  := by
  rw [adopted, if_pos h, firstSucc_of_alive_zero]
  · simp
  · simpa [NodeSelf.Alive] using hn

/-- Adoption writes to the successor array only. -/
theorem adopted_rest (s : NodeSelf) (n : NodeInfo) :
  (adopted s n).predecessor = s.predecessor ∧ (adopted s n).hasPred = s.hasPred
    ∧ (adopted s n).self = s.self
  := by
  rw [adopted]
  split_ifs
  · exact ⟨rfl, rfl, rfl⟩
  · exact ⟨rfl, rfl, rfl⟩

/-- Adoption leaves the entries after the first one as they are. -/
theorem adopted_successor_of_ne (s : NodeSelf) (n : NodeInfo) {k : Fin numOfSuccs} (hk : k ≠ 0) :
  (adopted s n).successor k = s.successor k
  := by
  rw [adopted]
  split_ifs
  · apply update_of_ne hk
  · rfl

end Rules

/-! ### The two parts of stabilisation -/

section Parts

variable {ν : Type} [Remote ν]

omit [Remote ν] in
/-- The first part of `nodeStabilizeSpFound`: the node is adopted by the rule. -/
def adoptSucc (p : Process ν) (n : NodeInfo) : Process ν :=
  if n.port == 0 && n.IP == 0 then p
  else
    let q := p.lock.touch (nodeFirstAliveSucc p.node)
    let q := if Adopts p.node n then q.setSucc 0 n else q
    q.unlock

/-- The second part of `nodeStabilizeSpFound`: the first successor in use is notified. -/
def notifyFirstSucc (p : Process ν) : Process ν :=
  (nodeNotifyNode (p.lock.touch (nodeFirstAliveSucc p.node)) p.node.firstSucc).unlock

theorem nodeStabilizeSpFound_parts (p : Process ν) (n : NodeInfo) :
  nodeStabilizeSpFound p n = notifyFirstSucc (adoptSucc p n)
  := by
  rw [nodeStabilizeSpFound, adoptSucc]
  by_cases hnull : (n.port == 0 && n.IP == 0) = true
  · simp only [if_pos hnull]
    rfl
  · simp only [if_neg hnull]
    have hcond : Adopts p.node n ↔ (nodeIdCompare p.node.self.id p.node.firstSucc.id == 0
        || nodeIdInRange n.id (p.node.self.id + 1) p.node.firstSucc.id) = true := by
      rw [Adopts]
      simp only [Bool.and_eq_true, beq_iff_eq, not_and_or] at hnull
      simp [hnull]
    simp only [hcond]
    rfl

omit [Remote ν] in
/-- The adoption reads and writes the successor array, and does nothing else. -/
theorem adoptSucc_eq (p : Process ν) (n : NodeInfo) :
  (adoptSucc p n).node = adopted p.node n ∧ (adoptSucc p n).net = p.net
    ∧ ∃ us, (adoptSucc p n).log = p.log ++ us
      ∧ ∀ e ∈ us, e.Reads [nodeFirstAliveSucc p.node, 0]
  := by
  rw [adoptSucc, adopted]
  split_ifs with hnull hyes hyes
  · simp only [Bool.and_eq_true, beq_iff_eq] at hnull
    rcases hyes.1 with h | h
    · exact absurd hnull.1 h
    · exact absurd hnull.2 h
  · exact ⟨rfl, rfl, [], by simp, by simp⟩
  · refine ⟨NodeSelf.setSuccessor_zero _ n, rfl, [.lock p.succsLock,
      .succIndex (nodeFirstAliveSucc p.node), .succIndex 0, .unlock true], ?_, ?_⟩
    · simp only [Process.unlock_log, Process.setSucc_log, Process.touch_log, Process.lock_log,
        List.append_assoc, List.cons_append, List.nil_append]
      rfl
    · simp [Event.Reads]
  · refine ⟨rfl, rfl, [.lock p.succsLock, .succIndex (nodeFirstAliveSucc p.node), .unlock true],
      ?_, ?_⟩
    · simp only [Process.unlock_log, Process.touch_log, Process.lock_log, List.append_assoc,
        List.cons_append, List.nil_append]
      rfl
    · simp [Event.Reads]

/-- What stabilisation does with the predecessor of the first successor: it adopts it by the
rule, and notifies the node that is its first successor then. The successor array is
searched before, when there is a node to adopt, and after. -/
theorem nodeStabilizeSpFound_eq (p : Process ν) (n : NodeInfo) :
  let q := nodeStabilizeSpFound p n
  q.node = adopted p.node n
    ∧ q.net = Remote.notifyNode p.net (adopted p.node n) (adopted p.node n).firstSucc
    ∧ ∃ us, q.log = p.log ++ us
      ∧ ∀ e ∈ us, e.Reads [nodeFirstAliveSucc p.node, 0, nodeFirstAliveSucc (adopted p.node n)]
  := by
  obtain ⟨hnode, hnet, us, hlog, hus⟩ := adoptSucc_eq p n
  rw [nodeStabilizeSpFound_parts, ← hnode, ← hnet]
  generalize adoptSucc p n = q at hlog
  refine ⟨rfl, rfl, us ++ [.lock q.succsLock, .succIndex (nodeFirstAliveSucc q.node),
    .unlock true], ?_, ?_⟩
  · have hnotify : (notifyFirstSucc q).log = q.log ++ [.lock q.succsLock,
        .succIndex (nodeFirstAliveSucc q.node), .unlock true] := by
      simp only [notifyFirstSucc, nodeNotifyNode, Process.unlock_log, Process.touch_log,
        Process.lock_log, List.append_assoc, List.cons_append, List.nil_append]
      rfl
    rw [hnotify, hlog, List.append_assoc]
  · intro e he
    rcases List.mem_append.mp he with he | he
    · have hread := hus e he
      cases e with
      | succIndex i =>
        simp only [Event.Reads, List.mem_cons, List.not_mem_nil, or_false] at hread ⊢
        tauto
      | lock held => trivial
      | unlock held => trivial
      | _ => exact hread
    · simp only [List.mem_cons, List.not_mem_nil, or_false] at he
      rcases he with rfl | rfl | rfl <;> simp [Event.Reads]

end Parts

section Rules

variable {s : NodeSelf} {n : NodeInfo}

/-- A notification leaves everything but the predecessor as it is. -/
theorem nodeNotified_firstSucc (s : NodeSelf) (n : NodeInfo) :
  (nodeNotified s n).firstSucc = s.firstSucc
  := by
  rw [nodeNotified]
  split_ifs
  · exact firstSucc_congr rfl rfl
  · rfl

/-- A node that a notification leaves its predecessor, by identifier, has one, which is the
notifying node or lies so that the notifying node is not between. -/
theorem nodeNotified_unchanged (hid : (nodeNotified s n).predecessor.id = s.predecessor.id)
    (hpred : (nodeNotified s n).hasPred = s.hasPred) :
  s.hasPred = true ∧ (s.predecessor.id = n.id
    ∨ ¬ clockwise s.predecessor.id n.id ≤ clockwise s.predecessor.id s.self.id
      ∧ s.predecessor.id ≠ s.self.id)
  := by
  unfold nodeNotified at hid hpred
  split_ifs at hid hpred with h
  · exact ⟨hpred.symm, Or.inl hid.symm⟩
  · simp only [Bool.or_eq_true, Bool.not_eq_true', beq_iff_eq, nodeIdCompare_eq_zero, not_or,
      Bool.not_eq_false] at h
    obtain ⟨⟨hhas, hrange⟩, hne⟩ := h
    refine ⟨hhas, Or.inr ⟨?_, hne⟩⟩
    intro hle
    apply hrange (nodeIdInRange_iff.mpr hle)

end Rules
