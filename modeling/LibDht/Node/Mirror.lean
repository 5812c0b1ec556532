import LibDht.Node.Locking

/-!
# One operation over two networks

An operation of a node looks at the state of the node, and never at the network that it
sends through: run over two networks it does the same to the node, and makes the same calls
in the same order.

* When a relation between two networks is kept by every call that is made to both,
  `Mirrors`, every operation keeps it, and leaves the two nodes in one state.
* Sending a list of messages is a fold of calls. What an operation does to any network is
  what sending the messages does that it puts into an `Outbox`, when the calls look at no
  more of the node than its own entry, which no operation changes.
-/

section

variable {ν μ : Type}

/-- Two processes with one state of the node, the entry `me` of which is its own, and with
networks that are related. -/
structure Like (me : NodeInfo) (R : ν → μ → Prop) (p : Process ν) (q : Process μ) : Prop where
  own : p.node.self = me
  node : q.node = p.node
  net : R p.net q.net

namespace Like

variable {me : NodeInfo} {R : ν → μ → Prop} {p : Process ν} {q : Process μ}

/-- What is done to neither the node nor the network. -/
theorem of_eq (h : Like me R p q) {p' : Process ν} {q' : Process μ} (hnode : p'.node = p.node)
    (hnet : p'.net = p.net) (hnode' : q'.node = q.node) (hnet' : q'.net = q.net) :
  Like me R p' q'
  := by
  constructor
  · rw [hnode, h.own]
  · rw [hnode, hnode', h.node]
  · rw [hnet, hnet']
    apply h.net

theorem emit (h : Like me R p q) (e e' : Event) :
  Like me R (p.emit e) (q.emit e')
  := h.of_eq rfl rfl rfl rfl

theorem lock (h : Like me R p q) :
  Like me R p.lock q.lock
  := h.of_eq rfl rfl rfl rfl

theorem unlock (h : Like me R p q) :
  Like me R p.unlock q.unlock
  := h.of_eq rfl rfl rfl rfl

theorem touch (h : Like me R p q) (i j : ℤ) :
  Like me R (p.touch i) (q.touch j)
  := h.of_eq rfl rfl rfl rfl

theorem setSucc (h : Like me R p q) (i : ℤ) (n : NodeInfo) :
  Like me R (p.setSucc i n) (q.setSucc i n)
  := by
  constructor
  · rw [Process.setSucc_node, NodeSelf.setSuccessor_self]
    apply h.own
  · rw [Process.setSucc_node, Process.setSucc_node, h.node]
  · apply h.net

/-- The nodes change to one state, with the same entry for the node itself. -/
theorem setNode (h : Like me R p q) {s : NodeSelf} (hs : s.self = me) :
  Like me R { p with node := s } { q with node := s }
  := ⟨hs, rfl, h.net⟩

/-- One test with two outcomes, made of both. -/
theorem ite {c c' : Prop} [Decidable c] [Decidable c'] (hc : c ↔ c') {p' : Process ν}
    {q' : Process μ} (h : Like me R p q) (h' : Like me R p' q') :
  Like me R (if c then p else p') (if c' then q else q')
  := by
  by_cases hcond : c
  · rw [if_pos hcond, if_pos (hc.mp hcond)]
    apply h
  · rw [if_neg hcond, if_neg (mt hc.mpr hcond)]
    apply h'

end Like

end

section

variable {ν μ : Type} [Remote ν] [Remote μ]

/-- The relation `R` is kept by the calls that a node with the entry `me` makes to both
networks. -/
structure Mirrors (me : NodeInfo) (R : ν → μ → Prop) : Prop where
  findSuccessorRemote : ∀ {x : ν} {y : μ}, R x y → ∀ {s : NodeSelf}, s.self = me →
    ∀ (n : NodeInfo) (id : HashType) (cb : FoundCb),
      R (Remote.findSuccessorRemote x s n id cb).2 (Remote.findSuccessorRemote y s n id cb).2
  getPredecessorRemote : ∀ {x : ν} {y : μ}, R x y → ∀ {s : NodeSelf}, s.self = me →
    ∀ (n : NodeInfo) (cb : FoundCb),
      R (Remote.getPredecessorRemote x s n cb) (Remote.getPredecessorRemote y s n cb)
  notifyNode : ∀ {x : ν} {y : μ}, R x y → ∀ {s : NodeSelf}, s.self = me →
    ∀ n : NodeInfo, R (Remote.notifyNode x s n) (Remote.notifyNode y s n)
  checkNode : ∀ {x : ν} {y : μ}, R x y → ∀ {s : NodeSelf}, s.self = me →
    ∀ (n : NodeInfo) (cb : CheckCb),
      R (Remote.checkNode x s n cb) (Remote.checkNode y s n cb)
  successorFoundForRemote : ∀ {x : ν} {y : μ}, R x y →
    ∀ (data : IncomingHandlerData) (n : NodeInfo) (hops : Int16),
      R (Remote.successorFoundForRemote x data n hops)
        (Remote.successorFoundForRemote y data n hops)
  useFreed : ∀ {x : ν} {y : μ}, R x y → R (Remote.useFreed x) (Remote.useFreed y)

variable {me : NodeInfo} {R : ν → μ → Prop} {p : Process ν} {q : Process μ}

/-! ### Requests and replies -/

theorem nodeFindSuccessorRemote_like (hR : Mirrors me R) (h : Like me R p q) (n : NodeInfo)
    (id : HashType) (cb : FoundCb) :
  Like me R (nodeFindSuccessorRemote p n id cb).2 (nodeFindSuccessorRemote q n id cb).2
  := by
  have hnet := hR.findSuccessorRemote h.net h.own n id cb
  refine ⟨h.own, h.node, ?_⟩
  dsimp only [nodeFindSuccessorRemote]
  rw [h.node]
  apply hnet

theorem nodeGetPredecessorRemote_like (hR : Mirrors me R) (h : Like me R p q) (n : NodeInfo)
    (cb : FoundCb) :
  Like me R (nodeGetPredecessorRemote p n cb) (nodeGetPredecessorRemote q n cb)
  := by
  have hnet := hR.getPredecessorRemote h.net h.own n cb
  refine ⟨h.own, h.node, ?_⟩
  dsimp only [nodeGetPredecessorRemote]
  rw [h.node]
  apply hnet

theorem nodeNotifyNode_like (hR : Mirrors me R) (h : Like me R p q) (n : NodeInfo) :
  Like me R (nodeNotifyNode p n) (nodeNotifyNode q n)
  := by
  have hnet := hR.notifyNode h.net h.own n
  refine ⟨h.own, h.node, ?_⟩
  dsimp only [nodeNotifyNode]
  rw [h.node]
  apply hnet

theorem nodeCheckNode_like (hR : Mirrors me R) (h : Like me R p q) (n : NodeInfo)
    (cb : CheckCb) :
  Like me R (nodeCheckNode p n cb) (nodeCheckNode q n cb)
  := by
  have hnet := hR.checkNode h.net h.own n cb
  refine ⟨h.own, h.node, ?_⟩
  dsimp only [nodeCheckNode]
  rw [h.node]
  apply hnet

/-! ### Callbacks for a found node -/

theorem nodeNetworkJoinSuccFound_like (h : Like me R p q) (arg : ℕ) (succ : NodeInfo) :
  Like me R (nodeNetworkJoinSuccFound p arg succ) (nodeNetworkJoinSuccFound q arg succ)
  := by
  have hset := h.setSucc 0 succ
  unfold nodeNetworkJoinSuccFound
  dsimp only
  split_ifs <;> exact hset.of_eq rfl rfl rfl rfl

theorem nodeStabilizeSpFound_like (hR : Mirrors me R) (h : Like me R p q)
    (newSucc : NodeInfo) :
  Like me R (nodeStabilizeSpFound p newSucc) (nodeStabilizeSpFound q newSucc)
  := by
  rw [nodeStabilizeSpFound, nodeStabilizeSpFound]
  dsimp only
  generalize hp : (if newSucc.port == 0 && newSucc.IP == 0 then p else _) = p'
  generalize hq : (if newSucc.port == 0 && newSucc.IP == 0 then q else _) = q'
  have hadopt : Like me R p' q' := by
    rw [← hp, ← hq]
    apply Like.ite Iff.rfl h
    apply Like.unlock
    apply Like.ite
    · simp only [Process.touch_node, Process.lock_node, h.node]
    · exact (h.lock.touch _ _).setSucc 0 newSucc
    · exact h.lock.touch _ _
  simp only [Process.touch_node, Process.lock_node, hadopt.node]
  apply Like.unlock
  apply nodeNotifyNode_like hR
  exact hadopt.lock.touch _ _

theorem nodeUpdateSucc_like (hR : Mirrors me R) (h : Like me R p q) (succNum : ℤ) :
  Like me R (nodeUpdateSucc p succNum) (nodeUpdateSucc q succNum)
  := by
  unfold nodeUpdateSucc
  simp only [Process.touch_node, h.node]
  apply Like.ite Iff.rfl
  · exact h.touch _ _
  · exact nodeFindSuccessorRemote_like hR (h.touch _ _) _ _ _

theorem nodeUpdateSuccsFound_like (hR : Mirrors me R) (h : Like me R p q) (found : NodeInfo)
    (succNum : ℤ) :
  Like me R (nodeUpdateSuccsFound p found succNum) (nodeUpdateSuccsFound q found succNum)
  := by
  have hset := h.lock.setSucc succNum found
  unfold nodeUpdateSuccsFound
  dsimp only
  split_ifs
  · exact (nodeUpdateSucc_like hR hset succNum).unlock
  · exact hset.unlock

omit [Remote ν] [Remote μ] in
theorem fingerUpdate_like (h : Like me R p q) (n : NodeInfo) (k : Fin idBits) :
  Like me R (fingerUpdate p n k) (fingerUpdate q n k)
  := by
  unfold fingerUpdate
  rw [h.node]
  apply h.setNode
  apply h.own

theorem nodeFound_like (hR : Mirrors me R) (h : Like me R p q) (data : NodeFoundCbData) :
  Like me R (nodeFound p data) (nodeFound q data)
  := by
  have hemit := h.emit (.found data.cb data.node data.hops) (.found data.cb data.node data.hops)
  unfold nodeFound
  dsimp only
  split
  · exact nodeNetworkJoinSuccFound_like hemit _ _
  · exact nodeStabilizeSpFound_like hR hemit _
  · exact nodeUpdateSuccsFound_like hR hemit _ _
  · exact fingerUpdate_like hemit _ _
  · exact ⟨h.own, h.node, hR.successorFoundForRemote h.net _ _ _⟩
  · apply hemit
  · exact ⟨h.own, h.node, hR.useFreed h.net⟩

/-! ### Finding a successor -/

/-- A lookup, when handing a node to a callback keeps the two processes alike. -/
theorem nodeFindSuccessorWith_like (hR : Mirrors me R)
    {found : Process ν → NodeFoundCbData → Process ν}
    {found' : Process μ → NodeFoundCbData → Process μ}
    (hfound : ∀ {p : Process ν} {q : Process μ} (data : NodeFoundCbData),
      Like me R p q → Like me R (found p data) (found' q data))
    (h : Like me R p q) (id : HashType) (cb : FoundCb) :
  Like me R (nodeFindSuccessorWith found p id cb).2 (nodeFindSuccessorWith found' q id cb).2
  := by
  simp only [nodeFindSuccessorWith, h.node]
  generalize (if nodeIdCompare p.node.self.id id == 0 then cb.called else cb) = cb'
  generalize hp : (if nodeIdCompare p.node.self.id id == 0 then
    found p { cb := cb, node := p.node.self, hops := 0 } else p.lock) = p'
  generalize hq : (if nodeIdCompare p.node.self.id id == 0 then
    found' q { cb := cb, node := p.node.self, hops := 0 } else q.lock) = q'
  have hfirst : Like me R p' q' := by
    rw [← hp, ← hq]
    apply Like.ite Iff.rfl
    · apply hfound _ h
    · apply h.lock
  rw [nodeFindSuccessorRest, nodeFindSuccessorRest, apply_ite Prod.snd, apply_ite Prod.snd]
  apply Like.ite
  · simp only [Process.touch_node, hfirst.node]
  · simp only [Process.touch_node, hfirst.node]
    exact (hfound _ (hfirst.touch _ _)).unlock
  · simp only [Process.touch_node, Process.unlock_node, hfirst.node]
    apply nodeFindSuccessorRemote_like hR
    apply Like.ite Iff.rfl
    · exact (hfirst.touch _ _).unlock.touch _ _
    · exact (hfirst.touch _ _).unlock

theorem nodeFindSuccessor_like (hR : Mirrors me R) (h : Like me R p q) (id : HashType)
    (cb : FoundCb) :
  Like me R (nodeFindSuccessor p id cb).2 (nodeFindSuccessor q id cb).2
  := nodeFindSuccessorWith_like hR (fun data h => nodeFound_like hR h data) h id cb

/-! ### What the timers start -/

theorem nodeNetworkStabalize_like (hR : Mirrors me R) (h : Like me R p q) :
  Like me R (nodeNetworkStabalize p) (nodeNetworkStabalize q)
  := by
  unfold nodeNetworkStabalize
  simp only [Process.touch_node, h.node]
  exact nodeGetPredecessorRemote_like hR (h.touch _ _) _ _

theorem nodeUpdateSuccs_like (hR : Mirrors me R) (h : Like me R p q) :
  Like me R (nodeUpdateSuccs p) (nodeUpdateSuccs q)
  := by
  unfold nodeUpdateSuccs
  simp only [Process.lock_node, h.node]
  exact (nodeUpdateSucc_like hR h.lock _).unlock

theorem nodeFixAFinger_like (hR : Mirrors me R) (h : Like me R p q) (fingerNum : ℤ) :
  Like me R (nodeFixAFinger p fingerNum) (nodeFixAFinger q fingerNum)
  := by
  rw [nodeFixAFinger, nodeFixAFinger, h.node]
  split_ifs
  · apply h
  · exact nodeFindSuccessor_like hR h _ _

theorem nodeFixFingers_like (hR : Mirrors me R) (h : Like me R p q) :
  Like me R (nodeFixFingers p) (nodeFixFingers q)
  := by
  rw [nodeFixFingers, nodeFixFingers]
  generalize List.range idBits = fnums
  induction fnums generalizing p q with
  | nil => apply h
  | cons fnum fnums ih =>
    apply ih
    exact nodeFixAFinger_like hR h _

theorem nodeCheckSuccessors_like (hR : Mirrors me R) (h : Like me R p q) :
  Like me R (nodeCheckSuccessors p) (nodeCheckSuccessors q)
  := by
  rw [nodeCheckSuccessors, nodeCheckSuccessors]
  generalize List.finRange numOfSuccs = ks
  induction ks generalizing p q with
  | nil => apply h
  | cons k ks ih =>
    apply ih
    simp only [Process.touch_node, h.node]
    apply Like.ite Iff.rfl
    · exact nodeCheckNode_like hR (h.touch _ _) _ _
    · exact h.touch _ _

theorem nodeCheckPredecessor_like (hR : Mirrors me R) (h : Like me R p q) :
  Like me R (nodeCheckPredecessor p) (nodeCheckPredecessor q)
  := by
  rw [nodeCheckPredecessor, nodeCheckPredecessor, h.node]
  split_ifs
  · apply h
  · exact nodeCheckNode_like hR h _ _

/-! ### Entering a network -/

theorem nodeNetworkJoined_like (hR : Mirrors me R) (h : Like me R p q) (arg : ℕ) :
  Like me R (nodeNetworkJoined p arg) (nodeNetworkJoined q arg)
  := by
  apply nodeFixFingers_like hR
  apply nodeUpdateSuccs_like hR
  apply nodeNetworkStabalize_like hR
  apply h.emit

theorem nodeNetworkJoin_like (hR : Mirrors me R) (h : Like me R p q) (n : NodeInfo)
    (arg : ℕ) :
  Like me R (nodeNetworkJoin p n arg) (nodeNetworkJoin q n arg)
  := by
  rw [nodeNetworkJoin, nodeNetworkJoin, h.node]
  apply nodeFindSuccessorRemote_like hR
  apply h.setNode
  apply h.own

theorem nodeNetworkCreate_like (h : Like me R p q) (arg : ℕ) :
  Like me R (nodeNetworkCreate p arg).2 (nodeNetworkCreate q arg).2
  := by
  have hset := h.setSucc 0 p.node.self
  have hself : (p.setSucc 0 p.node.self).node.self = me := hset.own
  rw [nodeNetworkCreate, nodeNetworkCreate, h.node]
  dsimp only
  rw [hset.node]
  have hnode := hset.setNode
    (s := { (p.setSucc 0 p.node.self).node with
      predecessor := (p.setSucc 0 p.node.self).node.self, hasPred := true }) hself
  split_ifs <;> exact hnode.of_eq rfl rfl rfl rfl

end
