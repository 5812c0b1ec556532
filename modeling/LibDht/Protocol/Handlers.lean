import LibDht.Node.Adopt
import LibDht.Protocol.Invariant

/-!
# What the operations of a joined node keep

A joined node that runs one of its operations keeps what the invariant says of its state,
and sends only requests and notifications that the invariant allows. The one exception is
a lookup that came in from another node: its answer is not a request, and is treated on its
own.
-/

open Circle

/-- A joined node in the course of an operation. -/
structure Running (c : HashType) (J : Set HashType) (i : HashType) (p : Process Outbox) :
    Prop where
  mem : i ∈ J
  peer : PeerOk c J i { node := p.node, joined := true }
  sent : ∀ a ∈ p.net.sent, SentOk J i a

namespace Running

variable {c i : HashType} {J : Set HashType} {p q : Process Outbox}

/-- An operation that starts. -/
theorem start {s : NodeSelf} (hi : i ∈ J) (h : PeerOk c J i { node := s, joined := true }) :
  Running c J i (idle s)
  := ⟨hi, h, fun a ha => by cases ha⟩

/-- What is locked and logged does not matter. -/
theorem congr (h : Running c J i p) (hnode : q.node = p.node) (hnet : q.net = p.net) :
  Running c J i q
  := ⟨h.mem, hnode ▸ h.peer, hnet ▸ h.sent⟩

/-- One more message is sent. -/
theorem send (h : Running c J i p) {a : Sent} (ha : SentOk J i a) (hnode : q.node = p.node)
    (hnet : q.net = ⟨p.net.sent ++ [a]⟩) :
  Running c J i q
  := by
  refine ⟨h.mem, hnode ▸ h.peer, ?_⟩
  intro b hb
  rw [hnet] at hb
  rcases List.mem_append.mp hb with hb | hb
  · apply h.sent b hb
  · rw [List.mem_singleton.mp hb]
    apply ha

/-! ### What the node knows -/

theorem self_id (h : Running c J i p) :
  p.node.self.id = i
  := h.peer.self_id

/-- The own entry of a joined node is one for a joined node. -/
theorem known_self (h : Running c J i p) :
  Known J p.node.self
  := ⟨h.self_id ▸ h.mem, h.peer.self_IP⟩

theorem alive_zero (h : Running c J i p) :
  p.node.Alive 0
  := (h.peer.succ rfl).1.IP_ne

/-- The first entry in use is the entry `0`. -/
theorem firstAlive (h : Running c J i p) :
  nodeFirstAliveSucc p.node = 0
  := nodeFirstAliveSucc_of_alive_zero h.alive_zero

theorem firstSucc_eq (h : Running c J i p) :
  p.node.firstSucc = p.node.successor 0
  := firstSucc_of_alive_zero h.alive_zero

theorem known_firstSucc (h : Running c J i p) :
  Known J p.node.firstSucc
  := h.firstSucc_eq ▸ (h.peer.succ rfl).1

theorem past_firstSucc (h : Running c J i p) :
  Past c i p.node.firstSucc.id
  := h.firstSucc_eq ▸ (h.peer.succ rfl).2

/-- The node that a lookup is forwarded to has joined. -/
theorem closest_mem (h : Running c J i p) (id : HashType) :
  (nodeClosestPrecedingNode p.node id).id ∈ J
  := by
  rcases nodeClosestPrecedingNode_cases p.node id with hf | hf
  · obtain ⟨⟨k, hk⟩, hnull, -⟩ := closestFinger_spec hf
    rw [← hk] at hnull ⊢
    apply ((h.peer.finger k).resolve_left hnull).1
  · rw [hf]
    apply h.known_firstSucc.id_mem

/-! ### Changes of the state -/

/-- An entry above the first one is written. -/
theorem setSucc_pos (h : Running c J i p) {k : ℤ} (hk : 1 ≤ k) (n : NodeInfo) :
  Running c J i (p.setSucc k n)
  := by
  refine ⟨h.mem, ?_, h.sent⟩
  have hzero : (p.node.setSuccessor k n).successor 0 = p.node.successor 0 := by
    apply NodeSelf.setSuccessor_successor_of_ne
    simp only [Fin.val_zero]
    omega
  have hrest : (p.node.setSuccessor k n) = { p.node with
      successor := (p.node.setSuccessor k n).successor } := by
    rw [NodeSelf.setSuccessor]
    split <;> rfl
  have hp := h.peer
  constructor
  · simpa using hp.self_id
  · simpa using hp.self_IP
  · rw [Process.setSucc_node, hrest]
    apply hp.pred
  · rw [Process.setSucc_node, hrest]
    apply hp.finger
  · intro hj
    rw [Process.setSucc_node]
    simp only [hzero]
    apply hp.succ hj

/-- The first entry is written, with a joined node that is not past `c`. -/
theorem setSucc_zero (h : Running c J i p) {n : NodeInfo} (hn : Known J n) (hpast : Past c i n.id) :
  Running c J i (p.setSucc 0 n)
  := by
  refine ⟨h.mem, ?_, h.sent⟩
  have hp := h.peer
  rw [Process.setSucc_node, NodeSelf.setSuccessor_zero]
  constructor
  · apply hp.self_id
  · apply hp.self_IP
  · apply hp.pred
  · apply hp.finger
  · intro _
    simp only [Function.update_self]
    exact ⟨hn, hpast⟩

/-- The node is notified by a joined one. -/
theorem notified {s : NodeSelf} (h : Running c J i (idle s)) {n : NodeInfo} (hn : Known J n) :
  Running c J i (idle (nodeNotified s n))
  := by
  apply start h.mem
  rw [nodeNotified]
  have hp := h.peer
  split_ifs
  · exact ⟨hp.self_id, hp.self_IP, fun _ => hn, hp.finger, hp.succ⟩
  · apply hp

/-! ### Requests -/

/-- A successor entry is asked for the node that comes after it. -/
theorem update_succ (h : Running c J i p) {k : ℤ} (hk : 0 ≤ k) (hk' : k < numOfSuccs - 1)
    (hn : (p.node.successorAt k).IP ≠ 0 → (p.node.successorAt k).id ∈ J) :
  Running c J i (nodeUpdateSucc p k)
  := by
  unfold nodeUpdateSucc
  dsimp only
  split_ifs with hIP
  · exact h.congr rfl rfl
  · apply h.send (a := .findSuccessor (p.node.successorAt k) ((p.node.successorAt k).id + 1)
      (.updateSuccsFound (k + 1)))
    · refine ⟨hn (by simpa using hIP), ⟨h.mem, by omega, ?_⟩, rfl⟩
      push_cast at hk' ⊢
      omega
    · rfl
    · rfl

theorem update_succs (h : Running c J i p) :
  Running c J i (nodeUpdateSuccs p)
  := by
  have hlock : Running c J i p.lock := h.congr rfl rfl
  have hup : Running c J i (nodeUpdateSucc p.lock 0) := by
    apply hlock.update_succ le_rfl (by decide)
    intro _
    apply (h.peer.succ rfl).1.id_mem
  unfold nodeUpdateSuccs
  dsimp only
  rw [hlock.firstAlive]
  exact hup.congr rfl rfl

theorem network_stabalize (h : Running c J i p) :
  Running c J i (nodeNetworkStabalize p)
  := by
  apply h.send (a := .predecessor p.node.firstSucc .stabilizeSpFound)
  · exact ⟨h.known_firstSucc.id_mem, rfl⟩
  · rfl
  · rfl

/-- The first successor is notified. -/
theorem notify_node (h : Running c J i p) :
  Running c J i (nodeNotifyNode p p.node.firstSucc)
  := by
  apply h.send (a := .notify p.node.firstSucc p.node.self.id p.node.self.port)
  · exact ⟨h.known_firstSucc.id_mem, h.self_id⟩
  · rfl
  · rfl

/-! ### A found node is handed to its callback -/

/-- The node for a successor entry above the first. -/
theorem update_succs_found (h : Running c J i p) {n : NodeInfo} (hn : Known J n) {k : ℤ}
    (hk : 1 ≤ k) (hk' : k < numOfSuccs) :
  Running c J i (nodeUpdateSuccsFound p n k)
  := by
  have hset : Running c J i (p.lock.setSucc k n) :=
    (h.congr (q := p.lock) rfl rfl).setSucc_pos hk n
  have hread : (p.lock.setSucc k n).node.successorAt k = n := by
    obtain ⟨j, rfl⟩ : ∃ j : Fin numOfSuccs, k = j.val := ⟨⟨k.toNat, by omega⟩, by simp; omega⟩
    simp [NodeSelf.setSuccessor_coe]
  unfold nodeUpdateSuccsFound
  dsimp only
  split_ifs with hlast
  · have hup : Running c J i (nodeUpdateSucc (p.lock.setSucc k n) k) := by
      apply hset.update_succ (by omega) hlast
      intro _
      rw [hread]
      apply hn.id_mem
    exact hup.congr rfl rfl
  · exact hset.congr rfl rfl

/-- The node for a finger. -/
theorem finger_update (h : Running c J i p) {n : NodeInfo} (hn : Known J n) (k : Fin idBits) :
  Running c J i (fingerUpdate p n k)
  := by
  refine ⟨h.mem, ?_, h.sent⟩
  have hp := h.peer
  refine ⟨hp.self_id, hp.self_IP, hp.pred, ?_, hp.succ⟩
  intro j
  by_cases hjk : j = k
  · subst hjk
    simp only [fingerUpdate, Function.update_self]
    split_ifs with hself
    · right
      use hn.id_mem
      rw [h.self_id] at hself
      intro heq
      apply hself (nodeIdCompare_eq_zero.mpr heq.symm)
    · left
      simp [NullFinger, nullNode]
  · simp only [fingerUpdate, Function.update_of_ne hjk]
    apply hp.finger j

/-- The predecessor of the first successor is adopted, when the rule says so. -/
theorem adopt (h : Running c J i p) {n : NodeInfo} (hn : n = nullNode ∨ Known J n) :
  Running c J i { p with node := adopted p.node n }
  := by
  by_cases hadopts : Adopts p.node n
  · obtain ⟨hsome, hwhere⟩ := adopts_iff.mp hadopts
    have hknown : Known J n := by
      apply hn.resolve_left
      rintro rfl
      simp [nullNode] at hsome
    have hpast : Past c i n.id := by
      have hs := h.past_firstSucc
      rw [h.self_id] at hwhere
      rcases hwhere with hself | ⟨hne, hle⟩
      · -- alone, so that the node is `c`
        rw [← hself] at hs
        rcases hs with rfl | hlt
        · apply past_self
        · exact absurd hlt (lt_irrefl _)
      · apply hs.shrink_right (Ne.symm hne) hle
    apply (h.setSucc_zero hknown hpast).congr
    · rw [adopted, if_pos hadopts, Process.setSucc_node, NodeSelf.setSuccessor_zero]
    · rfl
  · apply h.congr
    · rw [adopted, if_neg hadopts]
    · rfl

/-- The predecessor of the first successor, found for stabilisation. -/
theorem stabilize_sp_found (h : Running c J i p) {n : NodeInfo} (hn : n = nullNode ∨ Known J n) :
  Running c J i (nodeStabilizeSpFound p n)
  := by
  obtain ⟨hnode, hnet, -⟩ := nodeStabilizeSpFound_eq p n
  exact (h.adopt hn).notify_node.congr hnode hnet

/-- A found node is handed to a callback of the node itself, other than the one of its
join. -/
theorem found (h : Running c J i p) {cb : FoundCb} {id : HashType}
    (hcb : Waits J id { owner := i, cb := cb }) (hjoin : Net.joins cb = false) {n : NodeInfo}
    (hn : Known J n) (hops : Int16) :
  Running c J i (nodeFound p { cb := cb, node := n, hops := hops })
  := by
  have hemit : Running c J i (p.emit (.found cb n hops)) := h.congr rfl rfl
  cases cb with
  | networkJoinSuccFound arg => cases hjoin
  | stabilizeSpFound => exact absurd hcb not_false
  | updateSuccsFound k => exact hemit.update_succs_found hn hcb.2.1 hcb.2.2
  | fingerUpdate k => exact hemit.finger_update hn k
  | successorFoundForRemote d => exact absurd hcb not_false
  | app arg => exact hemit
  | freed => exact absurd hcb not_false

/-! ### Lookups and timers -/

/-- A lookup of the node itself, for a callback that may be called again if the identifier is
its own. -/
theorem find_successor (h : Running c J i p) {cb : FoundCb} {id : HashType}
    (hcb : Waits J id { owner := i, cb := cb }) (hjoin : Net.joins cb = false)
    (hown : i = id → cb.called = cb) :
  Running c J i (nodeFindSuccessor p id cb).2
  := by
  by_cases hid : p.node.self.id = id
  · rw [nodeFindSuccessor_self cb hid, hown (h.self_id.symm.trans hid)]
    have hself := h.found hcb hjoin h.known_self 0
    have htouch : Running c J i
      ((nodeFound p { cb := cb, node := p.node.self, hops := 0 }).touch (nodeFirstAliveSucc
        (nodeFound p { cb := cb, node := p.node.self, hops := 0 }).node)) := hself.congr rfl rfl
    have hboth := htouch.found hcb hjoin hself.known_firstSucc 0
    exact hboth.congr rfl rfl
  · by_cases hans : p.node.Answers id
    · rw [nodeFindSuccessor_answer cb hid hans]
      have htouch : Running c J i (p.lock.touch (nodeFirstAliveSucc p.node)) := h.congr rfl rfl
      have hfound := htouch.found hcb hjoin h.known_firstSucc 0
      exact hfound.congr rfl rfl
    · obtain ⟨q, hnode, hnet, -, hq⟩ := nodeFindSuccessor_forward cb hid hans
      rw [hq]
      apply (h.congr hnode hnet).send
        (a := .findSuccessor (nodeClosestPrecedingNode p.node id) id cb)
      · exact ⟨h.closest_mem id, hcb, hjoin⟩
      · rfl
      · rfl

theorem fix_fingers (h : Running c J i p) :
  Running c J i (nodeFixFingers p)
  := by
  rw [nodeFixFingers]
  induction List.range idBits generalizing p with
  | nil => apply h
  | cons k ks ih =>
    apply ih
    dsimp only
    rw [nodeFixAFinger]
    split_ifs with hk
    · apply h
    · apply h.find_successor
      · apply h.mem
      · rfl
      · intro hown
        exact absurd (hown.symm.trans h.self_id.symm) (fingerId_ne _ hk)

/-- What a timer starts. -/
theorem fire (h : Running c J i p) (t : Timer) :
  Running c J i (t.fire p)
  := by
  cases t with
  | stabilise => apply h.network_stabalize
  | updateSuccs => apply h.update_succs
  | fixFingers => apply h.fix_fingers

end Running

/-! ### Serving a lookup -/

section Serve

variable {c i id : HashType} {J : Set HashType} {s : NodeSelf}

/-- A joined node that is asked for the successor of an identifier not its own keeps its state.
It answers with a joined node, which is not past `c` as seen from the identifier when that is
not one of a joined node, or it asks a joined node. -/
theorem serve (h : Running c J i (idle s)) {id : HashType} (hne : i ≠ id) :
  (nodeFindSuccessor (idle s) id relay).2.node = s
    ∧ ((∃ n rest, Known J n ∧ (id ∉ J → Past c id n.id)
        ∧ ∀ frames, route i frames (nodeFindSuccessor (idle s) id relay).2.net.sent
          = [.succReply n rest frames])
      ∨ ∃ n : NodeInfo, n.id ∈ J
        ∧ ∀ frames, route i frames (nodeFindSuccessor (idle s) id relay).2.net.sent
          = [.succRequest n.id id ({ owner := i, cb := relay } :: frames)])
  := by
  have hself : (idle s).node.self.id = i := h.self_id
  have hid : (idle s).node.self.id ≠ id := hself ▸ hne
  by_cases hans : (idle s).node.Answers id
  · rw [nodeFindSuccessor_answer relay hid hans]
    refine ⟨rfl, Or.inl ⟨s.firstSucc, 1, h.known_firstSucc, ?_, fun frames => rfl⟩⟩
    intro hJ
    have hpast : Past c i s.firstSucc.id := h.past_firstSucc
    have hmem : s.firstSucc.id ∈ J := h.known_firstSucc.id_mem
    rw [NodeSelf.Answers, hself] at hans
    rcases hans with hrange | hone
    · apply hpast.shrink_left (nodeIdInRange_iff.mp hrange)
      rintro rfl
      apply hJ hmem
    · -- a node that is its own successor is `c`
      left
      change i = s.firstSucc.id at hone
      rw [← hone] at hpast ⊢
      exact hpast.resolve_right (lt_irrefl _)
  · obtain ⟨q, hnode, hnet, -, hq⟩ := nodeFindSuccessor_forward relay hid hans
    rw [hq]
    refine ⟨hnode, Or.inr ⟨nodeClosestPrecedingNode s id, h.closest_mem id, ?_⟩⟩
    intro frames
    simp only [nodeFindSuccessorRemote, Remote.findSuccessorRemote, hnet]
    rfl

end Serve
