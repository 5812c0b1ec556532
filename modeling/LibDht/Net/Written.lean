import LibDht.Net.Erasure
import LibDht.Node.Bounds

/-!
# What a node has written

The memory of a node that nobody has written is its finger table, the handler for messages,
the flag that tells whether it has a predecessor, and what is outside of the successor array. A
finger is written when a node is handed to its callback, and the handler when the application
sets it, which are in the log; the flag is written when the node enters a network, which
`entered` tells. Erasing a process puts zero in the place of what is not written, and of the
hops that a callback is called with and does not look at.

The operations of a node do to an erased process what they do to the process, erased, when
what they read has been written: the successor array has an entry in use when it is
searched, a search of the finger table looks at fingers that are written, or null, and no
callback is called with an argument that it has freed.
-/

/-- The callback looks at the hops that a node was found in. -/
def FoundCb.readsHops : FoundCb → Bool
  | .successorFoundForRemote _ | .app _ => true
  | _ => false

/-- An event, less what its callback does not look at. -/
def Event.shown : Event → Event
  | .found cb node hops => .found cb node (if cb.readsHops then hops else 0)
  | e => e

/-- The callback of the event writes the finger `k`. -/
def Event.writesFinger (k : Fin idBits) : Event → Bool
  | .found (.fingerUpdate j) _ _ => j == k
  | _ => false

/-- The application sets its handler for messages. -/
def Event.writesHandler : Event → Bool
  | .nodeMsgHandler _ _ => true
  | _ => false

/-- An event that writes no finger, and not the handler either. -/
structure Event.Plain (e : Event) : Prop where
  finger : ∀ k, e.writesFinger k = false
  handler : e.writesHandler = false

/-- The finger `k` has been written. -/
def FingerWritten (log : List Event) (k : Fin idBits) : Prop :=
  log.any (Event.writesFinger k) = true

instance (log : List Event) (k : Fin idBits) : Decidable (FingerWritten log k) :=
  inferInstanceAs (Decidable (_ = true))

/-- The handler for messages has been set. -/
def HandlerWritten (log : List Event) : Prop :=
  log.any Event.writesHandler = true

instance (log : List Event) : Decidable (HandlerWritten log) :=
  inferInstanceAs (Decidable (_ = true))

/-- The state of a node, less what nobody has written. -/
def NodeSelf.erased (entered : Bool) (log : List Event) (s : NodeSelf) : NodeSelf :=
  { s with
    hasPred := entered && s.hasPred
    fingerTable := fun k => if FingerWritten log k then s.fingerTable k else nullNode
    msgCb := if HandlerWritten log then s.msgCb else 0
    msgCbArg := if HandlerWritten log then s.msgCbArg else 0
    outside := fun _ => nullNode }

/-- A process, less what nobody has written. -/
def Process.erased (entered : Bool) (p : NodeProcess) : NodeProcess where
  node := p.node.erased entered p.log
  net := NodeNet.erased p.net
  succsLock := p.succsLock
  log := p.log.map Event.shown

/-! ### The state of a node -/

theorem fingerWritten_append {log : List Event} {e : Event} (k : Fin idBits) :
  FingerWritten (log ++ [e]) k ↔ FingerWritten log k ∨ e.writesFinger k = true
  := by
  simp [FingerWritten]

theorem handlerWritten_append {log : List Event} {e : Event} :
  HandlerWritten (log ++ [e]) ↔ HandlerWritten log ∨ e.writesHandler = true
  := by
  simp [HandlerWritten]

namespace NodeSelf

variable {entered : Bool} {log : List Event} {s : NodeSelf}

@[simp] theorem erased_self : (s.erased entered log).self = s.self := rfl
@[simp] theorem erased_successor : (s.erased entered log).successor = s.successor := rfl
@[simp] theorem erased_predecessor : (s.erased entered log).predecessor = s.predecessor := rfl
@[simp] theorem erased_nofinger : (s.erased entered log).nofinger = s.nofinger := rfl
@[simp] theorem erased_hasPred : (s.erased true log).hasPred = s.hasPred := rfl

theorem erased_append {e : Event} (he : e.Plain) :
  s.erased entered (log ++ [e]) = s.erased entered log
  := by
  have hwritten : ∀ k, FingerWritten (log ++ [e]) k ↔ FingerWritten log k := by
    intro k
    rw [fingerWritten_append, he.finger k]
    simp
  have hhandler : HandlerWritten (log ++ [e]) ↔ HandlerWritten log := by
    rw [handlerWritten_append, he.handler]
    simp
  simp only [erased, hwritten, hhandler]

@[simp]
theorem nodeFirstAliveSucc_erased :
  nodeFirstAliveSucc (s.erased entered log) = nodeFirstAliveSucc s
  := nodeFirstAliveSucc_congr rfl

/-- An entry of the successor array is the same in the erased state. -/
theorem successorAt_erased {i : ℤ} (hi : 0 ≤ i ∧ i < numOfSuccs) :
  (s.erased entered log).successorAt i = s.successorAt i
  := by
  rw [successorAt, successorAt, succSlot, dif_pos hi]
  rfl

/-- The first entry in use is the same in the erased state. -/
theorem firstSucc_erased (h : ∃ k, s.Alive k) (entered : Bool) (log : List Event) :
  (s.erased entered log).firstSucc = s.firstSucc
  := by
  rw [firstSucc, nodeFirstAliveSucc_erased]
  exact successorAt_erased (nodeFirstAliveSucc_inBounds h)

theorem setSuccessor_erased (i : ℤ) (n : NodeInfo) :
  (s.erased entered log).setSuccessor i n = (s.setSuccessor i n).erased entered log
  := by
  rw [setSuccessor, setSuccessor]
  cases succSlot i with
  | none => rfl
  | some k => rfl

end NodeSelf

namespace Process

variable {entered : Bool} {p : NodeProcess}

@[simp] theorem erased_node : (p.erased entered).node = p.node.erased entered p.log := rfl
@[simp] theorem erased_net : (p.erased entered).net = NodeNet.erased p.net := rfl

/-- An event that writes no finger is seen by the erased process as it is shown. -/
theorem emit_erased (entered : Bool) (p : NodeProcess) {e : Event} (he : e.Plain) :
  (p.erased entered).emit e.shown = (p.emit e).erased entered
  := by
  simp [emit, erased, NodeSelf.erased_append he]

@[simp]
theorem lock_erased :
  (p.erased entered).lock = p.lock.erased entered
  := by
  have h := emit_erased entered p (e := .lock p.succsLock) ⟨fun _ => rfl, rfl⟩
  exact congrArg (fun q : NodeProcess => { q with succsLock := true }) h

@[simp]
theorem unlock_erased :
  (p.erased entered).unlock = p.unlock.erased entered
  := by
  have h := emit_erased entered p (e := .unlock p.succsLock) ⟨fun _ => rfl, rfl⟩
  exact congrArg (fun q : NodeProcess => { q with succsLock := false }) h

@[simp]
theorem touch_erased (i : ℤ) :
  (p.erased entered).touch i = (p.touch i).erased entered
  := emit_erased entered p (e := .succIndex i) ⟨fun _ => rfl, rfl⟩

@[simp]
theorem setSucc_erased (i : ℤ) (n : NodeInfo) :
  (p.erased entered).setSucc i n = (p.setSucc i n).erased entered
  := by
  have hplain : (Event.succIndex i).Plain := ⟨fun _ => rfl, rfl⟩
  rw [setSucc, setSucc, touch_erased]
  simp only [erased, touch_log, NodeSelf.erased_append hplain, NodeSelf.setSuccessor_erased]

end Process

/-! ### The operations of a node -/

section

variable {entered : Bool} {p : NodeProcess}

@[simp]
theorem nodeFindSuccessorRemote_erased (n : NodeInfo) (i : HashType) (cb : FoundCb) :
  nodeFindSuccessorRemote (p.erased entered) n i cb
    = Prod.map id (Process.erased entered) (nodeFindSuccessorRemote p n i cb)
  := by
  rw [nodeFindSuccessorRemote, nodeFindSuccessorRemote]
  have hnet : Remote.findSuccessorRemote (p.erased entered).net (p.erased entered).node n i cb
      = Prod.map id NodeNet.erased (Remote.findSuccessorRemote p.net p.node n i cb)
    := NodeNet.findSuccessorRemote_erased p.net n i cb
  rw [hnet]
  rcases Remote.findSuccessorRemote p.net p.node n i cb with ⟨rc, net⟩
  have hemit := Process.emit_erased entered p (e := .asked cb rc) ⟨fun _ => rfl, rfl⟩
  exact congrArg (fun q : NodeProcess => (rc, { q with net := NodeNet.erased net })) hemit

@[simp]
theorem nodeGetPredecessorRemote_erased (n : NodeInfo) (cb : FoundCb) :
  nodeGetPredecessorRemote (p.erased entered) n cb
    = (nodeGetPredecessorRemote p n cb).erased entered
  := by
  rw [nodeGetPredecessorRemote, nodeGetPredecessorRemote]
  have hnet : Remote.getPredecessorRemote (p.erased entered).net (p.erased entered).node n cb
      = NodeNet.erased (Remote.getPredecessorRemote p.net p.node n cb)
    := NodeNet.getPredecessorRemote_erased p.net n cb
  rw [hnet]
  have hemit := Process.emit_erased entered p (e := .asked cb 0) ⟨fun _ => rfl, rfl⟩
  exact congrArg (fun q : NodeProcess => { q with
    net := NodeNet.erased (Remote.getPredecessorRemote p.net p.node n cb) }) hemit

@[simp]
theorem nodeCheckNode_erased (n : NodeInfo) (cb : CheckCb) :
  nodeCheckNode (p.erased entered) n cb = (nodeCheckNode p n cb).erased entered
  := by
  rw [nodeCheckNode, nodeCheckNode]
  have hnet : Remote.checkNode (p.erased entered).net (p.erased entered).node n cb
      = NodeNet.erased (Remote.checkNode p.net p.node n cb)
    := NodeNet.checkNode_erased p.net n cb
  rw [hnet]
  have hemit := Process.emit_erased entered p (e := .probed cb) ⟨fun _ => rfl, rfl⟩
  exact congrArg (fun q : NodeProcess => { q with
    net := NodeNet.erased (Remote.checkNode p.net p.node n cb) }) hemit

@[simp]
theorem nodeNotifyNode_erased (n : NodeInfo) :
  nodeNotifyNode (p.erased entered) n = (nodeNotifyNode p n).erased entered
  := by
  rw [nodeNotifyNode, nodeNotifyNode]
  have hnet : Remote.notifyNode (p.erased entered).net (p.erased entered).node n
      = NodeNet.erased (Remote.notifyNode p.net p.node n)
    := NodeNet.notifyNode_erased p.net p.node.self n
  rw [hnet]
  rfl

@[simp]
theorem nodeSuccessorFoundForRemote_erased (data : IncomingHandlerData) (succ : NodeInfo)
    (hops : Int16) :
  nodeSuccessorFoundForRemote (p.erased entered) data succ hops
    = (nodeSuccessorFoundForRemote p data succ hops).erased entered
  := by
  rw [nodeSuccessorFoundForRemote, nodeSuccessorFoundForRemote]
  have hnet : Remote.successorFoundForRemote (p.erased entered).net data succ hops
      = NodeNet.erased (Remote.successorFoundForRemote p.net data succ hops)
    := NodeNet.successorFoundForRemote_erased p.net data succ hops
  rw [hnet]
  rfl

/-- The last part of creating and of joining a network: the event for its callback is
activated. -/
def activateJoined (p : NodeProcess) (joinedCbArg : ℕ) : NodeProcess :=
  if Remote.eventNew p.net then p.emit (.joinActivated joinedCbArg) else p

theorem activateJoined_erased (joinedCbArg : ℕ) :
  activateJoined (p.erased entered) joinedCbArg = (activateJoined p joinedCbArg).erased entered
  := by
  have hnew : Remote.eventNew (p.erased entered).net = Remote.eventNew p.net := rfl
  rw [activateJoined, activateJoined, hnew]
  split_ifs
  · exact Process.emit_erased entered p (e := .joinActivated joinedCbArg) ⟨fun _ => rfl, rfl⟩
  · rfl

theorem nodeNetworkJoinSuccFound_erased (joinedCbArg : ℕ) (succ : NodeInfo) :
  nodeNetworkJoinSuccFound (p.erased entered) joinedCbArg succ
    = (nodeNetworkJoinSuccFound p joinedCbArg succ).erased entered
  := by
  have hset : (p.erased entered).setSucc 0 succ = (p.setSucc 0 succ).erased entered :=
    Process.setSucc_erased 0 succ
  rw [nodeNetworkJoinSuccFound, nodeNetworkJoinSuccFound, hset]
  exact activateJoined_erased joinedCbArg

theorem nodeUpdateSucc_erased {i : ℤ} (hi : 0 ≤ i ∧ i < numOfSuccs) :
  nodeUpdateSucc (p.erased entered) i = (nodeUpdateSucc p i).erased entered
  := by
  rw [nodeUpdateSucc, nodeUpdateSucc]
  simp only [Process.touch_erased, Process.erased_node, NodeSelf.successorAt_erased hi,
    nodeFindSuccessorRemote_erased]
  split_ifs
  · rfl
  · rfl

theorem nodeUpdateSuccsFound_erased (found : NodeInfo) {succNum : ℤ} (h : 0 ≤ succNum) :
  nodeUpdateSuccsFound (p.erased entered) found succNum
    = (nodeUpdateSuccsFound p found succNum).erased entered
  := by
  rw [nodeUpdateSuccsFound, nodeUpdateSuccsFound]
  simp only [Process.lock_erased, Process.setSucc_erased]
  split_ifs with hlt
  · rw [nodeUpdateSucc_erased ⟨h, by omega⟩, Process.unlock_erased]
  · rw [Process.unlock_erased]

theorem adopts_erased {n : NodeInfo} (h : ∃ k, p.node.Alive k) (log : List Event) :
  Adopts (p.node.erased entered log) n ↔ Adopts p.node n
  := by
  rw [Adopts, Adopts, NodeSelf.firstSucc_erased h, NodeSelf.erased_self]

/-- With an entry in use before and after the adoption, a successor's predecessor is dealt
with no matter what memory holds. -/
theorem nodeStabilizeSpFound_erased {n : NodeInfo} (hbefore : ∃ k, p.node.Alive k)
    (hafter : ∃ k, (adopted p.node n).Alive k) :
  nodeStabilizeSpFound (p.erased entered) n = (nodeStabilizeSpFound p n).erased entered
  := by
  have hadopt : adoptSucc (p.erased entered) n = (adoptSucc p n).erased entered := by
    rw [adoptSucc, adoptSucc]
    simp only [Process.lock_erased, Process.erased_node, NodeSelf.nodeFirstAliveSucc_erased,
      Process.touch_erased, Process.setSucc_erased, adopts_erased hbefore]
    split_ifs
    · rfl
    · rw [Process.unlock_erased]
    · rw [Process.unlock_erased]
  rw [nodeStabilizeSpFound_parts, nodeStabilizeSpFound_parts, hadopt]
  rw [← (adoptSucc_eq p n).1] at hafter
  generalize adoptSucc p n = q at hafter
  rw [notifyFirstSucc, notifyFirstSucc, Process.lock_erased, Process.erased_node,
    NodeSelf.firstSucc_erased hafter, NodeSelf.nodeFirstAliveSucc_erased, Process.touch_erased,
    nodeNotifyNode_erased, Process.unlock_erased]

/-- The test that a search for `id` stops with at the finger `k`. -/
def NodeSelf.stops (s : NodeSelf) (id : HashType) (k : Fin idBits) : Bool :=
  let n := s.fingerTable k
  k.val > 0 && ((n.IP != 0 && n.port != 0 && n.id != 0) && nodeIdInRange n.id s.self.id id)

/-- Every finger that a search for `id` looks at has been written, or is null. -/
def SearchWritten (p : NodeProcess) (id : HashType) : Prop :=
  p.node.nofinger = true ∨ ∀ k, 0 < k.val → (∀ j > k, p.node.stops id j = false) →
    FingerWritten p.log k ∨ NullFinger (p.node.fingerTable k)

theorem closestFinger_eq {s : NodeSelf} (hbuilt : s.nofinger = false) (id : HashType) :
  closestFinger s id = (Fin.findRev? (s.stops id)).map s.fingerTable
  := by
  unfold closestFinger
  rw [hbuilt, if_neg Bool.false_ne_true]
  rfl

/-- A search does not look at the finger `0`. -/
theorem stops_of_not_pos {k : Fin idBits} (hk : ¬ 0 < k.val) (s : NodeSelf) (id : HashType) :
  s.stops id k = false
  := by
  simp only [NodeSelf.stops, gt_iff_lt, hk, decide_false, Bool.false_and]

/-- A search does not stop at a null finger. -/
theorem stops_of_null {s : NodeSelf} {k : Fin idBits} (h : NullFinger (s.fingerTable k))
    (id : HashType) :
  s.stops id k = false
  := by
  rcases h with h | h | h <;> simp [NodeSelf.stops, h]

/-- A search from the top depends on what it looks at only. -/
theorem findRev?_congr {n : ℕ} {f g : Fin n → Bool}
    (h : ∀ k, (∀ j > k, f j = false) → g k = f k) :
  Fin.findRev? g = Fin.findRev? f
  := by
  cases hf : Fin.findRev? f with
  | none =>
    have hnone := Fin.findRev?_eq_none_iff.mp hf
    apply Fin.findRev?_eq_none_iff.mpr
    intro k
    rw [h k fun j _ => hnone j]
    exact hnone k
  | some i =>
    obtain ⟨hi, habove⟩ := Fin.findRev?_eq_some_iff.mp hf
    apply Fin.findRev?_eq_some_iff.mpr
    constructor
    · rw [h i habove]
      exact hi
    · intro k hk
      rw [h k fun j hj => habove j (lt_trans hk hj)]
      exact habove k hk

/-- A search that looks at what has been written finds the same finger in the erased
state. -/
theorem closestFinger_erased {id : HashType} (h : SearchWritten p id) :
  closestFinger (p.node.erased entered p.log) id = closestFinger p.node id
  := by
  cases hbuilt : p.node.nofinger with
  | true =>
    unfold closestFinger
    simp [hbuilt]
  | false =>
    have hwritten := h.resolve_left (by simp [hbuilt])
    have hstops : ∀ k, (∀ j > k, p.node.stops id j = false) →
        (p.node.erased entered p.log).stops id k = p.node.stops id k := by
      intro k habove
      by_cases hk : 0 < k.val
      · by_cases hfinger : FingerWritten p.log k
        · simp only [NodeSelf.stops, NodeSelf.erased, if_pos hfinger]
        · have hnull := (hwritten k hk habove).resolve_left hfinger
          have hnull' : NullFinger ((p.node.erased entered p.log).fingerTable k) := by
            left
            simp [NodeSelf.erased, if_neg hfinger, nullNode]
          rw [stops_of_null hnull, stops_of_null hnull']
      · rw [stops_of_not_pos hk, stops_of_not_pos hk]
    have hbuilt' : (p.node.erased entered p.log).nofinger = false := hbuilt
    rw [closestFinger_eq hbuilt', closestFinger_eq hbuilt, findRev?_congr hstops]
    cases hfind : Fin.findRev? (p.node.stops id) with
    | none => rfl
    | some k =>
      obtain ⟨hk, habove⟩ := Fin.findRev?_eq_some_iff.mp hfind
      have hfinger : FingerWritten p.log k := by
        have hpos : 0 < k.val := by
          by_contra hzero
          rw [stops_of_not_pos hzero] at hk
          cases hk
        apply (hwritten k hpos habove).resolve_right
        intro hnull
        rw [stops_of_null hnull] at hk
        cases hk
      simp only [Option.map_some, NodeSelf.erased, if_pos hfinger]

/-- What a lookup of `id` for `cb` reads has been written: an entry of the successor array is in
use, and the finger table is searched for a node to ask only when what the search looks at has
been written. In a lookup of the node's own identifier the callback is called again, and its
argument is not to be freed by then. -/
structure LookupWritten (p : NodeProcess) (id : HashType) (cb : FoundCb) : Prop where
  alive : ∃ k, p.node.Alive k
  search : p.node.Answers id ∨ SearchWritten p id
  arg : p.node.self.id = id → cb.called = cb

/-- What a callback reads that a node is handed to has been written, and not been freed. -/
def FoundWritten (s : NodeSelf) (cb : FoundCb) (n : NodeInfo) : Prop :=
  match cb with
  | .stabilizeSpFound => (∃ k, s.Alive k) ∧ ∃ k, (adopted s n).Alive k
  | .updateSuccsFound succNum => 0 ≤ succNum
  | .freed => False
  | _ => True

/-- A finger is written, and is the same then in the erased process. -/
theorem fingerUpdate_erased (n : NodeInfo) (hops : Int16) (k : Fin idBits) :
  fingerUpdate ((p.erased entered).emit (.found (.fingerUpdate k) n 0)) n k
    = (fingerUpdate (p.emit (.found (.fingerUpdate k) n hops)) n k).erased entered
  := by
  have htable (entry : NodeInfo) :
      Function.update (p.node.erased entered p.log).fingerTable k entry
        = fun j => if FingerWritten (p.log ++ [.found (.fingerUpdate k) n hops]) j then
            Function.update p.node.fingerTable k entry j
          else nullNode := by
    funext j
    rw [ite_cond_congr (propext (fingerWritten_append j))]
    by_cases hj : j = k
    · subst hj
      simp [Event.writesFinger]
    · have hplain : Event.writesFinger j (.found (.fingerUpdate k) n hops) = false := by
        simpa [Event.writesFinger] using Ne.symm hj
      simp [NodeSelf.erased, Function.update_of_ne hj, hplain]
  have hhandler : HandlerWritten (p.log ++ [.found (.fingerUpdate k) n hops])
      ↔ HandlerWritten p.log := by
    rw [handlerWritten_append]
    simp [Event.writesHandler]
  rw [fingerUpdate, fingerUpdate]
  simp only [Process.emit_node, Process.erased_node, NodeSelf.erased_self, htable]
  simp only [Process.emit, Process.erased, NodeSelf.erased, List.map_append, List.map_cons,
    List.map_nil, hhandler]
  rfl

/-- A node is handed to its callback, with the hops that the callback looks at. -/
theorem nodeFound_erased {cb : FoundCb} {n : NodeInfo} (h : FoundWritten p.node cb n)
    (hops : Int16) :
  nodeFound (p.erased entered)
      { cb := cb, node := n, hops := if cb.readsHops then hops else 0 }
    = (nodeFound p { cb := cb, node := n, hops := hops }).erased entered
  := by
  have hemit : (Event.found cb n hops).Plain →
      (p.erased entered).emit (.found cb n (if cb.readsHops then hops else 0))
        = (p.emit (.found cb n hops)).erased entered :=
    Process.emit_erased entered p
  rw [nodeFound, nodeFound]
  dsimp only
  cases cb with
  | networkJoinSuccFound arg =>
    rw [hemit ⟨fun _ => rfl, rfl⟩]
    exact nodeNetworkJoinSuccFound_erased arg n
  | stabilizeSpFound =>
    rw [hemit ⟨fun _ => rfl, rfl⟩]
    exact nodeStabilizeSpFound_erased h.1 h.2
  | updateSuccsFound succNum =>
    rw [hemit ⟨fun _ => rfl, rfl⟩]
    exact nodeUpdateSuccsFound_erased n h
  | fingerUpdate k => exact fingerUpdate_erased n hops k
  | successorFoundForRemote d =>
    rw [hemit ⟨fun _ => rfl, rfl⟩]
    exact nodeSuccessorFoundForRemote_erased d n hops
  | app arg => exact hemit ⟨fun _ => rfl, rfl⟩
  | freed => exact absurd h not_false

/-- The callbacks of a lookup read nothing. -/
theorem FoundCb.Passive.foundWritten {cb : FoundCb} (h : cb.Passive) (hcb : cb ≠ .freed)
    (s : NodeSelf) (n : NodeInfo) :
  FoundWritten s cb n
  := by
  cases cb with
  | networkJoinSuccFound arg => trivial
  | stabilizeSpFound => exact absurd h not_false
  | updateSuccsFound k => exact absurd h not_false
  | fingerUpdate k => trivial
  | successorFoundForRemote d => trivial
  | app arg => trivial
  | freed => exact absurd rfl hcb

/-- The answer of a lookup is handed to its callback. -/
theorem nodeFound_passive_erased {cb : FoundCb} (hcb : cb.Passive) (hfreed : cb ≠ .freed)
    (n : NodeInfo) :
  nodeFound (p.erased entered) { cb := cb, node := n, hops := 0 }
    = (nodeFound p { cb := cb, node := n, hops := 0 }).erased entered
  := by
  rw [← nodeFound_erased (hcb.foundWritten hfreed p.node n) 0, ite_self]

theorem answers_erased (h : ∃ k, p.node.Alive k) (log : List Event) (id : HashType) :
  (p.node.erased entered log).Answers id ↔ p.node.Answers id
  := by
  rw [NodeSelf.Answers, NodeSelf.Answers, NodeSelf.firstSucc_erased h, NodeSelf.erased_self]

theorem nodeClosestPrecedingNode_erased (halive : ∃ k, p.node.Alive k) {id : HashType}
    (h : SearchWritten p id) :
  nodeClosestPrecedingNode (p.node.erased entered p.log) id = nodeClosestPrecedingNode p.node id
  := by
  rw [nodeClosestPrecedingNode, nodeClosestPrecedingNode, closestFinger_erased h,
    NodeSelf.firstSucc_erased halive]

/-- A lookup is answered or passed on no matter what memory holds. -/
theorem nodeFindSuccessor_erased {cb : FoundCb} (hcb : cb.Passive) (hfreed : cb ≠ .freed)
    {i : HashType} (h : LookupWritten p i cb) :
  nodeFindSuccessor (p.erased entered) i cb
    = Prod.map id (Process.erased entered) (nodeFindSuccessor p i cb)
  := by
  obtain ⟨halive, hsearch, hcalled⟩ := h
  by_cases heq : p.node.self.id = i
  · have heq' : (p.erased entered).node.self.id = i := heq
    rw [nodeFindSuccessor_self cb heq, nodeFindSuccessor_self cb heq', hcalled heq]
    have halive' :
        ∃ k, (nodeFound p { cb := cb, node := p.node.self, hops := 0 }).node.Alive k := by
      obtain ⟨k, hk⟩ := halive
      refine ⟨k, ?_⟩
      rw [NodeSelf.Alive, nodeFound_successor hcb]
      exact hk
    rw [Process.erased_node, NodeSelf.erased_self, nodeFound_passive_erased hcb hfreed]
    generalize nodeFound p { cb := cb, node := p.node.self, hops := 0 } = q at halive'
    rw [Process.erased_node, NodeSelf.firstSucc_erased halive', NodeSelf.nodeFirstAliveSucc_erased,
      Process.touch_erased, nodeFound_passive_erased hcb hfreed, Process.unlock_erased]
    rfl
  · have heq' : (p.erased entered).node.self.id ≠ i := heq
    by_cases hans : p.node.Answers i
    · have hans' : (p.erased entered).node.Answers i := (answers_erased halive p.log i).mpr hans
      rw [nodeFindSuccessor_answer cb heq hans, nodeFindSuccessor_answer cb heq' hans',
        Process.erased_node, NodeSelf.firstSucc_erased halive, NodeSelf.nodeFirstAliveSucc_erased,
        Process.lock_erased, Process.touch_erased, nodeFound_passive_erased hcb hfreed,
        Process.unlock_erased]
      rfl
    · have hans' : ¬ (p.erased entered).node.Answers i :=
        fun h => hans ((answers_erased halive p.log i).mp h)
      have hsearch := hsearch.resolve_left hans
      rw [nodeFindSuccessor_forward_eq cb heq hans, nodeFindSuccessor_forward_eq cb heq' hans']
      simp only [Process.erased_node, closestFinger_erased hsearch,
        nodeClosestPrecedingNode_erased halive hsearch, NodeSelf.nodeFirstAliveSucc_erased,
        Process.lock_erased, Process.touch_erased, Process.unlock_erased]
      rw [← nodeFindSuccessorRemote_erased, apply_ite (Process.erased entered)]

/-! ### Timers -/

theorem nodeNetworkStabalize_erased (halive : ∃ k, p.node.Alive k) :
  nodeNetworkStabalize (p.erased entered) = (nodeNetworkStabalize p).erased entered
  := by
  have hparts (q : NodeProcess) : nodeNetworkStabalize q
      = nodeGetPredecessorRemote (q.touch (nodeFirstAliveSucc q.node)) q.node.firstSucc
        .stabilizeSpFound := rfl
  rw [hparts, hparts, Process.erased_node, NodeSelf.firstSucc_erased halive,
    NodeSelf.nodeFirstAliveSucc_erased, Process.touch_erased, nodeGetPredecessorRemote_erased]

theorem nodeUpdateSuccs_erased (halive : ∃ k, p.node.Alive k) :
  nodeUpdateSuccs (p.erased entered) = (nodeUpdateSuccs p).erased entered
  := by
  rw [nodeUpdateSuccs, nodeUpdateSuccs, Process.lock_erased, Process.erased_node,
    NodeSelf.nodeFirstAliveSucc_erased, nodeUpdateSucc_erased, Process.unlock_erased]
  exact nodeFirstAliveSucc_inBounds halive

/-- What the lookup for the finger `fnum` reads has been written. -/
def FixAFingerWritten (p : NodeProcess) (fnum : ℕ) : Prop :=
  ∀ h : fnum < idBits, fnum ≠ 0 →
    LookupWritten p (p.node.self.id + (twoToTheN (fnum - 1)).toNat.toUInt32)
      (.fingerUpdate ⟨fnum, h⟩)

/-- What the lookups for all fingers read has been written when it is their turn. -/
def FixFingersWritten (p : NodeProcess) : Prop :=
  ∀ fnum < idBits,
    FixAFingerWritten ((List.range fnum).foldl (fun p (k : ℕ) => nodeFixAFinger p k) p) fnum

theorem nodeFixAFinger_erased {fnum : ℕ} (h : FixAFingerWritten p fnum) :
  nodeFixAFinger (p.erased entered) fnum = (nodeFixAFinger p fnum).erased entered
  := by
  rw [nodeFixAFinger, nodeFixAFinger]
  split_ifs with hrange
  · rfl
  · have hne : fnum ≠ 0 := by omega
    have hlt : fnum < idBits := by omega
    have hcb : (FoundCb.fingerUpdate ⟨fnum, hlt⟩).Passive := trivial
    exact congrArg Prod.snd (nodeFindSuccessor_erased hcb (by simp) (h hlt hne))

/-- The fingers are looked up one after another. -/
theorem nodeFixFingers_erased (h : FixFingersWritten p) :
  nodeFixFingers (p.erased entered) = (nodeFixFingers p).erased entered
  := by
  have hrange : ∀ n ≤ idBits,
      (List.range n).foldl (fun p (k : ℕ) => nodeFixAFinger p k) (p.erased entered)
        = ((List.range n).foldl (fun p (k : ℕ) => nodeFixAFinger p k) p).erased entered := by
    intro n hn
    induction n with
    | zero => rfl
    | succ n ih =>
      rw [List.range_succ, List.foldl_append, List.foldl_append, ih (by omega)]
      exact nodeFixAFinger_erased (h n (by omega))
  exact hrange idBits (le_refl _)

theorem nodeCheckSuccessors_erased :
  nodeCheckSuccessors (p.erased entered) = (nodeCheckSuccessors p).erased entered
  := by
  rw [nodeCheckSuccessors, nodeCheckSuccessors]
  induction List.finRange numOfSuccs generalizing p with
  | nil => rfl
  | cons k ks ih =>
    rw [List.foldl_cons, List.foldl_cons, ← ih]
    congr 1
    simp only [Process.touch_erased, Process.erased_node, NodeSelf.erased_successor,
      nodeCheckNode_erased]
    split_ifs
    · rfl
    · rfl

theorem nodeCheckPredecessor_erased :
  nodeCheckPredecessor (p.erased true) = (nodeCheckPredecessor p).erased true
  := by
  rw [nodeCheckPredecessor, nodeCheckPredecessor, Process.erased_node, NodeSelf.erased_hasPred,
    NodeSelf.erased_predecessor, nodeCheckNode_erased]
  split_ifs
  · rfl
  · rfl

/-- The handler for messages is written. -/
theorem nodeSetNodeMsgHandler_erased (nodeMsgCb cbArg : ℕ) :
  nodeSetNodeMsgHandler (p.erased entered) nodeMsgCb cbArg
    = (nodeSetNodeMsgHandler p nodeMsgCb cbArg).erased entered
  := by
  have hfinger : ∀ k, FingerWritten (p.log ++ [.nodeMsgHandler nodeMsgCb cbArg]) k
      ↔ FingerWritten p.log k := by
    intro k
    rw [fingerWritten_append]
    simp [Event.writesFinger]
  have hhandler : HandlerWritten (p.log ++ [.nodeMsgHandler nodeMsgCb cbArg]) := by
    rw [handlerWritten_append]
    exact Or.inr rfl
  simp only [nodeSetNodeMsgHandler, Process.emit, Process.erased, NodeSelf.erased,
    List.map_append, List.map_cons, List.map_nil, hfinger, hhandler, if_true]
  rfl

theorem nodeCheckResult_erased (cb : CheckCb) (success : Bool) :
  nodeCheckResult (p.erased entered) cb success = (nodeCheckResult p cb success).erased entered
  := by
  have hemit := Process.emit_erased entered p (e := .checked cb success) ⟨fun _ => rfl, rfl⟩
  cases cb with
  | predResult =>
    cases success with
    | true => exact hemit
    | false =>
      have hnode := congrArg (fun q : NodeProcess => { q with
        node := { q.node with hasPred := false, predecessor := nullNode } }) hemit
      cases entered with
      | true => exact hnode
      | false => exact hnode
  | succResult sn =>
    cases success with
    | true => exact hemit
    | false =>
      have hset := congrArg (fun q : NodeProcess => q.setSucc sn nullNode) hemit
      exact hset.trans (Process.setSucc_erased sn nullNode)

/-! ### Entering a network -/

/-- What a node reads that tells that it is in a network has been written. -/
def JoinedWritten (p : NodeProcess) (joinedCbArg : ℕ) : Prop :=
  (∃ k, p.node.Alive k)
    ∧ FixFingersWritten (nodeUpdateSuccs (nodeNetworkStabalize (p.emit (.joined joinedCbArg))))

theorem nodeNetworkJoined_erased {joinedCbArg : ℕ} (h : JoinedWritten p joinedCbArg) :
  nodeNetworkJoined (p.erased entered) joinedCbArg
    = (nodeNetworkJoined p joinedCbArg).erased entered
  := by
  obtain ⟨halive, hfix⟩ := h
  have hemit : (p.erased entered).emit (.joined joinedCbArg)
      = (p.emit (.joined joinedCbArg)).erased entered :=
    Process.emit_erased entered p (e := .joined joinedCbArg) ⟨fun _ => rfl, rfl⟩
  have halive' : ∃ k, (p.emit (.joined joinedCbArg)).node.Alive k := halive
  rw [nodeNetworkJoined, nodeNetworkJoined, hemit]
  generalize p.emit (.joined joinedCbArg) = q at hfix halive'
  have hstab : ∃ k, (nodeNetworkStabalize q).node.Alive k := halive'
  rw [nodeNetworkStabalize_erased halive', nodeUpdateSuccs_erased hstab,
    nodeFixFingers_erased hfix]

/-- A node that creates a network has a predecessor then, whatever it had before. -/
theorem nodeNetworkCreate_erased (joinedCbArg : ℕ) :
  (nodeNetworkCreate (p.erased entered) joinedCbArg).2
    = (nodeNetworkCreate p joinedCbArg).2.erased true
  := by
  have hset : (p.erased entered).setSucc 0 p.node.self = (p.setSucc 0 p.node.self).erased entered :=
    Process.setSucc_erased 0 p.node.self
  have hparts (q : NodeProcess) : (nodeNetworkCreate q joinedCbArg).2
      = activateJoined { q.setSucc 0 q.node.self with
          node := { (q.setSucc 0 q.node.self).node with
            predecessor := (q.setSucc 0 q.node.self).node.self, hasPred := true } }
        joinedCbArg := by
    rw [nodeNetworkCreate, activateJoined]
    exact apply_ite Prod.snd _ _ _
  rw [hparts, hparts, Process.erased_node, NodeSelf.erased_self, hset]
  generalize p.setSucc 0 p.node.self = q
  have hpred : { q.erased entered with
        node := { (q.erased entered).node with
          predecessor := (q.erased entered).node.self, hasPred := true } }
      = ({ q with node := { q.node with predecessor := q.node.self, hasPred := true } } :
          NodeProcess).erased true := rfl
  exact (congrArg (fun r => activateJoined r joinedCbArg) hpred).trans
    (activateJoined_erased joinedCbArg)

/-- A node that joins a network has no predecessor then, whatever it had before. -/
theorem nodeNetworkJoin_erased (n : NodeInfo) (joinedCbArg : ℕ) :
  nodeNetworkJoin (p.erased entered) n joinedCbArg = (nodeNetworkJoin p n joinedCbArg).erased true
  := by
  have hpred : { p.erased entered with
        node := { (p.erased entered).node with hasPred := false } }
      = ({ p with node := { p.node with hasPred := false } } : NodeProcess).erased true := rfl
  rw [nodeNetworkJoin, nodeNetworkJoin, hpred, nodeFindSuccessorRemote_erased]
  rfl

end
