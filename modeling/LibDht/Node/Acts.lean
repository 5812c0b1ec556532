import LibDht.Node.Lookup

/-!
# What the operations of a node may do

An operation of a node reaches the network through the calls of `Remote` only, and adds to
the log. `Calls ok` relates two networks when the second comes from the first by such
calls, with callbacks that satisfy `ok`, and `Acts ok found` relates two processes when an
operation may have brought the first to the second. Every operation is shown to act so, in
the form in which a chain of operations is put together: when what was done so far acts so,
so it does with the operation done after it.
-/

/-- The callback answers a lookup that came in on a connection. -/
def FoundCb.Relays : FoundCb → Prop
  | .successorFoundForRemote _ => True
  | _ => False

theorem FoundCb.not_relays_called (cb : FoundCb) :
  ¬ cb.called.Relays
  := by
  cases cb <;> exact not_false

/-- An event of the operations of a node. That a node is handed to a callback is among them
only when `found` is true. -/
def Event.Internal (found : Bool) : Event → Prop
  | .found .. => found = true
  | .handled .. | .nodeMessage .. | .replyRead .. => False
  | _ => True

section

variable {ν : Type} [Remote ν]

/-- The second network comes from the first by calls whose callbacks satisfy `ok`. -/
inductive Calls (ok : FoundCb → Prop) (net : ν) : ν → Prop where
  | refl : Calls ok net net
  | findSuccessorRemote {net' : ν} (h : Calls ok net net') (self : NodeSelf) (n : NodeInfo)
      (id : HashType) {cb : FoundCb} (hcb : ok cb) :
      Calls ok net (Remote.findSuccessorRemote net' self n id cb).2
  | getPredecessorRemote {net' : ν} (h : Calls ok net net') (self : NodeSelf) (n : NodeInfo)
      {cb : FoundCb} (hcb : ok cb) : Calls ok net (Remote.getPredecessorRemote net' self n cb)
  | notifyNode {net' : ν} (h : Calls ok net net') (self : NodeSelf) (n : NodeInfo) :
      Calls ok net (Remote.notifyNode net' self n)
  | checkNode {net' : ν} (h : Calls ok net net') (self : NodeSelf) (n : NodeInfo) (cb : CheckCb) :
      Calls ok net (Remote.checkNode net' self n cb)
  | successorFoundForRemote {net' : ν} (h : Calls ok net net') (data : IncomingHandlerData)
      (n : NodeInfo) (hops : Int16) :
      Calls ok net (Remote.successorFoundForRemote net' data n hops)
  | useFreed {net' : ν} (h : Calls ok net net') : Calls ok net (Remote.useFreed net')

/-- An operation of a node may have brought `p` to `q`. -/
structure Acts (ok : FoundCb → Prop) (found : Bool) (p q : Process ν) : Prop where
  calls : Calls ok p.net q.net
  log : ∃ es, q.log = p.log ++ es ∧ ∀ e ∈ es, e.Internal found

namespace Acts

variable {ok : FoundCb → Prop} {found : Bool} {p q : Process ν}

@[refl]
theorem refl (p : Process ν) :
  Acts ok found p p
  := ⟨Calls.refl, [], by simp, by simp⟩

/-- One event more, and nothing done to the network. -/
theorem then_event (h : Acts ok found p q) {q' : Process ν} (hnet : q'.net = q.net) {e : Event}
    (hlog : q'.log = q.log ++ [e]) (he : e.Internal found) :
  Acts ok found p q'
  := by
  obtain ⟨es, hes, hint⟩ := h.log
  refine ⟨hnet ▸ h.calls, es ++ [e], ?_, ?_⟩
  · rw [hlog, hes, List.append_assoc]
  · intro e' he'
    rcases List.mem_append.mp he' with he' | he'
    · exact hint e' he'
    · obtain rfl := List.mem_singleton.mp he'
      exact he

/-- One call more, and nothing in the log. -/
theorem then_call (h : Acts ok found p q) {q' : Process ν} (hnet : Calls ok p.net q'.net)
    (hlog : q'.log = q.log) :
  Acts ok found p q'
  := by
  refine ⟨hnet, ?_⟩
  rw [hlog]
  exact h.log

theorem emit (h : Acts ok found p q) {e : Event} (he : e.Internal found) :
  Acts ok found p (q.emit e)
  := h.then_event rfl rfl he

theorem lock (h : Acts ok found p q) :
  Acts ok found p q.lock
  := h.then_event (e := .lock q.succsLock) rfl rfl trivial

theorem unlock (h : Acts ok found p q) :
  Acts ok found p q.unlock
  := h.then_event (e := .unlock q.succsLock) rfl rfl trivial

theorem touch (h : Acts ok found p q) (i : ℤ) :
  Acts ok found p (q.touch i)
  := h.then_event (e := .succIndex i) rfl rfl trivial

theorem setSucc (h : Acts ok found p q) (i : ℤ) (n : NodeInfo) :
  Acts ok found p (q.setSucc i n)
  := h.then_event (e := .succIndex i) rfl rfl trivial

/-- The state of the node may change in any way. -/
theorem setNode (h : Acts ok found p q) (s : NodeSelf) :
  Acts ok found p { q with node := s }
  := h.then_call h.calls rfl

end Acts

variable {ok : FoundCb → Prop} {found : Bool} {p q : Process ν}

/-! ### Requests and replies -/

theorem nodeFindSuccessorRemote_acts (h : Acts ok found p q) (n : NodeInfo) (id : HashType)
    {cb : FoundCb} (hcb : ok cb) :
  Acts ok found p (nodeFindSuccessorRemote q n id cb).2
  := by
  have hasked := h.emit (e := .asked cb (Remote.findSuccessorRemote q.net q.node n id cb).1) trivial
  exact hasked.then_call (Calls.findSuccessorRemote h.calls q.node n id hcb) rfl

theorem nodeGetPredecessorRemote_acts (h : Acts ok found p q) (n : NodeInfo) {cb : FoundCb}
    (hcb : ok cb) :
  Acts ok found p (nodeGetPredecessorRemote q n cb)
  := by
  have hasked := h.emit (e := .asked cb 0) trivial
  exact hasked.then_call (Calls.getPredecessorRemote h.calls q.node n hcb) rfl

theorem nodeNotifyNode_acts (h : Acts ok found p q) (n : NodeInfo) :
  Acts ok found p (nodeNotifyNode q n)
  := h.then_call (Calls.notifyNode h.calls q.node n) rfl

theorem nodeCheckNode_acts (h : Acts ok found p q) (n : NodeInfo) (cb : CheckCb) :
  Acts ok found p (nodeCheckNode q n cb)
  := by
  have hprobed := h.emit (e := .probed cb) trivial
  exact hprobed.then_call (Calls.checkNode h.calls q.node n cb) rfl

/-! ### Callbacks for a found node -/

theorem nodeNetworkJoinSuccFound_acts (h : Acts ok found p q) (joinedCbArg : ℕ)
    (succ : NodeInfo) :
  Acts ok found p (nodeNetworkJoinSuccFound q joinedCbArg succ)
  := by
  unfold nodeNetworkJoinSuccFound
  dsimp only
  split
  · exact (h.setSucc 0 succ).emit (e := .joinActivated joinedCbArg) trivial
  · exact h.setSucc 0 succ

theorem nodeStabilizeSpFound_acts (h : Acts ok found p q) (newSucc : NodeInfo) :
  Acts ok found p (nodeStabilizeSpFound q newSucc)
  := by
  rw [nodeStabilizeSpFound]
  dsimp only
  apply Acts.unlock
  apply nodeNotifyNode_acts
  apply Acts.touch
  apply Acts.lock
  split
  · exact h
  · apply Acts.unlock
    split
    · exact ((h.lock).touch _).setSucc 0 newSucc
    · exact (h.lock).touch _

theorem nodeUpdateSucc_acts (hok : ∀ cb, ¬ cb.Relays → ok cb) (h : Acts ok found p q)
    (succNum : ℤ) :
  Acts ok found p (nodeUpdateSucc q succNum)
  := by
  unfold nodeUpdateSucc
  dsimp only
  split
  · exact h.touch succNum
  · exact nodeFindSuccessorRemote_acts (h.touch succNum) _ _ (hok _ not_false)

theorem nodeUpdateSuccsFound_acts (hok : ∀ cb, ¬ cb.Relays → ok cb) (h : Acts ok found p q)
    (n : NodeInfo) (succNum : ℤ) :
  Acts ok found p (nodeUpdateSuccsFound q n succNum)
  := by
  unfold nodeUpdateSuccsFound
  dsimp only
  apply Acts.unlock
  split
  · exact nodeUpdateSucc_acts hok (h.lock.setSucc succNum n) succNum
  · exact h.lock.setSucc succNum n

/-- The callback is invoked once, and in it nobody is handed a node. -/
theorem nodeFound_acts_of_emit (hok : ∀ cb, ¬ cb.Relays → ok cb) {data : NodeFoundCbData}
    (h : Acts ok found p (q.emit (.found data.cb data.node data.hops))) :
  Acts ok found p (nodeFound q data)
  := by
  unfold nodeFound
  dsimp only
  split
  · exact nodeNetworkJoinSuccFound_acts h _ _
  · exact nodeStabilizeSpFound_acts h _
  · exact nodeUpdateSuccsFound_acts hok h _ _
  · exact h.setNode _
  · exact h.then_call (Calls.successorFoundForRemote h.calls _ _ _) rfl
  · exact h
  · exact h.then_call (Calls.useFreed h.calls) rfl

theorem nodeFound_acts (hok : ∀ cb, ¬ cb.Relays → ok cb) (h : Acts ok true p q)
    (data : NodeFoundCbData) :
  Acts ok true p (nodeFound q data)
  := nodeFound_acts_of_emit hok (h.emit (e := .found data.cb data.node data.hops) rfl)

/-! ### Finding a successor -/

theorem nodeFindSuccessor_acts (hok : ∀ cb, ¬ cb.Relays → ok cb) (h : Acts ok true p q)
    (id : HashType) {cb : FoundCb} (hcb : ok cb) :
  Acts ok true p (nodeFindSuccessor q id cb).2
  := by
  rw [nodeFindSuccessor]
  dsimp only
  have hfirst : Acts ok true p
      (if nodeIdCompare q.node.self.id id == 0 then
        nodeFound q { cb := cb, node := q.node.self, hops := 0 }
      else q.lock) := by
    split
    · exact nodeFound_acts hok h _
    · exact h.lock
  have hthen : ok (if nodeIdCompare q.node.self.id id == 0 then cb.called else cb) := by
    split
    · rcases cb.called_cases with hcalled | hcalled
      · rw [hcalled]
        exact hok .freed not_false
      · rw [hcalled]
        exact hcb
    · exact hcb
  generalize (if nodeIdCompare q.node.self.id id == 0 then
        nodeFound q { cb := cb, node := q.node.self, hops := 0 }
      else q.lock) = q' at hfirst ⊢
  generalize (if nodeIdCompare q.node.self.id id == 0 then cb.called else cb) = cb' at hthen ⊢
  split
  · exact (nodeFound_acts hok (hfirst.touch _) _).unlock
  · apply nodeFindSuccessorRemote_acts _ _ _ hthen
    split
    · exact ((hfirst.touch _).unlock).touch _
    · exact (hfirst.touch _).unlock

/-! ### What the timers start -/

theorem nodeNetworkStabalize_acts (hok : ∀ cb, ¬ cb.Relays → ok cb) (h : Acts ok found p q) :
  Acts ok found p (nodeNetworkStabalize q)
  := nodeGetPredecessorRemote_acts (h.touch _) _ (hok _ not_false)

theorem nodeUpdateSuccs_acts (hok : ∀ cb, ¬ cb.Relays → ok cb) (h : Acts ok found p q) :
  Acts ok found p (nodeUpdateSuccs q)
  := (nodeUpdateSucc_acts hok h.lock _).unlock

theorem nodeFixAFinger_acts (hok : ∀ cb, ¬ cb.Relays → ok cb) (h : Acts ok true p q)
    (fingerNum : ℤ) :
  Acts ok true p (nodeFixAFinger q fingerNum)
  := by
  rw [nodeFixAFinger]
  split
  · exact h
  · exact nodeFindSuccessor_acts hok h _ (hok _ not_false)

theorem nodeFixFingers_acts (hok : ∀ cb, ¬ cb.Relays → ok cb) (h : Acts ok true p q) :
  Acts ok true p (nodeFixFingers q)
  := by
  rw [nodeFixFingers]
  generalize List.range idBits = fnums
  induction fnums generalizing q with
  | nil => exact h
  | cons fnum fnums ih => exact ih (nodeFixAFinger_acts hok h fnum)

theorem nodeCheckSuccessors_acts (h : Acts ok found p q) :
  Acts ok found p (nodeCheckSuccessors q)
  := by
  rw [nodeCheckSuccessors]
  generalize List.finRange numOfSuccs = is
  induction is generalizing q with
  | nil => exact h
  | cons i is ih =>
    apply ih
    dsimp only
    split
    · exact nodeCheckNode_acts (h.touch _) _ _
    · exact h.touch _

theorem nodeCheckPredecessor_acts (h : Acts ok found p q) :
  Acts ok found p (nodeCheckPredecessor q)
  := by
  rw [nodeCheckPredecessor]
  split
  · exact h
  · exact nodeCheckNode_acts h _ _

theorem nodeCheckResult_acts (h : Acts ok found p q) (cb : CheckCb) (success : Bool) :
  Acts ok found p (nodeCheckResult q cb success)
  := by
  have hchecked := h.emit (e := .checked cb success) trivial
  unfold nodeCheckResult
  dsimp only
  split
  · split
    · exact hchecked.setNode _
    · exact hchecked
  · split
    · exact hchecked.setSucc _ _
    · exact hchecked

theorem nodeSetNodeMsgHandler_acts (h : Acts ok found p q) (nodeMsgCb cbArg : ℕ) :
  Acts ok found p (nodeSetNodeMsgHandler q nodeMsgCb cbArg)
  := (h.emit (e := .nodeMsgHandler nodeMsgCb cbArg) trivial).setNode _

/-! ### Entering a network -/

theorem nodeNetworkJoined_acts (hok : ∀ cb, ¬ cb.Relays → ok cb) (h : Acts ok true p q)
    (joinedCbArg : ℕ) :
  Acts ok true p (nodeNetworkJoined q joinedCbArg)
  := by
  apply nodeFixFingers_acts hok
  apply nodeUpdateSuccs_acts hok
  apply nodeNetworkStabalize_acts hok
  exact h.emit (e := .joined joinedCbArg) trivial

theorem nodeNetworkCreate_acts (h : Acts ok found p q) (joinedCbArg : ℕ) :
  Acts ok found p (nodeNetworkCreate q joinedCbArg).2
  := by
  rw [nodeNetworkCreate]
  dsimp only
  have hself := (h.setSucc 0 q.node.self).setNode
    { (q.setSucc 0 q.node.self).node with predecessor := q.node.self, hasPred := true }
  split
  · exact hself.emit (e := .joinActivated joinedCbArg) trivial
  · exact hself

theorem nodeNetworkJoin_acts (hok : ∀ cb, ¬ cb.Relays → ok cb) (h : Acts ok found p q)
    (node : NodeInfo) (joinedCbArg : ℕ) :
  Acts ok found p (nodeNetworkJoin q node joinedCbArg)
  := nodeFindSuccessorRemote_acts (h.setNode _) node _ (hok _ not_false)

end
