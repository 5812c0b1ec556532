import LibDht.Node.Locking
import LibDht.Node.Mirror

/-!
# Sending what an operation sends

An operation of a node, run over a network, does to the node what it does over an empty
`Outbox`, and to the network what it does to it to send the messages in the `Outbox` one
after another. So all that an operation does can be read off what it does over messages,
whatever the network is and whatever goes wrong in it. The lookups that the application
starts in its callbacks are part of the operation.
-/

section

variable {ν : Type} [Remote ν]

/-- The calls to the network look at no more of the node than its own entry. -/
structure SelfOnly (ν : Type) [Remote ν] : Prop where
  findSuccessorRemote : ∀ (net : ν) {s s' : NodeSelf}, s.self = s'.self →
    ∀ (n : NodeInfo) (id : HashType) (cb : FoundCb),
      Remote.findSuccessorRemote net s n id cb = Remote.findSuccessorRemote net s' n id cb
  getPredecessorRemote : ∀ (net : ν) {s s' : NodeSelf}, s.self = s'.self →
    ∀ (n : NodeInfo) (cb : FoundCb),
      Remote.getPredecessorRemote net s n cb = Remote.getPredecessorRemote net s' n cb
  notifyNode : ∀ (net : ν) {s s' : NodeSelf}, s.self = s'.self →
    ∀ n : NodeInfo, Remote.notifyNode net s n = Remote.notifyNode net s' n
  checkNode : ∀ (net : ν) {s s' : NodeSelf}, s.self = s'.self →
    ∀ (n : NodeInfo) (cb : CheckCb),
      Remote.checkNode net s n cb = Remote.checkNode net s' n cb

/-- The node `s` sends a message. A notification carries the identifier and the port of the
node; the hops of an answer count the one that the network adds. -/
def Sent.send (s : NodeSelf) (net : ν) : Sent → ν
  | .findSuccessor dest id cb => (Remote.findSuccessorRemote net s dest id cb).2
  | .predecessor dest cb => Remote.getPredecessorRemote net s dest cb
  | .notify dest id port =>
    Remote.notifyNode net { s with self := { s.self with id := id, port := port } } dest
  | .alive dest cb => Remote.checkNode net s dest cb
  | .reply data node hops => Remote.successorFoundForRemote net data node (hops - 1)
  | .useFreed => Remote.useFreed net

/-- The node `s` sends messages, one after another. -/
def sendAll (s : NodeSelf) (net : ν) (sent : List Sent) : ν :=
  sent.foldl (Sent.send s) net

theorem sendAll_append (s : NodeSelf) (net : ν) (l l' : List Sent) :
  sendAll s net (l ++ l') = sendAll s (sendAll s net l) l'
  := List.foldl_append

/-- A network to which is done what an `Outbox` holds goes on to be one. -/
theorem SelfOnly.mirrors (h : SelfOnly ν) (s : NodeSelf) (net : ν) :
  Mirrors s.self (fun (x : ν) (o : Outbox) => x = sendAll s net o.sent)
  := by
  constructor
  · intro x o hx s' hs n id cb
    rw [hx, h.findSuccessorRemote _ hs]
    symm
    apply sendAll_append
  · intro x o hx s' hs n cb
    rw [hx, h.getPredecessorRemote _ hs]
    symm
    apply sendAll_append
  · intro x o hx s' hs n
    have hlast : Remote.notifyNode (sendAll s net o.sent) s n
        = sendAll s (sendAll s net o.sent) [.notify n s.self.id s.self.port] := rfl
    rw [hx, h.notifyNode _ hs, hlast, ← hs]
    symm
    apply sendAll_append
  · intro x o hx s' hs n cb
    rw [hx, h.checkNode _ hs]
    symm
    apply sendAll_append
  · intro x o hx data n hops
    have hlast : Remote.successorFoundForRemote (sendAll s net o.sent) data n hops
        = sendAll s (sendAll s net o.sent) [.reply data n (hops + 1)] := by
      change _ = Remote.successorFoundForRemote _ data n (hops + 1 - 1)
      rw [Int16.add_sub_cancel]
    rw [hx, hlast]
    symm
    apply sendAll_append
  · intro x o hx
    rw [hx]
    symm
    apply sendAll_append

/-- A process, and the same node with nothing sent. -/
theorem like_idle (p : Process ν) :
  Like p.node.self (fun (x : ν) (o : Outbox) => x = sendAll p.node p.net o.sent) p (idle p.node)
  := ⟨rfl, rfl, rfl⟩

end

/-! ### Operations -/

section

variable {ν μ : Type} [Remote ν] [Remote μ] {me : NodeInfo} {R : ν → μ → Prop}
  {p : Process ν} {q : Process μ}

/-- The lookups that an application starts, when they depend on the node alone and on what is
handed to the callback. -/
def appOf {ν : Type} (starts : NodeSelf → ℕ → NodeInfo → Int16 → List (HashType × ℕ)) : App ν :=
  fun p => starts p.node

variable (starts : NodeSelf → ℕ → NodeInfo → Int16 → List (HashType × ℕ))

/-- What the callbacks of an application do keeps two processes alike. -/
theorem nodeFoundWith_like (hR : Mirrors me R) (depth : ℕ) (h : Like me R p q)
    (data : NodeFoundCbData) :
  Like me R (nodeFoundWith (appOf starts) depth p data) (nodeFoundWith (appOf starts) depth q data)
  := by
  -- the induction is on the depth to which callbacks are called within callbacks
  induction depth generalizing p q data with
  | zero => exact nodeFound_like hR h data
  | succ depth ih =>
    have hcalls : callsOf (appOf starts) (depth + 1) q data
        = callsOf (appOf starts) (depth + 1) p data := by
      unfold callsOf
      split
      · rw [appOf, appOf, h.node]
      · rfl
    rw [nodeFoundWith, nodeFoundWith, hcalls]
    have hfound := nodeFound_like hR h data
    generalize callsOf (appOf starts) (depth + 1) p data = calls
    generalize nodeFound p data = p' at hfound ⊢
    generalize nodeFound q data = q' at hfound ⊢
    induction calls generalizing p' q' with
    | nil => apply hfound
    | cons call calls ih' =>
      apply ih'
      exact nodeFindSuccessorWith_like hR (fun data h => ih h data) hfound call.1 (.app call.2)

omit [Remote ν] [Remote μ] in
theorem nodeCheckResult_like (h : Like me R p q) (cb : CheckCb) (success : Bool) :
  Like me R (nodeCheckResult p cb success) (nodeCheckResult q cb success)
  := by
  have hemit := h.emit (.checked cb success) (.checked cb success)
  unfold nodeCheckResult
  dsimp only
  split
  · apply Like.ite Iff.rfl _ hemit
    rw [Process.emit_node, Process.emit_node, h.node]
    apply hemit.setNode
    apply h.own
  · apply Like.ite Iff.rfl _ hemit
    apply hemit.setSucc

/-- Every operation keeps two processes alike. -/
theorem Operation.run_like (hR : Mirrors me R) (depth : ℕ) (h : Like me R p q) (o : Operation) :
  Like me R (o.run (appOf starts) depth p) (o.run (appOf starts) depth q)
  := by
  cases o with
  | findSuccessor id arg =>
    exact nodeFindSuccessorWith_like hR (fun data h => nodeFoundWith_like starts hR depth h data) h
      id _
  | succRequest id data =>
    exact nodeFindSuccessorWith_like hR (fun data h => nodeFoundWith_like starts hR depth h data) h
      id _
  | found data => exact nodeFoundWith_like starts hR depth h data
  | checked cb success => exact nodeCheckResult_like h cb success
  | stabalize => exact nodeNetworkStabalize_like hR h
  | updateSuccs => exact nodeUpdateSuccs_like hR h
  | fixFingers => exact nodeFixFingers_like hR h
  | checkSuccessors => exact nodeCheckSuccessors_like hR h
  | checkPredecessor => exact nodeCheckPredecessor_like hR h
  | joined arg => exact nodeNetworkJoined_like hR h arg
  | networkCreate arg => exact nodeNetworkCreate_like h arg
  | networkJoin node arg => exact nodeNetworkJoin_like hR h node arg

/-- An operation over any network, with the lookups that the application starts in its
callbacks: the node is in the state that it comes to over an empty `Outbox`, and to the network
is done what sending the messages does that are in the `Outbox` then. -/
theorem Operation.run_eq_sendAll (hν : SelfOnly ν) (depth : ℕ) (p : Process ν) (o : Operation) :
  let q := o.run (appOf starts) depth (idle p.node)
  (o.run (appOf starts) depth p).node = q.node
    ∧ (o.run (appOf starts) depth p).net = sendAll p.node p.net q.net.sent
  := by
  have hlike := o.run_like starts (hν.mirrors p.node p.net) depth (like_idle p)
  exact ⟨hlike.node.symm, hlike.net⟩

end
